import KasterCti.Renderers.ConfFiles
import Mathlib

/-!
# Changes that wait to be applied

`asterisk-config-validation.ts` with `diffConfFiles` and `dryRunConfFiles`: a preview is compared
with the files of the configuration directory. A preview shows the music on hold behind the queues,
a write puts it into a file of its own, so `queues.conf` differs right after a write.

Results:
1. `pjsip_unchanged`: masking alone makes no difference.
2. `applied_shows_changes`: a change is shown after every write.
-/

namespace KasterCti.Renderers

open Dialplan (Text)

/-! ## Comparing -/

/-- `.replace(/\r\n/g, '\n')`. -/
def normalizeBreaks : List Char → List Char
  | '\r' :: '\n' :: cs => '\n' :: normalizeBreaks cs
  | c :: cs => c :: normalizeBreaks cs
  | [] => []

def normalizeLines (content : String) : List Text := (normalizeBreaks content.toList).splitOn '\n'

def countLines (content : String) : Nat := (normalizeLines content).countP (· ≠ [])

/-- The lines that are not empty and find no equal one in the pool; a line of the pool is found
once. -/
def unmatchedLines (pool : List Text) : List Text → Nat
  | [] => 0
  | line :: lines =>
    if line ∈ pool then unmatchedLines (pool.erase line) lines
    else if line ≠ [] then unmatchedLines pool lines + 1
    else unmatchedLines pool lines

inductive ConfigDiffStatus
  | changed | unchanged | missingCurrent
deriving DecidableEq

structure ConfigDiffSummary where
  fileName : String
  status : ConfigDiffStatus
  addedLines : Nat
  removedLines : Nat

def diffFile (fileName rendered : String) (current : Option String) : ConfigDiffSummary :=
  match current with
  | none => ⟨fileName, .missingCurrent, countLines rendered, 0⟩
  | some current =>
    if normalizeBreaks current.toList = normalizeBreaks rendered.toList then
      ⟨fileName, .unchanged, 0, 0⟩
    else
      ⟨fileName, .changed, unmatchedLines (normalizeLines current) (normalizeLines rendered),
        unmatchedLines (normalizeLines rendered) (normalizeLines current)⟩

def renderedConfFileNames : List ((RenderedConfFiles → String) × String) :=
  [(RenderedConfFiles.pjsip, "pjsip.conf"),
    (RenderedConfFiles.rtp, "rtp.conf"),
    (RenderedConfFiles.extensionsInbound, "extensions_inbound.conf"),
    (RenderedConfFiles.extensionsQueue, "extensions_queue.conf"),
    (RenderedConfFiles.extensionsAgent, "extensions_agent.conf"),
    (RenderedConfFiles.queues, "queues.conf")]

def diffRenderedConfFiles (rendered : RenderedConfFiles) (currentFiles : ConfDir) :
    List ConfigDiffSummary :=
  renderedConfFileNames.map fun item => diffFile item.2 (item.1 rendered) (currentFiles item.2)

structure ConfigDiff where
  diff : List ConfigDiffSummary
  hasChanges : Bool

section
variable (localeCompare : String → String → Int)
  (renderAgentDialplanText : AgentDialplanInput → Render String)

def diffConfFiles (env : ConfEnv) (data : TenantData) (disk : Option ConfDir) :
    Render ConfigDiff := do
  let rendered ← previewConfFiles localeCompare renderAgentDialplanText env data
  let currentFiles : ConfDir := fun fileName =>
    (readCurrentConfFile disk fileName).map maskPjsipSecrets
  let diff := diffRenderedConfFiles rendered currentFiles
  pure ⟨diff, diff.any fun entry => entry.status ≠ .unchanged⟩

/-- The diff of a dry run: what is in the directory is not masked. -/
def dryRunConfFiles (env : ConfEnv) (data : TenantData) (disk : Option ConfDir) :
    Render (List ConfigDiffSummary) := do
  let preview ← previewConfFiles localeCompare renderAgentDialplanText env data
  let currentFiles : ConfDir := fun fileName =>
    if PosixPath.isAbsolute env.confDir then readCurrentConfFile disk fileName else none
  pure (diffRenderedConfFiles preview currentFiles)

def NoPendingChange (diff : List ConfigDiffSummary) : Prop :=
  ∀ entry ∈ diff, entry.status = .unchanged

def DiffShowsNothing (env : ConfEnv) (data : TenantData) (disk : Option ConfDir) : Prop :=
  ∃ report, diffConfFiles localeCompare renderAgentDialplanText env data disk = .ok report ∧
    NoPendingChange report.diff ∧ report.hasChanges = false

def DryRunShowsNothing (env : ConfEnv) (data : TenantData) (disk : Option ConfDir) : Prop :=
  ∃ diff, dryRunConfFiles localeCompare renderAgentDialplanText env data disk = .ok diff ∧
    NoPendingChange diff

end

/-! ## Line feeds -/

theorem count_normalizeBreaks (cs : List Char) :
    (normalizeBreaks cs).count '\n' = cs.count '\n' := by
  fun_induction normalizeBreaks cs with
  | case1 cs ih =>
    rw [List.count_cons_self, List.count_cons_of_ne (by decide), List.count_cons_self, ih]
  | case2 c cs _ ih => rw [List.count_cons, List.count_cons, ih]
  | case3 => rfl

/-- A change inside lines keeps the line feeds. -/
theorem count_mapLines {f : List Char → List Char} (hf : ∀ line, '\n' ∉ line → '\n' ∉ f line)
    (cs : List Char) {line : List Char} (hline : '\n' ∉ line) :
    (mapLines f line cs).count '\n' = cs.count '\n' := by
  have hdone {line : List Char} (hline : '\n' ∉ line) : (f line.reverse).count '\n' = 0 :=
    List.count_eq_zero.2 (hf _ (by rwa [List.mem_reverse]))
  induction cs generalizing line with
  | nil => exact hdone hline
  | cons c cs ih =>
    rw [mapLines]
    split
    · rw [List.count_append, hdone hline, Nat.zero_add, List.count_cons, List.count_cons,
        ih List.not_mem_nil]
    · rename_i hterminator
      have hc : c ≠ '\n' := by
        rintro rfl
        exact hterminator rfl
      rw [ih fun hmem => (List.mem_cons.1 hmem).elim (fun heq => hc heq.symm) hline,
        List.count_cons_of_ne hc]

theorem maskLine_free {key : String} (hkey : '\n' ∉ (key ++ "***").toList) (line : List Char)
    (hline : '\n' ∉ line) : '\n' ∉ maskLine key line := by
  rw [maskLine]
  split
  · exact hkey
  · exact hline

theorem count_maskPjsipSecrets (content : String) :
    (maskPjsipSecrets content).toList.count '\n' = content.toList.count '\n' := by
  rw [maskPjsipSecrets, String.toList_ofList,
    count_mapLines (maskLine_free (by decide)) _ List.not_mem_nil,
    count_mapLines (maskLine_free (by decide)) _ List.not_mem_nil]

theorem changed_of_count {fileName rendered current : String}
    (h : current.toList.count '\n' ≠ rendered.toList.count '\n') :
    (diffFile fileName rendered (some current)).status = .changed := by
  have hne : normalizeBreaks current.toList ≠ normalizeBreaks rendered.toList := by
    intro heq
    rw [← count_normalizeBreaks, heq, count_normalizeBreaks] at h
    exact h rfl
  rw [diffFile, if_neg hne]

/-! ## After a write -/

section
variable {localeCompare : String → String → Int}
  {renderAgentDialplanText : AgentDialplanInput → Render String}
  {findConfigRenderRegression : TenantData → ConfTexts → Option String → Option String}
  {env : ConfEnv} {data : TenantData} {disk written : Option ConfDir}

theorem unchanged_of_eq {fileName rendered : String} :
    diffFile fileName rendered (some rendered) = ⟨fileName, .unchanged, 0, 0⟩ := if_pos rfl

/-- Both sides of `pjsip.conf` are masked in one way. -/
theorem pjsip_unchanged (texts : ConfTexts) (dir : ConfDir) :
    diffFile "pjsip.conf" texts.preview.pjsip
      ((readCurrentConfFile (some (texts.writeTo dir)) "pjsip.conf").map maskPjsipSecrets) =
      ⟨"pjsip.conf", .unchanged, 0, 0⟩ := by
  rw [readCurrentConfFile_pjsip, Option.map_some]
  exact unchanged_of_eq

/-- The preview of the queues has at least two line feeds more than the file. -/
theorem queues_changed (texts : ConfTexts) {current : String}
    (h : current.toList.count '\n' = texts.queues.toList.count '\n') :
    (diffFile "queues.conf" texts.preview.queues (some current)).status = .changed := by
  refine changed_of_count (Nat.ne_of_lt ?_)
  rw [h, ConfTexts.preview, String.toList_append, String.toList_append, List.count_append,
    List.count_append, Nat.add_assoc]
  refine Nat.lt_add_of_pos_right (Nat.add_pos_left ?_ _)
  decide

theorem not_noPendingChange {texts : ConfTexts} {currentFiles : ConfDir} {current : String}
    (hcurrent : currentFiles "queues.conf" = some current)
    (h : current.toList.count '\n' = texts.queues.toList.count '\n') :
    ¬ NoPendingChange (diffRenderedConfFiles texts.preview currentFiles) := by
  intro hnone
  have hmem : diffFile "queues.conf" texts.preview.queues (currentFiles "queues.conf") ∈
      diffRenderedConfFiles texts.preview currentFiles :=
    List.mem_map.2 ⟨(RenderedConfFiles.queues, "queues.conf"), by simp [renderedConfFileNames], rfl⟩
  have hstatus := hnone _ hmem
  rw [hcurrent, queues_changed texts h] at hstatus
  cases hstatus

theorem diff_shows_changes
    (h : writeConfFiles localeCompare renderAgentDialplanText findConfigRenderRegression env data
      disk = (.ok true, written)) :
    ¬ DiffShowsNothing localeCompare renderAgentDialplanText env data written := by
  obtain ⟨-, dir, texts, htexts, rfl⟩ := writeConfFiles_eq_true h
  rintro ⟨report, hreport, hnone, -⟩
  rw [diffConfFiles, previewConfFiles_of_write htexts] at hreport
  obtain rfl := pure_eq_ok.1 hreport
  have hcurrent : (readCurrentConfFile (some (texts.writeTo dir)) "queues.conf").map
      maskPjsipSecrets = some (maskPjsipSecrets texts.queues) := by
    rw [readCurrentConfFile_queues, Option.map_some]
  exact @not_noPendingChange texts (fun fileName =>
    (readCurrentConfFile (some (texts.writeTo dir)) fileName).map maskPjsipSecrets) _ hcurrent
    (count_maskPjsipSecrets texts.queues) hnone

theorem dry_run_shows_changes
    (h : writeConfFiles localeCompare renderAgentDialplanText findConfigRenderRegression env data
      disk = (.ok true, written)) :
    ¬ DryRunShowsNothing localeCompare renderAgentDialplanText env data written := by
  obtain ⟨habsolute, dir, texts, htexts, rfl⟩ := writeConfFiles_eq_true h
  rintro ⟨diff, hdiff, hnone⟩
  rw [dryRunConfFiles, previewConfFiles_of_write htexts, habsolute] at hdiff
  rw [← pure_eq_ok.1 hdiff] at hnone
  exact not_noPendingChange (readCurrentConfFile_queues texts dir) rfl hnone

/-- After every write the diff and the dry run show `queues.conf` as changed. -/
theorem applied_shows_changes
    (h : writeConfFiles localeCompare renderAgentDialplanText findConfigRenderRegression env data
      disk = (.ok true, written)) :
    ¬ DiffShowsNothing localeCompare renderAgentDialplanText env data written ∧
      ¬ DryRunShowsNothing localeCompare renderAgentDialplanText env data written :=
  ⟨diff_shows_changes h, dry_run_shows_changes h⟩

theorem applied_shows_changes_exTenant :
    ¬ DiffShowsNothing (fun _ _ => 0) printedAgentDialplan exEnv exTenant exWritten ∧
      ¬ DryRunShowsNothing (fun _ _ => 0) printedAgentDialplan exEnv exTenant exWritten :=
  applied_shows_changes writeConfFiles_exTenant

/-- A tenant with one agent and one queue. -/
theorem applied_exTenant_pending :
    writeConfFiles (fun _ _ => 0) printedAgentDialplan (fun _ _ _ => none) exEnv exTenant
        (some fun _ => none) = (.ok true, exWritten) ∧
      ¬ (DiffShowsNothing (fun _ _ => 0) printedAgentDialplan exEnv exTenant exWritten ∧
        DryRunShowsNothing (fun _ _ => 0) printedAgentDialplan exEnv exTenant exWritten) :=
  ⟨writeConfFiles_exTenant, fun h => diff_shows_changes writeConfFiles_exTenant h.1⟩

end

end KasterCti.Renderers
