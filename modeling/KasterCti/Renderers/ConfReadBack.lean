import KasterCti.Renderers.ConfFiles
import KasterCti.Renderers.PjsipReadBack

/-!
# The written files say what was fetched

`queues.conf` and `pjsip.conf` after a write, read back. Names go into both files with a check for
line breaks at most, so a comma, a semicolon or a bracket in one of them is read as the format has
it, and trunks whose names differ may share a slug.

Result: `conf_reads_back_iff`, which tells for which rows both files say what was fetched.
-/

namespace KasterCti.Renderers

open Lines

/-- Both files are read back as the rows they were rendered from. -/
structure ConfReadsBack (env : ConfEnv) (data : TenantData) (disk : Option ConfDir) : Prop where
  queues : ∃ text, readCurrentConfFile disk "queues.conf" = some text ∧
    readQueues text = (data.queues.map queueInput).map givenQueue
  pjsip : ∃ text, readCurrentConfFile disk "pjsip.conf" = some text ∧
    PjsipReadsBack (pjsipInput env data) text

structure CleanConf (env : ConfEnv) (data : TenantData) : Prop where
  queues : ∀ q ∈ data.queues.map queueInput, CleanQueue q
  pjsip : CleanPjsip (pjsipInput env data)

section
variable {localeCompare : String → String → Int}
  {renderAgentDialplanText : AgentDialplanInput → Render String}
  {findConfigRenderRegression : TenantData → ConfTexts → Option String → Option String}
  {env : ConfEnv} {data : TenantData} {disk written : Option ConfDir}

theorem passwordAgents_nodup (h : (data.agents.map AgentRow.extension).Nodup) :
    ((passwordAgents (pjsipInput env data)).map AgentInput.extension).Nodup := by
  have hrows : (data.agents.map (pjsipAgent data)).map AgentInput.extension =
      data.agents.map AgentRow.extension := by
    rw [List.map_map]
    rfl
  rw [← hrows] at h
  exact h.sublist (List.filter_sublist.map _)

/-- Both files are read back exactly if the names of the rows are clean. -/
theorem conf_reads_back_iff
    (h : writeConfFiles localeCompare renderAgentDialplanText findConfigRenderRegression env data
      disk = (.ok true, written))
    (hext : (data.agents.map AgentRow.extension).Nodup) :
    ConfReadsBack env data written ↔ CleanConf env data := by
  obtain ⟨-, dir, texts, htexts, rfl⟩ := writeConfFiles_eq_true h
  obtain ⟨hpjsip, hqueues⟩ := confTexts_eq_ok htexts
  have hback := pjsip_reads_back_iff hpjsip (passwordAgents_nodup hext)
  constructor
  · rintro ⟨⟨queues, hq, hread⟩, pjsip, hp, hsections⟩
    obtain rfl := Option.some.inj ((readCurrentConfFile_queues texts dir).symm.trans hq)
    obtain rfl := Option.some.inj ((readCurrentConfFile_pjsip texts dir).symm.trans hp)
    rw [hqueues] at hread
    exact ⟨readQueues_render_iff.1 hread, hback.1 hsections⟩
  · rintro ⟨hclean, hsections⟩
    refine ⟨⟨_, readCurrentConfFile_queues texts dir, ?_⟩,
      ⟨_, readCurrentConfFile_pjsip texts dir, hback.2 hsections⟩⟩
    rw [hqueues]
    exact readQueues_render_iff.2 hclean

end

theorem cleanConf_exTenant : CleanConf exEnv exTenant := by
  have hstripped : ∀ c ∈ "10.0.0.1".toList, Dialplan.isBlank c = false := by decide
  have hextension : ∀ c ∈ "101".toList, c ≠ ',' ∧ c ≠ ';' ∧ isBreak c = false := by decide
  have hname : ∀ c ∈ "agent".toList, c ≠ ',' ∧ c ≠ ';' ∧ isBreak c = false := by decide
  have hlast : ∀ c, "agent".toList.getLast? = some c → Dialplan.isBlank c = false := by
    intro c hc
    exact Option.some.inj hc ▸ rfl
  have hqueue : ∀ c ∈ "sales".toList, c ≠ ']' ∧ c ≠ ';' ∧ isBreak c = false := by decide
  constructor
  · intro q hq
    rw [List.mem_singleton.1 hq]
    refine ⟨hqueue, rfl, fun m hm => ?_⟩
    rw [List.mem_singleton.1 hm]
    exact ⟨hextension, hname, hlast⟩
  · refine ⟨by decide, fun trunk htrunk => ?_, fun agent hagent => ?_,
      fun agent hagent trunk htrunk => ?_⟩
    · rw [List.mem_singleton.1 htrunk]
      exact ⟨by decide, by decide, ConfText.stripped_of_free hstripped⟩
    · rw [List.mem_singleton.1 hagent]
      exact (by decide : ∀ c ∈ "101".toList, c ≠ ']' ∧ c ≠ ';')
    · rw [List.mem_singleton.1 hagent, List.mem_singleton.1 htrunk]
      exact ⟨by decide, by decide⟩

theorem conf_reads_back_iff_exTenant : ConfReadsBack exEnv exTenant exWritten :=
  (conf_reads_back_iff writeConfFiles_exTenant (by decide)).2 cleanConf_exTenant

/-- Two trunks whose names differ by a blank and a dash. -/
def exLines : TenantData :=
  exData [exTrunk "line 1" "10.0.0.1", exTrunk "line-1" "10.0.0.2"] "agent"

/-- Both trunks get the section `trunk-line-1`, each with its own host. -/
theorem shared_slug :
    (exWrite exLines).1 = .ok true ∧ (exLines.trunks.map TrunkInput.name).Nodup ∧
      (exLines.agents.map AgentRow.extension).Nodup ∧
      ¬ ConfReadsBack exEnv exLines (exWrite exLines).2 := by
  refine ⟨rfl, by decide, by decide, fun h => ?_⟩
  have hwrite : exWrite exLines = (.ok true, (exWrite exLines).2) := Prod.ext rfl rfl
  obtain ⟨-, dir, texts, htexts, heq⟩ := writeConfFiles_eq_true hwrite
  rw [heq] at h
  obtain ⟨text, htext, hsections⟩ := h.pjsip
  obtain rfl := Option.some.inj ((readCurrentConfFile_pjsip texts dir).symm.trans htext)
  have hclean := (pjsip_reads_back_iff (confTexts_eq_ok htexts).1
    (passwordAgents_nodup (by decide))).1 hsections
  have hslugs : ¬ (["line 1", "line-1"].map toSlug).Nodup := by decide
  exact hslugs hclean.slugs

end KasterCti.Renderers
