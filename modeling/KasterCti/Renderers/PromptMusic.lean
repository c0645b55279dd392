import KasterCti.Library.ConfText
import KasterCti.Renderers.ConfFiles
import Mathlib

/-!
# The prompts that waiting callers hear

A DID with a queue plays its prompt as a music class while the caller waits. The class and its
directory are named after the prompt by a normalizer that drops cases, letters and slashes, the
first prompt of a name fills the directory, and files are selected by the front of their names.

Results:
1. `musicClass_iff`: the class as the generated include defines it.
2. `lookup_syncItem`: what is in a managed directory after a sync.
3. `waiting_prompt_played_iff`: which DIDs play their own prompt.
-/

namespace KasterCti.Renderers

open ConfText Dialplan Lines
open ArsFlow (plainStep given)

/-! ## Directories -/

/-- The files of a directory that has no directories in it. -/
abbrev FlatDir := List (String × List UInt8)

namespace FlatDir

def names (dir : FlatDir) : List String := dir.map Prod.fst

def rm (dir : FlatDir) (name : String) : FlatDir := dir.filter (·.1 ≠ name)

def write (dir : FlatDir) (name : String) (content : List UInt8) : FlatDir :=
  (name, content) :: dir.rm name

/-- The content of a file. -/
def get (dir : FlatDir) (name : String) : Option (List UInt8) := List.lookup name dir

theorem get_rm_ne (dir : FlatDir) {name other : String} (h : other ≠ name) :
    (dir.rm name).get other = dir.get other := by
  induction dir with
  | nil => rfl
  | cons file dir ih =>
    by_cases hname : file.1 = name
    · have hother : (other == file.1) = false := beq_eq_false_iff_ne.mpr (hname ▸ h)
      rw [rm, List.filter_cons_of_neg (by simpa using hname), get, get, List.lookup_cons, hother]
      exact ih
    · rw [rm, List.filter_cons_of_pos (by simpa using hname), get, get, List.lookup_cons,
        List.lookup_cons]
      split
      · rfl
      · exact ih

theorem get_write (dir : FlatDir) (name other : String) (content : List UInt8) :
    (dir.write name content).get other = if other = name then some content else dir.get other := by
  rw [write, get, List.lookup_cons]
  split
  · next heq => rw [if_pos (beq_iff_eq.mp heq)]
  · next hne =>
    have hne : other ≠ name := beq_eq_false_iff_ne.mp hne
    rw [if_neg hne]
    exact get_rm_ne dir hne

theorem mem_names_of_get {dir : FlatDir} {name : String} {content : List UInt8}
    (h : dir.get name = some content) : name ∈ dir.names := by
  obtain ⟨before, after, hsplit, -⟩ := List.lookup_eq_some_iff.mp h
  exact List.mem_map.mpr ⟨(name, content), by rw [hsplit]; simp, rfl⟩

/-- A directory is emptied by removing what it lists. -/
theorem rm_names (dir : FlatDir) : dir.names.foldl rm dir = [] := by
  have hrest : ∀ (names : List String) (rest : FlatDir), (∀ file ∈ rest, file.1 ∈ names) →
      names.foldl rm rest = [] := by
    intro names
    induction names with
    | nil =>
      intro rest h
      exact List.eq_nil_iff_forall_not_mem.mpr fun file hfile => nomatch h file hfile
    | cons name names ih =>
      intro rest h
      refine ih _ fun file hfile => ?_
      obtain ⟨hfile, hne⟩ := List.mem_filter.mp hfile
      exact (List.mem_cons.mp (h file hfile)).resolve_left (by simpa using hne)
  exact hrest _ _ fun file hfile => List.mem_map_of_mem hfile

end FlatDir

/-! ## Synchronising the managed directories -/

structure SoundsDisk where
  /-- The files below the sounds directory, by their paths in it. -/
  files : FlatDir
  /-- The managed directories, by their paths. -/
  moh : String → FlatDir

/-- `readdirSync(soundsDir)`: files and directories. -/
def readdirNames (files : FlatDir) : List String :=
  ("__moh" :: files.names.map (JsText.before '/')).dedup

/-- `copyFileSync`; a directory cannot be copied. -/
def copyFile (files dir : FlatDir) (name : String) : Option FlatDir :=
  (files.get name).map (dir.write name)

def gapAlaw : List UInt8 := List.replicate 8000 0xd5
def gapUlaw : List UInt8 := List.replicate 8000 0xff

structure PromptMohClass where
  className : String
  directory : String
  promptBaseName : String

/-- What `buildPromptMohClasses` makes, with the name of the prompt. -/
def promptMohItems (baseDir : String) (seen : List String) : List DidInput → List PromptMohClass
  | [] => []
  | did :: dids =>
    match promptMohKey did with
    | none => promptMohItems baseDir seen dids
    | some promptKey =>
      let className := buildPromptMohClassName promptKey
      if className ∈ seen then promptMohItems baseDir seen dids
      else ⟨className, PosixPath.join baseDir className, withoutCustom promptKey⟩ ::
        promptMohItems baseDir (className :: seen) dids

/-- One directory: what it listed is removed, the files of the prompt are copied, and a short
silence is put behind them. -/
def syncItem (files existing : FlatDir) (promptBaseName : String) : Option FlatDir := do
  let dir ← ((readdirNames files).filter (JsText.startsWith · (promptBaseName ++ "."))).foldlM
    (copyFile files) (existing.names.foldl FlatDir.rm existing)
  pure ((dir.write "zz_gap.alaw" gapAlaw).write "zz_gap.ulaw" gapUlaw)

def SoundsDisk.syncClass (disk : SoundsDisk) (item : PromptMohClass) : Option SoundsDisk := do
  let dir ← syncItem disk.files (disk.moh item.directory) item.promptBaseName
  pure { disk with moh := Function.update disk.moh item.directory dir }

def syncPromptMohAssets (classes : List PromptMohClass) (disk : SoundsDisk) : Option SoundsDisk :=
  classes.foldlM SoundsDisk.syncClass disk

def PromptMohClass.input (item : PromptMohClass) : MusiconholdClassInput :=
  ⟨item.className, item.directory⟩

def mohBaseDir (soundsDir : String) : String := PosixPath.join soundsDir "__moh"

/-- The text of the include, and the sounds when it is written. -/
def writePromptMusic (dids : List DidInput) (soundsDir : String) (disk : SoundsDisk) :
    Option (String × SoundsDisk) := do
  let promptMohClasses := promptMohItems (mohBaseDir soundsDir) [] dids
  let disk ← syncPromptMohAssets promptMohClasses disk
  pure (renderMusiconholdConf (promptMohClasses.map PromptMohClass.input), disk)

/-- The names and directories are those of the include. -/
theorem map_promptMohItems (baseDir : String) (seen : List String) (dids : List DidInput) :
    (promptMohItems baseDir seen dids).map PromptMohClass.input =
      promptMohClasses baseDir seen dids := by
  induction dids generalizing seen with
  | nil => rfl
  | cons did dids ih =>
    unfold promptMohItems promptMohClasses
    cases promptMohKey did with
    | none => exact ih seen
    | some promptKey =>
      dsimp only
      split
      · exact ih seen
      · rw [List.map_cons, ih]
        rfl

/-- The include is the one that is written with the other files. -/
theorem text_of_writePromptMusic {dids : List DidInput} {soundsDir text : String}
    {disk disk' : SoundsDisk} (h : writePromptMusic dids soundsDir disk = some (text, disk')) :
    text = renderMusiconholdConf (buildPromptMohClasses dids soundsDir) := by
  rw [writePromptMusic, Option.bind_eq_bind, Option.bind_eq_some_iff] at h
  obtain ⟨synced, -, h⟩ := h
  obtain ⟨rfl, -⟩ := Prod.mk.inj (Option.some.inj h)
  rw [buildPromptMohClasses, map_promptMohItems, mohBaseDir]

/-! ## What a managed directory holds -/

/-- The silence behind a prompt. -/
def gapFile (name : String) : Option (List UInt8) :=
  if name = "zz_gap.ulaw" then some gapUlaw
  else if name = "zz_gap.alaw" then some gapAlaw
  else none

section Sync

variable {files dir dir' : FlatDir} {base name : String}

theorem get_copied {names : List String} (h : names.foldlM (copyFile files) dir = some dir')
    (name : String) :
    dir'.get name = if name ∈ names then files.get name else dir.get name := by
  induction names generalizing dir with
  | nil =>
    obtain rfl := Option.some.inj h
    simp
  | cons first names ih =>
    rw [List.foldlM_cons, Option.bind_eq_bind, Option.bind_eq_some_iff] at h
    obtain ⟨copied, hcopied, h⟩ := h
    obtain ⟨content, hcontent, rfl⟩ := Option.map_eq_some_iff.mp hcopied
    rw [ih h, FlatDir.get_write]
    by_cases hname : name ∈ names
    · rw [if_pos hname, if_pos (List.mem_cons_of_mem _ hname)]
    · by_cases hfirst : name = first
      · rw [if_neg hname, if_pos hfirst, if_pos (hfirst ▸ List.mem_cons_self), hfirst, hcontent]
      · rw [if_neg hname, if_neg hfirst, if_neg (by simp [hname, hfirst])]

theorem slash_of_mem_readdirNames (h : name ∈ readdirNames files) : '/' ∉ name.toList := by
  rw [readdirNames, List.mem_dedup] at h
  rcases List.mem_cons.mp h with rfl | h
  · decide
  · obtain ⟨path, -, rfl⟩ := List.mem_map.mp h
    rw [JsText.before, String.toList_ofList]
    intro hmem
    simpa using List.mem_takeWhile_imp hmem

theorem mem_readdirNames (hslash : '/' ∉ name.toList) {content : List UInt8}
    (h : files.get name = some content) : name ∈ readdirNames files := by
  rw [readdirNames, List.mem_dedup]
  refine List.mem_cons_of_mem _ (List.mem_map.mpr ⟨name, FlatDir.mem_names_of_get h, ?_⟩)
  have hself : name.toList.takeWhile (· ≠ '/') = name.toList := by
    refine List.takeWhile_eq_self_iff.mpr fun c hc => ?_
    exact decide_eq_true fun heq : c = '/' => hslash (heq ▸ hc)
  rw [JsText.before, hself, String.ofList_toList]

/-- The files whose names begin with the name of the prompt and a dot. -/
def SelectedFile (files : FlatDir) (base name : String) (content : List UInt8) : Prop :=
  JsText.startsWith name (base ++ ".") = true ∧ '/' ∉ name.toList ∧ files.get name = some content

/-- A managed directory holds the selected files and the silence, and nothing of before. -/
theorem get_syncItem_iff {existing : FlatDir} (h : syncItem files existing base = some dir)
    (name : String) (content : List UInt8) :
    dir.get name = some content ↔ gapFile name = some content ∨
      gapFile name = none ∧ SelectedFile files base name content := by
  rw [syncItem, Option.bind_eq_bind, Option.bind_eq_some_iff] at h
  obtain ⟨copied, hcopied, h⟩ := h
  obtain rfl := Option.some.inj h
  have hget := get_copied hcopied name
  rw [FlatDir.rm_names] at hget
  have hselected : copied.get name = some content ↔ SelectedFile files base name content := by
    rw [hget]
    constructor
    · intro hcontent
      split at hcontent
      · next hmem =>
        obtain ⟨hmem, hstart⟩ := List.mem_filter.mp hmem
        exact ⟨hstart, slash_of_mem_readdirNames hmem, hcontent⟩
      · cases hcontent
    · rintro ⟨hstart, hslash, hcontent⟩
      rw [if_pos (List.mem_filter.mpr ⟨mem_readdirNames hslash hcontent, hstart⟩), hcontent]
  rw [FlatDir.get_write, FlatDir.get_write, gapFile]
  split
  · simp
  · split
    · simp
    · rw [hselected]
      simp

/-- The directories of other classes and the sounds are left alone. -/
theorem synced_directories {classes : List PromptMohClass} {disk disk' : SoundsDisk}
    (h : syncPromptMohAssets classes disk = some disk')
    (hnodup : (classes.map PromptMohClass.directory).Nodup) :
    disk'.files = disk.files ∧
    (∀ path, path ∉ classes.map PromptMohClass.directory → disk'.moh path = disk.moh path) ∧
    ∀ item ∈ classes, ∃ existing, syncItem disk.files existing item.promptBaseName =
      some (disk'.moh item.directory) := by
  induction classes generalizing disk with
  | nil =>
    obtain rfl := Option.some.inj h
    exact ⟨rfl, fun _ _ => rfl, nofun⟩
  | cons item classes ih =>
    rw [syncPromptMohAssets, List.foldlM_cons, Option.bind_eq_bind, Option.bind_eq_some_iff] at h
    obtain ⟨next, hnext, h⟩ := h
    rw [SoundsDisk.syncClass, Option.bind_eq_bind, Option.bind_eq_some_iff] at hnext
    obtain ⟨dir, hdir, hnext⟩ := hnext
    obtain rfl := Option.some.inj hnext
    rw [List.map_cons, List.nodup_cons] at hnodup
    obtain ⟨hfiles, hother, hitems⟩ := ih h hnodup.2
    refine ⟨hfiles, ?_, ?_⟩
    · intro path hpath
      rw [List.map_cons, List.mem_cons, not_or] at hpath
      exact (hother path hpath.2).trans (Function.update_of_ne hpath.1 _ _)
    · intro other hmem
      rcases List.mem_cons.mp hmem with rfl | hmem
      · exact ⟨_, hdir.trans (congrArg some
          ((hother _ hnodup.1).trans (Function.update_self _ _ _)).symm)⟩
      · exact hitems other hmem

end Sync

/-! ## Names of classes -/

section ClassName

variable {promptKey : String} {c : Char}

theorem isClassChar_dashOthers {inRun : Bool} {cs : List Char} (h : c ∈ dashOthers inRun cs) :
    isClassChar c = true := by
  induction cs generalizing inRun with
  | nil => cases h
  | cons d cs ih =>
    rw [dashOthers] at h
    split at h
    · next hd =>
      rcases List.mem_cons.mp h with rfl | h
      · exact hd
      · exact ih h
    · split at h
      · exact ih h
      · rcases List.mem_cons.mp h with rfl | h
        · decide
        · exact ih h

theorem mem_of_mem_squeezeDashes {inRun : Bool} {cs : List Char} (h : c ∈ squeezeDashes inRun cs) :
    c ∈ cs := by
  induction cs generalizing inRun with
  | nil => cases h
  | cons d cs ih =>
    rw [squeezeDashes] at h
    have hrest : ∀ {run}, c ∈ squeezeDashes run cs → c ∈ d :: cs :=
      fun h => List.mem_cons_of_mem _ (ih h)
    have hhead : ∀ {run}, c ∈ d :: squeezeDashes run cs → c ∈ d :: cs := by
      intro run h
      rcases List.mem_cons.mp h with rfl | h
      · exact List.mem_cons_self
      · exact hrest h
    split at h
    · split at h
      · exact hrest h
      · exact hhead h
    · exact hhead h

theorem mem_of_mem_dropDash {cs : List Char} (h : c ∈ dropDash cs) : c ∈ cs := by
  unfold dropDash at h
  split at h
  · exact List.mem_cons_of_mem _ h
  · exact h

theorem isClassChar_className (h : c ∈ (buildPromptMohClassName promptKey).toList) :
    isClassChar c = true := by
  have hfront : ∀ c ∈ "branch-prompt-".toList, isClassChar c = true := by decide
  have hdefault : ∀ c ∈ "default".toList, isClassChar c = true := by decide
  rw [buildPromptMohClassName, String.toList_append, List.mem_append] at h
  rcases h with h | h
  · exact hfront c h
  · split at h
    · exact hdefault c h
    · rw [String.toList_ofList, List.mem_reverse] at h
      have hdashed := mem_of_mem_dropDash (List.mem_reverse.mp (mem_of_mem_dropDash h))
      exact isClassChar_dashOthers (mem_of_mem_squeezeDashes hdashed)

theorem isName_className (promptKey : String) :
    PosixPath.IsName (buildPromptMohClassName promptKey) := by
  have hhead : (buildPromptMohClassName promptKey).toList.head? = some 'b' := by
    rw [buildPromptMohClassName, String.toList_append]
    rfl
  have hne : ∀ other : String, other.toList.head? ≠ some 'b' →
      buildPromptMohClassName promptKey ≠ other := by
    rintro other hother rfl
    exact hother hhead
  refine ⟨hne _ (by decide), hne _ (by decide), hne _ (by decide), fun hslash => ?_⟩
  exact absurd (isClassChar_className hslash) (by decide)

end ClassName

/-! ## The items of the DIDs -/

def promptItem (baseDir promptKey : String) : PromptMohClass :=
  ⟨buildPromptMohClassName promptKey, PosixPath.join baseDir (buildPromptMohClassName promptKey),
    withoutCustom promptKey⟩

/-- The first prompt, in the order of the DIDs, that has the class. -/
def firstPromptKey (dids : List DidInput) (className : String) : Option String :=
  (dids.filterMap promptMohKey).find? (buildPromptMohClassName · = className)

section Items

variable {baseDir className : String} {seen : List String} {dids : List DidInput}

theorem promptMohItems_cons (baseDir : String) (seen : List String) (did : DidInput)
    (dids : List DidInput) : promptMohItems baseDir seen (did :: dids) =
      match promptMohKey did with
      | none => promptMohItems baseDir seen dids
      | some promptKey =>
        if buildPromptMohClassName promptKey ∈ seen then promptMohItems baseDir seen dids
        else promptItem baseDir promptKey ::
          promptMohItems baseDir (buildPromptMohClassName promptKey :: seen) dids := rfl

/-- A class is made once, for the first prompt that has it. -/
theorem find_promptMohItems (hseen : className ∉ seen) :
    (promptMohItems baseDir seen dids).find? (·.className = className) =
      (firstPromptKey dids className).map (promptItem baseDir) := by
  induction dids generalizing seen with
  | nil => rfl
  | cons did dids ih =>
    rw [promptMohItems_cons, firstPromptKey]
    cases hkey : promptMohKey did with
    | none =>
      rw [List.filterMap_cons_none hkey]
      exact ih hseen
    | some promptKey =>
      rw [List.filterMap_cons_some hkey]
      dsimp only
      by_cases hclass : buildPromptMohClassName promptKey = className
      · have hfirst : (promptItem baseDir promptKey).className = className := hclass
        rw [if_neg (hclass ▸ hseen), List.find?_cons_of_pos (by simpa using hfirst),
          List.find?_cons_of_pos (by simpa using hclass)]
        rfl
      · rw [List.find?_cons_of_neg (by simpa using hclass)]
        split
        · exact ih hseen
        · have hother : (promptItem baseDir promptKey).className ≠ className := hclass
          rw [List.find?_cons_of_neg (by simpa using hother)]
          exact ih (by simp [Ne.symm hclass, hseen])

theorem promptItem_of_mem {item : PromptMohClass} (h : item ∈ promptMohItems baseDir seen dids) :
    item.className ∉ seen ∧ ∃ promptKey, item = promptItem baseDir promptKey := by
  induction dids generalizing seen with
  | nil => cases h
  | cons did dids ih =>
    rw [promptMohItems_cons] at h
    split at h
    · exact ih h
    · next promptKey _ =>
      split at h
      · exact ih h
      · next hseen =>
        rcases List.mem_cons.mp h with rfl | h
        · exact ⟨hseen, promptKey, rfl⟩
        · obtain ⟨hnot, hitem⟩ := ih h
          exact ⟨fun hmem => hnot (List.mem_cons_of_mem _ hmem), hitem⟩

theorem nodup_classNames (baseDir : String) (seen : List String) (dids : List DidInput) :
    ((promptMohItems baseDir seen dids).map PromptMohClass.className).Nodup := by
  induction dids generalizing seen with
  | nil => exact List.nodup_nil
  | cons did dids ih =>
    rw [promptMohItems_cons]
    split
    · exact ih seen
    · next promptKey _ =>
      split
      · exact ih seen
      · refine List.nodup_cons.mpr ⟨fun hmem => ?_, ih _⟩
        obtain ⟨item, hitem, hclass⟩ := List.mem_map.mp hmem
        exact (promptItem_of_mem hitem).1 (hclass ▸ List.mem_cons_self)

/-- The directories differ as the classes do. -/
theorem exists_directory_front (baseDir : String) (seen : List String) (dids : List DidInput) :
    ∃ front, ∀ item ∈ promptMohItems baseDir seen dids, item.directory = front ++ item.className := by
  obtain ⟨front, hfront⟩ := PosixPath.exists_join_name baseDir
  refine ⟨front, fun item hitem => ?_⟩
  obtain ⟨-, promptKey, rfl⟩ := promptItem_of_mem hitem
  exact hfront _ (isName_className promptKey)

theorem nodup_directories (baseDir : String) (seen : List String) (dids : List DidInput) :
    ((promptMohItems baseDir seen dids).map PromptMohClass.directory).Nodup := by
  obtain ⟨front, hfront⟩ := exists_directory_front baseDir seen dids
  have hmap : (promptMohItems baseDir seen dids).map PromptMohClass.directory =
      ((promptMohItems baseDir seen dids).map PromptMohClass.className).map (front ++ ·) := by
    rw [List.map_map]
    exact List.map_congr_left hfront
  rw [hmap]
  refine (nodup_classNames baseDir seen dids).map fun a b hab => ?_
  have hlists := congrArg String.toList hab
  rw [String.toList_append, String.toList_append] at hlists
  exact String.toList_inj.mp (List.append_cancel_left hlists)

end Items

/-! ## The include -/

/-- The directory of a class, as the include is read. -/
def musicClass (text className : String) : Option Text :=
  ((readConf text).find? (·.name = className.toList)).bind (·.value? "directory")

def musicEntries (item : MusiconholdClassInput) : List (String × String) :=
  [("mode", "files"), ("directory", item.directory), ("random", "no"), ("sort", "alpha")]

def musicLines (item : MusiconholdClassInput) : List String :=
  sectionLines item.className (musicEntries item) ++ [""]

def musicSection (item : MusiconholdClassInput) : ConfSection :=
  sectionOf item.className (musicEntries item)

section Include

variable {classes : List MusiconholdClassInput}

theorem hasBreak_className {className : String}
    (h : ∀ c ∈ className.toList, isClassChar c = true) : hasBreak className = false := by
  refine hasBreak_eq_false_iff.mpr fun c hc => Bool.eq_false_iff.mpr fun hbreak => ?_
  rcases isBreak_iff.mp hbreak with rfl | rfl
  · exact absurd (h _ hc) (by decide)
  · exact absurd (h _ hc) (by decide)

/-- The include is read back where the names and the directories are plain. -/
theorem readConf_musiconhold
    (hnames : ∀ item ∈ classes, ∀ c ∈ item.className.toList, isClassChar c = true)
    (hdirs : ∀ item ∈ classes, hasBreak item.directory = false) :
    readConf (renderMusiconholdConf classes) = classes.map musicSection := by
  have hchar : ∀ {c d : Char}, isClassChar c = true → isClassChar d = false → c ≠ d := by
    rintro c d hc hd rfl
    rw [hc] at hd
    cases hd
  have hread : readLines ((classes.flatMap musicLines).map String.toList) =
      ([], classes.map musicSection) := by
    clear hdirs
    induction classes with
    | nil => rfl
    | cons item classes ih =>
      obtain ⟨hitem, hclasses⟩ := List.forall_mem_cons.mp hnames
      rw [List.flatMap_cons, musicLines, List.append_assoc, List.map_append]
      refine readLines_sectionLines (fun c hc => ?_) ?_ (readLines_blank (ih hclasses))
      · exact ⟨hchar (hitem c hc) (by decide), hchar (hitem c hc) (by decide)⟩
      · have hkeys : ∀ key ∈ (musicEntries item).map Prod.fst, isKey key.toList = true := by
          show ∀ key ∈ ["mode", "directory", "random", "sort"], isKey key.toList = true
          decide
        exact fun e he => hkeys e.1 (List.mem_map_of_mem he)
  have hbreak : ∀ l ∈ ["; Auto-generated by KAster CTI - do not edit manually", ""] ++
      classes.flatMap musicLines, hasBreak l = false := by
    intro l hl
    rcases List.mem_append.mp hl with hl | hl
    · have hheader : ∀ l ∈ ["; Auto-generated by KAster CTI - do not edit manually", ""],
          hasBreak l = false := by decide
      exact hheader l hl
    · obtain ⟨item, hitem, hl⟩ := List.mem_flatMap.mp hl
      have hname := hasBreak_className (hnames item hitem)
      simp only [musicLines, sectionLines, musicEntries, List.map_cons, List.map_nil,
        List.cons_append, List.nil_append, List.mem_cons, List.not_mem_nil, or_false] at hl
      rcases hl with rfl | rfl | rfl | rfl | rfl | rfl
      · rw [hasBreak_append, hasBreak_append, hname]
        decide
      · decide
      · have hkey : hasBreak ("directory" ++ "=") = false := by decide
        rw [keyedLine, hasBreak_append, hdirs item hitem, Bool.or_false]
        exact hkey
      · decide
      · decide
      · decide
  refine Reads.readConf (reads_unlines (by simp) hbreak ?_)
  rw [List.map_append]
  exact hread

theorem musicClass_eq (hnodup : (classes.map MusiconholdClassInput.className).Nodup)
    (hread : readConf (renderMusiconholdConf classes) = classes.map musicSection)
    {item : MusiconholdClassInput} (hitem : item ∈ classes) :
    musicClass (renderMusiconholdConf classes) item.className =
      some (readValue item.directory.toList) := by
  have hfind : (classes.map musicSection).find? (·.name = item.className.toList) =
      some (musicSection item) := by
    have hsome : ((classes.map musicSection).find? (·.name = item.className.toList)).isSome :=
      List.find?_isSome.mpr ⟨_, List.mem_map_of_mem hitem, decide_eq_true rfl⟩
    obtain ⟨found, hfound⟩ := Option.isSome_iff_exists.mp hsome
    obtain ⟨other, hother, rfl⟩ := List.mem_map.mp (List.mem_of_find?_eq_some hfound)
    have hname : (musicSection other).name = item.className.toList := by
      simpa using List.find?_some hfound
    rw [hfound, List.inj_on_of_nodup_map hnodup hother hitem (String.toList_inj.mp hname)]
  rw [musicClass, hread, hfind, Option.bind_some, musicSection, musicEntries,
    value?_sectionOf_cons, if_neg (by decide), value?_sectionOf_cons, if_pos (by decide)]

/-- A class has its directory in the include if the path is read as it is written. -/
theorem musicClass_iff (hnodup : (classes.map MusiconholdClassInput.className).Nodup)
    (hnames : ∀ item ∈ classes, ∀ c ∈ item.className.toList, isClassChar c = true)
    {front : String} (hfront : ∀ item ∈ classes, item.directory = front ++ item.className)
    {item : MusiconholdClassInput} (hitem : item ∈ classes) :
    musicClass (renderMusiconholdConf classes) item.className = some item.directory.toList ↔
      hasBreak item.directory = false ∧ readValue item.directory.toList = item.directory.toList := by
  have hdirs : hasBreak item.directory = false →
      ∀ other ∈ classes, hasBreak other.directory = false := by
    intro hbreak other hother
    rw [hfront item hitem, hasBreak_append, Bool.or_eq_false_iff] at hbreak
    rw [hfront other hother, hasBreak_append, hbreak.1, Bool.false_or]
    exact hasBreak_className (hnames other hother)
  have hclass : hasBreak item.directory = false →
      musicClass (renderMusiconholdConf classes) item.className =
        some (readValue item.directory.toList) :=
    fun hbreak => musicClass_eq hnodup (readConf_musiconhold hnames (hdirs hbreak)) hitem
  constructor
  · intro hdefined
    have hbreak : hasBreak item.directory = false := by
      obtain ⟨sec, hfind, hvalue⟩ := Option.bind_eq_some_iff.mp hdefined
      obtain ⟨before, after, hentries, -⟩ := List.lookup_eq_some_iff.mp hvalue
      have hvalues := @value_of_mem_readConf _ _ (List.mem_of_find?_eq_some hfind)
        ("directory".toList, item.directory.toList) (by rw [hentries]; simp)
      exact hasBreak_eq_false_iff.mpr fun c hc => (hvalues.2 c hc).2
    exact ⟨hbreak, Option.some.inj ((hclass hbreak).symm.trans hdefined)⟩
  · rintro ⟨hbreak, hvalue⟩
    rw [hclass hbreak, hvalue]

end Include

/-! ## The prompt of a DID -/

/-- The prompt is the file of its name, in the directory that its name leads to, in any format. -/
def OwnFile (files : FlatDir) (promptBaseName name : String) (content : List UInt8) : Prop :=
  ∃ format : String, format ≠ "" ∧ '.' ∉ format.toList ∧ '/' ∉ format.toList ∧
    files.get (promptBaseName ++ "." ++ format) = some content ∧
    name = PosixPath.basename (promptBaseName ++ "." ++ format)

/-- The directory holds the files of the prompt, the silence, and nothing else. -/
structure PlaysOwn (files : FlatDir) (promptBaseName : String) (dir : FlatDir) : Prop where
  own : ∀ name content, OwnFile files promptBaseName name content → dir.get name = some content
  gaps : ∀ name content, gapFile name = some content → dir.get name = some content
  only : ∀ name content, dir.get name = some content →
    gapFile name = some content ∨ OwnFile files promptBaseName name content

def mohDirectory (soundsDir className : String) : String :=
  PosixPath.join (mohBaseDir soundsDir) className

structure PlaysOwnPrompt (soundsDir text : String) (disk : SoundsDisk)
    (className promptBaseName : String) : Prop where
  defined : musicClass text className = some (mohDirectory soundsDir className).toList
  plays : PlaysOwn disk.files promptBaseName (disk.moh (mohDirectory soundsDir className))

/-- What is selected for one prompt is another prompt. -/
structure SelectsOwn (files : FlatDir) (selected own : String) : Prop where
  same : ∀ name content, gapFile name = none →
    (SelectedFile files selected name content ↔ OwnFile files own name content)
  unshadowed : ∀ name content silence, OwnFile files own name content →
    gapFile name = some silence → content = silence

theorem playsOwn_iff {files existing dir : FlatDir} {selected own : String}
    (h : syncItem files existing selected = some dir) :
    PlaysOwn files own dir ↔ SelectsOwn files selected own := by
  have hget := get_syncItem_iff h
  constructor
  · rintro ⟨hown, hgaps, honly⟩
    refine ⟨fun name content hgap => ⟨fun hselected => ?_, fun hfile => ?_⟩, ?_⟩
    · rcases honly name content ((hget name content).mpr (.inr ⟨hgap, hselected⟩)) with hsilence | hfile
      · cases hgap.symm.trans hsilence
      · exact hfile
    · rcases (hget name content).mp (hown name content hfile) with hsilence | ⟨-, hselected⟩
      · cases hgap.symm.trans hsilence
      · exact hselected
    · intro name content silence hfile hsilence
      exact Option.some.inj ((hown name content hfile).symm.trans (hgaps name silence hsilence))
  · rintro ⟨hsame, hunshadowed⟩
    refine ⟨fun name content hfile => ?_, fun name content hsilence => ?_, fun name content hcontent => ?_⟩
    · cases hgap : gapFile name with
      | none => exact (hget name content).mpr (.inr ⟨hgap, (hsame name content hgap).mpr hfile⟩)
      | some silence =>
        rw [hunshadowed name content silence hfile hgap]
        exact (hget name silence).mpr (.inl hgap)
    · exact (hget name content).mpr (.inl hsilence)
    · rcases (hget name content).mp hcontent with hsilence | ⟨hgap, hselected⟩
      · exact .inl hsilence
      · exact .inr ((hsame name content hgap).mp hselected)

/-- The path of the class is read as it is written, and what is selected for the first prompt of
the class is the prompt. -/
structure OwnPrompt (dids : List DidInput) (soundsDir : String) (files : FlatDir)
    (promptKey : String) : Prop where
  plain : hasBreak (mohDirectory soundsDir (buildPromptMohClassName promptKey)) = false ∧
    readValue (mohDirectory soundsDir (buildPromptMohClassName promptKey)).toList =
      (mohDirectory soundsDir (buildPromptMohClassName promptKey)).toList
  selected : ∀ first, firstPromptKey dids (buildPromptMohClassName promptKey) = some first →
    SelectsOwn files (withoutCustom first) (withoutCustom promptKey)

section Prompt

variable {dids : List DidInput} {soundsDir text promptKey : String} {disk disk' : SoundsDisk}
  {did : DidInput}

/-- The class of a prompt after the files are written. -/
theorem playsOwnPrompt_iff (h : writePromptMusic dids soundsDir disk = some (text, disk'))
    (hdid : did ∈ dids) (hkey : promptMohKey did = some promptKey) :
    PlaysOwnPrompt soundsDir text disk' (buildPromptMohClassName promptKey)
      (withoutCustom promptKey) ↔ OwnPrompt dids soundsDir disk.files promptKey := by
  rw [writePromptMusic, Option.bind_eq_bind, Option.bind_eq_some_iff] at h
  obtain ⟨synced, hsynced, h⟩ := h
  obtain ⟨rfl, rfl⟩ := Prod.mk.inj (Option.some.inj h)
  obtain ⟨hfiles, -, hitems⟩ :=
    synced_directories hsynced (nodup_directories (mohBaseDir soundsDir) [] dids)
  obtain ⟨front, hfront⟩ := exists_directory_front (mohBaseDir soundsDir) [] dids
  have hfirst : (firstPromptKey dids (buildPromptMohClassName promptKey)).isSome :=
    List.find?_isSome.mpr ⟨promptKey, List.mem_filterMap.mpr ⟨did, hdid, hkey⟩, decide_eq_true rfl⟩
  obtain ⟨first, hfirst⟩ := Option.isSome_iff_exists.mp hfirst
  have hclass : buildPromptMohClassName first = buildPromptMohClassName promptKey := by
    simpa using List.find?_some hfirst
  have hitem : promptItem (mohBaseDir soundsDir) first ∈
      promptMohItems (mohBaseDir soundsDir) [] dids := by
    have hfind := @find_promptMohItems (mohBaseDir soundsDir) (buildPromptMohClassName promptKey) []
      dids nofun
    rw [hfirst] at hfind
    exact List.mem_of_find?_eq_some hfind
  have hdirectory : (promptItem (mohBaseDir soundsDir) first).directory =
      mohDirectory soundsDir (buildPromptMohClassName promptKey) := by
    rw [← hclass]
    rfl
  have hnames : ∀ item ∈ (promptMohItems (mohBaseDir soundsDir) [] dids).map PromptMohClass.input,
      (∀ c ∈ item.className.toList, isClassChar c = true) ∧
        item.directory = front ++ item.className := by
    intro item hmem
    obtain ⟨source, hsource, rfl⟩ := List.mem_map.mp hmem
    obtain ⟨-, key, hkey⟩ := promptItem_of_mem hsource
    refine ⟨fun c hc => ?_, hfront source hsource⟩
    rw [hkey] at hc
    exact isClassChar_className hc
  have hnodup : (((promptMohItems (mohBaseDir soundsDir) [] dids).map PromptMohClass.input).map
      MusiconholdClassInput.className).Nodup := by
    rw [List.map_map]
    exact nodup_classNames (mohBaseDir soundsDir) [] dids
  have hdefined := musicClass_iff hnodup (fun item hmem => (hnames item hmem).1)
    (fun item hmem => (hnames item hmem).2) (List.mem_map_of_mem hitem)
  rw [show (PromptMohClass.input (promptItem (mohBaseDir soundsDir) first)).directory =
    mohDirectory soundsDir (buildPromptMohClassName promptKey) from hdirectory] at hdefined
  rw [show (PromptMohClass.input (promptItem (mohBaseDir soundsDir) first)).className =
    buildPromptMohClassName promptKey from hclass] at hdefined
  obtain ⟨existing, hexisting⟩ := hitems _ hitem
  have hplays := @playsOwn_iff _ _ _ _ (withoutCustom promptKey) hexisting
  rw [hdirectory] at hplays
  constructor
  · rintro ⟨hclassDefined, hown⟩
    rw [hfiles] at hown
    refine ⟨hdefined.mp hclassDefined, fun other hother => ?_⟩
    obtain rfl := Option.some.inj (hfirst.symm.trans hother)
    exact hplays.mp hown
  · rintro ⟨hplain, hselected⟩
    refine ⟨hdefined.mpr hplain, ?_⟩
    rw [hfiles]
    exact hplays.mpr (hselected first hfirst)

/-- The prelude names one class, that of the prompt. -/
theorem className_of_mem_prelude (hkey : queuePromptKey did = some promptKey) {className : String} :
    setVar "QUEUE_PROMPT_MOH_CLASS" className ∈ renderPromptQueuePreludeLines did ↔
      className = buildPromptMohClassName promptKey := by
  have hargs : ∀ name : String, (setVar "QUEUE_PROMPT_MOH_CLASS" name).args =
      "__QUEUE_PROMPT_MOH_CLASS=".toList ++ name.toList := by
    intro name
    simp [setVar, plainStep]
  have hother : ∀ {line : Step}, line.args.take 16 ≠ "__QUEUE_PROMPT_M".toList →
      setVar "QUEUE_PROMPT_MOH_CLASS" className ≠ line := by
    rintro line hline rfl
    rw [hargs] at hline
    exact hline rfl
  have hprestart : setVar "QUEUE_PROMPT_MOH_CLASS" className ∉
      prestartLines (max 0 (did.branchPromptQueueDelaySeconds.getD 0)) := by
    unfold prestartLines
    split
    · simp only [List.mem_cons, List.not_mem_nil, or_false, not_or]
      refine ⟨hother (by decide), hother (by decide), hother (by decide), fun heq => ?_⟩
      exact absurd (congrArg Step.app heq) (by rw [setVar]; simp [plainStep])
    · exact List.not_mem_nil
  rw [renderPromptQueuePreludeLines, hkey]
  simp only [List.mem_append, List.mem_cons, List.not_mem_nil, or_false, hprestart]
  constructor
  · rintro (heq | heq | heq | heq)
    · exact absurd heq (hother (by decide))
    · exact absurd heq (hother (by decide))
    · have hlists := congrArg Step.args heq
      rw [hargs, hargs] at hlists
      exact String.toList_inj.mp (List.append_cancel_left hlists)
    · exact absurd heq (hother (by decide))
  · rintro rfl
    exact .inr (.inr (.inl rfl))

/-- The prompt that is looped is the one that is played in the queue. -/
theorem queuePromptKey_of_promptMohKey (hkey : promptMohKey did = some promptKey) :
    did.branchPromptWaitForCompletion = false ∧ queuePromptKey did = some promptKey := by
  rw [promptMohKey] at hkey
  split at hkey
  · cases hkey
  · next hwait =>
    obtain ⟨hsome, hstart⟩ := Option.filter_eq_some_iff.mp hkey
    refine ⟨by simpa using hwait, ?_⟩
    rw [queuePromptKey, if_neg hwait]
    refine Option.filter_eq_some_iff.mpr ⟨hsome, decide_eq_true ?_⟩
    rintro rfl
    exact absurd hstart (by decide)

/-- A DID with a queue plays its own prompt, in the class that its route names, exactly where the
path of the class can be read and what the first prompt of the class selects is its own. -/
theorem waiting_prompt_played_iff (h : writePromptMusic dids soundsDir disk = some (text, disk'))
    (hdid : did ∈ dids) (hqueue : (given did.directQueue).isSome = true)
    (hkey : promptMohKey did = some promptKey) :
    (∀ lines className, promptLines did = .ok lines →
      setVar "QUEUE_PROMPT_MOH_CLASS" className ∈ lines →
      PlaysOwnPrompt soundsDir text disk' className (withoutCustom promptKey)) ↔
    OwnPrompt dids soundsDir disk.files promptKey := by
  obtain ⟨hwait, hqueueKey⟩ := queuePromptKey_of_promptMohKey hkey
  have hlines : promptLines did = .ok (renderPromptQueuePreludeLines did) := by
    rw [promptLines, hwait, if_pos hqueue]
    simp [pure, Except.pure, bind, Except.bind]
  rw [← playsOwnPrompt_iff h hdid hkey]
  constructor
  · exact fun hall => hall _ _ hlines ((className_of_mem_prelude hqueueKey).mpr rfl)
  · intro hplays lines className hother hmem
    obtain rfl := Except.ok.inj (hlines.symm.trans hother)
    rw [(className_of_mem_prelude hqueueKey).mp hmem]
    exact hplays

/-- The lines of the prompts are lines of the route. -/
theorem promptLines_subset_route {ivrMenus : List IvrMenuInput}
    {forwardingRules : List ForwardingRuleInput} {entries : List BlocklistEntryInput}
    {holidayRules : List HolidayRuleInput} {block : Dialplan.Block}
    (h : renderDidStandardRoute did ivrMenus forwardingRules entries holidayRules = .ok (some block)) :
    ∃ lines, promptLines did = .ok lines ∧ ∀ line ∈ lines, line ∈ block.code := by
  obtain ⟨checks, -, h⟩ := bind_eq_ok.mp h
  obtain ⟨prompts, hprompts, h⟩ := bind_eq_ok.mp h
  refine ⟨prompts, hprompts, ?_⟩
  have hblock : ∀ noop more line, line ∈ prompts →
      line ∈ (didBlock did noop checks (prompts ++ more)).code := by
    intro noop more line hline
    exact List.mem_cons_of_mem _ (List.mem_append_right _ (List.mem_append_left _ hline))
  have hplain : plainRoute did ivrMenus checks prompts = .ok (some block) →
      ∀ line ∈ prompts, line ∈ block.code := by
    intro h
    obtain ⟨fallback, -, h⟩ := bind_eq_ok.mp h
    obtain ⟨more, -, rfl⟩ := Option.map_eq_some_iff.mp (pure_eq_ok.mp h)
    exact hblock _ more
  split at h
  · obtain ⟨holidayLines, -, h⟩ := bind_eq_ok.mp h
    unfold ruleRoute at h
    dsimp only at h
    split at h
    · obtain ⟨section?, -, rfl⟩ := Option.map_eq_some_iff.mp (pure_eq_ok.mp h)
      rw [List.append_assoc]
      exact hblock _ _
    · obtain ⟨fallback, -, h⟩ := bind_eq_ok.mp h
      split at h
      · split at h
        · exact hplain h
        · rw [← Option.some.inj (pure_eq_ok.mp h), windowRoute, List.append_assoc, List.append_assoc]
          exact hblock _ _
      · exact hplain h
  · exact hplain h

end Prompt

/-! ## Two spellings -/

section Spellings

def waitingDid (id number promptKey : String) : DidInput :=
  ⟨id, number, none, none, some "sales", none, [promptKey], none, false, none, none, none, true⟩

def customSounds : String := "/var/lib/asterisk/sounds/custom"

/-- Only the prompt that is written with a capital letter has files. -/
def welcomeFile : FlatDir := [("Hello.wav", [1])]

theorem ownFile_welcome {name : String} {content : List UInt8}
    (h : OwnFile welcomeFile "Hello" name content) : name = "Hello.wav" ∧ content = [1] := by
  obtain ⟨format, -, -, -, hget, rfl⟩ := h
  obtain ⟨file, hfile, hname⟩ := List.mem_map.mp (FlatDir.mem_names_of_get hget)
  obtain rfl := List.mem_singleton.mp hfile
  rw [← hname] at hget ⊢
  exact ⟨by decide, (Option.some.inj hget).symm⟩

theorem selectsOwn_welcome : SelectsOwn welcomeFile "Hello" "Hello" := by
  refine ⟨fun name content _ => ⟨?_, fun hfile => ?_⟩, fun name content silence hfile hgap => ?_⟩
  · rintro ⟨-, -, hget⟩
    obtain ⟨file, hfile, rfl⟩ := List.mem_map.mp (FlatDir.mem_names_of_get hget)
    obtain rfl := List.mem_singleton.mp hfile
    exact ⟨"wav", by decide, by decide, by decide, hget, by decide⟩
  · obtain ⟨rfl, rfl⟩ := ownFile_welcome hfile
    exact ⟨by decide, by decide, rfl⟩
  · obtain ⟨rfl, rfl⟩ := ownFile_welcome hfile
    cases hgap

theorem exists_of_isSome {α β : Type} {result : Option (α × β)} (h : result.isSome = true) :
    ∃ a b, result = some (a, b) := by
  obtain ⟨⟨a, b⟩, hresult⟩ := Option.isSome_iff_exists.mp h
  exact ⟨a, b, hresult⟩

/-- One DID plays its own prompt. -/
theorem welcome_prompt_played : ∃ text disk',
    writePromptMusic [waitingDid "d1" "07012345678" "custom/Hello"] customSounds
      ⟨welcomeFile, fun _ => []⟩ = some (text, disk') ∧
    ∀ lines className, promptLines (waitingDid "d1" "07012345678" "custom/Hello") = .ok lines →
      setVar "QUEUE_PROMPT_MOH_CLASS" className ∈ lines →
      PlaysOwnPrompt customSounds text disk' className "Hello" := by
  have hwrite : (writePromptMusic [waitingDid "d1" "07012345678" "custom/Hello"] customSounds
      ⟨welcomeFile, fun _ => []⟩).isSome = true := by decide
  obtain ⟨text, disk', hwrite⟩ := exists_of_isSome hwrite
  have hkey : promptMohKey (waitingDid "d1" "07012345678" "custom/Hello") = some "custom/Hello" := by
    decide
  refine ⟨text, disk', hwrite, (waiting_prompt_played_iff hwrite (List.mem_singleton_self _) rfl
    hkey).mpr ⟨by decide, fun first hfirst => ?_⟩⟩
  have hcustom : firstPromptKey [waitingDid "d1" "07012345678" "custom/Hello"]
      (buildPromptMohClassName "custom/Hello") = some "custom/Hello" := by decide
  obtain rfl := Option.some.inj (hcustom.symm.trans hfirst)
  exact selectsOwn_welcome

def spellings : List DidInput :=
  [waitingDid "d1" "07012345678" "custom/Hello", waitingDid "d2" "07087654321" "custom/hello"]

/-- The second DID is given the class of the first: its own file is not in the directory. -/
theorem shared_class_loses_prompt : ∃ text disk',
    writePromptMusic spellings customSounds ⟨[("Hello.wav", [1]), ("hello.wav", [2])], fun _ => []⟩ =
      some (text, disk') ∧
    ∃ did ∈ spellings, (given did.directQueue).isSome = true ∧
      promptMohKey did = some "custom/hello" ∧
      ¬ ∀ lines className, promptLines did = .ok lines →
        setVar "QUEUE_PROMPT_MOH_CLASS" className ∈ lines →
        PlaysOwnPrompt customSounds text disk' className "hello" := by
  have hwrite : (writePromptMusic spellings customSounds
      ⟨[("Hello.wav", [1]), ("hello.wav", [2])], fun _ => []⟩).isSome = true := by decide +kernel
  obtain ⟨text, disk', hwrite⟩ := exists_of_isSome hwrite
  have hkey : promptMohKey (waitingDid "d2" "07087654321" "custom/hello") = some "custom/hello" := by
    decide
  have hmem : waitingDid "d2" "07087654321" "custom/hello" ∈ spellings := by simp [spellings]
  refine ⟨text, disk', hwrite, _, hmem, rfl, hkey, fun hall => ?_⟩
  have hqueueKey := (queuePromptKey_of_promptMohKey hkey).2
  have hplays := hall _ _ rfl ((className_of_mem_prelude hqueueKey).mpr rfl)
  obtain ⟨-, hselected⟩ := (playsOwnPrompt_iff hwrite hmem hkey).mp hplays
  have hfirst : firstPromptKey spellings (buildPromptMohClassName "custom/hello") =
      some "custom/Hello" := by decide +kernel
  have hown : OwnFile [("Hello.wav", [1]), ("hello.wav", [2])] "hello" "hello.wav" [2] :=
    ⟨"wav", by decide, by decide, by decide, by decide, by decide⟩
  obtain ⟨hstart, -⟩ := ((hselected _ hfirst).same "hello.wav" [2] (by decide)).mpr hown
  exact absurd hstart (by decide)

end Spellings

end KasterCti.Renderers
