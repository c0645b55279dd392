import KasterCti.Renderers.Pjsip

/-!
# Reading `pjsip.conf` back

A section is told apart by its name and its type. Every enabled trunk and every agent with a
password should have sections of its own.

Results:
1. `nodup_pjsipKeys`: when no two sections have one name and type.
2. `pjsip_reads_back_iff`: when every trunk and every agent finds its own sections.
-/

namespace KasterCti.Renderers

open ConfText Dialplan Lines

/-! ## What is read back -/

def sectionKey (sec : ConfSection) : Text × Option Text := (sec.name, sec.value? "type")

/-- A section of the name and type, with these values. -/
def HasSection (secs : List ConfSection) (name type : String) (values : List (String × String)) :
    Prop :=
  ∃ sec ∈ secs, sectionKey sec = (name.toList, some type.toList) ∧
    ∀ e ∈ values, sec.value? e.1 = some e.2.toList

/-- Every enabled trunk has its sections with its host, every agent with a password has its
sections, and no two sections have one name and type. -/
structure PjsipReadsBack (input : PjsipInput) (text : String) : Prop where
  endpoints : ∀ trunk ∈ enabledTrunks input,
    HasSection (readConf text) (trunkName trunk) "endpoint" [("aors", trunkName trunk ++ "-aor")]
  aors : ∀ trunk ∈ enabledTrunks input, HasSection (readConf text) (trunkName trunk ++ "-aor") "aor"
    [("contact", "sip:" ++ trunk.host ++ ":" ++ toString trunk.port)]
  identifies : ∀ trunk ∈ enabledTrunks input,
    HasSection (readConf text) (trunkName trunk ++ "-identify") "identify"
      [("endpoint", trunkName trunk), ("match", trunk.host)]
  agents : ∀ agent ∈ passwordAgents input,
    HasSection (readConf text) (agent.extension ++ "-auth") "auth" [] ∧
    HasSection (readConf text) agent.extension "aor" [] ∧
    HasSection (readConf text) agent.extension "endpoint" []
  keys : ((readConf text).map sectionKey).Nodup

/-- The trunks' slugs differ, their hosts are read as they are written, and no extension is the
name of a trunk's section. -/
structure CleanPjsip (input : PjsipInput) : Prop where
  slugs : ((enabledTrunks input).map fun trunk => toSlug trunk.name).Nodup
  hosts : ∀ trunk ∈ enabledTrunks input,
    ';' ∉ trunk.host.toList ∧ trunk.host.toList.head? ≠ some '>' ∧ Stripped trunk.host.toList
  extensions : ∀ agent ∈ passwordAgents input, SectionName agent.extension
  apart : ∀ agent ∈ passwordAgents input, ∀ trunk ∈ enabledTrunks input,
    agent.extension ≠ trunkName trunk ∧ agent.extension ≠ trunkName trunk ++ "-aor"

/-! ### Names and types -/

/-- Name and type of the sections of a block. -/
def blockKey (block : Block) : Text × Option Text := sectionKey (sectionOf block.1 block.2)

def keyOf (name type : String) : Text × Option Text := (name.toList, some type.toList)

theorem keyOf_inj {name name' type type' : String} :
    keyOf name type = keyOf name' type' ↔ name = name' ∧ type = type' := by
  simp [keyOf, String.toList_inj]

def headerKeys (input : PjsipInput) : List (Text × Option Text) :=
  [keyOf "global" "global", keyOf "transport-udp" "transport", keyOf "transport-ws" "transport"] ++
    if needsTrunkTransport input then [keyOf trunkTransport "transport"] else []

def trunkKeys (trunk : TrunkInput) : List (Text × Option Text) :=
  (if trunkHasAuth trunk then [keyOf (trunkName trunk ++ "-auth") "auth"] else []) ++
  [keyOf (trunkName trunk ++ "-aor") "aor", keyOf (trunkName trunk ++ "-identify") "identify",
    keyOf (trunkName trunk) "endpoint"]

def agentKeys (agent : AgentInput) : List (Text × Option Text) :=
  [keyOf (agent.extension ++ "-auth") "auth", keyOf agent.extension "aor",
    keyOf agent.extension "endpoint"]

/-- The type stands first in every block. -/
theorem blockKey_type {name type : String} (es : List (String × String))
    (htype : readValue type.toList = type.toList) :
    blockKey (name, ("type", type) :: es) = keyOf name type := by
  have hvalue : (sectionOf name (("type", type) :: es)).value? "type" = some type.toList := by
    rw [value?_sectionOf_cons, if_pos (by decide), htype]
  rw [blockKey, sectionKey, hvalue]
  rfl

theorem readValue_types : List.Forall (fun type => readValue type.toList = type.toList)
    ["global", "transport", "auth", "aor", "identify", "endpoint"] := by
  refine ⟨?_, ?_, ?_, ?_, ?_, ?_⟩ <;> decide

theorem keys_trunkBlocks (trunk : TrunkInput) (transport : String) :
    (trunkBlocks trunk transport).map blockKey = trunkKeys trunk := by
  obtain ⟨-, -, hauth, haor, hidentify, hendpoint⟩ := readValue_types
  rw [trunkBlocks, trunkKeys, List.map_append]
  simp only [List.map_cons, List.map_nil, List.cons_append, blockKey_type _ haor,
    blockKey_type _ hidentify, blockKey_type _ hendpoint]
  split
  · rw [List.map_cons, blockKey_type _ hauth]
    rfl
  · rfl

theorem keys_agentBlocks (agent : AgentInput) :
    (agentBlocks agent).map blockKey = agentKeys agent := by
  obtain ⟨-, -, hauth, haor, -, hendpoint⟩ := readValue_types
  rw [agentBlocks, agentKeys]
  simp only [List.map_cons, List.map_nil, List.cons_append, blockKey_type _ hauth,
    blockKey_type _ haor, blockKey_type _ hendpoint]

theorem keys_headerBlocks (input : PjsipInput) :
    (headerBlocks input).map blockKey = headerKeys input := by
  obtain ⟨hglobal, htransport, -⟩ := readValue_types
  rw [headerBlocks, headerKeys, List.map_append]
  simp only [List.map_cons, List.map_nil, List.cons_append, blockKey_type _ hglobal,
    blockKey_type _ htransport]
  split
  · rw [List.map_cons, blockKey_type _ htransport]
    rfl
  · rfl

def pjsipKeys (input : PjsipInput) : List (Text × Option Text) :=
  headerKeys input ++ (enabledTrunks input).flatMap trunkKeys ++
    (passwordAgents input).flatMap agentKeys

theorem keys_pjsipBlocks (input : PjsipInput) :
    (sectionsOf (pjsipBlocks input)).map sectionKey = pjsipKeys input := by
  have hblocks : (sectionsOf (pjsipBlocks input)).map sectionKey =
      (pjsipBlocks input).map blockKey := by
    rw [sectionsOf, List.map_map]
    rfl
  rw [hblocks, pjsipBlocks, pjsipKeys, List.map_append, List.map_append, List.map_flatMap,
    List.map_flatMap, keys_headerBlocks]
  simp only [keys_trunkBlocks, keys_agentBlocks]

theorem mem_headerKeys {input : PjsipInput} {key : Text × Option Text} (h : key ∈ headerKeys input) :
    ∃ name type, key = keyOf name type ∧ type ∈ ["global", "transport"] := by
  rw [headerKeys] at h
  rcases List.mem_append.1 h with h | h
  · simp only [List.mem_cons, List.not_mem_nil, or_false] at h
    rcases h with rfl | rfl | rfl
    exacts [⟨_, _, rfl, by decide⟩, ⟨_, _, rfl, by decide⟩, ⟨_, _, rfl, by decide⟩]
  · split at h
    · exact ⟨_, _, List.mem_singleton.1 h, by decide⟩
    · cases h

theorem mem_trunkKeys {trunk : TrunkInput} {key : Text × Option Text} (h : key ∈ trunkKeys trunk) :
    key = keyOf (trunkName trunk ++ "-auth") "auth" ∨ key = keyOf (trunkName trunk ++ "-aor") "aor" ∨
    key = keyOf (trunkName trunk ++ "-identify") "identify" ∨
    key = keyOf (trunkName trunk) "endpoint" := by
  rw [trunkKeys] at h
  rcases List.mem_append.1 h with h | h
  · split at h
    · exact .inl (List.mem_singleton.1 h)
    · cases h
  · simp only [List.mem_cons, List.not_mem_nil, or_false] at h
    exact .inr h

theorem mem_agentKeys {agent : AgentInput} {key : Text × Option Text} :
    key ∈ agentKeys agent ↔ key = keyOf (agent.extension ++ "-auth") "auth" ∨
      key = keyOf agent.extension "aor" ∨ key = keyOf agent.extension "endpoint" := by
  simp only [agentKeys, List.mem_cons, List.not_mem_nil, or_false]

theorem nodup_headerKeys (input : PjsipInput) : (headerKeys input).Nodup := by
  rw [headerKeys]
  split <;> simp [keyOf_inj, trunkTransport]

theorem nodup_trunkKeys (trunk : TrunkInput) : (trunkKeys trunk).Nodup := by
  rw [trunkKeys]
  split <;> simp [keyOf_inj]

theorem nodup_agentKeys (agent : AgentInput) : (agentKeys agent).Nodup := by
  simp [agentKeys, keyOf_inj]

theorem disjoint_trunkKeys {a b : TrunkInput} :
    (trunkKeys a).Disjoint (trunkKeys b) ↔ trunkName a ≠ trunkName b := by
  constructor
  · intro h heq
    have hmem : ∀ trunk, keyOf (trunkName trunk) "endpoint" ∈ trunkKeys trunk := by
      simp [trunkKeys]
    have hb := hmem b
    rw [← heq] at hb
    exact h (hmem a) hb
  · intro hne key ha hb
    apply hne
    rcases mem_trunkKeys ha with rfl | rfl | rfl | rfl <;>
      simpa [keyOf_inj] using mem_trunkKeys hb

theorem disjoint_agentKeys {a b : AgentInput} (hne : a.extension ≠ b.extension) :
    (agentKeys a).Disjoint (agentKeys b) := by
  intro key ha hb
  apply hne
  rcases mem_agentKeys.1 ha with rfl | rfl | rfl <;>
    simpa [keyOf_inj] using mem_agentKeys.1 hb

/-- An extension stands apart from a trunk's section names. -/
def Apart (trunk : TrunkInput) (agent : AgentInput) : Prop :=
  agent.extension ≠ trunkName trunk ∧ agent.extension ≠ trunkName trunk ++ "-aor"

theorem disjoint_trunk_agent {trunk : TrunkInput} {agent : AgentInput} :
    (trunkKeys trunk).Disjoint (agentKeys agent) ↔ Apart trunk agent := by
  constructor
  · intro h
    constructor
    · intro heq
      refine h (?_ : keyOf agent.extension "endpoint" ∈ _) (mem_agentKeys.2 (.inr (.inr rfl)))
      simp [trunkKeys, heq]
    · intro heq
      refine h (?_ : keyOf agent.extension "aor" ∈ _) (mem_agentKeys.2 (.inr (.inl rfl)))
      simp [trunkKeys, heq]
  · rintro ⟨hname, haor⟩ key htrunk hagent
    rcases mem_agentKeys.1 hagent with rfl | rfl | rfl
    · exact hname (by simpa [keyOf_inj] using mem_trunkKeys htrunk)
    · exact haor (by simpa [keyOf_inj] using mem_trunkKeys htrunk)
    · exact hname (by simpa [keyOf_inj] using mem_trunkKeys htrunk)

theorem nodup_pjsipKeys {input : PjsipInput}
    (hext : ((passwordAgents input).map AgentInput.extension).Nodup) :
    (pjsipKeys input).Nodup ↔ ((enabledTrunks input).map trunkName).Nodup ∧
      ∀ agent ∈ passwordAgents input, ∀ trunk ∈ enabledTrunks input, Apart trunk agent := by
  have htrunks : ((enabledTrunks input).flatMap trunkKeys).Nodup ↔
      ((enabledTrunks input).map trunkName).Nodup := by
    rw [List.nodup_flatMap, @List.Nodup.eq_1 String, List.pairwise_map]
    exact ⟨fun h => h.2.imp fun hab => disjoint_trunkKeys.1 hab,
      fun h => ⟨fun trunk _ => nodup_trunkKeys trunk, h.imp fun hab => disjoint_trunkKeys.2 hab⟩⟩
  have hagents : ((passwordAgents input).flatMap agentKeys).Nodup := by
    rw [List.nodup_flatMap]
    rw [List.Nodup, List.pairwise_map] at hext
    exact ⟨fun agent _ => nodup_agentKeys agent, hext.imp fun hab => disjoint_agentKeys hab⟩
  have hheader : ∀ key ∈ headerKeys input,
      (∀ trunk, key ∉ trunkKeys trunk) ∧ ∀ agent, key ∉ agentKeys agent := by
    intro key hkey
    obtain ⟨name, type, rfl, htype⟩ := mem_headerKeys hkey
    simp only [List.mem_cons, List.not_mem_nil, or_false] at htype
    constructor
    · intro trunk hmem
      rcases htype with rfl | rfl <;> simpa [keyOf_inj] using mem_trunkKeys hmem
    · intro agent hmem
      rcases htype with rfl | rfl <;> simpa [keyOf_inj] using mem_agentKeys.1 hmem
  rw [pjsipKeys, List.nodup_append', List.nodup_append', htrunks]
  constructor
  · rintro ⟨⟨-, hnames, -⟩, -, hdisjoint⟩
    refine ⟨hnames, fun agent hagent trunk htrunk => disjoint_trunk_agent.1 fun key ht ha => ?_⟩
    exact hdisjoint (List.mem_append_right _ (List.mem_flatMap.2 ⟨trunk, htrunk, ht⟩))
      (List.mem_flatMap.2 ⟨agent, hagent, ha⟩)
  · rintro ⟨hnames, hapart⟩
    refine ⟨⟨nodup_headerKeys input, hnames, fun key hkey hmem => ?_⟩, hagents,
      fun key hkey hmem => ?_⟩
    · obtain ⟨trunk, -, ht⟩ := List.mem_flatMap.1 hmem
      exact (hheader key hkey).1 trunk ht
    · obtain ⟨agent, hagent, ha⟩ := List.mem_flatMap.1 hmem
      rcases List.mem_append.1 hkey with hkey | hkey
      · exact (hheader key hkey).2 agent ha
      · obtain ⟨trunk, htrunk, ht⟩ := List.mem_flatMap.1 hkey
        exact disjoint_trunk_agent.2 (hapart agent hagent trunk htrunk) ht ha

/-! ### The values of a trunk -/

theorem isBlank_of_slugChar {c : Char} (h : isSlugChar c = true ∨ c = '-') : isBlank c = false := by
  have hle : 33 ≤ c.toNat := by
    rcases h with h | rfl
    · simp only [isSlugChar, JsText.isDigit, Bool.or_eq_true, Bool.and_eq_true, decide_eq_true_eq,
        Char.le_def, UInt32.le_iff_toNat_le] at h
      change (48 ≤ c.toNat ∧ c.toNat ≤ 57) ∨ (97 ≤ c.toNat ∧ c.toNat ≤ 122) at h
      omega
    · decide
  exact decide_eq_false (Nat.not_le_of_lt hle)

theorem isBlank_of_int {n : Int} {c : Char} (h : c ∈ (toString n).toList) : isBlank c = false := by
  rcases isDigit_or_minus h with hdigit | rfl
  · refine isBlank_of_slugChar (.inl ?_)
    simp only [Char.isDigit, Bool.and_eq_true, decide_eq_true_eq] at hdigit
    simp only [isSlugChar, JsText.isDigit, Bool.or_eq_true, Bool.and_eq_true, decide_eq_true_eq]
    exact .inl hdigit
  · decide

section Values
variable {trunk : TrunkInput}

theorem readValue_trunkName {tail : String}
    (htail : ∀ c ∈ tail.toList, isSlugChar c = true ∨ c = '-') :
    readValue (trunkName trunk ++ tail).toList = (trunkName trunk ++ tail).toList := by
  have hchars := @slugChar_of_trunkName trunk tail htail
  have hother {c : Char} (hslug : isSlugChar c = false) (hdash : c ≠ '-') :
      c ∉ (trunkName trunk ++ tail).toList := by
    intro hc
    rcases hchars c hc with hd | hd
    · rw [hslug] at hd
      cases hd
    · exact hdash hd
  exact readValue_eq_self.2 ⟨hother (by decide) (by decide),
    fun harrow => hother (by decide) (by decide) (List.mem_of_head? harrow),
    stripped_of_free fun c hc => isBlank_of_slugChar (hchars c hc)⟩

theorem readValue_contact (h : ';' ∉ trunk.host.toList) :
    readValue ("sip:" ++ trunk.host ++ ":" ++ toString trunk.port).toList =
      ("sip:" ++ trunk.host ++ ":" ++ toString trunk.port).toList := by
  have htext : ("sip:" ++ trunk.host ++ ":" ++ toString trunk.port).toList =
      "sip:".toList ++ trunk.host.toList ++ (":".toList ++ (toString trunk.port).toList) := by
    simp only [String.toList_append, List.append_assoc]
  have hfront : ∀ c ∈ "sip:".toList ++ ":".toList, c ≠ ';' ∧ isBlank c = false := by decide
  obtain ⟨hlead, hcolon⟩ := List.forall_mem_append.1 hfront
  rw [htext]
  refine readValue_eq_self.2 ⟨?_, ?_, stripped_between (by decide) (by simp) ?_⟩
  · intro hmem
    rcases List.mem_append.1 hmem with hmem | hmem
    · rcases List.mem_append.1 hmem with hmem | hmem
      · exact (hlead _ hmem).1 rfl
      · exact h hmem
    · rcases List.mem_append.1 hmem with hmem | hmem
      · exact (hcolon _ hmem).1 rfl
      · exact (fieldChar_of_int hmem).2.1 rfl
  · simp
  · exact List.forall_mem_append.2 ⟨fun c hc => (hlead c hc).2,
      List.forall_mem_append.2 ⟨fun c hc => (hcolon c hc).2, fun c hc => isBlank_of_int hc⟩⟩

/-- The section of a trunk that tells by which host it is recognised. -/
def identifySection (trunk : TrunkInput) : ConfSection :=
  sectionOf (trunkName trunk ++ "-identify")
    [("type", "identify"), ("endpoint", trunkName trunk), ("match", trunk.host)]

theorem sectionOf_mem {input : PjsipInput} (h : trunk ∈ enabledTrunks input) {name : String}
    {es : List (String × String)} (hblock : (name, es) ∈ trunkBlocks trunk (transportOf input)) :
    sectionOf name es ∈ sectionsOf (pjsipBlocks input) :=
  List.mem_map.2 ⟨(name, es), List.mem_append_left _
    (List.mem_append_right _ (List.mem_flatMap.2 ⟨trunk, h, hblock⟩)), rfl⟩

theorem identifySection_mem {input : PjsipInput} (h : trunk ∈ enabledTrunks input) :
    identifySection trunk ∈ sectionsOf (pjsipBlocks input) :=
  sectionOf_mem h (List.mem_append_right _ (List.mem_cons_of_mem _ List.mem_cons_self))

theorem identifySection_match : (identifySection trunk).value? "match" =
    some (readValue trunk.host.toList) := by
  rw [identifySection, value?_sectionOf_cons, if_neg (by decide), value?_sectionOf_cons,
    if_neg (by decide), value?_sectionOf_cons, if_pos (by decide)]

theorem identifySection_endpoint : (identifySection trunk).value? "endpoint" =
    some (trunkName trunk).toList := by
  have hname := @readValue_trunkName trunk "" fun c hc => absurd hc List.not_mem_nil
  rw [String.append_empty] at hname
  rw [identifySection, value?_sectionOf_cons, if_neg (by decide), value?_sectionOf_cons,
    if_pos (by decide), hname]

theorem aorSection_contact (name contact : String) :
    (sectionOf name [("type", "aor"), ("contact", contact)]).value? "contact" =
      some (readValue contact.toList) := by
  rw [value?_sectionOf_cons, if_neg (by decide), value?_sectionOf_cons, if_pos (by decide)]

theorem endpointSection_aors (name transport context disallow allow aors : String)
    (es : List (String × String)) :
    (sectionOf name (("type", "endpoint") :: ("transport", transport) :: ("context", context) ::
      ("disallow", disallow) :: ("allow", allow) :: ("aors", aors) :: es)).value? "aors" =
      some (readValue aors.toList) := by
  simp only [value?_sectionOf_cons]
  rw [if_neg (by decide), if_neg (by decide), if_neg (by decide), if_neg (by decide),
    if_neg (by decide), if_pos (by decide)]

end Values

theorem nodup_trunkNames {input : PjsipInput} : ((enabledTrunks input).map trunkName).Nodup ↔
    ((enabledTrunks input).map fun trunk => toSlug trunk.name).Nodup := by
  have hnames : (enabledTrunks input).map trunkName =
      ((enabledTrunks input).map fun trunk => toSlug trunk.name).map ("trunk-" ++ ·) := by
    rw [List.map_map]
    rfl
  rw [hnames]
  exact List.nodup_map_iff fun a b h => (String.append_right_inj _).1 h

/-- A block of the name and type, and the values that are read in it. -/
theorem hasSection_of_mem {secs : List ConfSection} {name type : String}
    {es values : List (String × String)} (hmem : sectionOf name (("type", type) :: es) ∈ secs)
    (htype : readValue type.toList = type.toList)
    (hvalues : ∀ e ∈ values,
      (sectionOf name (("type", type) :: es)).value? e.1 = some e.2.toList) :
    HasSection secs name type values :=
  ⟨_, hmem, blockKey_type es htype, hvalues⟩

section ReadBack
variable {input : PjsipInput} {text : String}

theorem hasSection_of_key {secs : List ConfSection} {name type : String}
    (h : keyOf name type ∈ secs.map sectionKey) : HasSection secs name type [] := by
  obtain ⟨sec, hsec, hkey⟩ := List.mem_map.1 h
  exact ⟨sec, hsec, hkey, fun e he => absurd he List.not_mem_nil⟩

theorem PjsipReadsBack.names (h : PjsipReadsBack input text) :
    ∀ agent ∈ passwordAgents input, SectionName agent.extension := by
  intro agent hagent c hc
  obtain ⟨sec, hsec, hkey, -⟩ := (h.agents agent hagent).2.1
  have hname : sec.name = agent.extension.toList := congrArg Prod.fst hkey
  obtain ⟨hclose, hsemi, -⟩ := name_of_mem_readConf hsec (hname ▸ hc)
  exact ⟨hclose, hsemi⟩

theorem PjsipReadsBack.clean (h : PjsipReadsBack input text) (hok : renderPjsip input = .ok text)
    (hext : ((passwordAgents input).map AgentInput.extension).Nodup) : CleanPjsip input := by
  have hread := readConf_renderPjsip hok h.names
  have hkeys := h.keys
  rw [hread] at hkeys
  obtain ⟨hslugs, hapart⟩ := (nodup_pjsipKeys hext).1 (keys_pjsipBlocks input ▸ hkeys)
  refine ⟨nodup_trunkNames.1 hslugs, fun trunk htrunk => ?_, h.names, hapart⟩
  obtain ⟨sec, hsec, hkey, hvalues⟩ := h.identifies trunk htrunk
  rw [hread] at hsec
  have hrendered : sectionKey (identifySection trunk) =
      keyOf (trunkName trunk ++ "-identify") "identify" :=
    blockKey_type _ readValue_types.2.2.2.2.1
  have heq : sec = identifySection trunk :=
    List.inj_on_of_nodup_map hkeys hsec (identifySection_mem htrunk) (hkey.trans hrendered.symm)
  have hmatch := hvalues ("match", trunk.host) (by simp)
  rw [heq, identifySection_match] at hmatch
  exact readValue_eq_self.1 (Option.some.inj hmatch)

theorem CleanPjsip.readsBack (h : CleanPjsip input) (hok : renderPjsip input = .ok text)
    (hext : ((passwordAgents input).map AgentInput.extension).Nodup) :
    PjsipReadsBack input text := by
  have hread := readConf_renderPjsip hok h.extensions
  have hkeys : (readConf text).map sectionKey = pjsipKeys input := by
    rw [hread, keys_pjsipBlocks]
  obtain ⟨-, -, -, haor, hidentify, hendpoint⟩ := readValue_types
  refine ⟨fun trunk htrunk => ?_, fun trunk htrunk => ?_, fun trunk htrunk => ?_,
    fun agent hagent => ?_, ?_⟩
  · rw [hread]
    refine hasSection_of_mem (sectionOf_mem htrunk (List.mem_append_right _
      (List.mem_cons_of_mem _ (List.mem_cons_of_mem _ List.mem_cons_self)))) hendpoint ?_
    have haors := @readValue_trunkName trunk "-aor" (by decide)
    refine List.forall_mem_cons.2 ⟨?_, fun e he => absurd he List.not_mem_nil⟩
    exact (endpointSection_aors _ _ _ _ _ _ _).trans (congrArg some haors)
  · rw [hread]
    refine hasSection_of_mem (sectionOf_mem htrunk (List.mem_append_right _ List.mem_cons_self))
      haor ?_
    refine List.forall_mem_cons.2 ⟨?_, fun e he => absurd he List.not_mem_nil⟩
    exact (aorSection_contact _ _).trans (congrArg some (readValue_contact (h.hosts trunk htrunk).1))
  · rw [hread]
    refine hasSection_of_mem (identifySection_mem htrunk) hidentify ?_
    refine List.forall_mem_cons.2 ⟨identifySection_endpoint,
      List.forall_mem_cons.2 ⟨?_, fun e he => absurd he List.not_mem_nil⟩⟩
    exact identifySection_match.trans
      (congrArg some (readValue_eq_self.2 (h.hosts trunk htrunk)))
  · have hkey {key : Text × Option Text} (hmem : key ∈ agentKeys agent) :
        key ∈ (readConf text).map sectionKey := by
      rw [hkeys]
      exact List.mem_append_right _ (List.mem_flatMap.2 ⟨agent, hagent, hmem⟩)
    exact ⟨hasSection_of_key (hkey (mem_agentKeys.2 (.inl rfl))),
      hasSection_of_key (hkey (mem_agentKeys.2 (.inr (.inl rfl)))),
      hasSection_of_key (hkey (mem_agentKeys.2 (.inr (.inr rfl))))⟩
  · rw [hkeys]
    exact (nodup_pjsipKeys hext).2 ⟨nodup_trunkNames.2 h.slugs, h.apart⟩

/-- The file is read back exactly if slugs, hosts and extensions are clean. -/
theorem pjsip_reads_back_iff (hok : renderPjsip input = .ok text)
    (hext : ((passwordAgents input).map AgentInput.extension).Nodup) :
    PjsipReadsBack input text ↔ CleanPjsip input :=
  ⟨fun h => h.clean hok hext, fun h => h.readsBack hok hext⟩

end ReadBack

end KasterCti.Renderers
