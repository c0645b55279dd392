import KasterCti.Desktop.CallStateStore

/-!
# Pairing and ending on the desktop

A call of the server and a dialog of the softphone are paired when their numbers match and they
arrived close together. `_serverReceivedAt` is stamped and `_paired` is computed again with every
update, and the end of a call leaves no trace in the fields.

Results:
1. `adopt_taken`, `adopt_left`: what a created or updated call does.
2. `pairing_and_ending_iff`: the runs in which a pair stays and an ended call stays away.
-/

namespace KasterCti.Desktop

/-! ## Pairs, and what ends them -/

/-- What is shown pairs the call `c` with the dialog `d`. -/
def Paired (c d : String) (current : Option CurrentCall) : Prop :=
  ∃ shown ∈ current, shown.isPaired = true ∧ shown.server.map ActiveCall.callId = some c ∧
    shown.sip.map LocalSipCall.dialogId = some d

def Shown (c : String) (current : Option CurrentCall) : Prop :=
  ∃ shown ∈ current, shown.server.map ActiveCall.callId = some c

/-- The step is the created or updated event of a call, read at these times. -/
inductive Reports : StoreStep → ActiveCall → Int → Int → Prop
  | created (call : ActiveCall) (asked received : Int) :
      Reports (.apply (.callCreated call) asked received) call asked received
  | updated (call : ActiveCall) (asked received : Int) :
      Reports (.apply (.callUpdated call) asked received) call asked received

/-- The dialog ends, the call ends, it is a colleague's now, or a new dialog arrives. -/
def Ends (config : StoreConfig) (c d : String) : StoreStep → Prop
  | .apply (.callCreated call) _ _ => call.callId = c ∧ ¬ Ours config call
  | .apply (.callUpdated call) _ _ => call.callId = c ∧ ¬ Ours config call
  | .apply (.callEnded call) _ _ => call.callId = c
  | .sipIncoming _ _ _ => True
  | .sipEnded dialogId => dialogId = d
  | _ => False

def EndedIn (c : String) (steps : List StoreStep) : Prop :=
  ∃ call asked received, .apply (.callEnded call) asked received ∈ steps ∧ call.callId = c

/-- A pair stays while nothing ends it. -/
def StablePairs (config : StoreConfig) (steps : List StoreStep) : Prop :=
  ∀ pre mid post c d, steps = pre ++ mid ++ post → Paired c d (storeAfter config pre).current →
    (∀ e ∈ mid, ¬ Ends config c d e) → Paired c d (storeAfter config (pre ++ mid)).current

/-- A call whose end came is not shown after it. -/
def FinalEnds (config : StoreConfig) (steps : List StoreStep) : Prop :=
  ∀ pre post c, steps = pre ++ post → EndedIn c pre → ¬ Shown c (storeAfter config pre).current

/-! ## The condition -/

/-- A created or updated call is taken over: it is not a colleague's, it is assigned or expected
or held, and no other call is held. -/
def Taken (config : StoreConfig) (held : Held) (call : ActiveCall) (asked : Int) : Prop :=
  Ours config call ∧
  (call.primaryAgentId = none → held.isExpectingOutbound asked = true ∨
    held.holdsCall call.callId = true) ∧
  (held.server = none ∨ held.holdsCall call.callId = true)

/-- News of a paired call come within the window of its dialog, and its number still matches. -/
def KeepsPair (config : StoreConfig) (held : Held) (e : StoreStep) : Prop :=
  ∀ call asked received, Reports e call asked received → Ours config call →
    held.holdsCall call.callId = true → held.paired = true → ∀ sip ∈ held.sip,
      |sip.arrivedAt - received| ≤ config.pairingWindow ∧
        sameNumber call.ani sip.remoteNumber = true

/-- News of a call whose end came are taken over. -/
def Revives (config : StoreConfig) (pre : List StoreStep) (held : Held) (e : StoreStep) : Prop :=
  ∃ call asked received, Reports e call asked received ∧ EndedIn call.callId pre ∧
    Taken config held call asked

/-! ## The operations -/

variable {held : Held}

theorem mem_snapshot {shown : CurrentCall} :
    shown ∈ held.snapshot ↔
      (held.server ≠ none ∨ held.sip ≠ none) ∧ ⟨held.server, held.sip, held.paired⟩ = shown := by
  rw [Held.snapshot]
  split
  · rename_i hnone
    simp only [Bool.and_eq_true, decide_eq_true_eq] at hnone
    simp [hnone.1, hnone.2]
  · rename_i hsome
    simp only [Bool.and_eq_true, decide_eq_true_eq, not_and_or] at hsome
    simp [hsome]

theorem holdsCall_iff {c : String} :
    held.holdsCall c = true ↔ held.server.map ActiveCall.callId = some c := by
  rw [Held.holdsCall]
  cases held.server <;> simp

/-- The private fields pair `c` with `d`. -/
structure Pairs (c d : String) (held : Held) : Prop where
  paired : held.paired = true
  server : held.server.map ActiveCall.callId = some c
  sip : held.sip.map LocalSipCall.dialogId = some d

theorem paired_snapshot {c d : String} : Paired c d held.snapshot ↔ Pairs c d held := by
  constructor
  · rintro ⟨shown, hshown, hpaired, hserver, hsip⟩
    obtain ⟨-, rfl⟩ := mem_snapshot.1 hshown
    exact ⟨hpaired, hserver, hsip⟩
  · intro h
    refine ⟨_, mem_snapshot.2 ⟨.inl ?_, rfl⟩, h.paired, h.server, h.sip⟩
    intro hnone
    have hserver := h.server
    rw [hnone] at hserver
    cases hserver

theorem shown_snapshot {c : String} :
    Shown c held.snapshot ↔ held.server.map ActiveCall.callId = some c := by
  constructor
  · rintro ⟨shown, hshown, hserver⟩
    obtain ⟨-, rfl⟩ := mem_snapshot.1 hshown
    exact hserver
  · intro h
    refine ⟨_, mem_snapshot.2 ⟨.inl ?_, rfl⟩, h⟩
    intro hnone
    rw [hnone] at h
    cases h

variable {config : StoreConfig}

theorem shown_iff {c : String} {steps : List StoreStep} :
    Shown c (storeAfter config steps).current ↔
      (storeAfter config steps).held.server.map ActiveCall.callId = some c := by
  rw [current_eq, shown_snapshot]

theorem paired_iff {c d : String} {steps : List StoreStep} :
    Paired c d (storeAfter config steps).current ↔ Pairs c d (storeAfter config steps).held := by
  rw [current_eq, paired_snapshot]

theorem held_snoc (config : StoreConfig) (steps : List StoreStep) (e : StoreStep) :
    (storeAfter config (steps ++ [e])).held =
      changeOf config e (storeAfter config steps).held := by
  rw [storeAfter, List.foldl_append]
  exact storeStep_held config _ e

theorem canPair_iff {server : ActiveCall} {sip : LocalSipCall} {receivedAt : Int}
    (hserver : held.server = some server) (hsip : held.sip = some sip)
    (hreceived : held.serverReceivedAt = some receivedAt) :
    held.canPair config = true ↔ |sip.arrivedAt - receivedAt| ≤ config.pairingWindow ∧
      sameNumber server.ani sip.remoteNumber = true := by
  have habs : (if sip.arrivedAt - receivedAt < 0 then -(sip.arrivedAt - receivedAt)
      else sip.arrivedAt - receivedAt) = |sip.arrivedAt - receivedAt| := by
    split
    · rename_i hneg
      exact (abs_of_neg hneg).symm
    · rename_i hnonneg
      exact (abs_of_nonneg (not_lt.1 hnonneg)).symm
  rw [Held.canPair, hserver, hsip, hreceived]
  simp only [habs]
  split
  · rename_i hfar
    exact ⟨fun hfalse => absurd hfalse Bool.false_ne_true, fun hnear => absurd hnear.1 (not_le.2 hfar)⟩
  · rename_i hnear
    exact ⟨fun hsame => ⟨not_lt.1 hnear, hsame⟩, fun hboth => hboth.2⟩

theorem keepCustomer_callId (call : ActiveCall) (server : Option ActiveCall) :
    (keepCustomer call server).callId = call.callId := by
  rw [keepCustomer]
  split <;> rfl

theorem keepCustomer_ani (call : ActiveCall) (server : Option ActiveCall) :
    (keepCustomer call server).ani = call.ani := by
  rw [keepCustomer]
  split <;> rfl

theorem any_colleague_iff {call : ActiveCall} :
    call.primaryAgentId.any (fun agentId => agentId ≠ config.agentId) = true ↔
      ¬ Ours config call := by
  rw [Ours]
  cases call.primaryAgentId <;> simp

theorem any_other_iff {c : String} :
    held.server.any (fun server => server.callId ≠ c) = true ↔
      ¬ (held.server = none ∨ held.holdsCall c = true) := by
  rw [Held.holdsCall]
  cases held.server <;> simp

section Adopt
variable {config : StoreConfig} {call : ActiveCall} {asked received : Int} {held : Held}

/-- The fields after a call was taken over, before `_paired` is computed. -/
def takeOver (call : ActiveCall) (received : Int) (held : Held) : Held :=
  { held with
    server := some (keepCustomer call held.server)
    serverReceivedAt := some received }

theorem adopt_taken (h : Taken config held call asked) :
    adopt config call asked received held =
      { takeOver call received held with
        paired := (takeOver call received held).canPair config } := by
  rw [adopt, if_neg, if_neg, if_neg]
  · rfl
  · rw [any_other_iff, not_not]
    exact h.2.2
  · intro hskip
    simp only [Bool.and_eq_true, decide_eq_true_eq, Bool.not_eq_true'] at hskip
    rcases h.2.1 hskip.1.1 with hexpect | hholds
    · exact absurd hexpect (Bool.eq_false_iff.1 hskip.1.2)
    · exact absurd hholds (Bool.eq_false_iff.1 hskip.2)
  · rw [any_colleague_iff, not_not]
    exact h.1

variable (received) in
/-- A call that is not taken over is released if it was held, and passed over otherwise. -/
theorem adopt_left (h : ¬ Taken config held call asked) :
    adopt config call asked received held = held ∨
      adopt config call asked received held = held.release ∧ ¬ Ours config call ∧
        held.holdsCall call.callId = true := by
  rw [adopt]
  split
  · rename_i hcolleague
    split
    · rename_i hholds
      exact .inr ⟨rfl, any_colleague_iff.1 hcolleague, hholds⟩
    · exact .inl rfl
  · rename_i hours
    split
    · exact .inl rfl
    · rename_i hkeep
      split
      · exact .inl rfl
      · rename_i hfree
        rw [any_colleague_iff, not_not] at hours
        rw [any_other_iff, not_not] at hfree
        refine absurd ⟨hours, fun hagent => ?_, hfree⟩ h
        simp only [hagent, decide_true, Bool.true_and, Bool.and_eq_true, Bool.not_eq_true',
          not_and_or, Bool.not_eq_false] at hkeep
        exact hkeep

end Adopt

/-! ## One step -/

section Step
variable {config : StoreConfig} {c d : String} {held : Held} {call : ActiveCall} {asked received : Int}

theorem changeOf_reports {e : StoreStep} (h : Reports e call asked received) :
    changeOf config e = adopt config call asked received := by
  cases h <;> rfl

/-- News of a held call that is not a colleague's are taken over. -/
theorem taken_of_holds (hours : Ours config call) (hholds : held.holdsCall call.callId = true) :
    Taken config held call asked :=
  ⟨hours, fun _ => .inr hholds, .inr hholds⟩

theorem takeOver_canPair_iff {sip : LocalSipCall} (hsip : sip ∈ held.sip) :
    (takeOver call received held).canPair config = true ↔
      |sip.arrivedAt - received| ≤ config.pairingWindow ∧
        sameNumber call.ani sip.remoteNumber = true := by
  rw [← keepCustomer_ani call held.server]
  exact canPair_iff rfl hsip rfl

variable (received) in
theorem adopt_server_taken (h : Taken config held call asked) :
    (adopt config call asked received held).server.map ActiveCall.callId = some call.callId := by
  rw [adopt_taken h]
  exact congrArg some (keepCustomer_callId call held.server)

variable (received) in
theorem adopt_server_left (h : ¬ Taken config held call asked) :
    (adopt config call asked received held).server = held.server ∨
      (adopt config call asked received held).server = none := by
  rcases adopt_left received h with hsame | ⟨hrelease, -⟩
  · exact .inl (congrArg Held.server hsame)
  · exact .inr (congrArg Held.server hrelease)

theorem pairs_adopt (h : Pairs c d held) (hends : ¬ (call.callId = c ∧ ¬ Ours config call))
    (hkeeps : Ours config call → held.holdsCall call.callId = true → ∀ sip ∈ held.sip,
      |sip.arrivedAt - received| ≤ config.pairingWindow ∧
        sameNumber call.ani sip.remoteNumber = true) :
    Pairs c d (adopt config call asked received held) := by
  have hheld {callId : String} (hholds : held.holdsCall callId = true) : callId = c :=
    Option.some.inj ((holdsCall_iff.1 hholds).symm.trans h.server)
  by_cases htaken : Taken config held call asked
  · have hholds : held.holdsCall call.callId = true := by
      refine htaken.2.2.resolve_left fun hnone => ?_
      have hserver := h.server
      rw [hnone] at hserver
      cases hserver
    obtain ⟨sip, hsip, -⟩ := Option.map_eq_some_iff.1 h.sip
    have hserver := adopt_server_taken received htaken
    rw [hheld hholds] at hserver
    refine ⟨?_, hserver, ?_⟩
    · rw [adopt_taken htaken]
      exact (takeOver_canPair_iff hsip).2 (hkeeps htaken.1 hholds sip hsip)
    · rw [adopt_taken htaken]
      exact h.sip
  · rcases adopt_left received htaken with hsame | ⟨-, hcolleague, hholds⟩
    · rw [hsame]
      exact h
    · exact absurd ⟨hheld hholds, hcolleague⟩ hends

theorem attachCustomer_server (callId : String) (customer : Option CustomerInfo) (held : Held) :
    (attachCustomer callId customer held).server.map ActiveCall.callId =
      held.server.map ActiveCall.callId := by
  rw [attachCustomer]
  split
  · rename_i server hserver
    split
    · rw [hserver]
      rfl
    · rfl
  · rfl

/-- A step that does not end the pair keeps it, if it meets the condition. -/
theorem pairs_changeOf {e : StoreStep} (h : Pairs c d held) (hends : ¬ Ends config c d e)
    (hkeeps : KeepsPair config held e) : Pairs c d (changeOf config e held) := by
  cases e with
  | apply evt asked received =>
    cases evt with
    | callCreated call =>
      exact pairs_adopt h hends fun hours hholds =>
        hkeeps call asked received (.created call asked received) hours hholds h.paired
    | callUpdated call =>
      exact pairs_adopt h hends fun hours hholds =>
        hkeeps call asked received (.updated call asked received) hours hholds h.paired
    | callEnded call =>
      rw [changeOf, endCall, if_pos]
      · exact h
      · obtain ⟨server, hserver, hid⟩ := Option.map_eq_some_iff.1 h.server
        rw [hserver, Option.any_some]
        exact decide_eq_true fun heq => hends (heq.symm.trans hid)
    | screenPop callId customer =>
      refine ⟨?_, (attachCustomer_server callId customer held).trans h.server, ?_⟩
      · rw [changeOf, attachCustomer]
        split
        · split <;> exact h.paired
        · exact h.paired
      · rw [changeOf, attachCustomer]
        split
        · split <;> exact h.sip
        · exact h.sip
    | _ => exact h
  | sipIncoming dialogId remoteNumber now => exact (hends trivial).elim
  | sipEstablished dialogId =>
    rw [changeOf, established]
    obtain ⟨sip, hsip, hid⟩ := Option.map_eq_some_iff.1 h.sip
    rw [hsip]
    split
    · split
      · rename_i dialog hdialog _
        obtain rfl := Option.some.inj hdialog
        exact ⟨h.paired, h.server, congrArg some hid⟩
      · exact h
    · exact h
  | sipEnded dialogId =>
    rw [changeOf, ended, if_neg]
    · exact h
    · obtain ⟨sip, hsip, hid⟩ := Option.map_eq_some_iff.1 h.sip
      rw [hsip, Option.any_some, decide_eq_true_eq]
      exact fun heq => hends (heq.symm.trans hid)
  | _ => exact ⟨h.paired, h.server, h.sip⟩

/-- After a step, the call `c` is held only if it was or if news of it were taken over. -/
theorem server_changeOf {e : StoreStep}
    (h : (changeOf config e held).server.map ActiveCall.callId = some c) :
    held.server.map ActiveCall.callId = some c ∨
      ∃ call asked received, Reports e call asked received ∧ call.callId = c ∧
        Taken config held call asked := by
  have hadopt {call : ActiveCall} {asked received : Int} (hreports : Reports e call asked received) :
      held.server.map ActiveCall.callId = some c ∨
        ∃ call asked received, Reports e call asked received ∧ call.callId = c ∧
          Taken config held call asked := by
    rw [changeOf_reports hreports] at h
    by_cases htaken : Taken config held call asked
    · rw [adopt_server_taken received htaken] at h
      exact .inr ⟨call, asked, received, hreports, Option.some.inj h, htaken⟩
    · rcases adopt_server_left received htaken with hsame | hnone
      · exact .inl (hsame ▸ h)
      · rw [hnone] at h
        cases h
  cases e with
  | apply evt asked received =>
    cases evt with
    | callCreated call => exact hadopt (.created call asked received)
    | callUpdated call => exact hadopt (.updated call asked received)
    | callEnded call =>
      rw [changeOf, endCall] at h
      split at h
      · exact .inl h
      · cases h
    | screenPop callId customer =>
      exact .inl ((attachCustomer_server callId customer held).symm.trans h)
    | _ => exact .inl h
  | sipEstablished dialogId =>
    rw [changeOf, established] at h
    split at h
    · split at h <;> exact .inl h
    · exact .inl h
  | sipEnded dialogId =>
    rw [changeOf, ended] at h
    split at h <;> exact .inl h
  | _ => exact .inl h

/-- The end of a call takes it off the screen. -/
theorem server_endCall (h : (endCall call held).server.map ActiveCall.callId = some c) :
    c ≠ call.callId := by
  rw [endCall] at h
  split at h
  · rename_i hother
    obtain ⟨server, hserver, hid⟩ := Option.map_eq_some_iff.1 h
    rw [hserver, Option.any_some, decide_eq_true_eq] at hother
    exact fun heq => hother (hid.trans heq)
  · cases h

end Step

/-! ## Runs -/

/-- Every step of the run keeps pairs and revives no ended call. -/
def Punctual (config : StoreConfig) (steps : List StoreStep) : Prop :=
  ∀ pre e post, steps = pre ++ e :: post →
    KeepsPair config (storeAfter config pre).held e ∧
      ¬ Revives config pre (storeAfter config pre).held e

section Run
variable {config : StoreConfig} {steps : List StoreStep}

theorem stablePairs_of_punctual (h : Punctual config steps) : StablePairs config steps := by
  intro pre mid
  induction mid using List.reverseRecOn with
  | nil =>
    intro post c d _ hpaired _
    rwa [List.append_nil]
  | append_singleton mid e ih =>
    intro post c d hsplit hpaired hends
    have hsplit' : steps = pre ++ mid ++ e :: post := by
      rw [hsplit]
      simp
    have hbefore := ih (e :: post) c d hsplit' hpaired fun e he =>
      hends e (List.mem_append_left _ he)
    rw [paired_iff] at hbefore
    rw [← List.append_assoc, paired_iff, held_snoc]
    exact pairs_changeOf hbefore (hends e (List.mem_append_right _ (List.mem_singleton_self e)))
      (h (pre ++ mid) e post hsplit').1

theorem endedIn_snoc {c : String} {pre : List StoreStep} {e : StoreStep} :
    EndedIn c (pre ++ [e]) ↔ EndedIn c pre ∨
      ∃ call asked received, e = .apply (.callEnded call) asked received ∧ call.callId = c := by
  constructor
  · rintro ⟨call, asked, received, hmem, hid⟩
    rcases List.mem_append.1 hmem with hmem | hmem
    · exact .inl ⟨call, asked, received, hmem, hid⟩
    · exact .inr ⟨call, asked, received, (List.mem_singleton.1 hmem).symm, hid⟩
  · rintro (⟨call, asked, received, hmem, hid⟩ | ⟨call, asked, received, rfl, hid⟩)
    · exact ⟨call, asked, received, List.mem_append_left _ hmem, hid⟩
    · exact ⟨call, asked, received, List.mem_append_right _ (List.mem_singleton_self _), hid⟩

theorem finalEnds_of_punctual (h : Punctual config steps) : FinalEnds config steps := by
  intro pre
  induction pre using List.reverseRecOn with
  | nil =>
    rintro post c - ⟨call, asked, received, hmem, -⟩
    exact absurd hmem List.not_mem_nil
  | append_singleton pre e ih =>
    intro post c hsplit hended hshown
    have hsplit' : steps = pre ++ e :: post := by
      rw [hsplit]
      simp
    rw [shown_iff, held_snoc] at hshown
    rcases endedIn_snoc.1 hended with hbefore | ⟨call, asked, received, rfl, hid⟩
    · rcases server_changeOf hshown with hheld | ⟨call, asked, received, hreports, hid, htaken⟩
      · exact ih (e :: post) c hsplit' hbefore (shown_iff.2 hheld)
      · refine (h pre e post hsplit').2 ⟨call, asked, received, hreports, ?_, htaken⟩
        rwa [hid]
    · exact server_endCall hshown hid.symm

theorem keepsPair_of_stablePairs (h : StablePairs config steps) {pre post : List StoreStep}
    {e : StoreStep} (hsplit : steps = pre ++ e :: post) :
    KeepsPair config (storeAfter config pre).held e := by
  intro call asked received hreports hours hholds hpaired sip hsip
  have hbefore : Pairs call.callId sip.dialogId (storeAfter config pre).held :=
    ⟨hpaired, holdsCall_iff.1 hholds, Option.map_eq_some_iff.2 ⟨sip, hsip, rfl⟩⟩
  have hafter := h pre [e] post call.callId sip.dialogId (by rw [hsplit]; simp)
    (paired_iff.2 hbefore) (by
      intro step hstep
      rw [List.mem_singleton.1 hstep]
      cases hreports <;> exact fun hends => hends.2 hours)
  rw [paired_iff, held_snoc, changeOf_reports hreports] at hafter
  have hcan := hafter.paired
  rw [adopt_taken (taken_of_holds hours hholds)] at hcan
  exact (takeOver_canPair_iff hsip).1 hcan

theorem not_revives_of_finalEnds (h : FinalEnds config steps) {pre post : List StoreStep}
    {e : StoreStep} (hsplit : steps = pre ++ e :: post) :
    ¬ Revives config pre (storeAfter config pre).held e := by
  rintro ⟨call, asked, received, hreports, hended, htaken⟩
  refine h (pre ++ [e]) post call.callId (by rw [hsplit]; simp) (endedIn_snoc.2 (.inl hended)) ?_
  rw [shown_iff, held_snoc, changeOf_reports hreports]
  exact adopt_server_taken received htaken

end Run

/-- Pairs stay and ended calls stay away in exactly the runs where news of a paired call come
within the window of its dialog with a number that matches, and where no news of a call are taken
over after its end. -/
theorem pairing_and_ending_iff (config : StoreConfig) (steps : List StoreStep) :
    StablePairs config steps ∧ FinalEnds config steps ↔ Punctual config steps := by
  constructor
  · rintro ⟨hstable, hfinal⟩ pre e post hsplit
    exact ⟨keepsPair_of_stablePairs hstable hsplit, not_revives_of_finalEnds hfinal hsplit⟩
  · intro h
    exact ⟨stablePairs_of_punctual h, finalEnds_of_punctual h⟩

/-- An update a minute into the call takes the pair apart, and one that comes after the end
brings the call back. -/
theorem late_updates :
    (¬ ∀ config steps, StablePairs config steps) ∧ ¬ ∀ config steps, FinalEnds config steps := by
  constructor
  · intro h
    have hstable := h ⟨"agent-1", "1001", 5⟩
      [.sipIncoming "dialog-1" "01012345678" 100,
        .apply (.callCreated ⟨"call-1", "01012345678", "RINGING_AGENT", some "agent-1", none⟩) 101 101,
        .apply (.callUpdated ⟨"call-1", "01012345678", "TALKING", some "agent-1", none⟩) 161 161]
    have hpaired := hstable
      [.sipIncoming "dialog-1" "01012345678" 100,
        .apply (.callCreated ⟨"call-1", "01012345678", "RINGING_AGENT", some "agent-1", none⟩) 101 101]
      [.apply (.callUpdated ⟨"call-1", "01012345678", "TALKING", some "agent-1", none⟩) 161 161]
      [] "call-1" "dialog-1" rfl ⟨_, rfl, rfl, rfl, rfl⟩ (by
        intro e he
        rw [List.mem_singleton.1 he]
        exact fun hends => hends.2 (.inr rfl))
    rw [paired_iff] at hpaired
    exact absurd hpaired.paired (by decide)
  · intro h
    have hfinal := h ⟨"agent-1", "1001", 5⟩
      [.apply (.callEnded ⟨"call-1", "01012345678", "ENDED", some "agent-1", none⟩) 100 100,
        .apply (.callUpdated ⟨"call-1", "01012345678", "TALKING", some "agent-1", none⟩) 101 101]
      _ [] "call-1" (List.append_nil _).symm ⟨_, 100, 100, .head _, rfl⟩
    exact hfinal ⟨_, rfl, rfl⟩

end KasterCti.Desktop
