import Mathlib.Logic.Function.Basic
import KasterCti.Calls.OfferProtocol

/-!
# One seat wins a call

Any number of nodes and one Redis channel. A decision is published on some node and read
by every node at its own pace, in the order of the channel.

Results:
1. `one_winner`: where the key of an accepted offer is that of no other call, and its start
   that of every offer of its call, the waiters that were there in time and are accepted
   all wait for one seat.
2. `answers_final`: each node is tidy in every run, and an answer stays.
3. `two_winners`: two tenants with one linkedid, and two seats on one caller.
-/

namespace KasterCti.Calls

open JsMap JsText Trace

/-! ## 1. Nodes and channel -/

/-- `read n` messages of the channel have been delivered to node `n`. -/
structure OfferCluster (ν : Type) where
  nodes : ν → OfferNode
  bus : List OfferNotice
  read : ν → Nat

inductive ClusterAction (ν : Type) where
  | publish (notice : OfferNotice)
  | receive (n : ν) (now : Nat)
  | wait (n : ν) (number : Nat) (request : AgentOfferRequest) (now : Nat)
  | timeout (n : ν) (w : Waiter) (now : Nat)
  | abort (n : ν) (w : Waiter) (now : Nat)

namespace OfferCluster

variable {ν : Type} [DecidableEq ν]

def init : OfferCluster ν := ⟨fun _ => .init, [], fun _ => 0⟩

/-- What happens on one node leaves the others and the channel alone. -/
def act (s : OfferCluster ν) (n : ν) (a : OfferAction) : OfferCluster ν :=
  { s with nodes := Function.update s.nodes n ((s.nodes n).step a) }

def step (s : OfferCluster ν) : ClusterAction ν → OfferCluster ν
  | .publish notice => { s with bus := s.bus ++ [notice] }
  | .receive n now =>
    match s.bus[s.read n]? with
    | none => s
    | some notice =>
      { s.act n (.notice notice false now) with
        read := Function.update s.read n (s.read n + 1) }
  | .wait n number request now => s.act n (.wait number request now)
  | .timeout n w now => s.act n (.timeout w now)
  | .abort n w now => s.act n (.abort w now)

def delivered (s : OfferCluster ν) (n : ν) : List OfferNotice := s.bus.take (s.read n)

end OfferCluster

/-! ## 2. Who wins -/

/-- The seat for which a message accepts the call. -/
def OfferNotice.accepts (call : String × String) : OfferNotice → Option String
  | .decision input =>
    if input.decision = .accept ∧ input.call = call then some input.extension else none
  | .callEnded _ _ => none

def firstAccept (call : String × String) (bus : List OfferNotice) : Option String :=
  bus.findSome? (OfferNotice.accepts call)

variable {ν : Type} [DecidableEq ν]

/-- Node `n` has the poll waiting and no ACCEPT of its call has come there yet. -/
def OfferCluster.PendingBefore (s : OfferCluster ν) (n : ν) (w : Waiter) (r : AgentOfferRequest) :
    Prop :=
  (s.nodes n).Open w r ∧ firstAccept r.call (s.delivered n) = none

/-- Of the polls of a call that waited in time, wherever they waited, those that resolve
ACCEPT are for one seat. -/
def OneWinner (actions : List (ClusterAction ν)) : Prop :=
  ∀ pre₁ post₁ pre₂ post₂ n₁ n₂ w₁ w₂ r₁ r₂,
    actions = pre₁ ++ post₁ → (pre₁.foldl OfferCluster.step .init).PendingBefore n₁ w₁ r₁ →
    actions = pre₂ ++ post₂ → (pre₂.foldl OfferCluster.step .init).PendingBefore n₂ w₂ r₂ →
    r₁.call = r₂.call →
    ((actions.foldl OfferCluster.step .init).nodes n₁).outcome w₁ = some .accept →
    ((actions.foldl OfferCluster.step .init).nodes n₂).outcome w₂ = some .accept →
    r₁.seat = r₂.seat

/-- The key of an accepted offer, where it is read, is that of no other waiting offer, and
every waiting offer of the call has its start. -/
def OfferCluster.AcceptApart (s : OfferCluster ν) (a : ClusterAction ν) : Prop :=
  ∀ n now input, a = .receive n now → s.bus[s.read n]? = some (.decision input) →
    input.decision = .accept → ∀ w r, (s.nodes n).Open w r →
    (r.offerId = agentOfferId input.linkedid input.extension → r.seat = input.seat) ∧
    (r.call = input.call → input.tenantId ≠ "" ∧
      (r.offerId = agentOfferId input.linkedid input.extension ∨
        (OfferNode.siblingStart (agentOfferId input.linkedid input.extension)).any
          (fun start => startsWith r.offerId start) = true))

namespace OfferCluster

variable {s : OfferCluster ν} {n : ν} {w : Waiter} {r : AgentOfferRequest} {now : Nat}

/-! ### Every node is sound -/

structure Sound (s : OfferCluster ν) : Prop where
  nodes : ∀ n, (s.nodes n).Sound
  read : ∀ n, s.read n ≤ s.bus.length

omit [DecidableEq ν] in
theorem Sound.init : (init : OfferCluster ν).Sound :=
  ⟨fun _ => OfferNode.Sound.init, fun _ => Nat.le_refl 0⟩

theorem nodes_act {n' : ν} {a : OfferAction} :
    (s.act n a).nodes n' = if n' = n then (s.nodes n).step a else s.nodes n' := by
  show Function.update s.nodes n ((s.nodes n).step a) n' = _
  rw [Function.update_apply]

theorem Sound.act {a : OfferAction} (hs : s.Sound) : (s.act n a).Sound := by
  refine ⟨?_, hs.read⟩
  intro n'
  rw [nodes_act]
  split
  · exact (hs.nodes n).step
  · exact hs.nodes n'

theorem step_receive_none (h : s.bus[s.read n]? = none) : s.step (.receive n now) = s := by
  simp only [step, h]

variable {notice : OfferNotice}

theorem step_receive (h : s.bus[s.read n]? = some notice) :
    s.step (.receive n now) =
      { s.act n (.notice notice false now) with
        read := Function.update s.read n (s.read n + 1) } := by
  simp only [step, h]

theorem Sound.step {a : ClusterAction ν} (hs : s.Sound) : (s.step a).Sound := by
  cases a with
  | publish notice =>
    refine ⟨hs.nodes, fun n => ?_⟩
    show s.read n ≤ (s.bus ++ [notice]).length
    rw [List.length_append]
    exact Nat.le_add_right_of_le (hs.read n)
  | receive n now =>
    cases h : s.bus[s.read n]? with
    | none => rwa [step_receive_none h]
    | some notice =>
      rw [step_receive h]
      refine ⟨hs.act.nodes, fun n' => ?_⟩
      show Function.update s.read n (s.read n + 1) n' ≤ s.bus.length
      rw [Function.update_apply]
      split
      · exact (List.getElem?_eq_some_iff.1 h).1
      · exact hs.read n'
  | wait n number request now => exact hs.act
  | timeout n w now => exact hs.act
  | abort n w now => exact hs.act

/-! ### What becomes of a poll that waited in time -/

/-- It still waits and no ACCEPT has come, or it has its answer, and ACCEPT only where it
waits for the seat of the first ACCEPT. -/
def Fate (s : OfferCluster ν) (n : ν) (w : Waiter) (r : AgentOfferRequest) : Prop :=
  s.PendingBefore n w r ∨ ∃ d, (s.nodes n).outcome w = some d ∧
    (d = .accept → firstAccept r.call (s.delivered n) = some r.extension)

omit [DecidableEq ν] in
theorem Fate.congr {t : OfferCluster ν} (h : s.Fate n w r) (hnode : t.nodes n = s.nodes n)
    (hdelivered : t.delivered n = s.delivered n) : t.Fate n w r := by
  unfold Fate PendingBefore
  rw [hnode, hdelivered]
  exact h

theorem firstAccept_append {call : String × String} {bus : List OfferNotice} :
    firstAccept call (bus ++ [notice]) = (firstAccept call bus).or (notice.accepts call) := by
  simp [firstAccept, List.findSome?_append]

/-- A step of a node that is no message never answers ACCEPT. -/
theorem Sound.fate_act {n' : ν} {a : OfferAction} (hs : s.Sound)
    (hquiet : ∀ id, (s.nodes n).effect a w id ≠ some .accept) (h : s.Fate n w r) :
    (s.act n' a).Fate n w r := by
  by_cases hn : n = n'
  · subst hn
    have hnode : (s.act n a).nodes n = (s.nodes n).step a := by rw [nodes_act, if_pos rfl]
    have hdelivered : (s.act n a).delivered n = s.delivered n := rfl
    unfold Fate PendingBefore
    rw [hnode, hdelivered]
    rcases h with ⟨hopen, hnone⟩ | ⟨d, hout, hfirst⟩
    · have hstep := (hs.nodes n).outcome_step (a := a) hopen
      cases heff : (s.nodes n).effect a w r.offerId with
      | none =>
        rw [heff] at hstep
        exact .inl ⟨⟨OfferNode.requests_step (hs.nodes n) hopen.1, hstep⟩, hnone⟩
      | some d =>
        refine .inr ⟨d, hstep.trans heff, ?_⟩
        rintro rfl
        exact absurd heff (hquiet r.offerId)
    · exact .inr ⟨d, (hs.nodes n).outcome_step_of_some hout, hfirst⟩
  · refine h.congr ?_ rfl
    rw [nodes_act, if_neg hn]

theorem effect_notice_accept {fallback : Bool} {t : OfferNode}
    (h : t.effect (.notice notice fallback now) w r.offerId = some .accept) :
    ∃ input, notice = .decision input ∧ input.decision = .accept ∧
      r.offerId = agentOfferId input.linkedid input.extension := by
  have hanswer : notice.message.event.answerTo r.offerId = some .accept := by
    by_cases hdropped : notice.message.tenantId = "" ∧ fallback = false
    · rw [OfferNode.effect, if_pos hdropped] at h
      cases h
    · rwa [OfferNode.effect, if_neg hdropped] at h
  cases notice with
  | callEnded tenantId linkedid =>
    rw [OfferNotice.answerTo_callEnded] at hanswer
    split at hanswer
    · cases hanswer
    · cases hanswer
  | decision input =>
    rw [OfferNotice.answerTo_decision] at hanswer
    split at hanswer
    · next hid =>
      exact ⟨input, rfl, SubmittedDecision.decision_eq_accept.1 (Option.some.inj hanswer), hid⟩
    · split at hanswer
      · cases hanswer
      · cases hanswer

theorem accepts_eq_some {call : String × String} {x : String} (h : notice.accepts call = some x) :
    ∃ input, notice = .decision input ∧ input.decision = .accept ∧ input.call = call ∧
      input.extension = x := by
  cases notice with
  | callEnded tenantId linkedid => cases h
  | decision input =>
    change (if input.decision = .accept ∧ input.call = call then some input.extension else none) =
      some x at h
    split at h
    · next hboth => exact ⟨input, rfl, hboth.1, hboth.2, Option.some.inj h⟩
    · cases h

theorem Sound.fate_receive (hs : s.Sound) (hapart : s.AcceptApart (.receive n now))
    (hnext : s.bus[s.read n]? = some notice) (h : s.Fate n w r) :
    (s.step (.receive n now)).Fate n w r := by
  have hnode : (s.step (.receive n now)).nodes n =
      (s.nodes n).step (.notice notice false now) := by
    rw [step_receive hnext]
    exact nodes_act.trans (if_pos rfl)
  have hdelivered : (s.step (.receive n now)).delivered n = s.delivered n ++ [notice] := by
    rw [step_receive hnext]
    show s.bus.take (Function.update s.read n (s.read n + 1) n) = s.bus.take (s.read n) ++ [notice]
    rw [Function.update_self, List.take_add_one, hnext]
    rfl
  unfold Fate PendingBefore
  rw [hnode, hdelivered, firstAccept_append]
  rcases h with ⟨hopen, hnone⟩ | ⟨d, hout, hfirst⟩
  · have hstep := (hs.nodes n).outcome_step (a := .notice notice false now) hopen
    have hacc : ∀ input, notice = .decision input → input.decision = .accept →
        (r.offerId = agentOfferId input.linkedid input.extension → r.seat = input.seat) ∧ _ :=
      fun input heq hd => hapart n now input rfl (heq ▸ hnext) hd w r hopen
    rw [hnone, Option.none_or]
    cases heff : (s.nodes n).effect (.notice notice false now) w r.offerId with
    | some d =>
      refine .inr ⟨d, hstep.trans heff, ?_⟩
      rintro rfl
      obtain ⟨input, rfl, hd, hid⟩ := effect_notice_accept heff
      have hseat := (hacc input rfl hd).1 hid
      simp only [AgentOfferRequest.seat, AgentOfferDecisionInput.seat, Prod.mk.injEq] at hseat
      simp [OfferNotice.accepts, hd, AgentOfferDecisionInput.call, AgentOfferRequest.call, hseat]
    | none =>
      refine .inl ⟨⟨OfferNode.requests_step (hs.nodes n) hopen.1, hstep.trans heff⟩, ?_⟩
      -- an ACCEPT of the call would have answered it
      cases hx : notice.accepts r.call with
      | none => rfl
      | some x =>
        exfalso
        obtain ⟨input, rfl, hd, hcall, -⟩ := accepts_eq_some hx
        obtain ⟨htenant, hstart⟩ := (hacc input rfl hd).2 hcall.symm
        rw [OfferNode.effect, if_neg fun hdropped => htenant hdropped.1,
          OfferNotice.answerTo_decision] at heff
        split at heff
        · cases heff
        · next hid =>
          rw [if_pos ⟨SubmittedDecision.decision_eq_accept.2 hd, hstart.resolve_left hid⟩] at heff
          cases heff
  · refine .inr ⟨d, (hs.nodes n).outcome_step_of_some hout, fun hd => ?_⟩
    rw [hfirst hd, Option.some_or]

theorem Sound.fate_step {a : ClusterAction ν} (hs : s.Sound) (hapart : s.AcceptApart a)
    (h : s.Fate n w r) : (s.step a).Fate n w r := by
  cases a with
  | publish notice =>
    refine h.congr rfl ?_
    show (s.bus ++ [notice]).take (s.read n) = s.bus.take (s.read n)
    exact List.take_append_of_le_length (hs.read n)
  | receive n' now =>
    cases hnext : s.bus[s.read n']? with
    | none => rwa [step_receive_none hnext]
    | some notice =>
      by_cases hn : n = n'
      · subst hn
        exact hs.fate_receive hapart hnext h
      · rw [step_receive hnext]
        refine h.congr ?_ ?_
        · exact nodes_act.trans (if_neg hn)
        · show s.bus.take (Function.update s.read n' (s.read n' + 1) n) = s.bus.take (s.read n)
          rw [Function.update_of_ne hn]
  | wait n' number request now => exact hs.fate_act (fun _ h => by cases h) h
  | timeout n' w' now =>
    refine hs.fate_act (fun id h => ?_) h
    rw [OfferNode.effect_timeout] at h
    split at h <;> cases h
  | abort n' w' now =>
    refine hs.fate_act (fun id h => ?_) h
    rw [OfferNode.effect_abort] at h
    split at h <;> cases h

theorem Sound.run {actions : List (ClusterAction ν)} (hs : s.Sound) :
    (actions.foldl OfferCluster.step s).Sound := by
  induction actions generalizing s with
  | nil => exact hs
  | cons a actions ih => exact ih hs.step

theorem Sound.fate_run {actions : List (ClusterAction ν)} (hs : s.Sound)
    (hapart : Along OfferCluster.step AcceptApart s actions) (h : s.Fate n w r) :
    (actions.foldl OfferCluster.step s).Fate n w r := by
  induction actions generalizing s with
  | nil => exact h
  | cons a actions ih =>
    obtain ⟨hhead, htail⟩ := along_cons.1 hapart
    exact ih hs.step htail (hs.fate_step hhead h)

omit [DecidableEq ν] in
/-- The seat of an accepted poll is the one the channel accepts first. -/
theorem Fate.firstAccept_bus (h : s.Fate n w r) (hout : (s.nodes n).outcome w = some .accept) :
    firstAccept r.call s.bus = some r.extension := by
  rcases h with ⟨hopen, -⟩ | ⟨d, hd, hfirst⟩
  · rw [hopen.2] at hout
    cases hout
  · have hdelivered := hfirst (Option.some.inj (hd.symm.trans hout))
    rw [← List.take_append_drop (s.read n) s.bus, firstAccept, List.findSome?_append]
    show (firstAccept r.call (s.delivered n)).or _ = _
    rw [hdelivered, Option.some_or]

/-! ### Answers stay -/

variable {d : AgentOfferDecision}

theorem outcome_act {a : OfferAction} {n' : ν} (hs : s.Sound)
    (h : (s.nodes n).outcome w = some d) : ((s.act n' a).nodes n).outcome w = some d := by
  rw [nodes_act]
  split
  · next hn => exact (hs.nodes n').outcome_step_of_some (hn ▸ h)
  · exact h

theorem Sound.outcome_step {a : ClusterAction ν} (hs : s.Sound)
    (h : (s.nodes n).outcome w = some d) : ((s.step a).nodes n).outcome w = some d := by
  cases a with
  | publish notice => exact h
  | receive n' now =>
    cases hnext : s.bus[s.read n']? with
    | none => rwa [step_receive_none hnext]
    | some notice =>
      rw [step_receive hnext]
      exact outcome_act hs h
  | wait n' number request now => exact outcome_act hs h
  | timeout n' w' now => exact outcome_act hs h
  | abort n' w' now => exact outcome_act hs h

theorem Sound.outcome_run {actions : List (ClusterAction ν)} (hs : s.Sound)
    (h : (s.nodes n).outcome w = some d) :
    ((actions.foldl OfferCluster.step s).nodes n).outcome w = some d := by
  induction actions generalizing s with
  | nil => exact h
  | cons a actions ih => exact ih hs.step (hs.outcome_step h)

end OfferCluster

/-- At most one seat wins a call in every run in which accepted keys tell calls apart. -/
theorem one_winner (actions : List (ClusterAction ν))
    (h : Along OfferCluster.step OfferCluster.AcceptApart .init actions) : OneWinner actions := by
  have hwins : ∀ pre post n w r, actions = pre ++ post →
      (pre.foldl OfferCluster.step .init).PendingBefore n w r →
      ((actions.foldl OfferCluster.step .init).nodes n).outcome w = some .accept →
      firstAccept r.call (actions.foldl OfferCluster.step .init).bus = some r.extension := by
    rintro pre post n w r rfl hbefore hout
    have hfate := OfferCluster.Sound.init.run.fate_run h.suffix (.inl hbefore)
    rw [← List.foldl_append] at hfate
    exact hfate.firstAccept_bus hout
  intro pre₁ post₁ pre₂ post₂ n₁ n₂ w₁ w₂ r₁ r₂ h₁ hbefore₁ h₂ hbefore₂ hcall hout₁ hout₂
  have hfirst₁ := hwins pre₁ post₁ n₁ w₁ r₁ h₁ hbefore₁ hout₁
  have hfirst₂ := hwins pre₂ post₂ n₂ w₂ r₂ h₂ hbefore₂ hout₂
  rw [hcall, hfirst₂] at hfirst₁
  have hextension : r₂.extension = r₁.extension := Option.some.inj hfirst₁
  simp only [AgentOfferRequest.call, Prod.mk.injEq] at hcall
  simp only [AgentOfferRequest.seat, hcall, hextension]

/-- In every run each node is tidy, and no poll is answered a second time. -/
theorem answers_final (pre post : List (ClusterAction ν)) (n : ν) :
    ((pre.foldl OfferCluster.step .init).nodes n).Tidy ∧
      ∀ w d, ((pre.foldl OfferCluster.step .init).nodes n).outcome w = some d →
        (((pre ++ post).foldl OfferCluster.step .init).nodes n).outcome w = some d := by
  have hs : (pre.foldl OfferCluster.step (.init : OfferCluster ν)).Sound := OfferCluster.Sound.init.run
  refine ⟨(hs.nodes n).tidy, fun w d h => ?_⟩
  rw [List.foldl_append]
  exact hs.outcome_run h

/-! ## 3. Plain names -/

def ClusterAction.Plain (tenantId : String) : ClusterAction ν → Prop
  | .publish notice => notice.Plain tenantId
  | .receive _ _ => True
  | .wait _ _ request _ => request.Plain tenantId
  | .timeout _ _ _ => True
  | .abort _ _ _ => True

instance ClusterAction.decidablePlain (tenantId : String) :
    (a : ClusterAction ν) → Decidable (a.Plain tenantId)
  | .publish notice => notice.decidablePlain tenantId
  | .receive _ _ => inferInstanceAs (Decidable True)
  | .wait _ _ request _ => request.decidablePlain tenantId
  | .timeout _ _ _ => inferInstanceAs (Decidable True)
  | .abort _ _ _ => inferInstanceAs (Decidable True)

namespace OfferCluster

variable {s : OfferCluster ν} {n : ν} {a : ClusterAction ν} {tenantId : String}

structure Plain (tenantId : String) (s : OfferCluster ν) : Prop where
  nodes : ∀ n, (s.nodes n).Plain tenantId
  bus : ∀ notice ∈ s.bus, notice.Plain tenantId

theorem Plain.act {a : OfferAction} (hs : s.Plain tenantId) (ha : a.Plain tenantId) :
    (s.act n a).Plain tenantId := by
  refine ⟨?_, hs.bus⟩
  intro n'
  rw [nodes_act]
  split
  · exact (hs.nodes n).step ha
  · exact hs.nodes n'

theorem Plain.step (hs : s.Plain tenantId) (ha : a.Plain tenantId) :
    (s.step a).Plain tenantId := by
  cases a with
  | publish notice =>
    refine ⟨hs.nodes, ?_⟩
    intro notice' hmem
    rcases List.mem_append.1 hmem with hold | hnew
    · exact hs.bus notice' hold
    · rw [List.mem_singleton.1 hnew]
      exact ha
  | receive n now =>
    cases hnext : s.bus[s.read n]? with
    | none => rwa [step_receive_none hnext]
    | some notice =>
      have hnotice : notice.Plain tenantId := hs.bus notice (List.mem_of_getElem? hnext)
      have hact : (s.act n (.notice notice false now)).Plain tenantId := hs.act hnotice
      rw [step_receive hnext]
      exact ⟨hact.nodes, hact.bus⟩
  | wait n number request now => exact hs.act ha
  | timeout n w now => exact hs.act trivial
  | abort n w now => exact hs.act trivial

omit [DecidableEq ν] in
theorem Plain.acceptApart (hs : s.Plain tenantId) (htenant : tenantId ≠ "") :
    s.AcceptApart a := by
  rintro n now input rfl hnext haccept w r hopen
  have hnotice := hs.bus _ (List.mem_of_getElem? hnext)
  have hapart : (OfferNotice.decision input).Apart false r :=
    noticeApart_of_plain htenant hnotice ((hs.nodes n).2 w r hopen.1)
  obtain ⟨hseat, hstart, hdropped⟩ := hapart
  refine ⟨hseat, fun hcall => ⟨fun hempty => hdropped hempty rfl hcall.symm, ?_⟩⟩
  by_cases hid : r.offerId = agentOfferId input.linkedid input.extension
  · exact .inl hid
  · exact .inr ((hstart haccept hid).2 hcall.symm)

end OfferCluster

theorem acceptApart_of_plain {actions : List (ClusterAction ν)} {tenantId : String}
    (htenant : tenantId ≠ "") (h : ∀ a ∈ actions, a.Plain tenantId) :
    Along OfferCluster.step OfferCluster.AcceptApart .init actions := by
  have hplain : Along OfferCluster.step (fun _ a => a.Plain tenantId) .init actions := by
    rintro pre a post rfl
    exact h a (by simp)
  have hinit : (OfferCluster.init : OfferCluster ν).Plain tenantId :=
    ⟨fun n => ⟨OfferNode.Sound.init, fun w r hw => by cases hw⟩, fun notice hmem => by cases hmem⟩
  exact hplain.mono (fun s a ha hs => OfferCluster.Plain.step hs ha)
    (fun s a _ hs => OfferCluster.Plain.acceptApart hs htenant) hinit

/-- Both seats accept on their own node; the channel has the one of 1002 first. -/
def bothAccept : List (ClusterAction Bool) :=
  [.wait false 1 ⟨"t1", "1787355742.21", "1001", 10⟩ 0,
    .wait true 1 ⟨"t1", "1787355742.21", "1002", 10⟩ 0,
    .publish (.decision ⟨"t1", "1787355742.21", "1002", .accept⟩),
    .publish (.decision ⟨"t1", "1787355742.21", "1001", .accept⟩),
    .receive false 5, .receive true 5, .receive false 6, .receive true 6]

theorem one_winner_both_accept :
    OneWinner bothAccept ∧
      ((bothAccept.foldl OfferCluster.step .init).nodes true).outcome ⟨"t1", 1⟩ = some .accept ∧
      ((bothAccept.foldl OfferCluster.step .init).nodes false).outcome ⟨"t1", 1⟩ =
        some .abandoned := by
  refine ⟨one_winner bothAccept ?_, by decide, by decide⟩
  have hplain : ∀ a ∈ bothAccept, a.Plain "t1" := by decide
  exact acceptApart_of_plain (by decide) hplain

/-- The agent of the second tenant accepts a call of the same linkedid, which answers the
poll of the first tenant. Its own agents are asked on, and one of them accepts. -/
def acceptedTwice : List (ClusterAction Bool) :=
  [.wait false 1 ⟨"t1", "1787355742.21", "1001", 10⟩ 0,
    .publish (.decision ⟨"t2", "1787355742.21", "1001", .accept⟩),
    .receive false 5, .receive true 5,
    .wait true 1 ⟨"t1", "1787355742.21", "1002", 10⟩ 6,
    .publish (.decision ⟨"t1", "1787355742.21", "1002", .accept⟩),
    .receive true 9]

theorem two_winners : ¬ OneWinner acceptedTwice := by
  intro h
  have hsame := h (acceptedTwice.take 1) (acceptedTwice.drop 1) (acceptedTwice.take 5)
    (acceptedTwice.drop 5) false true ⟨"t1", 1⟩ ⟨"t1", 1⟩
    ⟨"t1", "1787355742.21", "1001", 10⟩ ⟨"t1", "1787355742.21", "1002", 10⟩
    (List.take_append_drop 1 _).symm ⟨⟨by decide, by decide⟩, by decide⟩
    (List.take_append_drop 5 _).symm ⟨⟨by decide, by decide⟩, by decide⟩
    rfl (by decide) (by decide)
  exact absurd hsame (by decide)

end KasterCti.Calls
