import KasterCti.Calls.OfferMaps
import KasterCti.Library.Trace

/-!
# The offer protocol on one node

An offer is a seat asked about a call of a tenant. The node knows it by the text
`linkedid:extension`, finds the offers of a call by their start, and reads the tenant of a
message nowhere.

Results:
1. `offer_protocol`: where these texts tell the waiting offers apart, every run answers
   each waiter once, by what is due to it, and leaves nothing behind.
2. `apart_of_plain`: one tenant, no `:` in a call or a seat and no call without a name.
3. `other_call_closed`: two tenants with one linkedid.
-/

namespace KasterCti.Calls

open JsMap JsText Trace

/-! ## 1. What is due to a waiter -/

/-- The offer a poll waits for. -/
def AgentOfferRequest.seat (r : AgentOfferRequest) : String × String × String :=
  (r.tenantId, r.linkedid, r.extension)

def AgentOfferRequest.call (r : AgentOfferRequest) : String × String := (r.tenantId, r.linkedid)

def AgentOfferDecisionInput.seat (input : AgentOfferDecisionInput) : String × String × String :=
  (input.tenantId, input.linkedid, input.extension)

def AgentOfferDecisionInput.call (input : AgentOfferDecisionInput) : String × String :=
  (input.tenantId, input.linkedid)

/-- A decision goes to its own offer, and an accepted one closes the others of its call.
The end of a call closes all of them. -/
def OfferNotice.due (notice : OfferNotice) (r : AgentOfferRequest) : Option AgentOfferDecision :=
  match notice with
  | .decision input =>
    if input.seat = r.seat then some input.decision.decision
    else if input.decision = .accept ∧ input.call = r.call then some .abandoned
    else none
  | .callEnded tenantId linkedid => if (tenantId, linkedid) = r.call then some .abandoned else none

namespace OfferNode

def due (s : OfferNode) (a : OfferAction) (w : Waiter) (r : AgentOfferRequest) :
    Option AgentOfferDecision :=
  match a with
  | .wait _ _ _ => none
  | .notice notice _ _ => notice.due r
  | .timeout w' _ =>
    if (get s.timers w').isSome = true ∧ (get s.requests w').any (·.seat = r.seat) = true then
      some .timeout
    else none
  | .abort w' _ => if w' = w then some .abandoned else none

/-- A step answers the waiters with what is due to them. A new poll waits, or gets an answer
that was given to its own offer before. -/
def Fair (s : OfferNode) (a : OfferAction) : Prop :=
  (∀ w r, s.Open w r → get (s.step a).requests w = some r ∧ (s.step a).outcome w = s.due a w r) ∧
    ∀ number r now, a = .wait number r now → get s.requests ⟨r.tenantId, number⟩ = none →
      (s.step a).Open ⟨r.tenantId, number⟩ r ∨
      ∃ w' r' d, get s.requests w' = some r' ∧ r'.seat = r.seat ∧ d ≠ .accept ∧
        s.outcome w' = some d ∧ (s.step a).outcome ⟨r.tenantId, number⟩ = some d

/-- No promise is resolved twice; a waiter without an answer is in the maps, behind a timer
that is armed; and with the last answer the maps and the timers are empty. -/
structure Tidy (s : OfferNode) : Prop where
  once : (keys s.resolved).Nodup
  waiting : ∀ w r, s.Open w r → ∃ offer timer, get s.pending r.offerId = some offer ∧
    w ∈ offer.resolvers ∧ get s.timers offer.timer = some timer ∧ timer.offerId = r.offerId
  nothingLeft : (∀ w r, get s.requests w = some r → s.outcome w ≠ none) →
    s.pending = [] ∧ s.timers = []

end OfferNode

/-- What the node has to keep in a run from its start. -/
def OfferProtocol (actions : List OfferAction) : Prop :=
  (∀ pre post, actions = pre ++ post → (pre.foldl OfferNode.step .init).Tidy) ∧
    Along OfferNode.step OfferNode.Fair .init actions

/-! ## 2. Where the keys tell offers apart -/

/-- The texts of a message meet the waiters it is for and no others. -/
def OfferNotice.Apart (notice : OfferNotice) (fallback : Bool) (r : AgentOfferRequest) : Prop :=
  match notice with
  | .decision input =>
    (r.offerId = agentOfferId input.linkedid input.extension → r.seat = input.seat) ∧
    (input.decision = .accept → r.offerId ≠ agentOfferId input.linkedid input.extension →
      ((OfferNode.siblingStart (agentOfferId input.linkedid input.extension)).any
        (fun start => startsWith r.offerId start) = true ↔ input.call = r.call)) ∧
    (input.tenantId = "" → fallback = false → input.call ≠ r.call)
  | .callEnded tenantId linkedid =>
    (linkedid ≠ "" ∧ startsWith r.offerId (linkedid ++ ":") = true ↔
      (tenantId, linkedid) = r.call) ∧
    (tenantId = "" → fallback = false → (tenantId, linkedid) ≠ r.call)

/-- Every waiter a step meets by its key is one the step is for. -/
def OfferNode.Apart (s : OfferNode) (a : OfferAction) : Prop :=
  match a with
  | .wait _ r _ => s.rememberedAnswer r.offerId ≠ none → ∀ w' r', get s.requests w' = some r' →
      s.outcome w' ≠ none → r'.offerId = r.offerId → r'.seat = r.seat
  | .notice notice fallback _ => ∀ w r, s.Open w r → notice.Apart fallback r
  | .timeout w' _ => ∀ timer, get s.timers w' = some timer → ∀ w r, s.Open w r →
      r.offerId = timer.offerId → (get s.requests w').any (·.seat = r.seat) = true
  | .abort _ _ => True

namespace OfferNode

variable {s : OfferNode} {w : Waiter} {r : AgentOfferRequest} {a : OfferAction} {now : Nat}

theorem Sound.tidy (hs : s.Sound) : s.Tidy := by
  refine ⟨hs.once, ?_, ?_⟩
  · intro w r hw
    obtain ⟨offer, hp, hin⟩ := hs.waiting w r hw
    obtain ⟨timer, htimer, hid⟩ := hs.armed _ offer hp
    exact ⟨offer, timer, hp, hin, htimer, hid⟩
  · intro hall
    -- an entry would have a waiter, and a timer an entry
    have hpending : ∀ id, get s.pending id = none := by
      intro id
      cases hp : get s.pending id with
      | none => rfl
      | some offer =>
        obtain ⟨w, hw⟩ := List.exists_mem_of_ne_nil _ (hs.waited id offer hp).1
        obtain ⟨r, hr, -⟩ := hs.isOpen id offer w hp hw
        exact absurd hr.2 (hall w r hr.1)
    refine ⟨eq_nil_of_get hpending, eq_nil_of_get fun w => ?_⟩
    cases ht : get s.timers w with
    | none => rfl
    | some timer =>
      obtain ⟨-, offer, hp, -⟩ := hs.opener w timer ht
      rw [hpending] at hp
      cases hp

theorem offerId_of_seat {r' : AgentOfferRequest} (h : r.seat = r'.seat) :
    r.offerId = r'.offerId := by
  simp only [AgentOfferRequest.seat, Prod.mk.injEq] at h
  simp only [AgentOfferRequest.offerId, h.2.1, h.2.2]

theorem offerId_of_input {input : AgentOfferDecisionInput} (h : r.seat = input.seat) :
    r.offerId = agentOfferId input.linkedid input.extension := by
  simp only [AgentOfferRequest.seat, AgentOfferDecisionInput.seat, Prod.mk.injEq] at h
  simp only [AgentOfferRequest.offerId, h.2.1, h.2.2]

theorem call_of_seat {input : AgentOfferDecisionInput} (h : input.seat = r.seat) :
    input.call = r.call := by
  simp only [AgentOfferRequest.seat, AgentOfferDecisionInput.seat, Prod.mk.injEq] at h
  simp only [AgentOfferRequest.call, AgentOfferDecisionInput.call, h.1, h.2.1]

/-! ### Requests stay -/

theorem requests_dropWaiter {id : String} : (s.dropWaiter id w now).requests = s.requests := by
  unfold dropWaiter
  cases get s.pending id with
  | none => rfl
  | some offer =>
    show (if w ∈ offer.resolvers then _ else _ : OfferNode).requests = _
    split
    · show (if _ = [] then _ else _ : OfferNode).requests = _
      split
      · exact requests_settle
      · rfl
    · rfl

theorem requests_waitForDecision :
    (s.waitForDecision w r now).requests = s.requests ++ [(w, r)] := by
  rw [waitForDecision_eq]
  cases s.rememberedAnswer r.offerId with
  | some remembered => rfl
  | none =>
    show ((s.ask w r).enqueue r.offerId w r now).requests = _
    unfold enqueue
    split <;> rfl

theorem requests_step (hs : s.Sound) (h : get s.requests w = some r) :
    get (s.step a).requests w = some r := by
  cases a with
  | wait number request now =>
    rw [step_wait]
    split
    · exact h
    · rw [requests_waitForDecision, get_append, h, Option.some_or]
  | notice notice fallback now =>
    rw [step_notice]
    split
    · exact h
    · rw [requests_listen, h]
  | timeout w' now =>
    cases ht : get s.timers w' with
    | none => rw [step_timeout_none ht, h]
    | some timer => rw [hs.step_timeout ht, requests_settle, h]
  | abort w' now =>
    cases hr : get s.requests w' with
    | none => rw [step_abort_none hr, h]
    | some request => rw [step_abort hr, requests_dropWaiter, h]

theorem requests_of_step (hs : s.Sound) (h : get (s.step a).requests w = some r) :
    get s.requests w = some r ∨ ∃ number now, a = .wait number r now := by
  cases a with
  | wait number request now =>
    rw [step_wait] at h
    split at h
    · exact .inl h
    · rw [requests_waitForDecision, get_append, get_cons, get_nil] at h
      cases hw : get s.requests w with
      | some r' => exact .inl (by rwa [hw, Option.some_or] at h)
      | none =>
        rw [hw, Option.none_or] at h
        split at h
        · have hsame : request = r := Option.some.inj h
          exact .inr ⟨number, now, by rw [hsame]⟩
        · cases h
  | notice notice fallback now =>
    rw [step_notice] at h
    split at h
    · exact .inl h
    · rw [requests_listen] at h
      exact .inl h
  | timeout w' now =>
    cases ht : get s.timers w' with
    | none => exact .inl (by rwa [step_timeout_none ht] at h)
    | some timer => exact .inl (by rwa [hs.step_timeout ht, requests_settle] at h)
  | abort w' now =>
    cases hr : get s.requests w' with
    | none => exact .inl (by rwa [step_abort_none hr] at h)
    | some request => exact .inl (by rwa [step_abort hr, requests_dropWaiter] at h)

/-! ### The key and the offer -/

end OfferNode

theorem SubmittedDecision.decision_eq_accept {d : SubmittedDecision} :
    d.decision = .accept ↔ d = .accept := by
  cases d <;> decide

theorem OfferNotice.answerTo_decision {input : AgentOfferDecisionInput} {id : String} :
    (OfferNotice.decision input).message.event.answerTo id =
      if id = agentOfferId input.linkedid input.extension then some input.decision.decision
      else if input.decision.decision = .accept ∧
          (OfferNode.siblingStart (agentOfferId input.linkedid input.extension)).any
            (fun start => startsWith id start) = true then
        some .abandoned
      else none := rfl

theorem OfferNotice.answerTo_callEnded {tenantId linkedid id : String} :
    (OfferNotice.callEnded tenantId linkedid).message.event.answerTo id =
      if linkedid ≠ "" ∧ startsWith id (linkedid ++ ":") = true then some .abandoned
      else none := rfl

theorem OfferNotice.due_decision {input : AgentOfferDecisionInput} {r : AgentOfferRequest} :
    (OfferNotice.decision input).due r =
      if input.seat = r.seat then some input.decision.decision
      else if input.decision = .accept ∧ input.call = r.call then some .abandoned
      else none := rfl

namespace OfferNode

variable {s : OfferNode} {w : Waiter} {r : AgentOfferRequest} {a : OfferAction} {now : Nat}
  {notice : OfferNotice} {fallback : Bool}

theorem answerTo_eq_due (h : notice.Apart fallback r) :
    notice.message.event.answerTo r.offerId = notice.due r := by
  cases notice with
  | callEnded tenantId linkedid =>
    rw [OfferNotice.answerTo_callEnded]
    unfold OfferNotice.due
    simp only [h.1]
  | decision input =>
    obtain ⟨hseat, hcall, -⟩ := h
    rw [OfferNotice.answerTo_decision, OfferNotice.due_decision]
    by_cases hid : r.offerId = agentOfferId input.linkedid input.extension
    · rw [if_pos hid, if_pos (hseat hid).symm]
    · have hne : input.seat ≠ r.seat := fun hsame => hid (offerId_of_input hsame.symm)
      rw [if_neg hid, if_neg hne]
      by_cases haccept : input.decision = .accept
      · simp only [SubmittedDecision.decision_eq_accept, haccept, true_and, hcall haccept hid]
      · simp only [SubmittedDecision.decision_eq_accept, haccept, false_and, if_false]

/-- A message without a tenant is dropped, and then nothing was due. -/
theorem due_of_dropped (h : notice.Apart fallback r)
    (hdropped : notice.message.tenantId = "" ∧ fallback = false) : notice.due r = none := by
  cases notice with
  | callEnded tenantId linkedid => exact if_neg (h.2 hdropped.1 hdropped.2)
  | decision input =>
    have hcall : input.call ≠ r.call := h.2.2 hdropped.1 hdropped.2
    rw [OfferNotice.due_decision, if_neg fun hseat => hcall (call_of_seat hseat), if_neg fun hsame => hcall hsame.2]

theorem Sound.effect_eq_due (hs : s.Sound) (hw : s.Open w r) (h : s.Apart a) :
    s.effect a w r.offerId = s.due a w r := by
  cases a with
  | wait number request now => rfl
  | notice notice fallback now =>
    have hnotice : notice.Apart fallback r := h w r hw
    show (if notice.message.tenantId = "" ∧ fallback = false then none else _) = notice.due r
    by_cases hdropped : notice.message.tenantId = "" ∧ fallback = false
    · rw [if_pos hdropped, due_of_dropped hnotice hdropped]
    · rw [if_neg hdropped, answerTo_eq_due hnotice]
  | timeout w' now =>
    show (if (get s.timers w').any (·.offerId = r.offerId) = true then _ else _) =
      if (get s.timers w').isSome = true ∧ (get s.requests w').any (·.seat = r.seat) = true then _
      else _
    cases ht : get s.timers w' with
    | none => simp
    | some timer =>
      by_cases hid : r.offerId = timer.offerId
      · have hseat := h timer ht w r hw hid
        rw [if_pos (by simp [hid]), if_pos ⟨rfl, hseat⟩]
      · obtain ⟨⟨r', hr', hid'⟩, -⟩ := hs.opener w' timer ht
        have hseat : ¬ r'.seat = r.seat := fun hsame =>
          hid ((offerId_of_seat hsame).symm.trans hid')
        rw [if_neg (by simp [Ne.symm hid]), if_neg (by simp [hr', hseat])]
  | abort w' now => rfl

theorem Sound.fair (hs : s.Sound) (h : s.Apart a) : s.Fair a := by
  constructor
  · intro w r hw
    exact ⟨requests_step hs hw.1, (hs.outcome_step hw).trans (hs.effect_eq_due hw h)⟩
  · rintro number r now rfl hnew
    have hstep : s.step (.wait number r now) =
        s.waitForDecision ⟨r.tenantId, number⟩ r now := by
      rw [step_wait, hnew]
      rfl
    have hout : (s.waitForDecision ⟨r.tenantId, number⟩ r now).outcome ⟨r.tenantId, number⟩ =
        (s.rememberedAnswer r.offerId).map (·.decision) := hs.outcome_wait hnew
    rw [hstep]
    cases hr : s.rememberedAnswer r.offerId with
    | none =>
      refine .inl ⟨?_, by rw [hout, hr]; rfl⟩
      rw [requests_waitForDecision, get_append, hnew, get_cons, if_pos rfl]
      rfl
    | some remembered =>
      obtain ⟨hget, hne⟩ := Option.filter_eq_some_iff.1 hr
      obtain ⟨w', r', hr', hid, hans⟩ := hs.given _ (mem_of_get hget)
      refine .inr ⟨w', r', remembered.decision, hr', ?_, by simpa using hne, hans, ?_⟩
      · exact h (by rw [hr]; exact Option.some_ne_none _) w' r' hr'
          (by rw [hans]; exact Option.some_ne_none _) hid
      · rw [hout, hr]
        rfl

end OfferNode

/-- The node keeps the protocol in every run in which the keys tell the offers apart. -/
theorem offer_protocol (actions : List OfferAction)
    (h : Along OfferNode.step OfferNode.Apart .init actions) : OfferProtocol actions := by
  constructor
  · rintro pre post rfl
    exact OfferNode.Sound.init.run.tidy
  · exact h.mono (fun s a _ hs => hs.step) (fun s a ha hs => hs.fair ha) OfferNode.Sound.init

/-! ## 3. Plain names -/

/-- Texts in which `:` only stands between call and seat, all of one tenant. -/
def AgentOfferRequest.Plain (tenantId : String) (r : AgentOfferRequest) : Prop :=
  r.tenantId = tenantId ∧ ':' ∉ r.linkedid.toList ∧ ':' ∉ r.extension.toList

def OfferNotice.Plain (tenantId : String) : OfferNotice → Prop
  | .decision input => input.tenantId = tenantId ∧ input.linkedid ≠ "" ∧
      ':' ∉ input.linkedid.toList ∧ ':' ∉ input.extension.toList
  | .callEnded tenant linkedid => tenant = tenantId ∧ linkedid ≠ "" ∧ ':' ∉ linkedid.toList

def OfferAction.Plain (tenantId : String) : OfferAction → Prop
  | .wait _ r _ => r.Plain tenantId
  | .notice sent _ _ => sent.Plain tenantId
  | .timeout _ _ => True
  | .abort _ _ => True

instance AgentOfferRequest.decidablePlain (tenantId : String) (r : AgentOfferRequest) :
    Decidable (r.Plain tenantId) :=
  inferInstanceAs (Decidable (_ ∧ _ ∧ _))

instance OfferNotice.decidablePlain (tenantId : String) :
    (notice : OfferNotice) → Decidable (notice.Plain tenantId)
  | .decision _ => inferInstanceAs (Decidable (_ ∧ _ ∧ _ ∧ _))
  | .callEnded _ _ => inferInstanceAs (Decidable (_ ∧ _ ∧ _))

instance OfferAction.decidablePlain (tenantId : String) :
    (a : OfferAction) → Decidable (a.Plain tenantId)
  | .wait _ r _ => r.decidablePlain tenantId
  | .notice sent _ _ => sent.decidablePlain tenantId
  | .timeout _ _ => inferInstanceAs (Decidable True)
  | .abort _ _ => inferInstanceAs (Decidable True)

section Plain

variable {l l' x x' tenantId : String} {s : OfferNode} {a : OfferAction}

theorem toList_agentOfferId : (agentOfferId l x).toList = l.toList ++ ':' :: x.toList := by
  simp [agentOfferId]

theorem agentOfferId_inj (hl : ':' ∉ l.toList) (hl' : ':' ∉ l'.toList)
    (h : agentOfferId l x = agentOfferId l' x') : l = l' ∧ x = x' := by
  have hlist := congrArg String.toList h
  rw [toList_agentOfferId, toList_agentOfferId] at hlist
  obtain ⟨hcall, hseat⟩ := append_sep_inj hl hl' hlist
  exact ⟨String.toList_inj.1 hcall, String.toList_inj.1 hseat⟩

theorem startsWith_agentOfferId (hl : ':' ∉ l.toList) (hl' : ':' ∉ l'.toList) :
    startsWith (agentOfferId l x) (l' ++ ":") = true ↔ l = l' := by
  rw [startsWith_iff, toList_agentOfferId]
  constructor
  · rintro ⟨rest, h⟩
    have hlist : l.toList ++ ':' :: x.toList = l'.toList ++ ':' :: rest := by simpa using h
    exact String.toList_inj.1 (append_sep_inj hl hl' hlist).1
  · rintro rfl
    exact ⟨x.toList, by simp⟩

theorem siblingStart_agentOfferId (hl : l ≠ "") (hx : ':' ∉ x.toList) :
    OfferNode.siblingStart (agentOfferId l x) = some (l ++ ":") := by
  have hne : l.toList ≠ [] := fun h => hl (String.toList_inj.1 h)
  unfold OfferNode.siblingStart
  rw [toList_agentOfferId, beforeLast?_append hne hx]
  simp

theorem seat_of_plain {r r' : AgentOfferRequest} (hr : r.Plain tenantId) (hr' : r'.Plain tenantId)
    (h : r.offerId = r'.offerId) : r.seat = r'.seat := by
  obtain ⟨hl, hx⟩ := agentOfferId_inj hr.2.1 hr'.2.1 h
  unfold AgentOfferRequest.seat
  rw [hr.1, hr'.1, hl, hx]

theorem noticeApart_of_plain {notice : OfferNotice} {fallback : Bool} {r : AgentOfferRequest}
    (htenant : tenantId ≠ "") (ha : notice.Plain tenantId) (hr : r.Plain tenantId) :
    notice.Apart fallback r := by
  obtain ⟨hrt, hrl, -⟩ := hr
  cases notice with
  | decision input =>
    obtain ⟨rfl, hne, hl, hx⟩ := ha
    refine ⟨?_, ?_, fun hempty => absurd hempty htenant⟩
    · intro hid
      obtain ⟨hll, hxx⟩ := agentOfferId_inj hrl hl hid
      simp only [AgentOfferRequest.seat, AgentOfferDecisionInput.seat, hrt, hll, hxx]
    · intro _ _
      rw [siblingStart_agentOfferId hne hx]
      show startsWith (agentOfferId r.linkedid r.extension) _ = true ↔ _
      rw [startsWith_agentOfferId hrl hl]
      simp [AgentOfferRequest.call, AgentOfferDecisionInput.call, hrt, eq_comm]
  | callEnded tenant linkedid =>
    obtain ⟨rfl, hne, hl⟩ := ha
    refine ⟨?_, fun hempty => absurd hempty htenant⟩
    show linkedid ≠ "" ∧ startsWith (agentOfferId r.linkedid r.extension) _ = true ↔ _
    rw [startsWith_agentOfferId hrl hl]
    simp [AgentOfferRequest.call, hrt, hne, eq_comm]

def OfferNode.Plain (tenantId : String) (s : OfferNode) : Prop :=
  s.Sound ∧ ∀ w r, get s.requests w = some r → r.Plain tenantId

theorem OfferNode.Plain.step (hs : s.Plain tenantId) (ha : a.Plain tenantId) :
    (s.step a).Plain tenantId := by
  obtain ⟨hs, hr⟩ := hs
  refine ⟨hs.step, ?_⟩
  intro w r hw
  rcases requests_of_step hs hw with hold | ⟨number, now, rfl⟩
  · exact hr w r hold
  · exact ha

theorem OfferNode.Plain.apart (hs : s.Plain tenantId) (htenant : tenantId ≠ "")
    (ha : a.Plain tenantId) : s.Apart a := by
  obtain ⟨hs, hr⟩ := hs
  cases a with
  | wait number r now => exact fun _ w' r' hr' _ hid => seat_of_plain (hr w' r' hr') ha hid
  | notice notice fallback now =>
    exact fun w r hw => noticeApart_of_plain htenant ha (hr w r hw.1)
  | timeout w' now =>
    intro timer ht w r hw hid
    obtain ⟨⟨r', hr', hid'⟩, -⟩ := hs.opener w' timer ht
    have hseat : r'.seat = r.seat := seat_of_plain (hr w' r' hr') (hr w r hw.1) (hid'.trans hid.symm)
    rw [hr']
    simpa using hseat
  | abort w' now => trivial

theorem apart_of_plain {actions : List OfferAction} (htenant : tenantId ≠ "")
    (h : ∀ a ∈ actions, a.Plain tenantId) :
    Along OfferNode.step OfferNode.Apart .init actions := by
  have hplain : Along OfferNode.step (fun _ a => a.Plain tenantId) .init actions := by
    rintro pre a post rfl
    exact h a (by simp)
  have hinit : OfferNode.init.Plain tenantId :=
    ⟨OfferNode.Sound.init, fun w r hw => by cases hw⟩
  exact hplain.mono (fun s a ha hs => OfferNode.Plain.step hs ha)
    (fun s a ha hs => OfferNode.Plain.apart hs htenant ha) hinit

end Plain

def twoSeats : List OfferAction :=
  [.wait 1 ⟨"t1", "1787355742.21", "1001", 10⟩ 0, .wait 2 ⟨"t1", "1787355742.21", "1002", 10⟩ 0,
    .notice (.decision ⟨"t1", "1787355742.21", "1001", .accept⟩) false 5]

theorem offer_protocol_two_seats :
    OfferProtocol twoSeats ∧
      (twoSeats.foldl OfferNode.step .init).outcome ⟨"t1", 1⟩ = some .accept ∧
      (twoSeats.foldl OfferNode.step .init).outcome ⟨"t1", 2⟩ = some .abandoned := by
  refine ⟨offer_protocol twoSeats ?_, by decide, by decide⟩
  have hplain : ∀ a ∈ twoSeats, a.Plain "t1" := by decide
  exact apart_of_plain (by decide) hplain

/-- Two tenants whose calls have one linkedid, as two PBXes can give out. -/
def oneLinkedid : List OfferAction :=
  [.wait 1 ⟨"t1", "1787355742.21", "1001", 10⟩ 0, .wait 1 ⟨"t2", "1787355742.21", "1002", 10⟩ 0,
    .notice (.decision ⟨"t1", "1787355742.21", "1001", .accept⟩) false 5]

/-- An agent of the first tenant accepts, and the call of the second is taken off the
screen of its agent. -/
theorem other_call_closed : ¬ OfferProtocol oneLinkedid := by
  rintro ⟨-, hfair⟩
  have hstep := (hfair (oneLinkedid.take 2) _ [] rfl).1 ⟨"t2", 1⟩
    ⟨"t2", "1787355742.21", "1002", 10⟩ ⟨by decide, by decide⟩
  exact absurd hstep.2 (by decide)

end KasterCti.Calls
