import KasterCti.Calls.StatusOrder
import Mathlib.Algebra.Order.BigOperators.Group.List

/-!
# Call time accounting

A `Book` keeps what the events of one call say about its times: the last answer,
the end, and the completed hold intervals. The session row is compared with it.

The row follows the book in `answeredAt` and `endedAt` through every event. Every
answer overwrites the one before it (`upsertSession` guards the status only).
The accumulated hold follows the book until an `AgentComplete` reports a hold
time of its own or cuts an open hold off.

Results:
1. `row_agrees`: in every run from the empty database, every row agrees with the
   book of its call.
2. `Book.Ordered.step`: with times in order, answers precede the end and holds
   end after they start.
3. `call_times_follow_book`: the two together.
-/

namespace KasterCti.Calls

open JsText Trace

/-! ## The book of a call -/

structure Book where
  /-- The call has a session. -/
  started : Bool := false
  /-- The last answer, as `AgentConnect`, `BridgeEnter` or `AgentComplete` gave it. -/
  answeredAt : Option Time := none
  endedAt : Option Time := none
  /-- Start of the hold that is open. -/
  holdFrom : Option Time := none
  /-- The completed holds, from their start to their end. -/
  held : List (Time × Time) := []
  /-- An answer was written after the end. -/
  answeredLate : Bool := false
  /-- An `AgentComplete` reported a hold time, or came during a hold. -/
  holdRewritten : Bool := false

/-- A session exists, and an answer may be new. -/
def Book.answer (b : Book) (answeredAt : Option Time) : Book :=
  { b with
    started := true
    answeredAt := answeredAt <|> b.answeredAt
    answeredLate := b.answeredLate || (answeredAt.isSome && b.endedAt.isSome) }

/-- The open hold, if there is one, ends. -/
def Book.closeHold (b : Book) (at' : Time) : Book :=
  match b.holdFrom with
  | none => b
  | some start => { b with holdFrom := none, held := b.held ++ [(start, at')] }

/-- What one applied event enters into the book. A hold counts when the call is
answered, has not ended and is not on hold. -/
def Book.step (b : Book) (call : EngineCall) : Book :=
  let eventAt := call.event.at call.now
  match call.event.eventName with
  | .newchannel | .queueCallerJoin | .agentCalled => b.answer none
  | .agentConnect | .bridgeEnter => b.answer (some call.now)
  | .hold =>
    if b.answeredAt.isSome && b.endedAt.isNone && b.holdFrom.isNone then
      { b with holdFrom := some eventAt } else b
  | .unhold => b.closeHold eventAt
  | .hangup =>
    if hangupEndsCall (call.event.rawField "Channel") && b.started && b.endedAt.isNone then
      { b.closeHold call.now with endedAt := some call.now } else b
  | .agentComplete =>
    { b.answer (call.event.talkTime.map fun talk => eventAt - talk * 1000) with
      holdRewritten := b.holdRewritten || call.event.holdTime.isSome || b.holdFrom.isSome }
  | _ => b

/-- The calls of a run that reach the row of `k`. -/
def appliedCalls (env : Env) (k : CallKey) : World → List EngineCall → List EngineCall
  | _, [] => []
  | w, call :: calls =>
    let rest := appliedCalls env k (engineStep env w call) calls
    if k = call.key ∧ w.reaches env call = true then call :: rest else rest

def bookOf (env : Env) (k : CallKey) (calls : List EngineCall) : Book :=
  (appliedCalls env k World.empty calls).foldl Book.step {}

/-- The length of an interval in whole seconds. -/
def wholeSeconds (interval : Time × Time) : Int := (interval.2 - interval.1) / 1000

/-! ## The row agrees with the book -/

/-- The row of a call agrees with its book. -/
structure Agrees (row : CallSession) (b : Book) : Prop where
  started : b.started = true
  answered : row.answeredAt = b.answeredAt
  ended : row.endedAt = b.endedAt
  status_ended : row.sessionStatus = .ended ↔ b.endedAt.isSome = true
  status_hold : b.holdRewritten = false → (row.sessionStatus = .hold ↔ b.holdFrom.isSome = true)
  hold_start : b.holdRewritten = false → ∀ t, b.holdFrom = some t → row.updatedAt = t
  hold_total : b.holdRewritten = false →
    row.holdSeconds = (b.held.map fun i => secondsBetween i.1 i.2).sum

def AgreesAt (found : Option CallSession) (b : Book) : Prop :=
  match found with
  | none => b = {}
  | some row => Agrees row b

variable {b : Book} {row : CallSession}

@[simp] theorem agreesAt_some :
    AgreesAt (some row) b ↔ Agrees row b := Iff.rfl

theorem guardStatus_afterCallWork {found : SessionStatus} :
    guardStatus found .afterCallWork ≠ .hold := by
  cases found <;> decide

section Upsert

variable (env : Env) (tenantId : String) {patch : SessionPatch} {now : Time} {b : Book}

/-- A created row agrees with the book that starts with it. -/
theorem agrees_createRow (hrank : statusRank patch.sessionStatus ≤ 30)
    (hhold : patch.holdSeconds = none) :
    Agrees (createRow env tenantId patch now) (Book.answer {} patch.answeredAt) := by
  have hne : patch.sessionStatus ≠ .hold ∧ patch.sessionStatus ≠ .ended := by
    constructor <;> rintro h <;> simp [h, statusRank] at hrank
  constructor <;> simp [createRow, Book.answer, hhold, hne]

/-- An update below the rank of hold keeps the agreement. -/
theorem agrees_updateRow {row : CallSession} (h : Agrees row b)
    (hrank : statusRank patch.sessionStatus ≤ 30) (hhold : patch.holdSeconds = none) :
    Agrees (updateRow env tenantId patch row) (b.answer patch.answeredAt) := by
  constructor
  · rfl
  · simp only [updateRow, Book.answer, h.answered]
  · exact h.ended
  · simp only [updateRow, Book.answer]
    rw [guardStatus_eq_ended (by omega)]
    exact h.status_ended
  · intro hclean
    simp only [updateRow, Book.answer]
    rw [guardStatus_eq_hold hrank]
    exact h.status_hold hclean
  · exact h.hold_start
  · intro hclean
    simp only [updateRow, hhold, Option.getD_none]
    exact h.hold_total hclean

/-- Both at once: an upsert below the rank of hold enters an answer. -/
theorem agreesAt_upsert {found : Option CallSession} (h : AgreesAt found b)
    (hrank : statusRank patch.sessionStatus ≤ 30) (hhold : patch.holdSeconds = none) :
    AgreesAt ((upsertSession env tenantId patch now found).map (·.1) <|> found)
      (b.answer patch.answeredAt) := by
  cases found with
  | none =>
    have hb : b = {} := h
    subst hb
    exact agrees_createRow env tenantId hrank hhold
  | some row => exact agrees_updateRow env tenantId h hrank hhold

end Upsert

theorem agrees_endedRow (h : Agrees row b) (hopen : row.sessionStatus ≠ .ended) (now : Time) :
    Agrees (endedRow row now) { b.closeHold now with endedAt := some now } := by
  have hend : b.endedAt = none := by
    have := mt h.status_ended.2 hopen
    simpa using this
  cases hfrom : b.holdFrom with
  | none =>
    simp only [Book.closeHold, hfrom]
    constructor <;> try simp [endedRow, h.started, h.answered]
    intro hclean
    have hnot : row.sessionStatus ≠ .hold := by
      rw [Ne, h.status_hold hclean, hfrom]
      simp
    rw [if_neg hnot, h.hold_total hclean, add_zero]
  | some start =>
    simp only [Book.closeHold, hfrom]
    constructor <;> try simp [endedRow, h.started, h.answered]
    intro hclean
    have hhold : row.sessionStatus = .hold := (h.status_hold hclean).2 (by simp [hfrom])
    rw [if_pos hhold, h.hold_start hclean start hfrom, h.hold_total hclean]

theorem agrees_resumedRow (h : Agrees row b) (hhold : row.sessionStatus = .hold) (eventAt : Time) :
    Agrees (resumedRow row eventAt) (b.closeHold eventAt) := by
  have hopen : b.endedAt = none := by
    have := mt h.status_ended.2 (by rw [hhold]; decide)
    simpa using this
  cases hfrom : b.holdFrom with
  | none =>
    simp only [Book.closeHold, hfrom]
    have hdirty : b.holdRewritten = true := by
      by_contra hclean
      have := (h.status_hold (by simpa using hclean)).1 hhold
      simp [hfrom] at this
    constructor <;> try simp [resumedRow, h.started, h.answered, h.ended, hopen, hdirty]
  | some start =>
    simp only [Book.closeHold, hfrom]
    constructor <;> try simp [resumedRow, h.started, h.answered, h.ended, hopen]
    intro hclean
    rw [h.hold_start hclean start hfrom, h.hold_total hclean]

/-- An unhold that finds no hold changes neither side. -/
theorem agrees_unhold_idle (h : Agrees row b) (hhold : row.sessionStatus ≠ .hold) (eventAt : Time) :
    Agrees row (b.closeHold eventAt) := by
  cases hfrom : b.holdFrom with
  | none => simpa only [Book.closeHold, hfrom] using h
  | some start =>
    have hdirty : b.holdRewritten = true := by
      by_contra hclean
      exact hhold ((h.status_hold (by simpa using hclean)).2 (by simp [hfrom]))
    simp only [Book.closeHold, hfrom]
    constructor <;> simp [h.started, h.answered, h.ended, h.status_ended, hdirty]

/-- Once the hold is rewritten, only the answer and the end are compared. -/
theorem Agrees.of_rewritten {row row' : CallSession} {b b' : Book} (h : Agrees row b)
    (hr : b'.holdRewritten = true) (hanswered : row'.answeredAt = row.answeredAt)
    (hended : row'.endedAt = row.endedAt)
    (hstatus : row'.sessionStatus = .ended ↔ row.sessionStatus = .ended)
    (hbook : b'.started = b.started ∧ b'.answeredAt = b.answeredAt ∧ b'.endedAt = b.endedAt) :
    Agrees row' b' := by
  obtain ⟨hs, ha, he⟩ := hbook
  constructor
  · rw [hs, h.started]
  · rw [hanswered, ha, h.answered]
  · rw [hended, he, h.ended]
  · rw [hstatus, he, h.status_ended]
  · simp [hr]
  · simp [hr]
  · simp [hr]

theorem holdApplies_not_ended (h : holdApplies row = true) : row.sessionStatus ≠ .ended := by
  simp only [holdApplies, Bool.and_eq_true, decide_eq_true_eq] at h
  exact h.1.1

/-- The guard of `markHold`, read in the book. -/
theorem Agrees.holdApplies_eq (h : Agrees row b) (hclean : b.holdRewritten = false) :
    holdApplies row = (b.answeredAt.isSome && b.endedAt.isNone && b.holdFrom.isNone) := by
  have hended : row.sessionStatus = .ended ↔ b.endedAt.isNone = false := by
    rw [h.status_ended]
    cases b.endedAt <;> simp
  have hhold : row.sessionStatus = .hold ↔ b.holdFrom.isNone = false := by
    rw [h.status_hold hclean]
    cases b.holdFrom <;> simp
  rw [Bool.eq_iff_iff]
  simp only [holdApplies, h.answered, Bool.and_eq_true, decide_eq_true_eq, ne_eq, hended, hhold,
    Bool.not_eq_false]
  tauto

theorem agrees_markHold (h : Agrees row b) (eventAt : Time) :
    AgreesAt ((markHold eventAt (some row)).map (·.1) <|> some row)
      (if b.answeredAt.isSome && b.endedAt.isNone && b.holdFrom.isNone then
        { b with holdFrom := some eventAt } else b) := by
  by_cases hclean : b.holdRewritten = false
  · simp only [markHold, h.holdApplies_eq hclean]
    split
    · next hopen =>
      simp only [Bool.and_eq_true, Option.isNone_iff_eq_none] at hopen
      have htotal := h.hold_total hclean
      constructor <;> simp [h.started, h.answered, h.ended, hopen, htotal]
    · exact h
  · have hdirty : b.holdRewritten = true := by simpa using hclean
    have hbook : ∀ b' : Book, b'.started = b.started ∧ b'.answeredAt = b.answeredAt ∧
        b'.endedAt = b.endedAt → b'.holdRewritten = true →
        AgreesAt ((markHold eventAt (some row)).map (·.1) <|> some row) b' := by
      intro b' hsame hr
      simp only [markHold]
      split
      · next happ =>
        exact h.of_rewritten hr rfl rfl (by simp [holdApplies_not_ended happ]) hsame
      · exact h.of_rewritten hr rfl rfl Iff.rfl hsame
    split
    · exact hbook _ ⟨rfl, rfl, rfl⟩ hdirty
    · exact hbook b ⟨rfl, rfl, rfl⟩ hdirty

theorem agrees_agentComplete (env : Env) {event : AmiEvent} {now : Time}
    {found : Option CallSession} (h : AgreesAt found b) :
    AgreesAt ((upsertSession env event.tenantId (agentCompletePatch env event now) now found).map
        (·.1) <|> found)
      { b.answer (event.talkTime.map fun talk => event.at now - talk * 1000) with
        holdRewritten := b.holdRewritten || event.holdTime.isSome || b.holdFrom.isSome } := by
  cases found with
  | none =>
    have hb : b = {} := h
    subst hb
    constructor <;> simp [createRow, agentCompletePatch, Book.answer]
    intro hnone
    simp [hnone]
  | some row =>
    have h : Agrees row b := h
    constructor
    · rfl
    · simp [updateRow, agentCompletePatch, Book.answer, h.answered]
    · exact h.ended
    · simp only [updateRow, agentCompletePatch, Book.answer]
      rw [guardStatus_eq_ended (by decide)]
      exact h.status_ended
    · intro hclean
      simp only [Bool.or_eq_false_iff] at hclean
      simp [updateRow, agentCompletePatch, guardStatus_afterCallWork, Book.answer, hclean]
    · intro hclean t ht
      simp only [Bool.or_eq_false_iff] at hclean
      have ht : b.holdFrom = some t := ht
      simp [ht] at hclean
    · intro hclean
      simp only [Bool.or_eq_false_iff, Option.isSome_eq_false_iff, Option.isNone_iff_eq_none]
        at hclean
      simp only [updateRow, agentCompletePatch, hclean, Option.getD_none]
      exact h.hold_total hclean.1.1

/-- The fields of the book are those no new channel touches. -/
theorem agrees_fillBlanks (h : Agrees row b) (patch : StartPatch) :
    Agrees (fillBlanks patch row) (b.answer none) := by
  have hb : b.answer none = b := by
    simp [Book.answer, h.started.symm]
  rw [hb]
  exact ⟨h.started, h.answered, h.ended, h.status_ended, h.status_hold, h.hold_start, h.hold_total⟩

/-- One applied event keeps the agreement. -/
theorem agreesAt_step (env : Env) (call : EngineCall) (originate : Option PendingOriginate)
    {found : Option CallSession} (h : AgreesAt found b) :
    AgreesAt (applyRow env call.event originate call.now found) (b.step call) := by
  unfold applyRow eventWrite Book.step
  cases hname : call.event.eventName with
  | newchannel =>
    cases found with
    | none =>
      have hb : b = {} := h
      subst hb
      constructor <;> simp [startRow, Book.answer]
    | some row =>
      have h : Agrees row b := h
      simp only [ensureSessionStarted]
      split
      · exact agrees_fillBlanks h _
      · have hb : b.answer none = b := by simp [Book.answer, h.started.symm]
        simp only [hb]
        exact h
  | queueCallerJoin | agentCalled | agentConnect | bridgeEnter =>
    exact agreesAt_upsert env _ h
      (by simp [queueCallerJoinPatch, agentCalledPatch, talkingPatch, statusRank]) rfl
  | agentComplete => exact agrees_agentComplete env h
  | hold =>
    cases found with
    | none =>
      have hb : b = {} := h
      subst hb
      rfl
    | some row => exact agrees_markHold h _
  | unhold =>
    cases found with
    | none =>
      have hb : b = {} := h
      subst hb
      rfl
    | some row =>
      simp only [resumeHold]
      split
      · next hhold => exact agrees_resumedRow h hhold _
      · next hhold => exact agrees_unhold_idle h hhold _
  | hangup =>
    cases hends : hangupEndsCall (call.event.rawField "Channel") with
    | false => simpa using h
    | true =>
      cases found with
      | none =>
        have hb : b = {} := h
        subst hb
        simp [finalizeHangup, AgreesAt]
      | some row =>
        have h : Agrees row b := h
        by_cases hended : row.sessionStatus = .ended
        · have hnone : b.endedAt.isNone = false := by
            have hsome := h.status_ended.1 hended
            cases hb : b.endedAt <;> simp_all
          simpa [finalizeHangup, hended, hnone] using h
        · have hnone : b.endedAt.isNone = true := by
            have hsome := mt h.status_ended.2 hended
            cases hb : b.endedAt <;> simp_all
          simpa [finalizeHangup, hended, hnone, h.started] using agrees_endedRow h hended call.now
  | _ => exact h

/-- Every row of every run from the empty database agrees with the book of its
call. -/
theorem row_agrees (env : Env) (calls : List EngineCall) (k : CallKey) :
    AgreesAt ((processAll env World.empty calls).sessions k) (bookOf env k calls) := by
  -- The induction is over the run, from any world that agrees with any book.
  have hrun : ∀ w b, AgreesAt (w.sessions k) b →
      AgreesAt ((processAll env w calls).sessions k)
        ((appliedCalls env k w calls).foldl Book.step b) := by
    induction calls with
    | nil => exact fun w b h => h
    | cons call calls ih =>
      intro w b h
      have hrest := ih (engineStep env w call)
      obtain ⟨originate, hstep⟩ := processNormalizedEvent_sessions env w call k
      simp only [appliedCalls]
      split
      · next hat =>
        rw [if_pos hat] at hstep
        refine hrest (b.step call) ?_
        rw [engineStep, hstep]
        exact agreesAt_step env call originate h
      · next hat =>
        rw [if_neg hat] at hstep
        refine hrest b ?_
        rw [engineStep, hstep]
        exact h
  exact hrun World.empty {} rfl

/-! ## Times in order -/

/-- The calls come in the order of their times: clocks and event times do not go
back, and an event is processed after it was stamped. -/
def TimesInOrder (calls : List EngineCall) : Prop :=
  calls.Pairwise (fun a b => a.now ≤ b.now ∧ a.event.at a.now ≤ b.event.at b.now) ∧
    ∀ call ∈ calls, call.event.at call.now ≤ call.now

/-- A book whose entries are in order, up to the event time `eventAt` and the
clock `now`. -/
structure Book.Ordered (b : Book) (eventAt now : Time) : Prop where
  answered_le_now : b.endedAt = none → ∀ a, b.answeredAt = some a → a ≤ now
  answered_le_end : b.answeredLate = false → ∀ e, b.endedAt = some e →
    ∀ a, b.answeredAt = some a → a ≤ e
  hold_le : ∀ t, b.holdFrom = some t → t ≤ eventAt
  held_le : ∀ i ∈ b.held, i.1 ≤ i.2

theorem parseNonNegativeSeconds_nonneg {value : Option SecondsValue} {n : Int}
    (h : parseNonNegativeSeconds value = some n) : 0 ≤ n := by
  unfold parseNonNegativeSeconds at h
  split at h
  · split at h
    · next hv =>
      simp only [Option.some.injEq] at h
      exact h ▸ Int.floor_nonneg.2 hv
    · cases h
  · cases h
  · split at h
    · cases h
    · have hsome := Option.filter_eq_some_iff.1 h
      simpa using hsome.2
  · cases h

section Ordered

variable {b : Book} {at₀ now₀ eventAt now : Time}

theorem Book.Ordered.mono (h : b.Ordered at₀ now₀) (hat : at₀ ≤ eventAt) (hnow : now₀ ≤ now) :
    b.Ordered eventAt now where
  answered_le_now := fun he a ha => (h.answered_le_now he a ha).trans hnow
  answered_le_end := h.answered_le_end
  hold_le := fun t ht => (h.hold_le t ht).trans hat
  held_le := h.held_le

theorem Book.Ordered.answer (h : b.Ordered eventAt now) {answeredAt : Option Time}
    (hle : ∀ a, answeredAt = some a → a ≤ now) : (b.answer answeredAt).Ordered eventAt now := by
  refine ⟨?_, ?_, h.hold_le, h.held_le⟩
  · intro he a ha
    cases answeredAt with
    | none => exact h.answered_le_now he a (by simpa [Book.answer] using ha)
    | some a' => exact hle a (by simpa [Book.answer] using ha)
  · intro hlate e he a ha
    cases answeredAt with
    | none =>
      simp only [Book.answer, Option.isSome_none, Bool.false_and, Bool.or_false] at hlate
      exact h.answered_le_end hlate e he a (by simpa [Book.answer] using ha)
    | some a' =>
      have he : b.endedAt = some e := he
      simp [Book.answer, he] at hlate

theorem Book.Ordered.closeHold (h : b.Ordered eventAt now) {end' : Time} (hend : eventAt ≤ end') :
    (b.closeHold end').Ordered eventAt now := by
  unfold Book.closeHold
  cases hfrom : b.holdFrom with
  | none => exact h
  | some start =>
    refine ⟨h.answered_le_now, h.answered_le_end, by simp, ?_⟩
    intro i hi
    simp only [List.mem_append, List.mem_singleton] at hi
    rcases hi with hi | rfl
    · exact h.held_le i hi
    · exact (h.hold_le start hfrom).trans hend

theorem Book.closeHold_endedAt (b : Book) (t : Time) : (b.closeHold t).endedAt = b.endedAt := by
  unfold Book.closeHold
  split <;> rfl

end Ordered

/-- One event in order keeps the book in order. -/
theorem Book.Ordered.step {call : EngineCall} (h : b.Ordered (call.event.at call.now) call.now)
    (hstamp : call.event.at call.now ≤ call.now) :
    (b.step call).Ordered (call.event.at call.now) call.now := by
  unfold Book.step
  cases hname : call.event.eventName with
  | newchannel | queueCallerJoin | agentCalled => exact h.answer (by simp)
  | agentConnect | bridgeEnter =>
    refine h.answer ?_
    rintro a ⟨⟩
    exact le_refl _
  | hold =>
    simp only
    split
    · refine ⟨h.answered_le_now, h.answered_le_end, ?_, h.held_le⟩
      rintro t ⟨⟩
      exact le_refl _
    · exact h
  | unhold => exact h.closeHold (le_refl _)
  | hangup =>
    simp only
    split
    · next hopen =>
      simp only [Bool.and_eq_true, Option.isNone_iff_eq_none] at hopen
      have hclosed := h.closeHold hstamp
      refine ⟨by simp, ?_, hclosed.hold_le, hclosed.held_le⟩
      rintro - e ⟨⟩ a ha
      rw [← Book.closeHold_endedAt b call.now] at hopen
      exact hclosed.answered_le_now hopen.2 a ha
    · exact h
  | agentComplete =>
    have hle : ∀ a, (call.event.talkTime.map fun talk => call.event.at call.now - talk * 1000) =
        some a → a ≤ call.now := by
      intro a ha
      obtain ⟨talk, htalk, rfl⟩ := Option.map_eq_some_iff.1 ha
      have htalk := parseNonNegativeSeconds_nonneg htalk
      exact (Int.sub_le_self _ (by omega)).trans hstamp
    have hanswer := h.answer hle
    exact ⟨hanswer.answered_le_now, hanswer.answered_le_end, hanswer.hold_le, hanswer.held_le⟩
  | _ => exact h

/-- A run in order keeps the book in order. -/
theorem Book.Ordered.run {calls : List EngineCall} (hcalls : TimesInOrder calls) :
    ∃ eventAt now, (calls.foldl Book.step {}).Ordered eventAt now := by
  have hrun : ∀ (b : Book) (at₀ now₀ : Time), b.Ordered at₀ now₀ →
      (∀ call ∈ calls, at₀ ≤ call.event.at call.now ∧ now₀ ≤ call.now) →
      ∃ eventAt now, (calls.foldl Book.step b).Ordered eventAt now := by
    induction calls with
    | nil => exact fun b at₀ now₀ h _ => ⟨at₀, now₀, h⟩
    | cons call calls ih =>
      intro b at₀ now₀ h hle
      obtain ⟨hpair, hstamp⟩ := hcalls
      obtain ⟨hhead, htail⟩ := List.pairwise_cons.1 hpair
      have hfirst := hle call List.mem_cons_self
      have hb := (h.mono hfirst.1 hfirst.2).step (hstamp call List.mem_cons_self)
      exact ih ⟨htail, fun c hc => hstamp c (List.mem_cons_of_mem _ hc)⟩ _ _ _ hb
        (fun c hc => ⟨(hhead c hc).2, (hhead c hc).1⟩)
  cases calls with
  | nil => exact ⟨0, 0, by constructor <;> simp⟩
  | cons call calls =>
    refine hrun {} (call.event.at call.now) call.now (by constructor <;> simp) ?_
    intro c hc
    rcases List.mem_cons.1 hc with rfl | hc
    · exact ⟨le_refl _, le_refl _⟩
    · exact ⟨((List.pairwise_cons.1 hcalls.1).1 c hc).2, ((List.pairwise_cons.1 hcalls.1).1 c hc).1⟩

theorem appliedCalls_sublist (env : Env) (k : CallKey) (w : World) (calls : List EngineCall) :
    (appliedCalls env k w calls).Sublist calls := by
  induction calls generalizing w with
  | nil => exact List.Sublist.refl _
  | cons call calls ih =>
    simp only [appliedCalls]
    split
    · exact (ih _).cons_cons call
    · exact (ih _).cons call

theorem TimesInOrder.sublist {calls calls' : List EngineCall} (h : TimesInOrder calls)
    (hsub : calls'.Sublist calls) : TimesInOrder calls' :=
  ⟨h.1.sublist hsub, fun call hcall => h.2 call (hsub.subset hcall)⟩

theorem sum_secondsBetween {held : List (Time × Time)} (h : ∀ i ∈ held, i.1 ≤ i.2) :
    (held.map fun i => secondsBetween i.1 i.2).sum = (held.map wholeSeconds).sum := by
  congr 1
  refine List.map_congr_left ?_
  intro i hi
  exact max_eq_right (Int.ediv_nonneg (Int.sub_nonneg.2 (h i hi)) (by decide))

/-- In every run with times in order from the empty database, every row has the
last answer of its call; an ended row was answered before it ended, unless an
answer was written after the end; and the accumulated hold is the sum of the
completed holds, until an `AgentComplete` rewrites it. -/
theorem call_times_follow_book (env : Env) (calls : List EngineCall) (htimes : TimesInOrder calls)
    (k : CallKey) (row : CallSession)
    (hrow : (processAll env World.empty calls).sessions k = some row) :
    row.answeredAt = (bookOf env k calls).answeredAt ∧
      (row.sessionStatus = .ended → ∃ e, row.endedAt = some e ∧
        ((bookOf env k calls).answeredLate = false → ∀ a, row.answeredAt = some a → a ≤ e)) ∧
      ((bookOf env k calls).holdRewritten = false →
        row.holdSeconds = ((bookOf env k calls).held.map wholeSeconds).sum) := by
  have hagrees : Agrees row (bookOf env k calls) := by
    have h := row_agrees env calls k
    rwa [hrow] at h
  obtain ⟨eventAt, now, hordered⟩ :=
    Book.Ordered.run (htimes.sublist (appliedCalls_sublist env k World.empty calls))
  refine ⟨hagrees.answered, ?_, ?_⟩
  · intro hended
    obtain ⟨e, he⟩ := Option.isSome_iff_exists.1 (hagrees.status_ended.1 hended)
    refine ⟨e, by rw [hagrees.ended, he], ?_⟩
    intro hlate a ha
    rw [hagrees.answered] at ha
    exact hordered.answered_le_end hlate e he a ha
  · intro hclean
    rw [hagrees.hold_total hclean]
    exact sum_secondsBetween hordered.held_le

/-- A call answered after one second, held from the second to the seventh, and
ended after nine. -/
def exHeldCall : List EngineCall :=
  [exCall .agentConnect 1, exCall .hold 2, exCall .unhold 7, exCall .hangup 9]

theorem call_times_follow_book_held : TimesInOrder exHeldCall ∧
    ∃ row, (processAll exEnv World.empty exHeldCall).sessions exKey = some row ∧
      row.answeredAt = some 1000 ∧ row.endedAt = some 9000 ∧ row.holdSeconds = 5 := by
  have htimes : TimesInOrder exHeldCall := ⟨by decide, by decide⟩
  obtain ⟨row, hrow⟩ : ∃ row, (processAll exEnv World.empty exHeldCall).sessions exKey = some row :=
    ⟨_, rfl⟩
  obtain ⟨hanswered, hended, hheld⟩ := call_times_follow_book exEnv exHeldCall htimes exKey row hrow
  refine ⟨htimes, row, hrow, hanswered.trans (by decide), ?_, (hheld (by decide)).trans (by decide)⟩
  have hends : ((processAll exEnv World.empty exHeldCall).sessions exKey).map (·.endedAt) =
      some (some 9000) := by decide
  rw [hrow] at hends
  exact Option.some.inj hends

/-! ## Answers are overwritten -/

/-- No `AgentConnect` or `BridgeEnter` of the run changes an answer that is set. -/
def AnswerKept (env : Env) (calls : List EngineCall) : Prop :=
  Along (engineStep env)
    (fun w call => (call.event.eventName = .agentConnect ∨ call.event.eventName = .bridgeEnter) →
      ∀ k row row', w.sessions k = some row → row.answeredAt.isSome = true →
        (engineStep env w call).sessions k = some row' → row'.answeredAt = row.answeredAt)
    World.empty calls

/-- The second bridge of a call takes its answer from one second to five. -/
theorem second_bridge_moves_answer :
    TimesInOrder [exCall .bridgeEnter 1, exCall .bridgeEnter 5] ∧
      ¬ AnswerKept exEnv [exCall .bridgeEnter 1, exCall .bridgeEnter 5] := by
  refine ⟨⟨by decide, by decide⟩, ?_⟩
  intro h
  have hkept := h [exCall .bridgeEnter 1] (exCall .bridgeEnter 5) [] rfl (.inr rfl) exKey _ _ rfl
    (by decide) rfl
  exact absurd hkept (by decide)

end KasterCti.Calls
