import KasterCti.Calls.AgentOffer

/-!
# What the offer maps keep

Results:
1. `Sound.step`: every waiter that has no answer waits in the entry of its key, every
   entry has a waiter and an armed timer, and no waiter is answered twice.
2. `Sound.outcome_step`: what one step does to a waiter, read off its key.
-/

namespace KasterCti.Calls

open JsMap JsText

namespace OfferNode

variable {s : OfferNode} {id : String} {offer : PendingOffer} {w : Waiter}
  {r : AgentOfferRequest} {d : AgentOfferDecision} {now : Nat}

def outcome (s : OfferNode) (w : Waiter) : Option AgentOfferDecision := get s.resolved w

/-- A long poll that was made and has no answer yet. -/
def Open (s : OfferNode) (w : Waiter) (r : AgentOfferRequest) : Prop :=
  get s.requests w = some r ∧ s.outcome w = none

structure Sound (s : OfferNode) : Prop where
  once : (keys s.resolved).Nodup
  made : ∀ w, s.outcome w ≠ none → get s.requests w ≠ none
  waited : ∀ id offer, get s.pending id = some offer →
    offer.resolvers ≠ [] ∧ offer.resolvers.Nodup
  isOpen : ∀ id offer w, get s.pending id = some offer → w ∈ offer.resolvers →
    ∃ r, s.Open w r ∧ r.offerId = id
  waiting : ∀ w r, s.Open w r → ∃ offer, get s.pending r.offerId = some offer ∧ w ∈ offer.resolvers
  armed : ∀ id offer, get s.pending id = some offer →
    ∃ timer, get s.timers offer.timer = some timer ∧ timer.offerId = id
  opener : ∀ w timer, get s.timers w = some timer →
    (∃ r, get s.requests w = some r ∧ r.offerId = timer.offerId) ∧
    ∃ offer, get s.pending timer.offerId = some offer ∧ offer.timer = w
  given : ∀ e ∈ s.answered, ∃ w r, get s.requests w = some r ∧ r.offerId = e.1 ∧
    s.outcome w = some e.2.decision

theorem Sound.init : Sound init where
  once := List.nodup_nil
  made := fun _ h => absurd rfl h
  waited := fun _ _ h => by cases h
  isOpen := fun _ _ _ h => by cases h
  waiting := fun _ _ h => by cases h.1
  armed := fun _ _ h => by cases h
  opener := fun _ _ h => by cases h
  given := fun _ h => by cases h

/-! ### Closing an offer -/

theorem settle_none (h : get s.pending id = none) : s.settle id d now = s := by
  unfold settle
  rw [h]

theorem settle_some (h : get s.pending id = some offer) :
    s.settle id d now =
      { s with
        pending := delete s.pending id
        timers := delete s.timers offer.timer
        answered := remember s.answered id ⟨d, now, offer.timer⟩
        resolved := s.resolved ++ offer.resolvers.map fun w => (w, d) } := by
  unfold settle
  rw [h]

@[simp] theorem requests_settle : (s.settle id d now).requests = s.requests := by
  cases h : get s.pending id with
  | none => rw [settle_none h]
  | some offer => rw [settle_some h]

theorem outcome_append {answers : List (Waiter × AgentOfferDecision)} :
    get (s.resolved ++ answers) w = (s.outcome w).or (get answers w) := get_append

variable {w' : Waiter}

theorem outcome_append_one :
    get (s.resolved ++ [(w, d)]) w' = (s.outcome w').or (if w = w' then some d else none) := by
  rw [outcome_append, get_cons, get_nil]

theorem outcome_settle (h : get s.pending id = some offer) :
    (s.settle id d now).outcome w =
      (s.outcome w).or (if w ∈ offer.resolvers then some d else none) := by
  rw [settle_some h]
  exact outcome_append.trans (by rw [get_map_const])

theorem outcome_settle_of_some {d' : AgentOfferDecision} (h : s.outcome w = some d') :
    (s.settle id d now).outcome w = some d' := by
  cases hp : get s.pending id with
  | none => rw [settle_none hp, h]
  | some offer => rw [outcome_settle hp, h, Option.some_or]

theorem get_pending_settle {k : String} :
    get (s.settle id d now).pending k = if k = id then none else get s.pending k := by
  cases h : get s.pending id with
  | none =>
    rw [settle_none h]
    split
    · next hk => rw [hk, h]
    · rfl
  | some offer =>
    rw [settle_some h]
    exact get_delete

theorem get_timers_settle (h : get s.pending id = some offer) :
    get (s.settle id d now).timers w = if w = offer.timer then none else get s.timers w := by
  rw [settle_some h]
  exact get_delete

theorem open_settle (h : get s.pending id = some offer) :
    (s.settle id d now).Open w r ↔ s.Open w r ∧ w ∉ offer.resolvers := by
  unfold Open
  rw [requests_settle, outcome_settle h]
  by_cases hin : w ∈ offer.resolvers
  · simp [hin]
  · simp [hin]

theorem pending_of_settle {k : String} {other : PendingOffer}
    (h : get (s.settle id d now).pending k = some other) :
    k ≠ id ∧ get s.pending k = some other := by
  rw [get_pending_settle] at h
  split at h
  · cases h
  · next hne => exact ⟨hne, h⟩

theorem mem_answered_settle {e : String × AnsweredSeat} (h : get s.pending id = some offer)
    (he : e ∈ (s.settle id d now).answered) :
    e = (id, ⟨d, now, offer.timer⟩) ∨ e ∈ s.answered := by
  rw [settle_some h] at he
  rcases mem_set he with rfl | hold
  · exact .inl rfl
  · exact .inr (List.mem_filter.1 hold).1

variable {r' : AgentOfferRequest}

theorem Open.unique (h : s.Open w r) (h' : s.Open w r') : r = r' :=
  Option.some.inj (h.1.symm.trans h'.1)

/-- A waiter waits under one key only. -/
theorem Sound.one_key {k : String} {other : PendingOffer} (hs : s.Sound)
    (h : get s.pending id = some offer) (hw : w ∈ offer.resolvers)
    (h' : get s.pending k = some other) (hw' : w ∈ other.resolvers) : id = k := by
  obtain ⟨r, hr, hid⟩ := hs.isOpen id offer w h hw
  obtain ⟨r', hr', hid'⟩ := hs.isOpen k other w h' hw'
  rw [← hid, ← hid', hr.unique hr']

/-- A waiter is answered exactly when its own key is closed. -/
theorem Sound.outcome_settle_of_open (hs : s.Sound) (hw : s.Open w r) :
    (s.settle id d now).outcome w = if r.offerId = id then some d else none := by
  obtain ⟨offer, hoffer, hmem⟩ := hs.waiting w r hw
  by_cases hid : r.offerId = id
  · subst hid
    rw [outcome_settle hoffer, hw.2, if_pos hmem, if_pos rfl]
    rfl
  · rw [if_neg hid]
    cases hp : get s.pending id with
    | none => rw [settle_none hp, hw.2]
    | some other =>
      have hnot : w ∉ other.resolvers := fun hin => hid (hs.one_key hoffer hmem hp hin)
      rw [outcome_settle hp, hw.2, if_neg hnot]
      rfl

theorem Sound.settle (hs : s.Sound) : (s.settle id d now).Sound := by
  cases hp : get s.pending id with
  | none => rwa [settle_none hp]
  | some offer =>
    refine ⟨?once, ?made, ?waited, ?isOpen, ?waiting, ?armed, ?opener, ?given⟩
    case once =>
      rw [settle_some hp, keys_append, keys_map_const, List.nodup_append]
      refine ⟨hs.once, (hs.waited id offer hp).2, ?_⟩
      rintro w hw w' hw' rfl
      obtain ⟨r, hr, -⟩ := hs.isOpen id offer w hp hw'
      exact get_eq_none_iff.1 hr.2 hw
    case made =>
      intro w hw
      rw [requests_settle]
      rw [outcome_settle hp] at hw
      by_cases hin : w ∈ offer.resolvers
      · obtain ⟨r, hr, -⟩ := hs.isOpen id offer w hp hin
        rw [hr.1]
        exact Option.some_ne_none r
      · rw [if_neg hin, Option.or_none] at hw
        exact hs.made w hw
    case waited => exact fun k other hk => hs.waited k other (pending_of_settle hk).2
    case isOpen =>
      intro k other w hk hw
      obtain ⟨hne, hk⟩ := pending_of_settle hk
      obtain ⟨r, hr, hrid⟩ := hs.isOpen k other w hk hw
      exact ⟨r, (open_settle hp).2 ⟨hr, fun hin => hne (hs.one_key hk hw hp hin)⟩, hrid⟩
    case waiting =>
      intro w r hw
      obtain ⟨hw, hnot⟩ := (open_settle hp).1 hw
      obtain ⟨other, hother, hmem⟩ := hs.waiting w r hw
      refine ⟨other, ?_, hmem⟩
      rw [get_pending_settle, if_neg, hother]
      intro hid
      rw [hid, hp] at hother
      exact hnot (Option.some.inj hother ▸ hmem)
    case armed =>
      intro k other hk
      obtain ⟨hne, hk⟩ := pending_of_settle hk
      obtain ⟨timer, htimer, hid⟩ := hs.armed k other hk
      refine ⟨timer, ?_, hid⟩
      rw [get_timers_settle hp, if_neg, htimer]
      -- two entries with one timer would have one key
      intro hsame
      obtain ⟨timer', htimer', hid'⟩ := hs.armed id offer hp
      rw [hsame, htimer'] at htimer
      exact hne (hid.symm.trans (Option.some.inj htimer ▸ hid'))
    case opener =>
      intro w timer hw
      rw [get_timers_settle hp] at hw
      split at hw
      · cases hw
      · next hsame =>
        obtain ⟨hreq, other, hother, htw⟩ := hs.opener w timer hw
        refine ⟨by rw [requests_settle]; exact hreq, other, ?_, htw⟩
        rw [get_pending_settle, if_neg, hother]
        intro hid
        rw [hid, hp] at hother
        exact hsame (htw.symm.trans (by rw [Option.some.inj hother]))
    case given =>
      intro e he
      rcases mem_answered_settle hp he with rfl | hold
      · obtain ⟨w, hw⟩ := List.exists_mem_of_ne_nil _ (hs.waited id offer hp).1
        obtain ⟨r, hr, hrid⟩ := hs.isOpen id offer w hp hw
        refine ⟨w, r, by rw [requests_settle]; exact hr.1, hrid, ?_⟩
        rw [outcome_settle hp, hr.2, if_pos hw]
        rfl
      · obtain ⟨w, r, hr, hrid, hans⟩ := hs.given e hold
        exact ⟨w, r, by rwa [requests_settle], hrid, outcome_settle_of_some hans⟩

/-! ### A new long poll -/

/-- The node as `waitForDecision` sees it once the poll is counted. -/
def ask (s : OfferNode) (w : Waiter) (r : AgentOfferRequest) : OfferNode :=
  { s with requests := s.requests ++ [(w, r)] }

section Fresh

variable (hw : get s.requests w = none)

include hw

theorem get_requests_ask :
    get (s.ask w r).requests w' = if w' = w then some r else get s.requests w' := by
  unfold ask
  rw [get_append, get_cons, get_nil]
  by_cases h : w' = w
  · rw [h, hw, if_pos rfl]
    rfl
  · rw [if_neg (Ne.symm h), if_neg h, Option.or_none]

theorem requests_ask_of_some (h : get s.requests w' = some r') :
    get (s.ask w r).requests w' = some r' := by
  rw [get_requests_ask hw, if_neg, h]
  rintro rfl
  rw [hw] at h
  cases h

theorem ask_ne_none (h : get s.requests w' ≠ none) : get (s.ask w r).requests w' ≠ none := by
  obtain ⟨r', hr'⟩ := Option.ne_none_iff_exists'.1 h
  rw [requests_ask_of_some hw hr']
  exact Option.some_ne_none r'

variable (hs : s.Sound)

include hs

theorem Sound.outcome_fresh : s.outcome w = none := by
  by_contra h
  exact hs.made w h hw

theorem Sound.timer_fresh : get s.timers w = none := by
  cases h : get s.timers w with
  | none => rfl
  | some timer =>
    obtain ⟨⟨r, hr, -⟩, -⟩ := hs.opener w timer h
    rw [hw] at hr
    cases hr

theorem Sound.open_ask :
    (s.ask w r).Open w' r' ↔ w' = w ∧ r' = r ∨ s.Open w' r' := by
  unfold Open
  rw [get_requests_ask hw]
  by_cases h : w' = w
  · subst h
    have hout : (s.ask w' r).outcome w' = none := show s.outcome w' = none from hs.outcome_fresh hw
    rw [if_pos rfl, hout, hw]
    simp [eq_comm]
  · rw [if_neg h]
    simp only [h, false_and, false_or]
    rfl

/-- A poll that gets the answer its seat gave before. -/
theorem Sound.answer :
    { s.ask w r with resolved := s.resolved ++ [(w, d)] }.Sound := by
  have hopen : ∀ w' r', { s.ask w r with resolved := s.resolved ++ [(w, d)] }.Open w' r' ↔
      s.Open w' r' := by
    intro w' r'
    unfold Open
    show get (s.ask w r).requests w' = some r' ∧ get (s.resolved ++ [(w, d)]) w' = none ↔ _
    rw [outcome_append_one, get_requests_ask hw]
    by_cases h : w' = w
    · subst h
      simp [hw]
    · simp [h, Ne.symm h]
  exact
    { once := nodup_keys_append hs.once (hs.outcome_fresh hw)
      made := by
        intro w' hw'
        show get (s.ask w r).requests w' ≠ none
        rw [get_requests_ask hw]
        split
        · exact Option.some_ne_none r
        · next hne =>
          refine hs.made w' ?_
          have := outcome_append_one.symm.trans_ne hw'
          rwa [if_neg (Ne.symm hne), Option.or_none] at this
      waited := hs.waited
      isOpen := by
        intro k other w' hk hw'
        obtain ⟨r', hr', hid⟩ := hs.isOpen k other w' hk hw'
        exact ⟨r', (hopen w' r').2 hr', hid⟩
      waiting := fun w' r' hw' => hs.waiting w' r' ((hopen w' r').1 hw')
      armed := hs.armed
      opener := by
        intro w' timer hw'
        obtain ⟨⟨r', hr', hid⟩, hoffer⟩ := hs.opener w' timer hw'
        exact ⟨⟨r', requests_ask_of_some hw hr', hid⟩, hoffer⟩
      given := by
        intro e he
        obtain ⟨w', r', hr', hid, hans⟩ := hs.given e he
        refine ⟨w', r', requests_ask_of_some hw hr', hid, outcome_append_one.trans ?_⟩
        rw [hans, Option.some_or] }

/-- A poll that joins the waiters of its key or opens the offer. -/
theorem Sound.put {timers : List (Waiter × OfferTimer)}
    (hresolvers : ∀ w', w' ∈ offer.resolvers ↔
      w' = w ∨ ∃ old, get s.pending r.offerId = some old ∧ w' ∈ old.resolvers)
    (hnodup : offer.resolvers.Nodup)
    (harmed : ∀ k other, get (set s.pending r.offerId offer) k = some other →
      ∃ timer, get timers other.timer = some timer ∧ timer.offerId = k)
    (hopener : ∀ w' timer, get timers w' = some timer →
      (∃ r', get (s.ask w r).requests w' = some r' ∧ r'.offerId = timer.offerId) ∧
      ∃ other, get (set s.pending r.offerId offer) timer.offerId = some other ∧ other.timer = w') :
    { s.ask w r with pending := set s.pending r.offerId offer, timers := timers }.Sound := by
  have hopen : ∀ w' r', { s.ask w r with
      pending := set s.pending r.offerId offer, timers := timers }.Open w' r' ↔
      w' = w ∧ r' = r ∨ s.Open w' r' := fun w' r' => hs.open_ask hw
  refine ⟨hs.once, ?made, ?waited, ?isOpen, ?waiting, harmed, hopener, ?given⟩
  case made => exact fun w' hw' => ask_ne_none hw (hs.made w' hw')
  case waited =>
    intro k other hk
    rw [get_set] at hk
    split at hk
    · obtain rfl := Option.some.inj hk
      exact ⟨List.ne_nil_of_mem ((hresolvers w).2 (.inl rfl)), hnodup⟩
    · exact hs.waited k other hk
  case isOpen =>
    intro k other w' hk hw'
    rw [get_set] at hk
    split at hk
    · next hid =>
      obtain rfl := Option.some.inj hk
      rcases (hresolvers w').1 hw' with rfl | ⟨old, hold, hin⟩
      · exact ⟨r, (hopen w' r).2 (.inl ⟨rfl, rfl⟩), hid.symm⟩
      · obtain ⟨r', hr', hid'⟩ := hs.isOpen _ old w' hold hin
        exact ⟨r', (hopen w' r').2 (.inr hr'), hid'.trans hid.symm⟩
    · obtain ⟨r', hr', hid'⟩ := hs.isOpen k other w' hk hw'
      exact ⟨r', (hopen w' r').2 (.inr hr'), hid'⟩
  case waiting =>
    intro w' r' hw'
    show ∃ other, get (set s.pending r.offerId offer) r'.offerId = some other ∧ _
    rw [get_set]
    rcases (hopen w' r').1 hw' with ⟨rfl, rfl⟩ | hold
    · exact ⟨offer, if_pos rfl, (hresolvers w').2 (.inl rfl)⟩
    · obtain ⟨other, hother, hin⟩ := hs.waiting w' r' hold
      by_cases hid : r'.offerId = r.offerId
      · exact ⟨offer, if_pos hid, (hresolvers w').2 (.inr ⟨other, hid ▸ hother, hin⟩)⟩
      · exact ⟨other, (if_neg hid).trans hother, hin⟩
  case given =>
    intro e he
    obtain ⟨w', r', hr', hid, hans⟩ := hs.given e he
    exact ⟨w', r', requests_ask_of_some hw hr', hid, hans⟩

theorem Sound.join (hp : get s.pending r.offerId = some offer) :
    { s.ask w r with
      pending := set s.pending r.offerId ⟨offer.resolvers ++ [w], offer.timer, offer.openedAt⟩
      }.Sound := by
  refine hs.put hw ?_ ?_ ?_ ?_
  · intro w'
    simp [hp, or_comm]
  · refine nodup_append_singleton (hs.waited _ offer hp).2 ?_
    intro hin
    obtain ⟨r', ⟨hr', -⟩, -⟩ := hs.isOpen _ offer w hp hin
    rw [hw] at hr'
    cases hr'
  · intro k other hk
    rw [get_set] at hk
    split at hk
    · next hid =>
      obtain rfl := Option.some.inj hk
      exact hid ▸ hs.armed _ offer hp
    · exact hs.armed k other hk
  · intro w' timer hw'
    obtain ⟨⟨r', hr', hid'⟩, other, hother, htimer⟩ := hs.opener w' timer hw'
    refine ⟨⟨r', requests_ask_of_some hw hr', hid'⟩, ?_⟩
    rw [get_set]
    split
    · next hid =>
      rw [hid, hp] at hother
      exact ⟨_, rfl, by rw [← htimer, Option.some.inj hother]⟩
    · exact ⟨other, hother, htimer⟩

theorem Sound.openOffer {delay : Nat} (hp : get s.pending r.offerId = none) :
    { s.ask w r with
      pending := set s.pending r.offerId ⟨[w], w, now⟩
      timers := set s.timers w ⟨r.offerId, delay⟩ }.Sound := by
  refine hs.put hw ?_ (List.pairwise_singleton _ _) ?_ ?_
  · intro w'
    simp [hp]
  · intro k other hk
    rw [get_set] at hk
    split at hk
    · next hid =>
      obtain rfl := Option.some.inj hk
      exact ⟨_, by rw [get_set, if_pos rfl], hid.symm⟩
    · obtain ⟨timer, htimer, hid⟩ := hs.armed k other hk
      refine ⟨timer, ?_, hid⟩
      rw [get_set, if_neg, htimer]
      intro hsame
      rw [hsame, hs.timer_fresh hw] at htimer
      cases htimer
  · intro w' timer hw'
    rw [get_set] at hw'
    split at hw'
    · next hsame =>
      obtain rfl := Option.some.inj hw'
      subst hsame
      exact ⟨⟨r, by rw [get_requests_ask hw, if_pos rfl], rfl⟩, _, by rw [get_set, if_pos rfl], rfl⟩
    · obtain ⟨⟨r', hr', hid'⟩, other, hother, htimer⟩ := hs.opener w' timer hw'
      refine ⟨⟨r', requests_ask_of_some hw hr', hid'⟩, other, ?_, htimer⟩
      rw [get_set, if_neg, hother]
      intro hid
      rw [hid, hp] at hother
      cases hother

end Fresh

theorem enqueue_some (h : get s.pending id = some offer) :
    (s.ask w r).enqueue id w r now =
      { s.ask w r with
        pending := set s.pending id { offer with resolvers := offer.resolvers ++ [w] } } := by
  have h' : get (s.ask w r).pending id = some offer := h
  unfold OfferNode.enqueue
  rw [h']
  rfl

theorem enqueue_none (h : get s.pending id = none) :
    (s.ask w r).enqueue id w r now =
      { s.ask w r with
        pending := set s.pending id ⟨[w], w, now⟩
        timers := set s.timers w ⟨id, r.timeoutSeconds * 1000⟩ } := by
  have h' : get (s.ask w r).pending id = none := h
  unfold OfferNode.enqueue
  rw [h']
  rfl

/-- Without an answer the poll waits; with one it has the answer. -/
theorem waitForDecision_eq :
    s.waitForDecision w r now =
      match s.rememberedAnswer r.offerId with
      | some remembered =>
        { s.ask w r with resolved := s.resolved ++ [(w, remembered.decision)] }
      | none => (s.ask w r).enqueue r.offerId w r now := rfl

theorem Sound.waitForDecision (hs : s.Sound) (hw : get s.requests w = none) :
    (s.waitForDecision w r now).Sound := by
  rw [waitForDecision_eq]
  cases hr : s.rememberedAnswer r.offerId with
  | some remembered => exact hs.answer hw
  | none =>
    show ((s.ask w r).enqueue r.offerId w r now).Sound
    cases hp : get s.pending r.offerId with
    | some existing =>
      rw [enqueue_some hp]
      exact hs.join hw hp
    | none =>
      rw [enqueue_none hp]
      exact hs.openOffer hw hp

theorem Sound.outcome_wait (hs : s.Sound) (hw : get s.requests w = none) :
    (s.waitForDecision w r now).outcome w = (s.rememberedAnswer r.offerId).map (·.decision) := by
  rw [waitForDecision_eq]
  cases hr : s.rememberedAnswer r.offerId with
  | some remembered =>
    show get (s.resolved ++ [(w, remembered.decision)]) w = _
    rw [outcome_append_one, hs.outcome_fresh hw, if_pos rfl]
    rfl
  | none =>
    show ((s.ask w r).enqueue r.offerId w r now).outcome w = none
    refine Eq.trans ?_ (hs.outcome_fresh hw)
    unfold OfferNode.enqueue
    split <;> rfl

theorem outcome_wait_other (hne : w' ≠ w) :
    (s.waitForDecision w r now).outcome w' = s.outcome w' := by
  rw [waitForDecision_eq]
  cases hr : s.rememberedAnswer r.offerId with
  | some remembered =>
    show get (s.resolved ++ [(w, remembered.decision)]) w' = _
    rw [outcome_append_one, if_neg (Ne.symm hne), Option.or_none]
  | none =>
    show ((s.ask w r).enqueue r.offerId w r now).outcome w' = s.outcome w'
    unfold OfferNode.enqueue
    split <;> rfl

/-! ### A poll whose connection is cut -/

/-- The entry without one of its waiters. -/
def leave (s : OfferNode) (id : String) (offer : PendingOffer) (w : Waiter) : OfferNode :=
  { s with
    pending := set s.pending id { offer with resolvers := offer.resolvers.filter fun w' => w' ≠ w }
    resolved := s.resolved ++ [(w, .abandoned)] }

theorem outcome_leave :
    (s.leave id offer w).outcome w' =
      (s.outcome w').or (if w = w' then some .abandoned else none) :=
  outcome_append_one

theorem open_leave : (s.leave id offer w).Open w' r' ↔ s.Open w' r' ∧ w' ≠ w := by
  unfold Open
  rw [outcome_leave]
  by_cases h : w' = w
  · simp [h]
  · simp [h, Ne.symm h, leave]

theorem Sound.leave (hs : s.Sound) (hp : get s.pending id = some offer) (hw : w ∈ offer.resolvers)
    (hleft : (offer.resolvers.filter fun w' => w' ≠ w) ≠ []) : (s.leave id offer w).Sound := by
  obtain ⟨r, hr, hrid⟩ := hs.isOpen id offer w hp hw
  have hget : ∀ k, get (s.leave id offer w).pending k = if k = id then
      some { offer with resolvers := offer.resolvers.filter fun w' => w' ≠ w }
      else get s.pending k := fun k => get_set
  refine ⟨?once, ?made, ?waited, ?isOpen, ?waiting, ?armed, ?opener, ?given⟩
  case once => exact nodup_keys_append hs.once hr.2
  case made =>
    intro w' hw'
    rw [outcome_leave] at hw'
    by_cases h : w = w'
    · subst h
      exact fun hnone => Option.some_ne_none r (hr.1.symm.trans hnone)
    · rw [if_neg h, Option.or_none] at hw'
      exact hs.made w' hw'
  case waited =>
    intro k other hk
    rw [hget] at hk
    split at hk
    · obtain rfl := Option.some.inj hk
      exact ⟨hleft, (hs.waited id offer hp).2.filter _⟩
    · exact hs.waited k other hk
  case isOpen =>
    intro k other w' hk hw'
    rw [hget] at hk
    split at hk
    · next hid =>
      obtain rfl := Option.some.inj hk
      obtain ⟨hin, hne⟩ := List.mem_filter.1 hw'
      obtain ⟨r', hr', hid'⟩ := hs.isOpen id offer w' hp hin
      exact ⟨r', open_leave.2 ⟨hr', of_decide_eq_true hne⟩, hid'.trans hid.symm⟩
    · next hid =>
      obtain ⟨r', hr', hid'⟩ := hs.isOpen k other w' hk hw'
      refine ⟨r', open_leave.2 ⟨hr', ?_⟩, hid'⟩
      rintro rfl
      exact hid (hs.one_key hk hw' hp hw)
  case waiting =>
    intro w' r' hw'
    obtain ⟨hopen, hne⟩ := open_leave.1 hw'
    obtain ⟨other, hother, hin⟩ := hs.waiting w' r' hopen
    rw [hget]
    split
    · next hid =>
      rw [hid, hp] at hother
      obtain rfl := Option.some.inj hother
      exact ⟨_, rfl, List.mem_filter.2 ⟨hin, decide_eq_true hne⟩⟩
    · exact ⟨other, hother, hin⟩
  case armed =>
    intro k other hk
    rw [hget] at hk
    split at hk
    · next hid =>
      obtain rfl := Option.some.inj hk
      exact hid ▸ hs.armed id offer hp
    · exact hs.armed k other hk
  case opener =>
    intro w' timer hw'
    obtain ⟨hreq, other, hother, htimer⟩ := hs.opener w' timer hw'
    refine ⟨hreq, ?_⟩
    rw [hget]
    split
    · next hid =>
      rw [hid, hp] at hother
      exact ⟨_, rfl, by rw [← htimer, Option.some.inj hother]⟩
    · exact ⟨other, hother, htimer⟩
  case given =>
    intro e he
    obtain ⟨w', r', hr', hid, hans⟩ := hs.given e he
    refine ⟨w', r', hr', hid, ?_⟩
    rw [outcome_leave, hans, Option.some_or]

theorem eq_singleton_of_nodup {ws : List Waiter} (hnodup : ws.Nodup) (hall : ∀ w' ∈ ws, w' = w)
    (hw : w ∈ ws) : ws = [w] := by
  cases ws with
  | nil => cases hw
  | cons a ws =>
    obtain ⟨rfl, htail⟩ := List.forall_mem_cons.1 hall
    cases ws with
    | nil => rfl
    | cons b ws =>
      have hb : b = a := htail b List.mem_cons_self
      exact absurd (hb ▸ List.mem_cons_self) (List.nodup_cons.1 hnodup).1

/-- The last waiter leaves: the offer is closed as `settle` closes it. -/
theorem settle_leave (hp : get s.pending id = some offer) (hlast : offer.resolvers = [w]) :
    (s.leave id offer w).settle id .abandoned now = s.settle id .abandoned now := by
  have hget : get (s.leave id offer w).pending id =
      some { offer with resolvers := offer.resolvers.filter fun w' => w' ≠ w } := by
    unfold OfferNode.leave
    rw [get_set, if_pos rfl]
  rw [settle_some hget, settle_some hp]
  unfold OfferNode.leave
  rw [delete_set, hlast]
  simp

theorem Sound.dropWaiter_eq (hs : s.Sound) (hp : get s.pending id = some offer)
    (hw : w ∈ offer.resolvers) :
    s.dropWaiter id w now =
      if (offer.resolvers.filter fun w' => w' ≠ w) = [] then s.settle id .abandoned now
      else s.leave id offer w := by
  unfold OfferNode.dropWaiter
  rw [hp]
  simp only [if_pos hw]
  split
  · next hleft =>
    refine settle_leave hp ?_
    have hall : ∀ w' ∈ offer.resolvers, w' = w := by
      intro w' hw'
      by_contra hne
      exact List.not_mem_nil (hleft ▸ List.mem_filter.2 ⟨hw', decide_eq_true hne⟩)
    exact eq_singleton_of_nodup (hs.waited id offer hp).2 hall hw
  · rfl

theorem dropWaiter_none (h : ∀ offer, get s.pending id = some offer → w ∉ offer.resolvers) :
    s.dropWaiter id w now = s := by
  unfold OfferNode.dropWaiter
  cases hp : get s.pending id with
  | none => rfl
  | some offer => exact if_neg (h offer hp)

theorem Sound.dropWaiter (hs : s.Sound) : (s.dropWaiter id w now).Sound := by
  cases hp : get s.pending id with
  | none =>
    rw [dropWaiter_none (by simp [hp])]
    exact hs
  | some offer =>
    by_cases hw : w ∈ offer.resolvers
    · rw [hs.dropWaiter_eq hp hw]
      split
      · exact hs.settle
      · next hleft => exact hs.leave hp hw hleft
    · rw [dropWaiter_none]
      · exact hs
      · intro other hother
        obtain rfl := Option.some.inj (hp.symm.trans hother)
        exact hw

/-- A cut connection answers its own poll and no other. -/
theorem Sound.outcome_dropWaiter (hs : s.Sound) (hr : get s.requests w = some r)
    (hw' : s.Open w' r') :
    (s.dropWaiter r.offerId w now).outcome w' = if w = w' then some .abandoned else none := by
  cases hout : s.outcome w with
  | some d =>
    have hne : w ≠ w' := by
      rintro rfl
      rw [hw'.2] at hout
      cases hout
    rw [if_neg hne, dropWaiter_none, hw'.2]
    intro offer hp hin
    obtain ⟨r'', hr'', -⟩ := hs.isOpen _ offer w hp hin
    rw [hr''.2] at hout
    cases hout
  | none =>
    obtain ⟨offer, hp, hin⟩ := hs.waiting w r ⟨hr, hout⟩
    rw [hs.dropWaiter_eq hp hin]
    split
    · next hleft =>
      rw [outcome_settle hp, hw'.2]
      by_cases h : w = w'
      · subst h
        simp [hin]
      · have hnot : w' ∉ offer.resolvers := fun hin' =>
          List.not_mem_nil (hleft ▸ List.mem_filter.2 ⟨hin', decide_eq_true (Ne.symm h)⟩)
        simp [h, hnot]
    · rw [outcome_leave, hw'.2]
      rfl

/-! ### Messages -/

variable {ids : List String}

theorem Sound.abandonAll (hs : s.Sound) : (s.abandonAll ids now).Sound := by
  induction ids generalizing s with
  | nil => exact hs
  | cons id ids ih => exact ih hs.settle

theorem outcome_abandonAll_of_some (h : s.outcome w = some d) :
    (s.abandonAll ids now).outcome w = some d := by
  induction ids generalizing s with
  | nil => exact h
  | cons id ids ih => exact ih (outcome_settle_of_some h)

theorem requests_abandonAll : (s.abandonAll ids now).requests = s.requests := by
  induction ids generalizing s with
  | nil => rfl
  | cons id ids ih => exact ih.trans requests_settle

theorem Sound.outcome_abandonAll (hs : s.Sound) (hw : s.Open w r) :
    (s.abandonAll ids now).outcome w = if r.offerId ∈ ids then some .abandoned else none := by
  induction ids generalizing s with
  | nil => exact hw.2
  | cons id ids ih =>
    have hout : (s.settle id .abandoned now).outcome w =
        if r.offerId = id then some .abandoned else none := hs.outcome_settle_of_open hw
    by_cases hid : r.offerId = id
    · rw [if_pos hid] at hout
      rw [if_pos (hid ▸ List.mem_cons_self)]
      show ((s.settle id .abandoned now).abandonAll ids now).outcome w = _
      exact outcome_abandonAll_of_some hout
    · rw [if_neg hid] at hout
      have hopen : (s.settle id .abandoned now).Open w r := ⟨by rw [requests_settle]; exact hw.1, hout⟩
      refine (ih hs.settle hopen).trans ?_
      simp [hid]

theorem Sound.forget {answered : List (String × AnsweredSeat)} (hs : s.Sound)
    (hsub : ∀ e ∈ answered, e ∈ s.answered) : { s with answered := answered }.Sound :=
  ⟨hs.once, hs.made, hs.waited, hs.isOpen, hs.waiting, hs.armed, hs.opener,
    fun e he => hs.given e (hsub e he)⟩

theorem offerId_ne_empty : r.offerId ≠ "" := by
  intro h
  have := congrArg String.toList h
  simp [AgentOfferRequest.offerId, agentOfferId] at this

theorem Sound.mem_offersOfCall {start : String} (hs : s.Sound) (hw : s.Open w r) :
    r.offerId ∈ s.offersOfCall start ↔ startsWith r.offerId start = true := by
  obtain ⟨offer, hp, -⟩ := hs.waiting w r hw
  unfold offersOfCall
  rw [List.mem_filter]
  exact and_iff_right (mem_keys_of_get hp)

end OfferNode

/-- What a message does to the waiters of a key. -/
def OfferEvent.answerTo (event : OfferEvent) (id : String) : Option AgentOfferDecision :=
  match event with
  | .callEnded linkedid =>
    if linkedid ≠ "" ∧ startsWith id (linkedid ++ ":") = true then some .abandoned else none
  | .decided offerId decision =>
    if id = offerId then some decision
    else if decision = .accept ∧
        (OfferNode.siblingStart offerId).any (fun start => startsWith id start) = true then
      some .abandoned
    else none

namespace OfferNode

variable {s : OfferNode} {id : String} {w : Waiter} {r : AgentOfferRequest}
  {d : AgentOfferDecision} {now : Nat}

theorem abandonSiblings_eq :
    s.abandonSiblings id now =
      match siblingStart id with
      | none => s
      | some start => s.abandonAll ((s.offersOfCall start).filter fun k => k ≠ id) now := rfl

theorem Sound.abandonSiblings (hs : s.Sound) : (s.abandonSiblings id now).Sound := by
  rw [abandonSiblings_eq]
  cases siblingStart id with
  | none => exact hs
  | some start => exact hs.abandonAll

theorem requests_abandonSiblings : (s.abandonSiblings id now).requests = s.requests := by
  rw [abandonSiblings_eq]
  cases siblingStart id with
  | none => rfl
  | some start => exact requests_abandonAll

theorem Sound.outcome_abandonSiblings (hs : s.Sound) (hw : s.Open w r) :
    (s.abandonSiblings id now).outcome w =
      if r.offerId ≠ id ∧ (siblingStart id).any (fun start => startsWith r.offerId start) = true
      then some .abandoned else none := by
  rw [abandonSiblings_eq]
  cases siblingStart id with
  | none => simpa using hw.2
  | some start =>
    show (s.abandonAll _ now).outcome w = _
    rw [hs.outcome_abandonAll hw]
    simp only [List.mem_filter, hs.mem_offersOfCall hw]
    simp [and_comm]

theorem listen_callEnded {linkedid : String} :
    s.listen (.callEnded linkedid) now =
      if linkedid = "" then s else s.abandonCall linkedid now := rfl

theorem listen_decided :
    s.listen (.decided id d) now =
      if id = "" then s
      else if d = .accept then (s.abandonSiblings id now).settle id d now
      else s.settle id d now := rfl

variable {event : OfferEvent}

theorem Sound.listen (hs : s.Sound) : (s.listen event now).Sound := by
  cases event with
  | callEnded linkedid =>
    rw [listen_callEnded]
    split
    · exact hs
    · exact hs.abandonAll.forget fun e he => (List.mem_filter.1 he).1
  | decided offerId decision =>
    rw [listen_decided]
    split
    · exact hs
    · split
      · exact hs.abandonSiblings.settle
      · exact hs.settle

theorem requests_listen : (s.listen event now).requests = s.requests := by
  cases event with
  | callEnded linkedid =>
    rw [listen_callEnded]
    split
    · rfl
    · exact requests_abandonAll
  | decided offerId decision =>
    rw [listen_decided]
    split
    · rfl
    · split
      · exact requests_settle.trans requests_abandonSiblings
      · exact requests_settle

theorem Sound.outcome_listen (hs : s.Sound) (hw : s.Open w r) :
    (s.listen event now).outcome w = event.answerTo r.offerId := by
  cases event with
  | callEnded linkedid =>
    rw [listen_callEnded]
    by_cases hempty : linkedid = ""
    · simp [OfferEvent.answerTo, hempty, hw.2]
    · rw [if_neg hempty]
      show (s.abandonAll _ now).outcome w = _
      rw [hs.outcome_abandonAll hw]
      simp [OfferEvent.answerTo, hs.mem_offersOfCall hw, hempty]
  | decided offerId decision =>
    rw [listen_decided]
    show _ = if r.offerId = offerId then some decision else _
    by_cases hempty : offerId = ""
    · subst hempty
      rw [if_pos rfl, hw.2, if_neg offerId_ne_empty]
      simp [siblingStart, beforeLast?]
    · rw [if_neg hempty]
      by_cases haccept : decision = .accept
      · rw [if_pos haccept]
        have hsib : (s.abandonSiblings offerId now).outcome w = _ := hs.outcome_abandonSiblings hw
        by_cases hstart : r.offerId ≠ offerId ∧
            (siblingStart offerId).any (fun start => startsWith r.offerId start) = true
        · rw [if_pos hstart] at hsib
          rw [outcome_settle_of_some hsib, if_neg hstart.1, if_pos ⟨haccept, hstart.2⟩]
        · rw [if_neg hstart] at hsib
          have hopen : (s.abandonSiblings offerId now).Open w r :=
            ⟨by rw [requests_abandonSiblings]; exact hw.1, hsib⟩
          rw [hs.abandonSiblings.outcome_settle_of_open hopen]
          by_cases hid : r.offerId = offerId
          · rw [if_pos hid, if_pos hid]
          · rw [if_neg hid, if_neg hid, if_neg fun h => hstart ⟨hid, h.2⟩]
      · rw [if_neg haccept, hs.outcome_settle_of_open hw]
        simp [haccept]

/-! ### One step -/

theorem step_wait {number : Nat} :
    s.step (.wait number r now) =
      if (get s.requests ⟨r.tenantId, number⟩).isSome then s
      else s.waitForDecision ⟨r.tenantId, number⟩ r now := rfl

theorem step_notice {notice : OfferNotice} {fallback : Bool} :
    s.step (.notice notice fallback now) =
      if notice.message.tenantId = "" ∧ fallback = false then s
      else s.listen notice.message.event now := rfl

theorem step_timeout_none (h : get s.timers w = none) : s.step (.timeout w now) = s := by
  simp only [step, h]

theorem step_timeout {timer : OfferTimer} {offer : PendingOffer}
    (h : get s.timers w = some timer) (hp : get s.pending timer.offerId = some offer)
    (htimer : offer.timer = w) :
    s.step (.timeout w now) = s.settle timer.offerId .timeout now := by
  subst htimer
  have hp' : get { s with timers := delete s.timers offer.timer }.pending timer.offerId =
      some offer := hp
  simp only [OfferNode.step, h]
  rw [settle_some hp, settle_some hp', delete_delete]

/-- A timer that fires is the timer of the entry it was set for. -/
theorem Sound.step_timeout {timer : OfferTimer} (hs : s.Sound) (h : get s.timers w = some timer) :
    s.step (.timeout w now) = s.settle timer.offerId .timeout now := by
  obtain ⟨-, offer, hp, htimer⟩ := hs.opener w timer h
  exact OfferNode.step_timeout h hp htimer

theorem step_abort_none (h : get s.requests w = none) : s.step (.abort w now) = s := by
  simp only [step, h]

theorem step_abort (h : get s.requests w = some r) :
    s.step (.abort w now) = s.dropWaiter r.offerId w now := by
  simp only [step, h]

theorem Sound.step {a : OfferAction} (hs : s.Sound) : (s.step a).Sound := by
  cases a with
  | wait number request now =>
    rw [step_wait]
    split
    · exact hs
    · next hnew => exact hs.waitForDecision (Option.not_isSome_iff_eq_none.1 hnew)
  | notice notice fallback now =>
    rw [step_notice]
    split
    · exact hs
    · exact hs.listen
  | timeout w now =>
    cases h : get s.timers w with
    | none => rwa [step_timeout_none h]
    | some timer =>
      rw [hs.step_timeout h]
      exact hs.settle
  | abort w now =>
    cases h : get s.requests w with
    | none => rwa [step_abort_none h]
    | some request =>
      rw [step_abort h]
      exact hs.dropWaiter

theorem Sound.run {actions : List OfferAction} (hs : s.Sound) :
    (actions.foldl OfferNode.step s).Sound := by
  induction actions generalizing s with
  | nil => exact hs
  | cons a actions ih => exact ih hs.step

/-- What a step does to a waiter, read off its key. -/
def effect (s : OfferNode) (a : OfferAction) (w : Waiter) (id : String) :
    Option AgentOfferDecision :=
  match a with
  | .wait _ _ _ => none
  | .notice notice fallback _ =>
    if notice.message.tenantId = "" ∧ fallback = false then none
    else notice.message.event.answerTo id
  | .timeout w' _ => if (get s.timers w').any (·.offerId = id) = true then some .timeout else none
  | .abort w' _ => if w' = w then some .abandoned else none

theorem effect_timeout {w' : Waiter} :
    s.effect (.timeout w' now) w id =
      if (get s.timers w').any (·.offerId = id) = true then some .timeout else none := rfl

theorem effect_abort {w' : Waiter} :
    s.effect (.abort w' now) w id = if w' = w then some .abandoned else none := rfl

theorem Sound.outcome_step {a : OfferAction} (hs : s.Sound) (hw : s.Open w r) :
    (s.step a).outcome w = s.effect a w r.offerId := by
  cases a with
  | wait number request now =>
    rw [step_wait]
    split
    · exact hw.2
    · next hnew =>
      refine (outcome_wait_other ?_).trans hw.2
      rintro rfl
      rw [hw.1] at hnew
      exact hnew rfl
  | notice notice fallback now =>
    rw [step_notice]
    show _ = if notice.message.tenantId = "" ∧ fallback = false then none else _
    by_cases hdropped : notice.message.tenantId = "" ∧ fallback = false
    · rw [if_pos hdropped, if_pos hdropped, hw.2]
    · rw [if_neg hdropped, if_neg hdropped, hs.outcome_listen hw]
  | timeout w' now =>
    rw [effect_timeout]
    cases h : get s.timers w' with
    | none => simpa [step_timeout_none h] using hw.2
    | some timer =>
      rw [hs.step_timeout h, hs.outcome_settle_of_open hw]
      simp [eq_comm]
  | abort w' now =>
    rw [effect_abort]
    cases h : get s.requests w' with
    | none =>
      have hne : w' ≠ w := by
        rintro rfl
        rw [hw.1] at h
        cases h
      rw [step_abort_none h, if_neg hne, hw.2]
    | some request => rw [step_abort h, hs.outcome_dropWaiter h hw]

theorem outcome_wait_of_some (h : s.outcome w = some d) {w' : Waiter} :
    (s.waitForDecision w' r now).outcome w = some d := by
  rw [waitForDecision_eq]
  cases s.rememberedAnswer r.offerId with
  | some remembered =>
    show get (s.resolved ++ [(w', remembered.decision)]) w = some d
    rw [outcome_append_one, h, Option.some_or]
  | none =>
    show ((s.ask w' r).enqueue r.offerId w' r now).outcome w = some d
    refine Eq.trans ?_ h
    unfold OfferNode.enqueue
    split <;> rfl

theorem outcome_listen_of_some (h : s.outcome w = some d) :
    (s.listen event now).outcome w = some d := by
  cases event with
  | callEnded linkedid =>
    rw [listen_callEnded]
    split
    · exact h
    · exact outcome_abandonAll_of_some h
  | decided offerId decision =>
    have hsiblings : (s.abandonSiblings offerId now).outcome w = some d := by
      rw [abandonSiblings_eq]
      cases siblingStart offerId with
      | none => exact h
      | some start => exact outcome_abandonAll_of_some h
    rw [listen_decided]
    split
    · exact h
    · split
      · exact outcome_settle_of_some hsiblings
      · exact outcome_settle_of_some h

theorem Sound.outcome_dropWaiter_of_some {w' : Waiter} (hs : s.Sound) (h : s.outcome w = some d) :
    (s.dropWaiter id w' now).outcome w = some d := by
  cases hp : get s.pending id with
  | none => rw [dropWaiter_none (by simp [hp]), h]
  | some offer =>
    by_cases hin : w' ∈ offer.resolvers
    · rw [hs.dropWaiter_eq hp hin]
      split
      · exact outcome_settle_of_some h
      · rw [outcome_leave, h, Option.some_or]
    · rw [dropWaiter_none, h]
      intro other hother
      obtain rfl := Option.some.inj (hp.symm.trans hother)
      exact hin

/-- An answer stays. -/
theorem Sound.outcome_step_of_some {a : OfferAction} (hs : s.Sound) (h : s.outcome w = some d) :
    (s.step a).outcome w = some d := by
  cases a with
  | wait number request now =>
    rw [step_wait]
    split
    · exact h
    · exact outcome_wait_of_some h
  | notice notice fallback now =>
    rw [step_notice]
    split
    · exact h
    · exact outcome_listen_of_some h
  | timeout w' now =>
    cases ht : get s.timers w' with
    | none => rw [step_timeout_none ht, h]
    | some timer => rw [hs.step_timeout ht, outcome_settle_of_some h]
  | abort w' now =>
    cases hr : get s.requests w' with
    | none => rw [step_abort_none hr, h]
    | some request => rw [step_abort hr, hs.outcome_dropWaiter_of_some h]

end OfferNode

end KasterCti.Calls
