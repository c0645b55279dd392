import KasterCti.Calls.OfferMaps
import KasterCti.Library.Trace

/-!
# Offers of different tenants

The part of a node that belongs to one tenant: its polls and their answers, the offers its
polls opened, the answers remembered for them. A node keeps tenants apart when no step of
one of them changes the part of another, and when each part is what the node would hold
if the tenant were alone on it.

Results:
1. `tenants_apart`: both hold in every run whose steps only meet, by key, what is the
   tenant's own.
2. `rejected_by_other_tenant`: one key, two tenants.
-/

namespace KasterCti.Calls

open JsMap JsText Trace

/-! ## 1. The part of a tenant -/

def OfferNotice.tenantId : OfferNotice → String
  | .decision input => input.tenantId
  | .callEnded tenantId _ => tenantId

def OfferAction.tenantId : OfferAction → String
  | .wait _ request _ => request.tenantId
  | .notice sent _ _ => sent.tenantId
  | .timeout w _ => w.tenantId
  | .abort w _ => w.tenantId

namespace OfferNode

def ofTenant (s : OfferNode) (t : String) : OfferNode where
  pending := s.pending.filter fun e => e.2.timer.tenantId = t
  answered := s.answered.filter fun e => e.2.of.tenantId = t
  timers := s.timers.filter fun e => e.1.tenantId = t
  requests := s.requests.filter fun e => e.1.tenantId = t
  resolved := s.resolved.filter fun e => e.1.tenantId = t

/-- A step leaves the other tenants as they are. -/
def Undisturbed (s : OfferNode) (a : OfferAction) : Prop :=
  ∀ t, t ≠ a.tenantId → (s.step a).ofTenant t = s.ofTenant t

end OfferNode

/-- No step of a run disturbs another tenant, and every tenant is where its own actions
alone would have brought it. -/
def TenantsApart (actions : List OfferAction) : Prop :=
  Along OfferNode.step OfferNode.Undisturbed .init actions ∧
    ∀ t, (actions.foldl OfferNode.step .init).ofTenant t =
      (actions.filter fun a => a.tenantId = t).foldl OfferNode.step .init

namespace OfferNode

/-! ## 2. Steps that only meet their own -/

/-- Closing what waits under a key touches the tenant's own: the offer, the answer it
replaces, and the answers that are dropped for their age on that occasion. -/
def MayClose (s : OfferNode) (t : String) (id : String) (now : Nat) : Prop :=
  ∀ offer ∈ get s.pending id, offer.timer.tenantId = t ∧
    (∀ answer ∈ get s.answered id, answer.of.tenantId = t) ∧
    ∀ e ∈ s.answered, answeredRetentionMs < now - e.2.at_ → e.2.of.tenantId = t

/-- The end of a call forgets the answers of the tenant's own offers. -/
def MayForget (s : OfferNode) (t : String) : OfferEvent → Prop
  | .callEnded linkedid => linkedid ≠ "" → ∀ e ∈ s.answered,
      startsWith e.1 (linkedid ++ ":") = true → e.2.of.tenantId = t
  | .decided _ _ => True

/-- A message closes and forgets the tenant's own. -/
def MayHear (s : OfferNode) (t : String) (event : OfferEvent) (now : Nat) : Prop :=
  (∀ id ∈ keys s.pending, event.answerTo id ≠ none → s.MayClose t id now) ∧ s.MayForget t event

def Own (s : OfferNode) : OfferAction → Prop
  | .wait _ r _ =>
    (∀ answer ∈ s.rememberedAnswer r.offerId, answer.of.tenantId = r.tenantId) ∧
    (s.rememberedAnswer r.offerId = none →
      ∀ offer ∈ get s.pending r.offerId, offer.timer.tenantId = r.tenantId)
  | .notice sent fallback now =>
    ¬ (sent.message.tenantId = "" ∧ fallback = false) →
      s.MayHear sent.tenantId sent.message.event now
  | .timeout w now => ∀ timer ∈ get s.timers w, s.MayClose w.tenantId timer.offerId now
  | .abort w now => ∀ r ∈ get s.requests w, ∀ offer ∈ get s.pending r.offerId,
      (∀ w' ∈ offer.resolvers, w' = w) → s.MayClose w.tenantId r.offerId now

instance decidableMayClose (s : OfferNode) (t id : String) (now : Nat) :
    Decidable (s.MayClose t id now) :=
  inferInstanceAs (Decidable (∀ offer ∈ get s.pending id, _ ∧ _ ∧ _))

instance decidableMayForget (s : OfferNode) (t : String) :
    (event : OfferEvent) → Decidable (s.MayForget t event)
  | .callEnded _ => inferInstanceAs (Decidable (_ → ∀ e ∈ s.answered, _ → _))
  | .decided _ _ => inferInstanceAs (Decidable True)

instance decidableMayHear (s : OfferNode) (t : String) (event : OfferEvent) (now : Nat) :
    Decidable (s.MayHear t event now) :=
  inferInstanceAs (Decidable ((∀ id ∈ keys s.pending, _) ∧ _))

instance decidableOwn (s : OfferNode) : (a : OfferAction) → Decidable (s.Own a)
  | .wait _ r _ => inferInstanceAs (Decidable ((∀ answer ∈ s.rememberedAnswer r.offerId, _) ∧
      (_ → ∀ offer ∈ get s.pending r.offerId, _)))
  | .notice _ _ _ => inferInstanceAs (Decidable (¬ (_ ∧ _) → _))
  | .timeout w _ => inferInstanceAs (Decidable (∀ timer ∈ get s.timers w, _))
  | .abort w _ => inferInstanceAs (Decidable (∀ r ∈ get s.requests w,
      ∀ offer ∈ get s.pending r.offerId, _ → _))

/-- Keys stand once, and an offer is waited for by the tenant that opened it. -/
structure Homogeneous (s : OfferNode) : Prop where
  pendingKeys : (keys s.pending).Nodup
  answeredKeys : (keys s.answered).Nodup
  waiters : ∀ id offer, get s.pending id = some offer → ∀ w ∈ offer.resolvers,
    w.tenantId = offer.timer.tenantId

variable {s : OfferNode} {t t' id : String} {offer : PendingOffer} {w : Waiter}
  {r : AgentOfferRequest} {d : AgentOfferDecision} {now : Nat}

theorem Homogeneous.init : init.Homogeneous :=
  ⟨List.nodup_nil, List.nodup_nil, fun _ _ h => by cases h⟩

/-- The entry of a key is the one that `get` finds. -/
theorem Homogeneous.entry (hs : s.Homogeneous) (hp : get s.pending id = some offer)
    {e : String × PendingOffer} (he : e ∈ s.pending) (hid : e.1 = id) : e.2 = offer := by
  have hget := get_of_mem hs.pendingKeys he
  rw [hid, hp] at hget
  exact (Option.some.inj hget).symm

/-! ### Closing an offer -/

theorem Homogeneous.settle (hs : s.Homogeneous) : (s.settle id d now).Homogeneous := by
  cases hp : get s.pending id with
  | none => rwa [settle_none hp]
  | some offer =>
    refine ⟨?_, ?_, ?_⟩
    · rw [settle_some hp]
      exact keys_filter_sublist.nodup hs.pendingKeys
    · rw [settle_some hp]
      exact nodup_keys_set (keys_filter_sublist.nodup hs.answeredKeys)
    · intro k other hk
      exact hs.waiters k other (pending_of_settle hk).2

theorem MayClose.settle {k : String} (hs : s.Homogeneous) (h : s.MayClose t k now)
    (hid : s.MayClose t id now) : (s.settle id d now).MayClose t k now := by
  cases hp : get s.pending id with
  | none => rwa [settle_none hp]
  | some offer =>
    intro other hother
    obtain ⟨hne, hother⟩ := pending_of_settle hother
    obtain ⟨howner, hanswer, hold⟩ := h other hother
    refine ⟨howner, ?_, ?_⟩
    · intro answer hget
      rcases mem_answered_settle hp (mem_of_get hget) with heq | hmem
      · exact absurd (congrArg Prod.fst heq) hne
      · exact hanswer answer (get_of_mem hs.answeredKeys hmem)
    · intro e he hage
      rcases mem_answered_settle hp he with rfl | hmem
      · exact (hid offer hp).1
      · exact hold e hmem hage

theorem ofTenant_settle_other (hs : s.Homogeneous) (h : s.MayClose t' id now) (hne : t ≠ t') :
    (s.settle id d now).ofTenant t = s.ofTenant t := by
  cases hp : get s.pending id with
  | none => rw [settle_none hp]
  | some offer =>
    obtain ⟨howner, hanswer, hold⟩ := h offer hp
    have hpending : (delete s.pending id).filter (fun e => e.2.timer.tenantId = t) =
        s.pending.filter fun e => e.2.timer.tenantId = t := by
      refine filter_delete_of_neg ?_
      intro e he hid
      rw [hs.entry hp he hid, howner]
      exact decide_eq_false (Ne.symm hne)
    have htimers : (delete s.timers offer.timer).filter (fun e => e.1.tenantId = t) =
        s.timers.filter fun e => e.1.tenantId = t := by
      refine filter_delete_of_neg ?_
      intro e _ htimer
      rw [htimer, howner]
      exact decide_eq_false (Ne.symm hne)
    have hanswered : (remember s.answered id ⟨d, now, offer.timer⟩).filter
        (fun e => e.2.of.tenantId = t) = s.answered.filter fun e => e.2.of.tenantId = t := by
      unfold remember
      rw [filter_set_of_neg, List.filter_filter]
      · refine List.filter_congr ?_
        intro e he
        by_cases ht : e.2.of.tenantId = t
        · have hfresh : now - e.2.at_ ≤ answeredRetentionMs := by
            by_contra hage
            exact hne (ht.symm.trans (hold e he (Nat.lt_of_not_le hage)))
          simp [ht, hfresh]
        · simp [ht]
      · rw [howner]
        exact decide_eq_false (Ne.symm hne)
      · intro e he hid
        have hget := get_of_mem hs.answeredKeys (List.mem_filter.1 he).1
        rw [hid] at hget
        rw [hanswer _ hget]
        exact decide_eq_false (Ne.symm hne)
    have hnone : (offer.resolvers.map fun w => (w, d)).filter (fun e => e.1.tenantId = t) = [] := by
      rw [List.filter_eq_nil_iff]
      intro e he
      obtain ⟨w, hw, rfl⟩ := List.mem_map.1 he
      rw [hs.waiters id offer hp w hw, howner]
      simpa using Ne.symm hne
    rw [settle_some hp]
    unfold ofTenant
    rw [hpending, htimers, hanswered, List.filter_append, hnone, List.append_nil]

/-- The part of a tenant has the tenant's entry of a key, and no other. -/
theorem get_pending_ofTenant (h : ∀ offer, get s.pending id = some offer → offer.timer.tenantId = t) :
    get (s.ofTenant t).pending id = get s.pending id :=
  get_filter_of_get fun offer hoffer => decide_eq_true (h offer hoffer)

theorem ofTenant_settle_own (hs : s.Homogeneous) (h : s.MayClose t id now) :
    (s.settle id d now).ofTenant t = (s.ofTenant t).settle id d now := by
  have hget := get_pending_ofTenant fun offer hoffer => (h offer hoffer).1
  cases hp : get s.pending id with
  | none => rw [settle_none hp, settle_none (hget.trans hp)]
  | some offer =>
    obtain ⟨howner, hanswer, -⟩ := h offer hp
    have hanswered : (remember s.answered id ⟨d, now, offer.timer⟩).filter
        (fun e => e.2.of.tenantId = t) =
        remember (s.answered.filter fun e => e.2.of.tenantId = t) id ⟨d, now, offer.timer⟩ := by
      unfold remember
      rw [filter_set_of_pos, List.filter_filter, List.filter_filter]
      · congr 1
        exact List.filter_congr fun e _ => Bool.and_comm _ _
      · exact decide_eq_true howner
      · intro e he hid
        have hold := get_of_mem hs.answeredKeys (List.mem_filter.1 he).1
        rw [hid] at hold
        exact decide_eq_true (hanswer _ hold)
    have hall : (offer.resolvers.map fun w => (w, d)).filter (fun e => e.1.tenantId = t) =
        offer.resolvers.map fun w => (w, d) := by
      rw [List.filter_eq_self]
      intro e he
      obtain ⟨w, hw, rfl⟩ := List.mem_map.1 he
      exact decide_eq_true ((hs.waiters id offer hp w hw).trans howner)
    rw [settle_some hp, settle_some (hget.trans hp)]
    unfold ofTenant
    rw [filter_delete, filter_delete, hanswered, List.filter_append, hall]

/-! ### Messages -/

variable {ids : List String}

theorem Homogeneous.abandonAll (hs : s.Homogeneous) : (s.abandonAll ids now).Homogeneous := by
  induction ids generalizing s with
  | nil => exact hs
  | cons id ids ih => exact ih hs.settle

theorem mayClose_abandonAll {k : String} (hs : s.Homogeneous) (h : ∀ id ∈ ids, s.MayClose t id now)
    (hk : s.MayClose t k now) : (s.abandonAll ids now).MayClose t k now := by
  induction ids generalizing s with
  | nil => exact hk
  | cons id ids ih =>
    obtain ⟨hhead, htail⟩ := List.forall_mem_cons.1 h
    exact ih hs.settle (fun id' hid' => (htail id' hid').settle hs hhead) (hk.settle hs hhead)

theorem ofTenant_abandonAll_other (hs : s.Homogeneous) (h : ∀ id ∈ ids, s.MayClose t' id now)
    (hne : t ≠ t') : (s.abandonAll ids now).ofTenant t = s.ofTenant t := by
  induction ids generalizing s with
  | nil => rfl
  | cons id ids ih =>
    obtain ⟨hhead, htail⟩ := List.forall_mem_cons.1 h
    refine (ih hs.settle fun id' hid' => (htail id' hid').settle hs hhead).trans ?_
    exact ofTenant_settle_other hs hhead hne

theorem ofTenant_abandonAll_own (hs : s.Homogeneous) (h : ∀ id ∈ ids, s.MayClose t id now) :
    (s.abandonAll ids now).ofTenant t = (s.ofTenant t).abandonAll ids now := by
  induction ids generalizing s with
  | nil => rfl
  | cons id ids ih =>
    obtain ⟨hhead, htail⟩ := List.forall_mem_cons.1 h
    refine (ih hs.settle fun id' hid' => (htail id' hid').settle hs hhead).trans ?_
    rw [ofTenant_settle_own hs hhead]
    rfl

/-- Where every offer of a start is the tenant's, its part finds the same offers. -/
theorem offersOfCall_ofTenant {start : String} (hs : s.Homogeneous)
    (h : ∀ id offer, get s.pending id = some offer → startsWith id start = true →
      offer.timer.tenantId = t) : (s.ofTenant t).offersOfCall start = s.offersOfCall start := by
  unfold offersOfCall ofTenant keys
  rw [List.filter_map, List.filter_map, List.filter_filter]
  congr 1
  refine List.filter_congr ?_
  intro e he
  by_cases hstart : startsWith e.1 start = true
  · have howner := h e.1 e.2 (get_of_mem hs.pendingKeys he) hstart
    simp [howner]
  · simp [hstart]

theorem mem_offersOfCall {start : String} (h : id ∈ s.offersOfCall start) :
    startsWith id start = true := (List.mem_filter.1 h).2

theorem answerTo_of_start {start k : String} (hstart : siblingStart id = some start)
    (hk : startsWith k start = true) : (OfferEvent.decided id .accept).answerTo k ≠ none := by
  show (if k = id then _ else if _ then _ else _) ≠ none
  split
  · exact Option.some_ne_none _
  · rw [if_pos ⟨rfl, by rw [hstart]; exact hk⟩]
    exact Option.some_ne_none _

theorem answerTo_self : (OfferEvent.decided id d).answerTo id ≠ none := by
  show (if id = id then _ else _) ≠ none
  rw [if_pos rfl]
  exact Option.some_ne_none _

theorem answerTo_callEnded {linkedid k : String} (hne : linkedid ≠ "")
    (hk : startsWith k (linkedid ++ ":") = true) :
    (OfferEvent.callEnded linkedid).answerTo k ≠ none := by
  show (if linkedid ≠ "" ∧ _ then _ else _) ≠ none
  rw [if_pos ⟨hne, hk⟩]
  exact Option.some_ne_none _

theorem Homogeneous.abandonSiblings (hs : s.Homogeneous) :
    (s.abandonSiblings id now).Homogeneous := by
  rw [abandonSiblings_eq]
  cases siblingStart id with
  | none => exact hs
  | some start => exact hs.abandonAll

/-- What a tenant may close when its agent accepts the offer of a key. -/
def MayAccept (s : OfferNode) (t id : String) (now : Nat) : Prop :=
  ∀ k, (OfferEvent.decided id .accept).answerTo k ≠ none → s.MayClose t k now

theorem MayAccept.sibling {start k : String} (h : s.MayAccept t id now)
    (hstart : siblingStart id = some start)
    (hk : k ∈ (s.offersOfCall start).filter fun k => k ≠ id) : s.MayClose t k now :=
  h k (answerTo_of_start hstart (mem_offersOfCall (List.mem_filter.1 hk).1))

theorem mayClose_abandonSiblings (hs : s.Homogeneous) (h : s.MayAccept t id now) :
    (s.abandonSiblings id now).MayClose t id now := by
  rw [abandonSiblings_eq]
  cases hstart : siblingStart id with
  | none => exact h id answerTo_self
  | some start =>
    exact mayClose_abandonAll hs (fun k hk => h.sibling hstart hk) (h id answerTo_self)

theorem ofTenant_abandonSiblings_other (hs : s.Homogeneous) (h : s.MayAccept t' id now)
    (hne : t ≠ t') : (s.abandonSiblings id now).ofTenant t = s.ofTenant t := by
  rw [abandonSiblings_eq]
  cases hstart : siblingStart id with
  | none => rfl
  | some start => exact ofTenant_abandonAll_other hs (fun k hk => h.sibling hstart hk) hne

theorem ofTenant_abandonSiblings_own (hs : s.Homogeneous) (h : s.MayAccept t id now) :
    (s.abandonSiblings id now).ofTenant t = (s.ofTenant t).abandonSiblings id now := by
  rw [abandonSiblings_eq, abandonSiblings_eq]
  cases hstart : siblingStart id with
  | none => rfl
  | some start =>
    have hsame : (s.ofTenant t).offersOfCall start = s.offersOfCall start :=
      offersOfCall_ofTenant hs fun k offer hoffer hk =>
        (h k (answerTo_of_start hstart hk) offer hoffer).1
    show (s.abandonAll _ now).ofTenant t = (s.ofTenant t).abandonAll _ now
    rw [hsame]
    exact ofTenant_abandonAll_own hs fun k hk => h.sibling hstart hk

theorem mem_answered_abandonAll {e : String × AnsweredSeat} (hs : s.Homogeneous)
    (h : ∀ id ∈ ids, s.MayClose t id now) (he : e ∈ (s.abandonAll ids now).answered) :
    e ∈ s.answered ∨ e.2.of.tenantId = t := by
  induction ids generalizing s with
  | nil => exact .inl he
  | cons id ids ih =>
    obtain ⟨hhead, htail⟩ := List.forall_mem_cons.1 h
    rcases ih hs.settle (fun id' hid' => (htail id' hid').settle hs hhead) he with hmem | howner
    · cases hp : get s.pending id with
      | none => exact .inl (by rwa [settle_none hp] at hmem)
      | some offer =>
        rcases mem_answered_settle hp hmem with rfl | hold
        · exact .inr (hhead offer hp).1
        · exact .inl hold
    · exact .inr howner

variable {event : OfferEvent}

theorem MayHear.mayClose {k : String} (h : s.MayHear t event now) (hk : event.answerTo k ≠ none) :
    s.MayClose t k now :=
  fun offer hoffer => h.1 k (mem_keys_of_get hoffer) hk offer hoffer

theorem MayHear.close {linkedid k : String} (h : s.MayHear t (.callEnded linkedid) now)
    (hne : linkedid ≠ "") (hk : k ∈ s.offersOfCall (linkedid ++ ":")) : s.MayClose t k now :=
  h.mayClose (answerTo_callEnded hne (mem_offersOfCall hk))

theorem Homogeneous.listen (hs : s.Homogeneous) : (s.listen event now).Homogeneous := by
  cases event with
  | callEnded linkedid =>
    rw [listen_callEnded]
    split
    · exact hs
    · have hall : (s.abandonAll (s.offersOfCall (linkedid ++ ":")) now).Homogeneous :=
        hs.abandonAll
      exact ⟨hall.pendingKeys, keys_filter_sublist.nodup hall.answeredKeys, hall.waiters⟩
  | decided offerId decision =>
    rw [listen_decided]
    split
    · exact hs
    · split
      · exact hs.abandonSiblings.settle
      · exact hs.settle

theorem ofTenant_listen_other (hs : s.Homogeneous) (h : s.MayHear t' event now) (hne : t ≠ t') :
    (s.listen event now).ofTenant t = s.ofTenant t := by
  cases event with
  | callEnded linkedid =>
    rw [listen_callEnded]
    split
    · rfl
    · next hlinkedid =>
      have hclose := fun k hk => h.close hlinkedid (k := k) hk
      rw [← ofTenant_abandonAll_other hs hclose hne]
      unfold abandonCall ofTenant
      congr 1
      rw [List.filter_filter]
      refine List.filter_congr ?_
      intro e he
      by_cases ht : e.2.of.tenantId = t
      · have hkeep : startsWith e.1 (linkedid ++ ":") = false := by
          by_contra hstart
          rcases mem_answered_abandonAll hs hclose he with hold | howner
          · exact hne (ht.symm.trans
              (h.2 hlinkedid e hold (by simpa using hstart)))
          · exact hne (ht.symm.trans howner)
        simp [ht, hkeep]
      · simp [ht]
  | decided offerId decision =>
    rw [listen_decided]
    split
    · rfl
    · split
      · next haccept =>
        subst haccept
        have haccepts : s.MayAccept t' offerId now := fun k hk => h.mayClose hk
        rw [ofTenant_settle_other hs.abandonSiblings (mayClose_abandonSiblings hs haccepts) hne,
          ofTenant_abandonSiblings_other hs haccepts hne]
      · exact ofTenant_settle_other hs (h.mayClose answerTo_self) hne

theorem ofTenant_listen_own (hs : s.Homogeneous) (h : s.MayHear t event now) :
    (s.listen event now).ofTenant t = (s.ofTenant t).listen event now := by
  cases event with
  | callEnded linkedid =>
    rw [listen_callEnded, listen_callEnded]
    split
    · rfl
    · next hlinkedid =>
      have hclose := fun k hk => h.close hlinkedid (k := k) hk
      have hsame : (s.ofTenant t).offersOfCall (linkedid ++ ":") =
          s.offersOfCall (linkedid ++ ":") :=
        offersOfCall_ofTenant hs fun k offer hoffer hk =>
          (h.mayClose (answerTo_callEnded hlinkedid hk) offer hoffer).1
      unfold abandonCall
      rw [hsame, ← ofTenant_abandonAll_own hs hclose]
      unfold ofTenant
      congr 1
      rw [List.filter_filter, List.filter_filter]
      exact List.filter_congr fun e _ => Bool.and_comm _ _
  | decided offerId decision =>
    rw [listen_decided, listen_decided]
    split
    · rfl
    · split
      · next haccept =>
        subst haccept
        have haccepts : s.MayAccept t offerId now := fun k hk => h.mayClose hk
        rw [ofTenant_settle_own hs.abandonSiblings (mayClose_abandonSiblings hs haccepts),
          ofTenant_abandonSiblings_own hs haccepts]
      · exact ofTenant_settle_own hs (h.mayClose answerTo_self)

/-! ### Polls -/

theorem Homogeneous.set (hs : s.Homogeneous)
    (h : ∀ w ∈ offer.resolvers, w.tenantId = offer.timer.tenantId)
    {timers : List (Waiter × OfferTimer)} {requests : List (Waiter × AgentOfferRequest)}
    {resolved : List (Waiter × AgentOfferDecision)} :
    Homogeneous ⟨set s.pending id offer, s.answered, timers, requests, resolved⟩ := by
  refine ⟨nodup_keys_set hs.pendingKeys, hs.answeredKeys, ?_⟩
  intro k other hk
  rw [get_set] at hk
  split at hk
  · obtain rfl := Option.some.inj hk
    exact h
  · exact hs.waiters k other hk

theorem Homogeneous.waitForDecision (hs : s.Homogeneous) (hw : w.tenantId = r.tenantId)
    (h : s.rememberedAnswer r.offerId = none →
      ∀ offer, get s.pending r.offerId = some offer → offer.timer.tenantId = r.tenantId) :
    (s.waitForDecision w r now).Homogeneous := by
  rw [waitForDecision_eq]
  cases hr : s.rememberedAnswer r.offerId with
  | some remembered => exact ⟨hs.pendingKeys, hs.answeredKeys, hs.waiters⟩
  | none =>
    show ((s.ask w r).enqueue r.offerId w r now).Homogeneous
    cases hp : get s.pending r.offerId with
    | some existing =>
      have howner := h hr existing hp
      rw [enqueue_some hp]
      refine hs.set ?_
      intro w' hw'
      rcases List.mem_append.1 hw' with hold | hnew
      · exact hs.waiters _ existing hp w' hold
      · rw [List.mem_singleton.1 hnew]
        exact hw.trans howner.symm
    | none =>
      rw [enqueue_none hp]
      refine hs.set ?_
      intro w' hw'
      rw [List.mem_singleton.1 hw']

theorem ofTenant_ask_other (hne : t ≠ w.tenantId) : (s.ask w r).ofTenant t = s.ofTenant t := by
  unfold ask ofTenant
  simp [List.filter_append, Ne.symm hne]

theorem ofTenant_ask_own (hw : w.tenantId = t) :
    (s.ask w r).ofTenant t = (s.ofTenant t).ask w r := by
  unfold ask ofTenant
  simp [List.filter_append, hw]

theorem ofTenant_wait_other (hs : s.Homogeneous) (hw : w.tenantId = r.tenantId)
    (h : s.rememberedAnswer r.offerId = none →
      ∀ offer, get s.pending r.offerId = some offer → offer.timer.tenantId = r.tenantId)
    (hne : t ≠ r.tenantId) : (s.waitForDecision w r now).ofTenant t = s.ofTenant t := by
  have hwt : w.tenantId ≠ t := fun hsame => hne (hsame.symm.trans hw)
  rw [waitForDecision_eq]
  cases hr : s.rememberedAnswer r.offerId with
  | some remembered => simp [ofTenant, ask, List.filter_append, hwt]
  | none =>
    show ((s.ask w r).enqueue r.offerId w r now).ofTenant t = s.ofTenant t
    rw [← ofTenant_ask_other (s := s) (r := r) (Ne.symm hwt)]
    cases hp : get s.pending r.offerId with
    | some existing =>
      have howner := h hr existing hp
      rw [enqueue_some hp]
      unfold ofTenant
      congr 1
      refine filter_set_of_neg ?_ ?_
      · exact decide_eq_false fun hsame => hne (hsame.symm.trans howner)
      · intro e he hid
        rw [hs.entry hp he hid]
        exact decide_eq_false fun hsame => hne (hsame.symm.trans howner)
    | none =>
      rw [enqueue_none hp]
      unfold ofTenant
      congr 1
      · refine filter_set_of_neg (decide_eq_false hwt) ?_
        intro e he hid
        have hget := get_of_mem hs.pendingKeys he
        rw [hid, hp] at hget
        cases hget
      · refine filter_set_of_neg (decide_eq_false hwt) ?_
        intro e _ hkey
        rw [hkey]
        exact decide_eq_false hwt

theorem rememberedAnswer_ofTenant (hs : s.Homogeneous)
    (h : ∀ answer, s.rememberedAnswer id = some answer → answer.of.tenantId = t) :
    (s.ofTenant t).rememberedAnswer id = s.rememberedAnswer id := by
  unfold rememberedAnswer at h ⊢
  cases hget : get s.answered id with
  | none =>
    have hnone : get (s.ofTenant t).answered id = none := get_filter_of_none hget
    rw [hnone]
  | some answer =>
    rw [hget] at h
    by_cases haccept : answer.decision = .accept
    · -- ACCEPT is not remembered, whoever it was for
      have hskip : (some answer).filter (fun answer => answer.decision ≠ .accept) = none := by
        simp [haccept]
      rw [hskip]
      cases hpart : get (s.ofTenant t).answered id with
      | none => rfl
      | some answer' =>
        have hsame := (get_of_filter hs.answeredKeys hpart).1
        rw [hget] at hsame
        rw [← Option.some.inj hsame, hskip]
    · have howner := h answer (by simp [haccept])
      have hsame : get (s.ofTenant t).answered id = get s.answered id := by
        refine get_filter_of_get ?_
        intro answer' hanswer'
        rw [hget] at hanswer'
        rw [← Option.some.inj hanswer']
        exact decide_eq_true howner
      rw [hsame, hget]

theorem ofTenant_wait_own (hs : s.Homogeneous) (hw : w.tenantId = r.tenantId)
    (hanswer : ∀ answer, s.rememberedAnswer r.offerId = some answer →
      answer.of.tenantId = r.tenantId)
    (h : s.rememberedAnswer r.offerId = none →
      ∀ offer, get s.pending r.offerId = some offer → offer.timer.tenantId = r.tenantId) :
    (s.waitForDecision w r now).ofTenant r.tenantId =
      (s.ofTenant r.tenantId).waitForDecision w r now := by
  rw [waitForDecision_eq, waitForDecision_eq, rememberedAnswer_ofTenant hs hanswer]
  cases hr : s.rememberedAnswer r.offerId with
  | some remembered => simp [ofTenant, ask, List.filter_append, hw]
  | none =>
    have howner := h hr
    have hget := get_pending_ofTenant howner
    have hask := ofTenant_ask_own (s := s) (r := r) hw
    show ((s.ask w r).enqueue r.offerId w r now).ofTenant r.tenantId =
      ((s.ofTenant r.tenantId).ask w r).enqueue r.offerId w r now
    cases hp : get s.pending r.offerId with
    | some existing =>
      rw [enqueue_some hp, enqueue_some (hget.trans hp), ← hask]
      unfold ofTenant
      congr 1
      refine filter_set_of_pos (decide_eq_true (howner existing hp)) ?_
      intro e he hid
      have hold := get_of_mem hs.pendingKeys he
      rw [hid] at hold
      exact decide_eq_true (howner e.2 hold)
    | none =>
      rw [enqueue_none hp, enqueue_none (hget.trans hp), ← hask]
      unfold ofTenant
      congr 1
      · refine filter_set_of_pos (decide_eq_true hw) ?_
        intro e he hid
        have hold := get_of_mem hs.pendingKeys he
        rw [hid] at hold
        exact decide_eq_true (howner e.2 hold)
      · refine filter_set_of_pos (decide_eq_true hw) ?_
        intro e _ hkey
        rw [hkey]
        exact decide_eq_true hw

/-! ### Cut connections -/

theorem Homogeneous.leave (hs : s.Homogeneous) (hp : get s.pending id = some offer) :
    (s.leave id offer w).Homogeneous := by
  refine hs.set ?_
  intro w' hw'
  exact hs.waiters id offer hp w' (List.mem_filter.1 hw').1

theorem dropWaiter_mem (hp : get s.pending id = some offer) (hw : w ∈ offer.resolvers) :
    s.dropWaiter id w now =
      if (offer.resolvers.filter fun w' => w' ≠ w) = [] then
        (s.leave id offer w).settle id .abandoned now
      else s.leave id offer w := by
  unfold dropWaiter
  rw [hp]
  exact if_pos hw

theorem last_of_left (h : (offer.resolvers.filter fun w' => w' ≠ w) = []) :
    ∀ w' ∈ offer.resolvers, w' = w := by
  intro w' hw'
  simpa using List.filter_eq_nil_iff.1 h w' hw'

theorem MayClose.leave (h : s.MayClose t id now) (hp : get s.pending id = some offer) :
    (s.leave id offer w).MayClose t id now := by
  intro other hother
  obtain ⟨howner, hanswer, hold⟩ := h offer hp
  have hget : get (s.leave id offer w).pending id = some _ := get_set.trans (if_pos rfl)
  obtain rfl := Option.some.inj (hget.symm.trans hother)
  exact ⟨howner, hanswer, hold⟩

theorem ofTenant_leave_other (hs : s.Homogeneous) (hp : get s.pending id = some offer)
    (hw : w ∈ offer.resolvers) (hne : t ≠ w.tenantId) :
    (s.leave id offer w).ofTenant t = s.ofTenant t := by
  have howner : offer.timer.tenantId ≠ t := by
    rw [← hs.waiters id offer hp w hw]
    exact Ne.symm hne
  have hpending : (JsMap.set s.pending id
      { offer with resolvers := offer.resolvers.filter fun w' => w' ≠ w }).filter
        (fun e => e.2.timer.tenantId = t) = s.pending.filter fun e => e.2.timer.tenantId = t := by
    refine filter_set_of_neg (decide_eq_false howner) ?_
    intro e he hid
    rw [hs.entry hp he hid]
    exact decide_eq_false howner
  unfold leave ofTenant
  rw [hpending]
  simp [List.filter_append, Ne.symm hne]

theorem ofTenant_leave_own (hs : s.Homogeneous) (hp : get s.pending id = some offer)
    (hw : w ∈ offer.resolvers) (ht : w.tenantId = t) :
    (s.leave id offer w).ofTenant t = (s.ofTenant t).leave id offer w := by
  have howner : offer.timer.tenantId = t := (hs.waiters id offer hp w hw).symm.trans ht
  have hpending : (JsMap.set s.pending id
      { offer with resolvers := offer.resolvers.filter fun w' => w' ≠ w }).filter
        (fun e => e.2.timer.tenantId = t) =
      JsMap.set (s.pending.filter fun e => e.2.timer.tenantId = t) id
        { offer with resolvers := offer.resolvers.filter fun w' => w' ≠ w } := by
    refine filter_set_of_pos (decide_eq_true howner) ?_
    intro e he hid
    rw [hs.entry hp he hid]
    exact decide_eq_true howner
  unfold leave ofTenant
  rw [hpending]
  simp [List.filter_append, ht]

theorem Homogeneous.dropWaiter (hs : s.Homogeneous) : (s.dropWaiter id w now).Homogeneous := by
  by_cases hin : ∃ offer, get s.pending id = some offer ∧ w ∈ offer.resolvers
  · obtain ⟨offer, hp, hw⟩ := hin
    rw [dropWaiter_mem hp hw]
    split
    · exact (hs.leave hp).settle
    · exact hs.leave hp
  · rwa [dropWaiter_none fun offer hp hw => hin ⟨offer, hp, hw⟩]

theorem ofTenant_dropWaiter_other (hs : s.Homogeneous)
    (h : ∀ offer, get s.pending id = some offer → (∀ w' ∈ offer.resolvers, w' = w) →
      s.MayClose w.tenantId id now) (hne : t ≠ w.tenantId) :
    (s.dropWaiter id w now).ofTenant t = s.ofTenant t := by
  by_cases hin : ∃ offer, get s.pending id = some offer ∧ w ∈ offer.resolvers
  · obtain ⟨offer, hp, hw⟩ := hin
    rw [dropWaiter_mem hp hw]
    split
    · next hleft =>
      have hclose := (h offer hp (last_of_left hleft)).leave (w := w) hp
      rw [ofTenant_settle_other (hs.leave hp) hclose hne, ofTenant_leave_other hs hp hw hne]
    · exact ofTenant_leave_other hs hp hw hne
  · rw [dropWaiter_none fun offer hp hw => hin ⟨offer, hp, hw⟩]

theorem ofTenant_dropWaiter_own (hs : s.Homogeneous)
    (h : ∀ offer, get s.pending id = some offer → (∀ w' ∈ offer.resolvers, w' = w) →
      s.MayClose w.tenantId id now) :
    (s.dropWaiter id w now).ofTenant w.tenantId =
      (s.ofTenant w.tenantId).dropWaiter id w now := by
  by_cases hin : ∃ offer, get s.pending id = some offer ∧ w ∈ offer.resolvers
  · obtain ⟨offer, hp, hw⟩ := hin
    have howner : offer.timer.tenantId = w.tenantId := (hs.waiters id offer hp w hw).symm
    have hget : get (s.ofTenant w.tenantId).pending id = some offer := by
      rw [get_pending_ofTenant, hp]
      intro other hother
      rw [hp] at hother
      rw [← Option.some.inj hother, howner]
    rw [dropWaiter_mem hp hw, dropWaiter_mem hget hw]
    split
    · next hleft =>
      have hclose := (h offer hp (last_of_left hleft)).leave (w := w) hp
      rw [ofTenant_settle_own (hs.leave hp) hclose, ofTenant_leave_own hs hp hw rfl]
    · exact ofTenant_leave_own hs hp hw rfl
  · rw [dropWaiter_none fun offer hp hw => hin ⟨offer, hp, hw⟩, dropWaiter_none]
    intro offer hp hw
    exact hin ⟨offer, (get_of_filter hs.pendingKeys hp).1, hw⟩

/-! ### Any step -/

theorem get_ofTenant {κ α : Type} [DecidableEq κ] {m : List (κ × α)} {k : κ} {f : κ → String} :
    get (m.filter fun e => f e.1 = f k) k = get m k :=
  get_filter_of_get fun _ _ => decide_eq_true rfl

section Own
variable {a : OfferAction} (hs : s.Homogeneous) (hsound : s.Sound) (h : s.Own a)
include hs hsound h

theorem Homogeneous.step : (s.step a).Homogeneous := by
  cases a with
  | wait number r now =>
    rw [step_wait]
    split
    · exact hs
    · exact hs.waitForDecision rfl h.2
  | notice sent fallback now =>
    rw [step_notice]
    split
    · exact hs
    · exact hs.listen
  | timeout w now =>
    cases ht : get s.timers w with
    | none => rwa [step_timeout_none ht]
    | some timer =>
      rw [hsound.step_timeout ht]
      exact hs.settle
  | abort w now =>
    cases hr : get s.requests w with
    | none => rwa [step_abort_none hr]
    | some r =>
      rw [step_abort hr]
      exact hs.dropWaiter

theorem undisturbed_of_own : s.Undisturbed a := by
  intro t hne
  cases a with
  | wait number r now =>
    rw [step_wait]
    split
    · rfl
    · exact ofTenant_wait_other hs rfl h.2 hne
  | notice sent fallback now =>
    rw [step_notice]
    split
    · rfl
    · next hheard => exact ofTenant_listen_other hs (h hheard) hne
  | timeout w now =>
    cases ht : get s.timers w with
    | none => rw [step_timeout_none ht]
    | some timer =>
      rw [hsound.step_timeout ht]
      exact ofTenant_settle_other hs (h timer ht) hne
  | abort w now =>
    cases hr : get s.requests w with
    | none => rw [step_abort_none hr]
    | some r =>
      rw [step_abort hr]
      exact ofTenant_dropWaiter_other hs (fun offer hp hlast => h r hr offer hp hlast) hne

theorem ofTenant_step_own : (s.step a).ofTenant a.tenantId = (s.ofTenant a.tenantId).step a := by
  cases a with
  | wait number r now =>
    have hget : get (s.ofTenant r.tenantId).requests ⟨r.tenantId, number⟩ =
        get s.requests ⟨r.tenantId, number⟩ := get_ofTenant (f := Waiter.tenantId)
    show (s.step (.wait number r now)).ofTenant r.tenantId =
      (s.ofTenant r.tenantId).step (.wait number r now)
    rw [step_wait, step_wait, hget]
    split
    · rfl
    · exact ofTenant_wait_own hs rfl h.1 h.2
  | notice sent fallback now =>
    rw [step_notice, step_notice]
    split
    · rfl
    · next hheard => exact ofTenant_listen_own hs (h hheard)
  | timeout w now =>
    have hget : get (s.ofTenant w.tenantId).timers w = get s.timers w :=
      get_ofTenant (f := Waiter.tenantId)
    show (s.step (.timeout w now)).ofTenant w.tenantId =
      (s.ofTenant w.tenantId).step (.timeout w now)
    cases ht : get s.timers w with
    | none => rw [step_timeout_none ht, step_timeout_none (hget.trans ht)]
    | some timer =>
      have hclose := h timer ht
      obtain ⟨-, offer, hp, htimer⟩ := hsound.opener w timer ht
      have hpart : get (s.ofTenant w.tenantId).pending timer.offerId = some offer := by
        rw [get_pending_ofTenant fun offer hoffer => (hclose offer hoffer).1, hp]
      rw [step_timeout ht hp htimer, step_timeout (hget.trans ht) hpart htimer]
      exact ofTenant_settle_own hs hclose
  | abort w now =>
    have hget : get (s.ofTenant w.tenantId).requests w = get s.requests w :=
      get_ofTenant (f := Waiter.tenantId)
    show (s.step (.abort w now)).ofTenant w.tenantId =
      (s.ofTenant w.tenantId).step (.abort w now)
    cases hr : get s.requests w with
    | none => rw [step_abort_none hr, step_abort_none (hget.trans hr)]
    | some r =>
      rw [step_abort hr, step_abort (hget.trans hr)]
      exact ofTenant_dropWaiter_own hs fun offer hp hlast => h r hr offer hp hlast

end Own

/-- The part of a tenant goes its own way. -/
theorem ofTenant_run {actions : List OfferAction} (hs : s.Homogeneous) (hsound : s.Sound)
    (h : Along OfferNode.step Own s actions) :
    (actions.foldl OfferNode.step s).ofTenant t =
      (actions.filter fun a => a.tenantId = t).foldl OfferNode.step (s.ofTenant t) := by
  induction actions generalizing s with
  | nil => rfl
  | cons a actions ih =>
    obtain ⟨hhead, htail⟩ := along_cons.1 h
    have hrest := ih (hs.step hsound hhead) hsound.step htail
    rw [List.foldl_cons, hrest]
    by_cases ht : a.tenantId = t
    · subst ht
      rw [List.filter_cons_of_pos (by simp), List.foldl_cons, ofTenant_step_own hs hsound hhead]
    · rw [List.filter_cons_of_neg (by simpa using ht),
        undisturbed_of_own hs hsound hhead t (Ne.symm ht)]

end OfferNode

/-- Tenants are kept apart in every run in which no step meets by key what is another's. -/
theorem tenants_apart (actions : List OfferAction)
    (h : Along OfferNode.step OfferNode.Own .init actions) : TenantsApart actions := by
  constructor
  · rintro pre a post rfl
    have hbefore : (pre.foldl OfferNode.step .init).Homogeneous ∧
        (pre.foldl OfferNode.step .init).Sound := by
      have hstep : ∀ s a, OfferNode.Own s a → s.Homogeneous ∧ s.Sound →
          (s.step a).Homogeneous ∧ (s.step a).Sound :=
        fun s a ha hs => ⟨hs.1.step hs.2 ha, hs.2.step⟩
      exact h.take.invariant hstep ⟨OfferNode.Homogeneous.init, OfferNode.Sound.init⟩
    exact OfferNode.undisturbed_of_own hbefore.1 hbefore.2 (h pre a post rfl)
  · intro t
    exact OfferNode.ofTenant_run OfferNode.Homogeneous.init OfferNode.Sound.init h

/-- One seat number in two tenants, each with its own call. -/
def ownCalls : List OfferAction :=
  [.wait 1 ⟨"t1", "1787355742.21", "1001", 10⟩ 0, .wait 1 ⟨"t2", "1787355742.22", "1001", 10⟩ 0,
    .notice (.decision ⟨"t1", "1787355742.21", "1001", .reject⟩) false 5]

theorem tenants_apart_own_calls :
    TenantsApart ownCalls ∧
      (ownCalls.foldl OfferNode.step .init).outcome ⟨"t1", 1⟩ = some .reject ∧
      (ownCalls.foldl OfferNode.step .init).outcome ⟨"t2", 1⟩ = none := by
  refine ⟨tenants_apart ownCalls ?_, by decide, by decide⟩
  exact along_cons.2 ⟨by decide, along_cons.2 ⟨by decide,
    along_cons.2 ⟨by decide, along_nil⟩⟩⟩

/-- Two tenants wait under one key. -/
def oneKey : List OfferAction :=
  [.wait 1 ⟨"t1", "1787355742.21", "1001", 10⟩ 0, .wait 1 ⟨"t2", "1787355742.21", "1001", 10⟩ 0,
    .notice (.decision ⟨"t1", "1787355742.21", "1001", .reject⟩) false 5]

/-- The agent of the first tenant refuses, and the poll of the second is refused with it. -/
theorem rejected_by_other_tenant : ¬ TenantsApart oneKey := by
  rintro ⟨hundisturbed, -⟩
  have hstep := hundisturbed (oneKey.take 2) _ [] rfl "t2" (by decide)
  exact absurd hstep (by decide)

end KasterCti.Calls
