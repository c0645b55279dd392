import KasterCti.Ami.Connection
import KasterCti.Library.Trace
import Mathlib.Data.List.Nodup
import Mathlib.Data.List.TakeWhile

/-!
# Requests and responses

What an action is to receive is read off the history: from its request on, the
frames with its id, and the events of a list that name no action when it was the
only pending one and asked for a list, up to the first frame that ends it. Two
actions may even have one id.

Results:
1. `Matched.step`: every step keeps requests, timers and promises together.
2. `pending_actions_matched`: so, in every run, every promise is settled once or
   has its timer armed, a settled one has no entry, a resolved one got exactly the
   frames it was to receive, and no frame went to an action and to event processing.
-/

namespace KasterCti.Ami

open Trace

/-! ## What an action is to receive -/

/-- The frame belongs to the action, by its id or as an event of the only list. -/
def isFor (view : PendingView) (frame : ParsedAmiFrame) (pending : List PendingView) : Bool :=
  if (header frame "ActionID").getD "" ≠ "" then header frame "ActionID" = some view.actionId
  else isEventListFrame frame && view.eventList && pending = [view]

def LogEntry.frameFor (view : PendingView) : LogEntry → Option ParsedAmiFrame
  | .requested _ => none
  | .frame raw pending =>
    if isFor view (parseAmiFrame raw) pending then some (parseAmiFrame raw) else none

/-- The frames that arrived for the action since it was sent. -/
def received (view : PendingView) (log : List LogEntry) : List ParsedAmiFrame :=
  (log.dropWhile (· ≠ .requested view)).filterMap (LogEntry.frameFor view)

/-- The frames are those received for the action, up to and including the first one
that ends it. -/
def Delivered (view : PendingView) (log : List LogEntry) (frames : List ParsedAmiFrame) : Prop :=
  ∃ before last later, received view log = before ++ last :: later ∧ frames = before ++ [last] ∧
    isTerminating view.eventList last = true ∧
    ∀ frame ∈ before, isTerminating view.eventList frame = false

variable {view : PendingView} {log : List LogEntry}

theorem received_of_mem (h : .requested view ∈ log) (more : List LogEntry) :
    received view (log ++ more) =
      received view log ++ more.filterMap (LogEntry.frameFor view) := by
  have hsome : log.dropWhile (· ≠ .requested view) ≠ [] := by
    intro hnil
    simpa using List.dropWhile_eq_nil_iff.mp hnil _ h
  rw [received, List.dropWhile_append, if_neg (by simpa using hsome), List.filterMap_append]
  rfl

theorem mem_of_received (h : received view log ≠ []) : LogEntry.requested view ∈ log := by
  by_contra hnot
  have hnil : log.dropWhile (· ≠ .requested view) = [] := by
    rw [List.dropWhile_eq_nil_iff]
    intro entry hentry
    simpa using fun heq : entry = .requested view => hnot (heq ▸ hentry)
  exact h (by rw [received, hnil]; rfl)

/-- An action that is sent has received nothing. -/
theorem received_requested (h : LogEntry.requested view ∉ log) :
    received view (log ++ [.requested view]) = [] := by
  have hnil : log.dropWhile (· ≠ .requested view) = [] := by
    rw [List.dropWhile_eq_nil_iff]
    intro entry hentry
    simpa using fun heq : entry = .requested view => h (heq ▸ hentry)
  rw [received, List.dropWhile_append, if_pos (by simpa using hnil)]
  simp [LogEntry.frameFor]

theorem Delivered.append {frames : List ParsedAmiFrame} (h : Delivered view log frames)
    (more : List LogEntry) : Delivered view (log ++ more) frames := by
  obtain ⟨before, last, later, hreceived, hframes, hlast, hbefore⟩ := h
  refine ⟨before, last, later ++ more.filterMap (LogEntry.frameFor view), ?_, hframes, hlast,
    hbefore⟩
  have hmem : LogEntry.requested view ∈ log := mem_of_received (by rw [hreceived]; simp)
  rw [received_of_mem hmem, hreceived, List.append_assoc, List.cons_append]

/-! ## The invariant -/

/-- The promises that are settled, and those whose timer is armed. -/
def Connection.answers (s : Connection) : List Nat :=
  s.settled.map Prod.fst ++ s.timers.map Timer.promise

/-- An entry of the map: its timer is armed, and its frames are those received so
far, none of which ends it. -/
structure EntryOk (s : Connection) (actionId : String) (pending : PendingAmiAction) : Prop where
  timer : ∃ timer ∈ s.timers, timer.promise = pending.promise ∧ timer.actionId = actionId
  requested : .requested (pending.view actionId) ∈ s.log
  frames : received (pending.view actionId) s.log = pending.frames
  open_ : ∀ frame ∈ pending.frames, isTerminating pending.eventList frame = false

structure Matched (s : Connection) : Prop where
  answers : s.answers.Perm (List.range s.promises)
  keys : (s.pendingActions.map Prod.fst).Nodup
  entries : ∀ actionId pending, (actionId, pending) ∈ s.pendingActions → EntryOk s actionId pending
  known : ∀ view, .requested view ∈ s.log → view.promise < s.promises
  resolved : ∀ promise frames, (promise, .resolved frames) ∈ s.settled →
    ∃ view : PendingView, view.promise = promise ∧ Delivered view s.log frames

namespace Matched

variable {s : Connection}

theorem answers_nodup (h : Matched s) : s.answers.Nodup :=
  h.answers.nodup_iff.mpr List.nodup_range

theorem not_settled_of_timer (h : Matched s) {timer : Timer} (ht : timer ∈ s.timers) :
    timer.promise ∉ s.settled.map Prod.fst := fun hmem =>
  (List.nodup_append.mp h.answers_nodup).2.2 _ hmem _ (List.mem_map_of_mem ht) rfl

/-- One timer for one promise. -/
theorem timer_unique (h : Matched s) {t₁ t₂ : Timer} (h₁ : t₁ ∈ s.timers) (h₂ : t₂ ∈ s.timers)
    (heq : t₁.promise = t₂.promise) : t₁ = t₂ :=
  List.inj_on_of_nodup_map (List.nodup_append.mp h.answers_nodup).2.1 h₁ h₂ heq

/-- One entry for one promise. -/
theorem key_of_promise (h : Matched s) {k₁ k₂ : String} {p₁ p₂ : PendingAmiAction}
    (h₁ : (k₁, p₁) ∈ s.pendingActions) (h₂ : (k₂, p₂) ∈ s.pendingActions)
    (heq : p₁.promise = p₂.promise) : k₁ = k₂ := by
  obtain ⟨t₁, ht₁, hp₁, hk₁⟩ := (h.entries k₁ p₁ h₁).timer
  obtain ⟨t₂, ht₂, hp₂, hk₂⟩ := (h.entries k₂ p₂ h₂).timer
  have ht := h.timer_unique ht₁ ht₂ (by rw [hp₁, hp₂, heq])
  rw [← hk₁, ← hk₂, ht]

end Matched

/-- Settling a promise whose timer is armed, and clearing the timer. -/
theorem settle_perm {s : Connection} {promise : Nat} (hnodup : (s.timers.map Timer.promise).Nodup)
    (hmem : promise ∈ s.timers.map Timer.promise) (settlement : Settlement) :
    ((s.clearTimeout promise).settle promise settlement).answers.Perm s.answers := by
  have hfilter : (s.timers.filter (fun timer => timer.promise ≠ promise)).map Timer.promise =
      (s.timers.map Timer.promise).erase promise := by
    rw [hnodup.erase_eq_filter, List.filter_map]
    congr 1
    refine List.filter_congr (fun timer _ => ?_)
    by_cases htimer : timer.promise = promise <;> simp [htimer]
  show (((s.settled ++ [(promise, settlement)]).map Prod.fst) ++
    (s.timers.filter (fun timer => timer.promise ≠ promise)).map Timer.promise).Perm _
  rw [hfilter, List.map_append, List.append_assoc]
  exact (List.perm_cons_erase hmem).symm.append_left _

/-! ## Entries of the map -/

variable {pending : List (String × PendingAmiAction)}

theorem mem_setPending {actionId key : String} {action value : PendingAmiAction} :
    (key, value) ∈ setPending pending actionId action ↔
      (key = actionId ∧ value = action) ∨ (key ≠ actionId ∧ (key, value) ∈ pending) := by
  unfold setPending
  split
  · rename_i hany
    simp only [List.any_eq_true, decide_eq_true_eq, Prod.exists] at hany
    obtain ⟨k, old, hold, rfl⟩ := hany
    rw [List.mem_map]
    constructor
    · rintro ⟨⟨k', p'⟩, hmem, heq⟩
      by_cases hk : k' = k
      · rw [if_pos hk] at heq
        obtain ⟨rfl, rfl⟩ := Prod.mk.inj heq
        exact .inl ⟨rfl, rfl⟩
      · rw [if_neg hk] at heq
        obtain ⟨rfl, rfl⟩ := Prod.mk.inj heq
        exact .inr ⟨hk, hmem⟩
    · rintro (⟨rfl, rfl⟩ | ⟨hne, hmem⟩)
      · exact ⟨(key, old), hold, if_pos rfl⟩
      · exact ⟨(key, value), hmem, if_neg hne⟩
  · rename_i hnone
    simp only [List.any_eq_true, decide_eq_true_eq, Prod.exists, not_exists, not_and] at hnone
    rw [List.mem_append, List.mem_singleton, Prod.mk.injEq]
    constructor
    · rintro (hmem | heq)
      · exact .inr ⟨hnone key value hmem, hmem⟩
      · exact .inl heq
    · rintro (heq | ⟨_, hmem⟩)
      · exact .inr heq
      · exact .inl hmem

variable {actionId : String}

theorem keys_setPending {action : PendingAmiAction} (h : (pending.map Prod.fst).Nodup) :
    ((setPending pending actionId action).map Prod.fst).Nodup := by
  unfold setPending
  split
  · have hkeys : (pending.map (fun entry => if entry.1 = actionId then (actionId, action)
        else entry)).map Prod.fst = pending.map Prod.fst := by
      rw [List.map_map]
      refine List.map_congr_left (fun entry _ => ?_)
      by_cases hk : entry.1 = actionId <;> simp [hk]
    rw [hkeys]
    exact h
  · rename_i hnone
    rw [List.map_append, List.nodup_append]
    refine ⟨h, List.nodup_singleton _, ?_⟩
    rintro key hkey _ hlast rfl
    obtain ⟨entry, hentry, rfl⟩ := List.mem_map.mp hkey
    refine hnone (List.any_eq_true.mpr ⟨entry, hentry, ?_⟩)
    simpa using hlast

theorem mem_deletePending {entry : String × PendingAmiAction} :
    entry ∈ deletePending pending actionId ↔ entry ∈ pending ∧ entry.1 ≠ actionId := by
  rw [deletePending, List.mem_filter, decide_eq_true_eq]

theorem deletePending_sublist (pending : List (String × PendingAmiAction)) (actionId : String) :
    (deletePending pending actionId).Sublist pending := List.filter_sublist

/-- `get` finds the entry of a key. -/
theorem lookup_eq_some_iff {action : PendingAmiAction} (h : (pending.map Prod.fst).Nodup) :
    pending.lookup actionId = some action ↔ (actionId, action) ∈ pending := by
  induction pending with
  | nil => simp
  | cons entry rest ih =>
    obtain ⟨key, value⟩ := entry
    obtain ⟨hhead, htail⟩ := List.nodup_cons.mp h
    rw [List.lookup_cons]
    by_cases hk : actionId = key
    · subst hk
      simp only [beq_self_eq_true, Option.some.injEq, List.mem_cons, Prod.mk.injEq, true_and]
      constructor
      · rintro rfl
        exact .inl rfl
      · rintro (heq | hmem)
        · exact heq.symm
        · exact absurd (List.mem_map_of_mem (f := Prod.fst) hmem) hhead
    · rw [beq_false_of_ne hk]
      simp only [List.mem_cons, Prod.mk.injEq, hk, false_and, false_or]
      exact ih htail

/-- The handler and the history agree on what belongs to an entry. -/
theorem isFor_iff_pendingFor {s : Connection} (hkeys : (s.pendingActions.map Prod.fst).Nodup)
    {pending : PendingAmiAction} (hmem : (actionId, pending) ∈ s.pendingActions)
    (frame : ParsedAmiFrame) :
    isFor (pending.view actionId) frame (viewOf s.pendingActions) = true ↔
      s.pendingFor frame = some (actionId, pending) := by
  have hsole : (isEventListFrame frame && pending.eventList &&
      decide (viewOf s.pendingActions = [pending.view actionId])) = true ↔
      s.soleList frame = some (actionId, pending) := by
    unfold Connection.soleList
    split
    · rename_i entry hone
      obtain rfl : (actionId, pending) = entry := by
        rw [hone] at hmem
        exact List.mem_singleton.mp hmem
      simp [hone, viewOf]
    · rename_i hnone
      simp only [Bool.and_eq_true, decide_eq_true_eq, reduceCtorEq, iff_false, not_and]
      intro _ hview
      obtain ⟨entry, hentry, _⟩ := List.map_eq_singleton_iff.mp hview
      exact hnone entry hentry
  unfold isFor Connection.pendingFor
  cases hid : header frame "ActionID" with
  | none =>
    simp only [Option.getD_none, ne_eq, not_true_eq_false, if_false]
    exact hsole
  | some id =>
    simp only [Option.getD_some]
    split
    · rw [decide_eq_true_eq, Option.some.injEq, Option.map_eq_some_iff]
      constructor
      · intro heq
        exact ⟨pending, (lookup_eq_some_iff hkeys).mpr (heq ▸ hmem), by rw [heq]; rfl⟩
      · rintro ⟨action, _, heq⟩
        exact congrArg Prod.fst heq
    · exact hsole

/-! ## Steps -/

namespace Matched

variable {s : Connection}

/-- A state that differs elsewhere. -/
theorem congr {t : Connection} (h : Matched s) (hpromises : t.promises = s.promises)
    (hpending : t.pendingActions = s.pendingActions) (htimers : t.timers = s.timers)
    (hlog : t.log = s.log) (hsettled : t.settled = s.settled) : Matched t := by
  refine ⟨?_, ?_, ?_, ?_, ?_⟩
  · rw [Connection.answers, hsettled, htimers, hpromises]
    exact h.answers
  · rw [hpending]
    exact h.keys
  · intro actionId pending hmem
    obtain ⟨htimer, hrequested, hframes, hopen⟩ := h.entries actionId pending (hpending ▸ hmem)
    exact ⟨htimers ▸ htimer, hlog ▸ hrequested, hlog ▸ hframes, hopen⟩
  · rw [hlog, hpromises]
    exact h.known
  · rw [hlog, hsettled]
    exact h.resolved

/-- A timer may be armed without an entry, as after a second action with the same
id. -/
theorem sublist (h : Matched s) {rest : List (String × PendingAmiAction)}
    (hrest : rest.Sublist s.pendingActions) : Matched { s with pendingActions := rest } := by
  refine ⟨h.answers, h.keys.sublist (hrest.map Prod.fst), ?_, h.known, h.resolved⟩
  intro actionId pending hmem
  obtain ⟨htimer, hrequested, hframes, hopen⟩ := h.entries actionId pending (hrest.subset hmem)
  exact ⟨htimer, hrequested, hframes, hopen⟩

/-- A promise that has no entry left is settled and its timer cleared. -/
theorem settle (h : Matched s) {promise : Nat} (hmem : promise ∈ s.timers.map Timer.promise)
    (hnone : ∀ actionId pending, (actionId, pending) ∈ s.pendingActions → pending.promise ≠ promise)
    {settlement : Settlement} (hsettlement : ∀ frames, settlement = .resolved frames →
      ∃ view : PendingView, view.promise = promise ∧ Delivered view s.log frames) :
    Matched ((s.clearTimeout promise).settle promise settlement) := by
  have hnodup := (List.nodup_append.mp h.answers_nodup).2.1
  refine ⟨(settle_perm hnodup hmem settlement).trans h.answers, h.keys, ?_, h.known, ?_⟩
  · intro actionId pending hentry
    obtain ⟨⟨timer, htimer, hpromise, hid⟩, hrequested, hframes, hopen⟩ :=
      h.entries actionId pending hentry
    refine ⟨⟨timer, ?_, hpromise, hid⟩, hrequested, hframes, hopen⟩
    refine List.mem_filter.mpr ⟨htimer, ?_⟩
    simpa [hpromise] using hnone actionId pending hentry
  · intro other frames hother
    rcases List.mem_append.mp hother with hold | hnew
    · exact h.resolved other frames hold
    · obtain ⟨rfl, hframes⟩ := Prod.mk.inj (List.mem_singleton.mp hnew)
      exact hsettlement frames hframes.symm

/-- A frame is passed on that belongs to none of the entries left. -/
theorem frame (h : Matched s) {raw : List Char} {rest : List (String × PendingAmiAction)}
    (hrest : rest.Sublist s.pendingActions)
    (hnot : ∀ actionId pending, (actionId, pending) ∈ rest →
      s.pendingFor (parseAmiFrame raw) ≠ some (actionId, pending)) :
    Matched { s with
      pendingActions := rest
      log := s.log ++ [.frame raw (viewOf s.pendingActions)] } := by
  refine ⟨h.answers, h.keys.sublist (hrest.map Prod.fst), ?_, ?_, ?_⟩
  · intro actionId pending hmem
    obtain ⟨htimer, hrequested, hframes, hopen⟩ := h.entries actionId pending (hrest.subset hmem)
    refine ⟨htimer, List.mem_append_left _ hrequested, ?_, hopen⟩
    have hfor := mt (isFor_iff_pendingFor h.keys (hrest.subset hmem) (parseAmiFrame raw)).mp
      (hnot actionId pending hmem)
    show received _ (s.log ++ [_]) = _
    rw [received_of_mem hrequested, hframes]
    simp [LogEntry.frameFor, hfor]
  · intro view hview
    refine h.known view ?_
    simpa using hview
  · intro promise frames hmem
    obtain ⟨view, hview, hdelivered⟩ := h.resolved promise frames hmem
    exact ⟨view, hview, hdelivered.append _⟩

/-- What the entry that a frame belongs to has received with it. -/
theorem received_pendingFor (h : Matched s) {raw : List Char} {actionId : String}
    {pending : PendingAmiAction} (hmem : (actionId, pending) ∈ s.pendingActions)
    (hfor : s.pendingFor (parseAmiFrame raw) = some (actionId, pending)) :
    received (pending.view actionId) (s.log ++ [.frame raw (viewOf s.pendingActions)]) =
      pending.frames ++ [parseAmiFrame raw] := by
  obtain ⟨_, hrequested, hframes, _⟩ := h.entries actionId pending hmem
  have hisFor := (isFor_iff_pendingFor h.keys hmem (parseAmiFrame raw)).mpr hfor
  rw [received_of_mem hrequested, hframes]
  simp [LogEntry.frameFor, hisFor]

theorem mem_of_pendingFor (h : Matched s) {frame : ParsedAmiFrame} {actionId : String}
    {pending : PendingAmiAction} (hfor : s.pendingFor frame = some (actionId, pending)) :
    (actionId, pending) ∈ s.pendingActions := by
  have hsole : s.soleList frame = some (actionId, pending) →
      (actionId, pending) ∈ s.pendingActions := by
    intro heq
    unfold Connection.soleList at heq
    split at heq
    · rename_i entry hone
      split at heq
      · rw [hone, ← Option.some.inj heq]
        exact List.mem_singleton_self _
      · cases heq
    · cases heq
  unfold Connection.pendingFor at hfor
  split at hfor
  · split at hfor
    · obtain ⟨action, hlookup, heq⟩ := Option.map_eq_some_iff.mp hfor
      obtain ⟨rfl, rfl⟩ := Prod.mk.inj heq
      exact (lookup_eq_some_iff h.keys).mp hlookup
    · exact hsole hfor
  · exact hsole hfor

/-- The frame is pushed to the entry it belongs to. -/
theorem push (h : Matched s) {raw : List Char} {actionId : String} {pending : PendingAmiAction}
    (hfor : s.pendingFor (parseAmiFrame raw) = some (actionId, pending)) :
    Matched (Connection.push { s with log := s.log ++ [.frame raw (viewOf s.pendingActions)] }
      actionId pending (parseAmiFrame raw)) := by
  have hmem := h.mem_of_pendingFor hfor
  have hreceived := h.received_pendingFor hmem hfor
  obtain ⟨⟨timer, htimer, hpromise, hid⟩, hrequested, _, hopen⟩ := h.entries actionId pending hmem
  -- without the entry, the frame belongs to nobody
  have hdeleted : Matched { s with
      pendingActions := deletePending s.pendingActions actionId
      log := s.log ++ [.frame raw (viewOf s.pendingActions)] } := by
    refine h.frame (deletePending_sublist _ _) ?_
    intro key other hother heq
    rw [hfor, Option.some.injEq, Prod.mk.injEq] at heq
    exact (mem_deletePending.mp hother).2 heq.1.symm
  unfold Connection.push
  dsimp only
  split
  · rename_i hlast
    have harmed : pending.promise ∈ s.timers.map Timer.promise :=
      hpromise ▸ List.mem_map_of_mem htimer
    refine hdeleted.settle harmed ?_ ?_
    · intro key other hother heq
      obtain ⟨hin, hne⟩ := mem_deletePending.mp hother
      exact hne (h.key_of_promise hin hmem heq)
    · intro frames hframes
      obtain rfl : pending.frames ++ [parseAmiFrame raw] = frames := Settlement.resolved.inj hframes
      exact ⟨pending.view actionId, rfl, pending.frames, parseAmiFrame raw, [], hreceived, rfl,
        hlast, hopen⟩
  · rename_i hnot
    refine ⟨h.answers, keys_setPending h.keys, ?_, hdeleted.known, hdeleted.resolved⟩
    intro key value hentry
    rcases mem_setPending.mp hentry with ⟨rfl, rfl⟩ | ⟨hne, hin⟩
    · refine ⟨⟨timer, htimer, hpromise, hid⟩, List.mem_append_left _ hrequested, hreceived, ?_⟩
      intro frame hframe
      rcases List.mem_append.mp hframe with hold | hnew
      · exact hopen frame hold
      · rw [List.mem_singleton.mp hnew]
        simpa using hnot
    · obtain ⟨htimer', hrequested', hframes', hopen'⟩ :=
        hdeleted.entries key value (mem_deletePending.mpr ⟨hin, hne⟩)
      exact ⟨htimer', hrequested', hframes', hopen'⟩

theorem passFrames (frames : List (List Char)) (h : Matched s) :
    Matched (Connection.passFrames frames s) := by
  induction frames generalizing s with
  | nil => exact h
  | cons raw rest ih =>
    rw [Connection.passFrames]
    split
    · rename_i actionId pending hfor
      refine ih ((h.push hfor).congr ?_ ?_ ?_ ?_ ?_)
      all_goals
        unfold Connection.push
        dsimp only
        split <;> rfl
    · rename_i hnone
      have hnot : ∀ actionId pending, (actionId, pending) ∈ s.pendingActions →
          s.pendingFor (parseAmiFrame raw) ≠ some (actionId, pending) := by
        intro actionId pending _ hsome
        rw [hnone] at hsome
        cases hsome
      have hframe := h.frame (List.Sublist.refl s.pendingActions) hnot
      split
      · exact hframe.congr rfl rfl rfl rfl rfl
      · exact ih hframe

theorem rejectAll (error : String) (entries : List (String × PendingAmiAction))
    (h : Matched { s with pendingActions := entries }) :
    Matched { s.rejectAll error entries with pendingActions := [] } := by
  induction entries generalizing s with
  | nil => exact h
  | cons entry rest ih =>
    obtain ⟨actionId, pending⟩ := entry
    obtain ⟨⟨timer, htimer, hpromise, _⟩, _⟩ := h.entries actionId pending List.mem_cons_self
    have hrest : Matched { s with pendingActions := rest } := h.sublist (List.sublist_cons_self _ _)
    refine ih (hrest.settle (hpromise ▸ List.mem_map_of_mem htimer) ?_ ?_)
    · intro key other hother heq
      have hkey := h.key_of_promise (List.mem_cons_of_mem _ hother) List.mem_cons_self heq
      have hkeys : key ∈ rest.map Prod.fst := List.mem_map_of_mem (f := Prod.fst) hother
      exact (List.nodup_cons.mp h.keys).1 (hkey ▸ hkeys)
    · intro frames hframes
      cases hframes

theorem timeout (h : Matched s) (promise : Nat) : Matched (s.timeout promise) := by
  unfold Connection.timeout
  split
  · rename_i timer hfind
    have htimer := List.mem_of_find?_eq_some hfind
    have hpromise : timer.promise = promise := by simpa using List.find?_some hfind
    have hdeleted := h.sublist (deletePending_sublist s.pendingActions timer.actionId)
    refine hdeleted.settle (hpromise ▸ List.mem_map_of_mem htimer) ?_ ?_
    · intro actionId pending hentry heq
      obtain ⟨hin, hne⟩ := mem_deletePending.mp hentry
      obtain ⟨other, hother, hsame, hid⟩ := (h.entries actionId pending hin).timer
      have hunique := h.timer_unique hother htimer (by rw [hsame, heq, hpromise])
      exact hne (by rw [← hid, hunique])
    · intro frames hframes
      cases hframes
  · exact h

/-- A new action. An entry with the same id is replaced, and its timer stays. -/
theorem request (h : Matched s) (actionName : Option String) (now : Nat) (random : String)
    (eventList : Bool) : Matched (s.request actionName now random eventList) := by
  have hfresh : ∀ view : PendingView, view.promise = s.promises → .requested view ∉ s.log :=
    fun view hview hmem => Nat.lt_irrefl _ (hview ▸ h.known view hmem)
  unfold Connection.request
  dsimp only
  split
  · refine ⟨?_, h.keys, ?_, ?_, ?_⟩
    · show (((s.settled ++ [_]).map Prod.fst) ++ s.timers.map Timer.promise).Perm
        (List.range (s.promises + 1))
      rw [List.range_succ, List.map_append, List.append_assoc]
      have hlast := List.perm_middle.trans (List.perm_append_singleton s.promises s.answers).symm
      exact hlast.trans (h.answers.append_right _)
    · intro actionId pending hmem
      obtain ⟨htimer, hrequested, hframes, hopen⟩ := h.entries actionId pending hmem
      exact ⟨htimer, hrequested, hframes, hopen⟩
    · intro view hview
      exact Nat.lt_succ_of_lt (h.known view hview)
    · intro promise frames hmem
      refine h.resolved promise frames ?_
      simpa [Connection.settle] using hmem
  · refine ⟨?_, keys_setPending h.keys, ?_, ?_, ?_⟩
    · show (s.settled.map Prod.fst ++ (s.timers ++ [_]).map Timer.promise).Perm
        (List.range (s.promises + 1))
      rw [List.range_succ, List.map_append, ← List.append_assoc]
      exact h.answers.append_right _
    · intro key value hentry
      rcases mem_setPending.mp hentry with ⟨rfl, rfl⟩ | ⟨_, hin⟩
      · exact ⟨⟨_, List.mem_append_right _ (List.mem_singleton_self _), rfl, rfl⟩,
          List.mem_append_right _ (List.mem_singleton_self _), received_requested (hfresh _ rfl),
          List.forall_mem_nil _⟩
      · obtain ⟨⟨timer, htimer, hold⟩, hrequested, hframes, hopen⟩ := h.entries key value hin
        refine ⟨⟨timer, List.mem_append_left _ htimer, hold⟩, List.mem_append_left _ hrequested, ?_,
          hopen⟩
        show received _ (s.log ++ [_]) = _
        rw [received_of_mem hrequested, hframes]
        exact List.append_nil _
    · intro view hview
      rcases List.mem_append.mp hview with hold | hnew
      · exact Nat.lt_succ_of_lt (h.known view hold)
      · obtain rfl := LogEntry.requested.inj (List.mem_singleton.mp hnew)
        exact Nat.lt_succ_self _
    · intro promise frames hmem
      obtain ⟨view, hview, hdelivered⟩ := h.resolved promise frames hmem
      exact ⟨view, hview, hdelivered.append _⟩

theorem failPendingActions (h : Matched s) (error : String) :
    Matched (s.failPendingActions error) := rejectAll error s.pendingActions h

theorem step (h : Matched s) (a : ConnectionAction) : Matched (s.step a) := by
  cases a with
  | connected => exact h.congr rfl rfl rfl rfl rfl
  | data chunk => exact passFrames _ (h.congr rfl rfl rfl rfl rfl)
  | resume handler =>
    show Matched (s.resume handler)
    unfold Connection.resume
    split
    · exact passFrames _ (h.congr rfl rfl rfl rfl rfl)
    · exact h
  | request actionName now random eventList => exact h.request actionName now random eventList
  | timeout promise => exact h.timeout promise
  | error message =>
    have hdown : Matched { s with connected := false } := h.congr rfl rfl rfl rfl rfl
    exact hdown.failPendingActions message
  | close =>
    have hdown : Matched { s with connected := false, loggedIn := false } :=
      h.congr rfl rfl rfl rfl rfl
    exact hdown.failPendingActions _
  | reconnect => exact h.congr rfl rfl rfl rfl rfl

end Matched

/-! ## Where a frame goes -/

/-- A frame is given to one action or handed to event processing, once. -/
structure Apart (s : Connection) : Prop where
  once : (s.given.map Prod.fst ++ s.events).Nodup
  numbered : ∀ number ∈ s.given.map Prod.fst ++ s.events, number < s.log.length

namespace Apart

variable {s : Connection}

theorem congr {t : Connection} (h : Apart s) (hgiven : t.given = s.given)
    (hevents : t.events = s.events) (hlog : s.log.length ≤ t.log.length) : Apart t := by
  refine ⟨?_, ?_⟩
  · rw [hgiven, hevents]
    exact h.once
  · intro number hnumber
    rw [hgiven, hevents] at hnumber
    exact Nat.lt_of_lt_of_le (h.numbered number hnumber) hlog

/-- The next frame goes to one place. -/
theorem next {t : Connection} (h : Apart s)
    (hplace : (t.given.map Prod.fst ++ t.events).Perm
      (s.log.length :: (s.given.map Prod.fst ++ s.events)))
    (hlog : t.log.length = s.log.length + 1) : Apart t := by
  refine ⟨?_, ?_⟩
  · rw [hplace.nodup_iff, List.nodup_cons]
    exact ⟨fun hmem => Nat.lt_irrefl _ (h.numbered _ hmem), h.once⟩
  · intro number hnumber
    rw [hlog]
    rcases List.mem_cons.mp (hplace.mem_iff.mp hnumber) with rfl | hold
    · exact Nat.lt_succ_self _
    · exact Nat.lt_succ_of_lt (h.numbered number hold)

theorem passFrames (frames : List (List Char)) (h : Apart s) :
    Apart (Connection.passFrames frames s) := by
  induction frames generalizing s with
  | nil => exact h
  | cons raw rest ih =>
    rw [Connection.passFrames]
    split
    · rename_i actionId pending _
      -- pushing the frame to its action touches none of the three lists
      have hpush : ∀ (t : Connection), (t.push actionId pending (parseAmiFrame raw)).given = t.given ∧
          (t.push actionId pending (parseAmiFrame raw)).events = t.events ∧
          (t.push actionId pending (parseAmiFrame raw)).log = t.log := by
        intro t
        unfold Connection.push
        dsimp only
        split <;> exact ⟨rfl, rfl, rfl⟩
      obtain ⟨hgiven, hevents, hlog⟩ := hpush { s with
        log := s.log ++ [.frame raw (viewOf s.pendingActions)]
        given := s.given ++ [(s.log.length, pending.promise)] }
      refine ih (h.next ?_ ?_)
      · rw [hgiven, hevents, List.map_append, List.append_assoc]
        exact List.perm_middle
      · rw [hlog, List.length_append]
        rfl
    · split
      · refine h.next ?_ ?_
        · rw [← List.append_assoc]
          exact List.perm_append_singleton _ _
        · exact List.length_append
      · exact ih (h.congr rfl rfl (by rw [List.length_append]; exact Nat.le_add_right _ _))

theorem rejectAll (h : Apart s) (error : String) (entries : List (String × PendingAmiAction)) :
    Apart (s.rejectAll error entries) := by
  induction entries generalizing s with
  | nil => exact h
  | cons entry rest ih => exact ih (h.congr rfl rfl (Nat.le_refl _))

theorem step (h : Apart s) (a : ConnectionAction) : Apart (s.step a) := by
  have hfail : ∀ (t : Connection) (error : String), Apart t → Apart (t.failPendingActions error) :=
    fun t error ht => (ht.rejectAll error t.pendingActions).congr rfl rfl (Nat.le_refl _)
  cases a with
  | connected => exact h.congr rfl rfl (Nat.le_refl _)
  | data chunk => exact passFrames _ (h.congr rfl rfl (Nat.le_refl _))
  | resume handler =>
    show Apart (s.resume handler)
    unfold Connection.resume
    split
    · exact passFrames _ (h.congr rfl rfl (Nat.le_refl _))
    · exact h
  | request actionName now random eventList =>
    show Apart (s.request actionName now random eventList)
    unfold Connection.request
    dsimp only
    split
    · exact h.congr rfl rfl (Nat.le_refl _)
    · exact h.congr rfl rfl (by rw [List.length_append]; exact Nat.le_add_right _ _)
  | timeout promise =>
    show Apart (s.timeout promise)
    unfold Connection.timeout
    split
    · exact h.congr rfl rfl (Nat.le_refl _)
    · exact h
  | error message => exact hfail _ message (h.congr rfl rfl (Nat.le_refl _))
  | close => exact hfail _ _ (h.congr rfl rfl (Nat.le_refl _))
  | reconnect => exact h.congr rfl rfl (Nat.le_refl _)

end Apart

/-! ## Runs -/

theorem matched_run (actions : List ConnectionAction) :
    Matched (actions.foldl Connection.step Connection.init) ∧
      Apart (actions.foldl Connection.step Connection.init) := by
  have hrun : ∀ (s : Connection), Matched s ∧ Apart s →
      Matched (actions.foldl Connection.step s) ∧ Apart (actions.foldl Connection.step s) := by
    induction actions with
    | nil => exact fun s h => h
    | cons a rest ih => exact fun s h => ih _ ⟨h.1.step a, h.2.step a⟩
  refine hrun _ ⟨⟨?_, List.nodup_nil, ?_, ?_, ?_⟩, ⟨List.nodup_nil, ?_⟩⟩
  · exact List.Perm.refl _
  all_goals simp [Connection.init]

/-- The timer of a promise settles it. -/
theorem settled_of_timeout {s : Connection} {timer : Timer} (htimer : timer ∈ s.timers) :
    timer.promise ∈ (s.step (.timeout timer.promise)).settled.map Prod.fst := by
  have hfound : (s.timers.find? (fun other => other.promise = timer.promise)).isSome :=
    List.find?_isSome.mpr ⟨timer, htimer, by simp⟩
  obtain ⟨found, hfind⟩ := Option.isSome_iff_exists.mp hfound
  show timer.promise ∈ (s.timeout timer.promise).settled.map Prod.fst
  unfold Connection.timeout
  rw [hfind]
  exact List.mem_map.mpr ⟨_, List.mem_append_right _ (List.mem_singleton_self _), rfl⟩

end KasterCti.Ami
