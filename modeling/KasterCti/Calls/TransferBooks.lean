import Mathlib.Data.List.Forall2
import Mathlib.Data.List.Induction
import Mathlib.Data.List.Nodup
import KasterCti.Library.Trace
import KasterCti.Calls.CallLeg
import KasterCti.Calls.TransferDetector

/-!
# The two books of a transfer

An attended request leaves a row in `callTransfers` and a candidate in
`attendedTransferCandidates`. Nothing ties the two together: an event, a cancellation and
the sweep each look for the newest open one in either table.

Results:
1. `Booked.step`: while events and sweeps do not come between two open requests, the two
   tables stay paired.
2. `transfer_books_agree`: a row is closed together with the candidate of its request.
3. `blind_closes_attended`: a blind transfer during a consultation.
-/

namespace KasterCti.Calls

open JsText Trace

/-! ## 1. Requests and cancellations -/

/-- `getChannelEndpoint` of `CallsService`: it cuts a suffix of six hexadecimal digits or
more. -/
def getChannelEndpoint (channelName : String) : Option String :=
  match (trim channelName).toList.dropWhile (· ≠ '/') with
  | [] => none
  | [_] => none
  | _ :: rest =>
    let endpoint := rest.takeWhile fun c => c ≠ '@' && c ≠ ';'
    let suffix := (endpoint.reverse.takeWhile (· ≠ '-')).reverse
    let isHex (c : Char) : Bool := isDigit c || ('a' ≤ c && c ≤ 'f') || ('A' ≤ c && c ≤ 'F')
    let stem :=
      if endpoint.contains '-' && 6 ≤ suffix.length && suffix.all isHex then
        endpoint.take (endpoint.length - suffix.length - 1)
      else endpoint
    let name := trim (String.ofList stem)
    if name = "" then none else some name

structure TransferDto where
  transferType : TransferType
  target : String
  fromExtension : String

def World.addTransfer (w : World) (t : CallTransfer) : World :=
  { w with transfers := w.transfers ++ [t] }

/-- The newest agent leg of the call that has not ended. -/
def World.agentLeg (w : World) (key : CallKey) : Option CallLeg :=
  findLatest (·.startedAt) (fun leg => leg.key = key && leg.legType = "agent" && leg.endedAt.isNone)
    w.legs

/-- `transfer`. `allowed` is the answer of the two checks of actor and target; the clock is
read when the request comes in and once more when the candidate is recorded. -/
def transfer (w : World) (key : CallKey) (dto : TransferDto) (allowed : Bool)
    (requestedAt recordedAt : Time) : World :=
  match w.sessions key, w.agentLeg key with
  | some call, some leg =>
    if leg.channelName ≠ "" && allowed then
      let fromExtension := (getChannelEndpoint leg.channelName).getD (trim dto.fromExtension)
      let w := w.addTransfer
        { transferId := w.transfers.length, key := key, transferType := dto.transferType
          fromExtension := some fromExtension, toExtension := some dto.target
          transferResult := some .requested, requestedAt := requestedAt, completedAt := none }
      let w := w.setSession key { call with transferFlag := true, sessionStatus := .transferring }
      if dto.transferType = .attended then
        recordRequest w key call.primaryAgentId (some fromExtension) dto.target recordedAt
      else w
    else w
  | _, _ => w

/-- `cancelAttendedTransfer` -/
def cancelAttendedTransfer (w : World) (key : CallKey) (allowed : Bool) (now : Time) : World :=
  match w.sessions key, w.getOpenCandidate key, w.agentLeg key with
  | some call, some c, some leg =>
    if leg.channelName ≠ "" && allowed then
      let w := w.updateCandidate c.candidateId fun c =>
        { c with phase := .failed, completedAt := some now, updatedAt := now }
      let w := w.closeTransfer key .attended .canceled now
      w.setSession key { call with sessionStatus := fallbackStatus call, updatedAt := now }
    else w
  | _, _, _ => w

/-! ## 2. Runs -/

/-- The tables, and which row and candidate each attended request has made. -/
structure Books where
  world : World
  requests : List (Nat × Nat)

inductive TransferAction
  | transfer (key : CallKey) (dto : TransferDto) (allowed : Bool) (requestedAt : Time) (took : Nat)
  /-- A `BlindTransfer` or `AttendedTransfer` event. -/
  | detected (type : TransferType) (event : AmiEvent) (now : Time)
  | cancel (key : CallKey) (allowed : Bool) (now : Time)
  | sweep (now : Time)

def transferEventName : TransferType → EventName
  | .blind => .blindTransfer
  | .attended => .attendedTransfer

namespace Books

/-- Both tables have grown by one: an attended request was accepted. -/
def linkNew (s : Books) (w : World) : List (Nat × Nat) :=
  if w.candidates.length = s.world.candidates.length + 1 then
    s.requests ++ [(s.world.transfers.length, s.world.candidates.length)]
  else s.requests

def step (s : Books) : TransferAction → Books
  | .transfer key dto allowed requestedAt took =>
    let w := Calls.transfer s.world key dto allowed requestedAt (requestedAt + took)
    ⟨w, s.linkNew w⟩
  | .detected type event now =>
    ⟨handle s.world { event with eventName := transferEventName type } now, s.requests⟩
  | .cancel key allowed now => ⟨cancelAttendedTransfer s.world key allowed now, s.requests⟩
  | .sweep now => ⟨sweepExpired s.world now, s.requests⟩

end Books

/-- An attended row that has no result yet. -/
def CallTransfer.isPending (t : CallTransfer) : Bool :=
  t.transferType = .attended && (t.transferResult = none || t.transferResult = some .requested)

/-- The phase of a candidate that goes with the result of its row. -/
def closingPhase : TransferResult → TransferPhase
  | .completed => .completed
  | .expired => .expired
  | _ => .failed

/-- A pending row gets its result together with the candidate of its request, and expires
15 minutes after the request at the earliest. -/
def ClosedTogether (s s' : Books) (now : Time) : Prop :=
  ∀ t ∈ s.world.transfers, t.isPending = true →
    ∀ t' ∈ s'.world.transfers, t'.transferId = t.transferId →
    ∀ result ∈ [TransferResult.completed, .canceled, .expired], t'.transferResult = some result →
      (∃ c ∈ s.world.candidates, ∃ c' ∈ s'.world.candidates,
        (t.transferId, c.candidateId) ∈ s.requests ∧ c.phase.isOpen = true ∧
          c'.candidateId = c.candidateId ∧ c'.phase = closingPhase result) ∧
      (result = .expired → t.requestedAt < now - 15 * 60000)

/-- Every open candidate stays open. -/
def LeavesCandidates (s s' : Books) : Prop :=
  ∀ c ∈ s.world.candidates, c.phase.isOpen = true →
    ∃ c' ∈ s'.world.candidates, c'.candidateId = c.candidateId ∧ c'.phase.isOpen = true

/-- What a step must do to the two tables. -/
def BooksAgree (s : Books) (a : TransferAction) : Prop :=
  match a with
  | .transfer _ _ _ requestedAt _ => ClosedTogether s (s.step a) requestedAt
  | .detected .attended _ now => ClosedTogether s (s.step a) now
  | .detected .blind _ now => ClosedTogether s (s.step a) now ∧ LeavesCandidates s (s.step a)
  | .cancel _ _ now => ClosedTogether s (s.step a) now
  | .sweep now => ClosedTogether s (s.step a) now

def World.openCandidates (w : World) (key : CallKey) : List TransferCandidate :=
  w.candidates.filter fun c => c.key = key && c.phase.isOpen

/-- Where no step comes between two open requests of a call:
* an attended request comes after every open one of the call was recorded;
* a blind transfer finds no open candidate;
* a sweep finds all open candidates of a call overdue, or none. -/
def Orderly (s : Books) : TransferAction → Prop
  | .transfer key dto _ requestedAt _ => dto.transferType = .attended →
    ∀ c ∈ s.world.openCandidates key, c.requestedAt < requestedAt
  | .detected .blind event _ => ∀ key, event.callKey? = some key →
    s.world.openCandidates key = []
  | .sweep now => ∀ key, (∃ c ∈ s.world.openCandidates key, c.requestedAt < now - 15 * 60000) →
    ∀ c ∈ s.world.openCandidates key, c.requestedAt < now - 15 * 60000
  | _ => True

/-! ## 3. The newest row -/

section Rows

variable {α β : Type} {p : α → Bool} {rows : List α}

/-- Among rows that were written in the order of their times, the newest is the last. -/
theorem findLatest_sorted {time : α → Time}
    (h : (rows.filter p).Pairwise fun a b => time a < time b) :
    findLatest time p rows = (rows.filter p).getLast? := by
  unfold findLatest
  generalize rows.filter p = found at h
  induction found using List.reverseRecOn with
  | nil => rfl
  | append_singleton init last ih =>
    obtain ⟨hinit, -, hlast⟩ := List.pairwise_append.1 h
    rw [List.foldl_append, ih hinit, List.getLast?_concat, List.foldl_cons, List.foldl_nil]
    cases hbest : init.getLast? with
    | none => rfl
    | some best =>
      exact if_pos (hlast best (List.mem_of_getLast? hbest) last (List.mem_singleton_self last))

theorem findLatest_mem {time : α → Time} {row : α} (h : findLatest time p rows = some row) :
    row ∈ rows.filter p := by
  unfold findLatest at h
  generalize rows.filter p = found at h
  induction found using List.reverseRecOn with
  | nil => cases h
  | append_singleton init last ih =>
    rw [List.foldl_append, List.foldl_cons, List.foldl_nil] at h
    rw [List.mem_append, List.mem_singleton]
    split at h
    · exact .inr (Option.some.inj h).symm
    · next hbest =>
      split at h
      · exact .inr (Option.some.inj h).symm
      · exact .inl (ih (hbest.trans h))

variable {id : α → Nat}

variable {f : α → α}

/-- A row that no longer matches is gone from the matching ones. -/
theorem filter_map_close {i : Nat} (h : ∀ r ∈ rows, id r = i → p (f r) = false) :
    (rows.map fun r => if id r = i then f r else r).filter p =
      (rows.filter p).filter fun r => id r ≠ i := by
  have hrows : rows.filter (p ∘ fun r => if id r = i then f r else r) =
      (rows.filter p).filter fun r => id r ≠ i := by
    rw [List.filter_filter]
    refine List.filter_congr fun r hr => ?_
    by_cases hid : id r = i
    · simp [hid, h r hr hid]
    · simp [hid]
  rw [List.filter_map, hrows]
  refine (List.map_congr_left fun r hr => if_neg ?_).trans (List.map_id _)
  simpa using (List.mem_filter.1 hr).2

/-- Closing the last of the matching rows leaves the others. -/
theorem filter_map_close_last {last : α} (hids : (rows.map id).Nodup)
    (hlast : last ∈ (rows.filter p).getLast?) (h : ∀ r ∈ rows, id r = id last → p (f r) = false) :
    (rows.map fun r => if id r = id last then f r else r).filter p = (rows.filter p).dropLast := by
  rw [filter_map_close h]
  have hnodup : ((rows.filter p).map id).Nodup := hids.sublist (List.filter_sublist.map id)
  obtain ⟨init, hinit⟩ := List.getLast?_eq_some_iff.1 hlast
  rw [hinit] at hnodup ⊢
  rw [List.map_append, List.nodup_append] at hnodup
  have hkeep : ∀ r ∈ init, id r ≠ id last := by
    intro r hr
    exact hnodup.2.2 _ (List.mem_map_of_mem hr) _ (List.mem_singleton_self _)
  rw [List.filter_append, List.filter_eq_self.2 (by simpa using hkeep), List.dropLast_concat]
  simp

/-- Where neither the old row nor the new one matches, the matching ones stay. -/
theorem filter_map_other {i : Nat} (h : ∀ r ∈ rows, id r = i → p r = false ∧ p (f r) = false) :
    (rows.map fun r => if id r = i then f r else r).filter p = rows.filter p := by
  rw [filter_map_close fun r hr hid => (h r hr hid).2]
  refine List.filter_eq_self.2 ?_
  intro r hr
  obtain ⟨hmem, hp⟩ := List.mem_filter.1 hr
  refine decide_eq_true ?_
  intro hid
  rw [(h r hmem hid).1] at hp
  cases hp

theorem map_ids_update {i : Nat} (h : ∀ r, id (f r) = id r) :
    (rows.map fun r => if id r = i then f r else r).map id = rows.map id := by
  rw [List.map_map]
  refine List.map_congr_left fun r _ => ?_
  dsimp only [Function.comp_apply]
  split
  · exact h r
  · rfl

theorem eq_of_same_id (hids : (rows.map id).Nodup) {a b : α} (ha : a ∈ rows) (hb : b ∈ rows)
    (h : id a = id b) : a = b :=
  List.inj_on_of_nodup_map hids ha hb h

theorem mem_getLast?_of_not_mem {a : α} {l : List α} (h : a ∈ l) (hnot : a ∉ l.dropLast) :
    a ∈ l.getLast? := by
  obtain rfl | ⟨init, last, rfl⟩ := List.eq_nil_or_concat' l
  · cases h
  · rw [List.dropLast_concat] at hnot
    rw [List.mem_append, List.mem_singleton] at h
    rw [List.getLast?_concat, h.resolve_left hnot]
    rfl

theorem forall₂_dropLast {R : α → β → Prop} {l : List α} {l' : List β} (h : List.Forall₂ R l l') :
    List.Forall₂ R l.dropLast l'.dropLast := by
  rw [List.dropLast_eq_take, List.dropLast_eq_take, h.length_eq]
  exact List.forall₂_take _ h

theorem forall₂_exists_right {R : α → β → Prop} {l : List α} {l' : List β}
    (h : List.Forall₂ R l l') : ∀ a ∈ l, ∃ b ∈ l', R a b := by
  induction h with
  | nil => exact nofun
  | cons hR _ ih =>
    intro a ha
    rcases List.mem_cons.1 ha with rfl | ha
    · exact ⟨_, List.mem_cons_self, hR⟩
    · obtain ⟨b, hb, hRb⟩ := ih a ha
      exact ⟨b, List.mem_cons_of_mem _ hb, hRb⟩

theorem forall₂_getLast {R : α → β → Prop} {l : List α} {l' : List β} (h : List.Forall₂ R l l')
    {a : α} (ha : a ∈ l.getLast?) : ∃ b ∈ l'.getLast?, R a b := by
  obtain ⟨init, rfl⟩ := List.getLast?_eq_some_iff.1 ha
  have hrev := List.forall₂_reverse_iff.2 h
  rw [List.reverse_append] at hrev
  obtain ⟨b, rest, hR, -, hl'⟩ := List.forall₂_cons_left_iff.1 hrev
  refine ⟨b, ?_, hR⟩
  rw [Option.mem_def, List.getLast?_eq_head?_reverse, hl']
  rfl

end Rows

/-! ## 4. The two tables stay paired -/

def World.pendingAttended (w : World) (key : CallKey) : List CallTransfer :=
  w.transfers.filter fun t => t.key = key && t.transferType = .attended &&
    (t.transferResult = none || t.transferResult = some .requested)

/-- The row and the candidate are of one request. -/
def Made (requests : List (Nat × Nat)) (t : CallTransfer) (c : TransferCandidate) : Prop :=
  (t.transferId, c.candidateId) ∈ requests ∧ t.requestedAt ≤ c.requestedAt

/-- The ids of the two tables. -/
structure Numbered (w : World) : Prop where
  transfers : (w.transfers.map (·.transferId)).Nodup
  transfersBelow : ∀ t ∈ w.transfers, t.transferId < w.transfers.length
  candidates : (w.candidates.map (·.candidateId)).Nodup
  candidatesBelow : ∀ c ∈ w.candidates, c.candidateId < w.candidates.length

/-- The pending rows of a call and its open candidates are those of the same requests, in
the order in which these were made. -/
structure Booked (s : Books) : Prop where
  numbered : Numbered s.world
  paired : ∀ key, List.Forall₂ (Made s.requests) (s.world.pendingAttended key)
    (s.world.openCandidates key)
  rowsInOrder : ∀ key, (s.world.pendingAttended key).Pairwise (·.requestedAt < ·.requestedAt)
  candidatesInOrder : ∀ key, (s.world.openCandidates key).Pairwise (·.requestedAt < ·.requestedAt)

variable {w : World} {s : Books} {key k : CallKey} {now : Time} {t : CallTransfer}
  {c : TransferCandidate} {result : TransferResult}

theorem mem_pendingAttended :
    t ∈ w.pendingAttended key ↔ t ∈ w.transfers ∧ t.key = key ∧ t.isPending = true := by
  simp only [World.pendingAttended, List.mem_filter, CallTransfer.isPending, Bool.and_eq_true,
    decide_eq_true_eq, and_assoc]

theorem mem_openCandidates :
    c ∈ w.openCandidates key ↔ c ∈ w.candidates ∧ c.key = key ∧ c.phase.isOpen = true := by
  simp only [World.openCandidates, List.mem_filter, Bool.and_eq_true, decide_eq_true_eq]

theorem getOpenCandidate_eq (h : Booked s) :
    s.world.getOpenCandidate key = (s.world.openCandidates key).getLast? :=
  findLatest_sorted (h.candidatesInOrder key)

theorem getPendingTransfer_eq
    (h : (w.pendingAttended key).Pairwise (·.requestedAt < ·.requestedAt)) :
    w.getPendingTransfer key .attended = (w.pendingAttended key).getLast? :=
  findLatest_sorted h

@[simp] theorem closeTransfer_candidates (w : World) (key : CallKey) (type : TransferType)
    (result : TransferResult) (now : Time) :
    (w.closeTransfer key type result now).candidates = w.candidates := by
  unfold World.closeTransfer
  split <;> rfl

theorem closeTransfer_ids (w : World) (key : CallKey) (type : TransferType)
    (result : TransferResult) (now : Time) :
    (w.closeTransfer key type result now).transfers.map (·.transferId) =
      w.transfers.map (·.transferId) := by
  unfold World.closeTransfer
  split
  · rfl
  · exact map_ids_update fun _ => rfl

/-- A row that is there afterwards was there before, or has got the result. -/
theorem mem_closeTransfer {type : TransferType}
    (h : t ∈ (w.closeTransfer key type result now).transfers) :
    t ∈ w.transfers ∨ t.transferResult = some result := by
  unfold World.closeTransfer at h
  split at h
  · exact .inl h
  · obtain ⟨r, hr, rfl⟩ := List.mem_map.1 h
    split
    · exact .inr rfl
    · exact .inl hr

/-- An attended result goes to the newest pending row of the call. -/
theorem pendingAttended_closeTransfer (hids : (w.transfers.map (·.transferId)).Nodup)
    (hsorted : (w.pendingAttended key).Pairwise (·.requestedAt < ·.requestedAt))
    (hresult : result ≠ .requested) :
    (w.closeTransfer key .attended result now).pendingAttended k =
      if k = key then (w.pendingAttended key).dropLast else w.pendingAttended k := by
  unfold World.closeTransfer
  rw [getPendingTransfer_eq hsorted]
  cases hlast : (w.pendingAttended key).getLast? with
  | none =>
    have hnil : w.pendingAttended key = [] := List.getLast?_eq_none_iff.1 hlast
    dsimp only
    split
    · next hk => rw [hk, hnil]; rfl
    · rfl
  | some pending =>
    obtain ⟨hmem, hkey, -⟩ := mem_pendingAttended.1 (List.mem_of_getLast? hlast)
    dsimp only
    split
    · next hk =>
      subst hk
      refine filter_map_close_last hids hlast ?_
      intro r _ _
      cases result <;> simp_all
    · next hk =>
      refine filter_map_other ?_
      intro r hr hid
      obtain rfl := eq_of_same_id hids hr hmem hid
      have hother : r.key ≠ k := fun h => hk (h.symm.trans hkey)
      simp [hother]

/-- A blind result goes to no attended row. -/
theorem pendingAttended_closeTransfer_blind (hids : (w.transfers.map (·.transferId)).Nodup) :
    (w.closeTransfer key .blind result now).pendingAttended k = w.pendingAttended k := by
  unfold World.closeTransfer
  split
  · rfl
  · next pending hpending =>
    have hmatch := findLatest_mem hpending
    rw [List.mem_filter] at hmatch
    have hblind : pending.transferType = .blind := by
      have := hmatch.2
      simp only [Bool.and_eq_true, decide_eq_true_eq] at this
      exact this.1.2
    refine filter_map_other ?_
    intro r hr hid
    obtain rfl := eq_of_same_id hids hr hmatch.1 hid
    simp [hblind]

/-- The newest open candidate of the call is closed. -/
theorem openCandidates_update {f : TransferCandidate → TransferCandidate}
    (hids : (w.candidates.map (·.candidateId)).Nodup)
    (hc : c ∈ (w.openCandidates key).getLast?) (hclosed : ∀ c, (f c).phase.isOpen = false) :
    (w.updateCandidate c.candidateId f).openCandidates k =
      if k = key then (w.openCandidates key).dropLast else w.openCandidates k := by
  obtain ⟨hmem, hkey, -⟩ := mem_openCandidates.1 (List.mem_of_getLast? hc)
  split
  · next hk =>
    subst hk
    exact filter_map_close_last hids hc fun r _ _ => by simp [hclosed]
  · next hk =>
    refine filter_map_other ?_
    intro r hr hid
    obtain rfl := eq_of_same_id hids hr hmem hid
    have hother : r.key ≠ k := fun h => hk (h.symm.trans hkey)
    simp [hother, hclosed]

/-! ## 5. What each step does -/

theorem closingPhase_closed (result : TransferResult) : (closingPhase result).isOpen = false := by
  cases result <;> rfl

/-- Which rows a step has closed, and with whom. -/
theorem closedTogether_of {s' : Books} (result : TransferResult) (h : Numbered s.world) (h' : Numbered s'.world)
    (hrows : ∀ t ∈ s'.world.transfers, t ∈ s.world.transfers ∨
      s.world.transfers.length ≤ t.transferId ∨ t.transferResult = some result)
    (hgone : ∀ t ∈ s.world.transfers, t.isPending = true → t ∉ s'.world.transfers →
      (∃ c ∈ s.world.candidates, ∃ c' ∈ s'.world.candidates,
        (t.transferId, c.candidateId) ∈ s.requests ∧ c.phase.isOpen = true ∧
          c'.candidateId = c.candidateId ∧ c'.phase = closingPhase result) ∧
      (result = .expired → t.requestedAt < now - 15 * 60000)) :
    ClosedTogether s s' now := by
  intro t ht hpending t' ht' hid result' hclosing hresult
  have hdone : t'.isPending = false := by
    rw [CallTransfer.isPending, hresult]
    revert hclosing
    cases result' <;> simp
  have hne : t' ≠ t := by
    rintro rfl
    rw [hpending] at hdone
    cases hdone
  rcases hrows t' ht' with hold | hnew | hset
  · exact absurd (eq_of_same_id h.transfers hold ht hid) hne
  · have hbelow := h.transfersBelow t ht
    omega
  · obtain rfl : result = result' := Option.some.inj (hset.symm.trans hresult)
    refine hgone t ht hpending fun hstays => hne ?_
    exact eq_of_same_id h'.transfers ht' hstays hid

variable {w' : World}

/-- A step that only changes rows keeps their numbers. -/
theorem Numbered.of_ids (h : Numbered w)
    (htransfers : w'.transfers.map (·.transferId) = w.transfers.map (·.transferId))
    (hcandidates : w'.candidates.map (·.candidateId) = w.candidates.map (·.candidateId)) :
    Numbered w' := by
  have htl : w'.transfers.length = w.transfers.length := by
    simpa using congrArg List.length htransfers
  have hcl : w'.candidates.length = w.candidates.length := by
    simpa using congrArg List.length hcandidates
  refine ⟨htransfers ▸ h.transfers, ?_, hcandidates ▸ h.candidates, ?_⟩
  · intro t ht
    obtain ⟨r, hr, hid⟩ := List.mem_map.1 (htransfers ▸ List.mem_map_of_mem ht :
      t.transferId ∈ w.transfers.map (·.transferId))
    rw [htl, ← hid]
    exact h.transfersBelow r hr
  · intro c hc
    obtain ⟨r, hr, hid⟩ := List.mem_map.1 (hcandidates ▸ List.mem_map_of_mem hc :
      c.candidateId ∈ w.candidates.map (·.candidateId))
    rw [hcl, ← hid]
    exact h.candidatesBelow r hr

/-- The newest pending row and the newest open candidate are closed together. -/
theorem Booked.close {f : TransferCandidate → TransferCandidate} (h : Booked s)
    (hc : c ∈ (s.world.openCandidates key).getLast?) (hid : ∀ c, (f c).candidateId = c.candidateId)
    (hphase : ∀ c, (f c).phase = closingPhase result) (hresult : result ≠ .requested)
    (hexpired : result ≠ .expired)
    (htransfers : w'.transfers = (s.world.closeTransfer key .attended result now).transfers)
    (hcandidates : w'.candidates = (s.world.updateCandidate c.candidateId f).candidates) :
    Booked ⟨w', s.requests⟩ ∧ ClosedTogether s ⟨w', s.requests⟩ now := by
  have hrows : ∀ k, w'.pendingAttended k =
      if k = key then (s.world.pendingAttended key).dropLast else s.world.pendingAttended k := by
    intro k
    rw [← pendingAttended_closeTransfer h.numbered.transfers (h.rowsInOrder key) hresult,
      World.pendingAttended, htransfers]
    rfl
  have hopen : ∀ k, w'.openCandidates k =
      if k = key then (s.world.openCandidates key).dropLast else s.world.openCandidates k := by
    intro k
    rw [← openCandidates_update h.numbered.candidates hc fun c =>
      (congrArg _ (hphase c)).trans (closingPhase_closed result), World.openCandidates, hcandidates]
    rfl
  have hnumbered : Numbered w' := by
    refine h.numbered.of_ids ?_ ?_
    · rw [htransfers, closeTransfer_ids]
    · rw [hcandidates]
      exact map_ids_update hid
  refine ⟨⟨hnumbered, ?_, ?_, ?_⟩, closedTogether_of result h.numbered hnumbered ?_ ?_⟩
  · intro k
    rw [hrows, hopen]
    split
    · exact forall₂_dropLast (h.paired key)
    · exact h.paired k
  · intro k
    rw [hrows]
    split
    · exact (h.rowsInOrder key).sublist (List.dropLast_sublist _)
    · exact h.rowsInOrder k
  · intro k
    rw [hopen]
    split
    · exact (h.candidatesInOrder key).sublist (List.dropLast_sublist _)
    · exact h.candidatesInOrder k
  · intro t ht
    rw [htransfers] at ht
    exact (mem_closeTransfer ht).imp id .inr
  · intro t ht hpending hgone
    -- only the newest pending row of the call is gone
    have hnot : t ∉ w'.pendingAttended t.key := fun hstays => hgone (mem_pendingAttended.1 hstays).1
    have hmem := mem_pendingAttended.2 ⟨ht, rfl, hpending⟩
    rw [hrows] at hnot
    split at hnot
    · next hk =>
      rw [hk] at hmem
      obtain ⟨c₁, hc₁, hmade⟩ := forall₂_getLast (h.paired key) (mem_getLast?_of_not_mem hmem hnot)
      obtain rfl : c = c₁ := Option.some.inj (hc.symm.trans hc₁)
      obtain ⟨hcm, -, hcopen⟩ := mem_openCandidates.1 (List.mem_of_getLast? hc)
      refine ⟨⟨c, hcm, f c, ?_, hmade.1, hcopen, hid c, hphase c⟩, fun h => absurd h hexpired⟩
      rw [hcandidates]
      exact List.mem_map.2 ⟨c, hcm, if_pos rfl⟩
    · exact absurd hmem hnot

theorem nodup_ids_concat {α : Type} {id : α → Nat} {rows : List α} {r : α}
    (h : (rows.map id).Nodup) (hbelow : ∀ r ∈ rows, id r < rows.length) (hr : id r = rows.length) :
    ((rows ++ [r]).map id).Nodup ∧ ∀ x ∈ rows ++ [r], id x < (rows ++ [r]).length := by
  refine ⟨?_, ?_⟩
  · rw [List.map_append, List.map_singleton, List.nodup_append]
    refine ⟨h, List.nodup_singleton _, ?_⟩
    intro i hi j hj
    obtain ⟨x, hx, rfl⟩ := List.mem_map.1 hi
    obtain rfl := List.mem_singleton.1 hj
    exact Nat.ne_of_lt (hr ▸ hbelow x hx)
  · intro x hx
    rw [List.length_append, List.length_singleton]
    rcases List.mem_append.1 hx with hx | hx
    · exact Nat.lt_succ_of_lt (hbelow x hx)
    · obtain rfl := List.mem_singleton.1 hx
      exact hr ▸ Nat.lt_succ_self _

theorem Numbered.addTransfer (h : Numbered w) (ht : t.transferId = w.transfers.length) :
    Numbered (w.addTransfer t) := by
  obtain ⟨hids, hbelow⟩ := nodup_ids_concat h.transfers h.transfersBelow ht
  exact ⟨hids, hbelow, h.candidates, h.candidatesBelow⟩

theorem Numbered.addCandidate (h : Numbered w) (hc : c.candidateId = w.candidates.length) :
    Numbered (w.addCandidate c) := by
  obtain ⟨hids, hbelow⟩ := nodup_ids_concat h.candidates h.candidatesBelow hc
  exact ⟨h.transfers, h.transfersBelow, hids, hbelow⟩

/-- A step that writes no attended row and at most adds a closed candidate. -/
theorem Booked.aside (result : TransferResult) (h : Booked s) (hnumbered : Numbered w')
    (hrows : ∀ k, w'.pendingAttended k = s.world.pendingAttended k)
    (hopen : ∀ k, w'.openCandidates k = s.world.openCandidates k)
    (hmem : ∀ t ∈ w'.transfers, t ∈ s.world.transfers ∨ s.world.transfers.length ≤ t.transferId ∨
      t.transferResult = some result) :
    Booked ⟨w', s.requests⟩ ∧ ClosedTogether s ⟨w', s.requests⟩ now := by
  refine ⟨⟨hnumbered, ?_, ?_, ?_⟩, closedTogether_of result h.numbered hnumbered hmem ?_⟩
  · intro k
    rw [hrows, hopen]
    exact h.paired k
  · intro k
    rw [hrows]
    exact h.rowsInOrder k
  · intro k
    rw [hopen]
    exact h.candidatesInOrder k
  · intro t ht hpending hgone
    have hstays := mem_pendingAttended.2 ⟨ht, rfl, hpending⟩
    rw [← hrows] at hstays
    exact absurd (mem_pendingAttended.1 hstays).1 hgone

/-- Nothing but sessions is written. -/
theorem Booked.same (h : Booked s) (htransfers : w'.transfers = s.world.transfers)
    (hcandidates : w'.candidates = s.world.candidates) :
    Booked ⟨w', s.requests⟩ ∧ ClosedTogether s ⟨w', s.requests⟩ now := by
  refine h.aside .requested (h.numbered.of_ids ?_ ?_) ?_ ?_ ?_
  · rw [htransfers]
  · rw [hcandidates]
  · intro k
    rw [World.pendingAttended, htransfers]
    rfl
  · intro k
    rw [World.openCandidates, hcandidates]
    rfl
  · intro t ht
    exact .inl (htransfers ▸ ht)

theorem openCandidates_addCandidate_closed (hc : c.phase.isOpen = false) :
    (w.addCandidate c).openCandidates k = w.openCandidates k := by
  rw [World.openCandidates, World.addCandidate, List.filter_append]
  simp [hc, World.openCandidates]

theorem closeTransfer_transfers_congr {type : TransferType} (h : w'.transfers = w.transfers) :
    (w'.closeTransfer key type result now).transfers =
      (w.closeTransfer key type result now).transfers := by
  unfold World.closeTransfer World.getPendingTransfer World.updateTransfer
  rw [h]
  split
  · exact h
  · rfl

/-! ### A transfer that was detected -/

theorem Booked.attended {event : AmiEvent} (h : Booked s) :
    Booked ⟨completeTransfer s.world event key .attended now, s.requests⟩ ∧
      ClosedTogether s ⟨completeTransfer s.world event key .attended now, s.requests⟩ now := by
  unfold completeTransfer
  rw [getOpenCandidate_eq h]
  cases hlast : (s.world.openCandidates key).getLast? with
  | some c =>
    dsimp only
    refine h.close hlast ?_ ?_ (by decide) (by decide) (closeTransfer_transfers_congr rfl)
      (closeTransfer_candidates _ _ _ _ _)
    · exact fun _ => rfl
    · exact fun _ => rfl
  | none =>
    -- no candidate is open, so no attended row is pending
    have hopen : s.world.openCandidates key = [] := List.getLast?_eq_none_iff.1 hlast
    have hnone : s.world.pendingAttended key = [] := by
      have hpaired := h.paired key
      rwa [hopen, List.forall₂_nil_right_iff] at hpaired
    dsimp only
    have hnothing : ∀ c, (s.world.addCandidate c).closeTransfer key .attended .completed now =
        s.world.addCandidate c := by
      intro c
      have hpending : (s.world.addCandidate c).getPendingTransfer key .attended = none := by
        have heq := getPendingTransfer_eq (h.rowsInOrder key)
        rw [hnone] at heq
        exact heq
      rw [World.closeTransfer, hpending]
    rw [hnothing]
    exact h.aside .completed (h.numbered.addCandidate rfl) (fun _ => rfl)
      (fun _ => openCandidates_addCandidate_closed rfl) fun _ ht => .inl ht

theorem Booked.blind {event : AmiEvent} (h : Booked s) (hopen : s.world.openCandidates key = []) :
    Booked ⟨completeTransfer s.world event key .blind now, s.requests⟩ ∧
      ClosedTogether s ⟨completeTransfer s.world event key .blind now, s.requests⟩ now ∧
      LeavesCandidates s ⟨completeTransfer s.world event key .blind now, s.requests⟩ := by
  unfold completeTransfer
  rw [getOpenCandidate_eq h, hopen]
  dsimp only [List.getLast?_nil]
  rw [← and_assoc]
  refine ⟨h.aside .completed ?_ ?_ ?_ ?_, ?_⟩
  · refine (h.numbered.addCandidate ?_).of_ids (closeTransfer_ids _ _ _ _ _) ?_
    · rfl
    · rw [closeTransfer_candidates]
  · intro k
    refine (pendingAttended_closeTransfer_blind ?_).trans rfl
    exact h.numbered.transfers
  · intro k
    rw [World.openCandidates, closeTransfer_candidates]
    exact openCandidates_addCandidate_closed rfl
  · intro t ht
    exact (mem_closeTransfer ht).imp id .inr
  · intro c hc hcopen
    refine ⟨c, ?_, rfl, hcopen⟩
    rw [closeTransfer_candidates]
    exact List.mem_append_left _ hc

/-! ### Requests and cancellations -/

theorem Booked.cancel {allowed : Bool} (h : Booked s) :
    Booked ⟨cancelAttendedTransfer s.world key allowed now, s.requests⟩ ∧
      ClosedTogether s ⟨cancelAttendedTransfer s.world key allowed now, s.requests⟩ now := by
  unfold cancelAttendedTransfer
  split
  · next call c leg _ hc _ =>
    rw [getOpenCandidate_eq h] at hc
    split
    · refine h.close hc ?_ ?_ (by decide) (by decide) (closeTransfer_transfers_congr rfl)
        (closeTransfer_candidates _ _ _ _ _)
      · exact fun _ => rfl
      · exact fun _ => rfl
    · exact h.same rfl rfl
  · exact h.same rfl rfl

theorem pendingAttended_addTransfer (hpending : t.isPending = true) :
    (w.addTransfer t).pendingAttended k =
      if k = t.key then w.pendingAttended k ++ [t] else w.pendingAttended k := by
  rw [World.pendingAttended, World.addTransfer, List.filter_append]
  have hsingle : [t].filter (fun t => t.key = k && t.transferType = .attended &&
      (t.transferResult = none || t.transferResult = some .requested)) =
      if k = t.key then [t] else [] := by
    rw [List.filter_singleton]
    rw [CallTransfer.isPending] at hpending
    rw [Bool.and_assoc, hpending, Bool.and_true]
    simp [eq_comm]
  rw [hsingle]
  split
  · rfl
  · exact List.append_nil _

theorem pendingAttended_addTransfer_blind (hblind : t.transferType = .blind) :
    (w.addTransfer t).pendingAttended k = w.pendingAttended k := by
  rw [World.pendingAttended, World.addTransfer, List.filter_append]
  simp [hblind, World.pendingAttended]

theorem openCandidates_addCandidate (hopen : c.phase.isOpen = true) :
    (w.addCandidate c).openCandidates k =
      if k = c.key then w.openCandidates k ++ [c] else w.openCandidates k := by
  rw [World.openCandidates, World.addCandidate, List.filter_append]
  have hsingle : [c].filter (fun c => c.key = k && c.phase.isOpen) = if k = c.key then [c] else [] := by
    rw [List.filter_singleton, hopen, Bool.and_true]
    simp [eq_comm]
  rw [hsingle]
  split
  · rfl
  · exact List.append_nil _

theorem pairwise_concat {α : Type} {R : α → α → Prop} {l : List α} {a : α} (h : l.Pairwise R)
    (ha : ∀ b ∈ l, R b a) : (l ++ [a]).Pairwise R := by
  rw [List.pairwise_append]
  refine ⟨h, List.pairwise_singleton R a, ?_⟩
  intro b hb a' ha'
  rw [List.mem_singleton.1 ha']
  exact ha b hb

/-- An attended request appends a pair. -/
theorem Booked.request (h : Booked s) (hpending : t.isPending = true)
    (hid : t.transferId = s.world.transfers.length) (hopen : c.phase.isOpen = true)
    (hcid : c.candidateId = s.world.candidates.length) (hkey : c.key = t.key)
    (htime : t.requestedAt ≤ c.requestedAt)
    (hlater : ∀ b ∈ s.world.openCandidates t.key, b.requestedAt < t.requestedAt)
    (htransfers : w'.transfers = s.world.transfers ++ [t])
    (hcandidates : w'.candidates = s.world.candidates ++ [c]) :
    Booked ⟨w', s.requests ++ [(s.world.transfers.length, s.world.candidates.length)]⟩ ∧
      ClosedTogether s
        ⟨w', s.requests ++ [(s.world.transfers.length, s.world.candidates.length)]⟩ now := by
  have hrows : ∀ k, w'.pendingAttended k =
      if k = t.key then s.world.pendingAttended k ++ [t] else s.world.pendingAttended k := by
    intro k
    rw [← pendingAttended_addTransfer hpending, World.pendingAttended, htransfers]
    rfl
  have hcands : ∀ k, w'.openCandidates k =
      if k = t.key then s.world.openCandidates k ++ [c] else s.world.openCandidates k := by
    intro k
    rw [← hkey, ← openCandidates_addCandidate hopen, World.openCandidates, hcandidates]
    rfl
  have hnumbered : Numbered w' := by
    have hboth := (h.numbered.addTransfer hid).addCandidate (c := c) hcid
    refine ⟨?_, ?_, ?_, ?_⟩
    · rw [htransfers]; exact hboth.transfers
    · rw [htransfers]; exact hboth.transfersBelow
    · rw [hcandidates]; exact hboth.candidates
    · rw [hcandidates]; exact hboth.candidatesBelow
  have hmono : ∀ k, List.Forall₂
      (Made (s.requests ++ [(s.world.transfers.length, s.world.candidates.length)]))
      (s.world.pendingAttended k) (s.world.openCandidates k) := fun k =>
    (h.paired k).imp fun _ _ hmade => ⟨List.mem_append_left _ hmade.1, hmade.2⟩
  refine ⟨⟨hnumbered, ?_, ?_, ?_⟩, closedTogether_of .requested h.numbered hnumbered ?_ ?_⟩
  · intro k
    rw [hrows, hcands]
    split
    · refine List.rel_append (hmono k) (.cons ⟨?_, htime⟩ .nil)
      rw [hid, hcid]
      exact List.mem_append_right _ (List.mem_singleton_self _)
    · exact hmono k
  · intro k
    rw [hrows]
    split
    · next hk =>
      subst hk
      refine pairwise_concat (h.rowsInOrder _) ?_
      intro b hb
      obtain ⟨d, hd, hmade⟩ := forall₂_exists_right (h.paired _) b hb
      exact lt_of_le_of_lt hmade.2 (hlater d hd)
    · exact h.rowsInOrder k
  · intro k
    rw [hcands]
    split
    · next hk =>
      subst hk
      exact pairwise_concat (h.candidatesInOrder _) fun b hb => lt_of_lt_of_le (hlater b hb) htime
    · exact h.candidatesInOrder k
  · intro t' ht'
    rw [htransfers, List.mem_append, List.mem_singleton] at ht'
    rcases ht' with hold | rfl
    · exact .inl hold
    · exact .inr (.inl (Nat.le_of_eq hid.symm))
  · intro t' ht' _ hgone
    rw [htransfers] at hgone
    exact absurd (List.mem_append_left _ ht') hgone

theorem Booked.transfer {dto : TransferDto} {allowed : Bool} {requestedAt : Time} {took : Nat}
    (h : Booked s) (horderly : Orderly s (.transfer key dto allowed requestedAt took)) :
    Booked (s.step (.transfer key dto allowed requestedAt took)) ∧
      ClosedTogether s (s.step (.transfer key dto allowed requestedAt took)) requestedAt := by
  have hkept : ∀ w' : World, w'.candidates = s.world.candidates → s.linkNew w' = s.requests := by
    intro w' hcandidates
    exact if_neg (by rw [hcandidates]; exact Nat.ne_of_lt (Nat.lt_succ_self _))
  have hlinked : ∀ w' : World, w'.candidates.length = s.world.candidates.length + 1 →
      s.linkNew w' = s.requests ++ [(s.world.transfers.length, s.world.candidates.length)] :=
    fun _ hlength => if_pos hlength
  simp only [Books.step, Calls.transfer]
  split
  · next call leg _ _ =>
    split
    · cases htype : dto.transferType with
      | attended =>
        rw [if_pos rfl, hlinked]
        · refine h.request (t := _) (c := _) rfl rfl rfl rfl rfl ?_ (horderly htype) rfl rfl
          exact Int.le_add_of_nonneg_right (Int.natCast_nonneg took)
        · exact List.length_append
      | blind =>
        rw [if_neg (by decide), hkept]
        · refine h.aside .requested ((h.numbered.addTransfer ?_).of_ids rfl rfl) ?_ (fun _ => rfl) ?_
          · rfl
          · intro k
            exact pendingAttended_addTransfer_blind rfl
          · intro t ht
            rcases List.mem_append.1 ht with hold | hnew
            · exact .inl hold
            · rw [List.mem_singleton.1 hnew]
              exact .inr (.inl (Nat.le_refl _))
        · rfl
    · rw [hkept s.world rfl]
      exact h.same rfl rfl
  · rw [hkept s.world rfl]
    exact h.same rfl rfl

/-! ### The sweep -/

@[simp] theorem restore_transfers (w : World) (key : CallKey) (now : Time) :
    (restoreCallSessionAfterTransferFallback w key now).transfers = w.transfers := by
  unfold restoreCallSessionAfterTransferFallback
  split <;> rfl

@[simp] theorem restore_candidates (w : World) (key : CallKey) (now : Time) :
    (restoreCallSessionAfterTransferFallback w key now).candidates = w.candidates := by
  unfold restoreCallSessionAfterTransferFallback
  split <;> rfl

theorem pendingAttended_expireCandidate (hids : (w.transfers.map (·.transferId)).Nodup)
    (hsorted : ∀ key, (w.pendingAttended key).Pairwise (·.requestedAt < ·.requestedAt)) :
    (expireCandidate now w c).pendingAttended k =
      if k = c.key then (w.pendingAttended c.key).dropLast else w.pendingAttended k := by
  rw [← pendingAttended_closeTransfer hids (hsorted c.key) (by decide : TransferResult.expired ≠ _),
    World.pendingAttended, expireCandidate, restore_transfers]
  rfl

/-- Every expired candidate of a call costs its newest pending row. -/
theorem foldl_expireCandidate (expired : List TransferCandidate)
    (hids : (w.transfers.map (·.transferId)).Nodup)
    (hsorted : ∀ key, (w.pendingAttended key).Pairwise (·.requestedAt < ·.requestedAt)) :
    (expired.foldl (expireCandidate now) w).transfers.map (·.transferId) =
        w.transfers.map (·.transferId) ∧
      (expired.foldl (expireCandidate now) w).candidates = w.candidates ∧
      (∀ t ∈ (expired.foldl (expireCandidate now) w).transfers,
        t ∈ w.transfers ∨ t.transferResult = some .expired) ∧
      ∀ k, (expired.foldl (expireCandidate now) w).pendingAttended k =
        (w.pendingAttended k).take
          ((w.pendingAttended k).length - (expired.filter (·.key = k)).length) := by
  induction expired generalizing w with
  | nil =>
    refine ⟨rfl, rfl, fun t ht => .inl ht, fun k => ?_⟩
    rw [List.filter_nil, List.length_nil, Nat.sub_zero, List.take_length]
    rfl
  | cons c expired ih =>
    have hids₁ : (expireCandidate now w c).transfers.map (·.transferId) =
        w.transfers.map (·.transferId) := by
      rw [expireCandidate, restore_transfers, closeTransfer_ids]
    have hsorted₁ : ∀ key, ((expireCandidate now w c).pendingAttended key).Pairwise
        (·.requestedAt < ·.requestedAt) := by
      intro key
      rw [pendingAttended_expireCandidate hids hsorted]
      split
      · exact (hsorted c.key).sublist (List.dropLast_sublist _)
      · exact hsorted key
    obtain ⟨hids₂, hcands₂, hrows₂, hpending₂⟩ := ih (hids₁ ▸ hids) hsorted₁
    rw [List.foldl_cons]
    refine ⟨hids₂.trans hids₁, hcands₂.trans ?_, ?_, ?_⟩
    · rw [expireCandidate, restore_candidates, closeTransfer_candidates]
    · intro t ht
      rcases hrows₂ t ht with hold | hset
      · rw [expireCandidate, restore_transfers] at hold
        exact mem_closeTransfer hold
      · exact .inr hset
    · intro k
      rw [hpending₂, pendingAttended_expireCandidate hids hsorted]
      by_cases hk : k = c.key
      · subst hk
        rw [if_pos rfl, List.filter_cons_of_pos (by simp), List.length_cons, List.length_dropLast,
          List.dropLast_eq_take, List.take_take, Nat.sub_sub, Nat.add_comm 1,
          Nat.min_eq_left (Nat.sub_le_sub_left (Nat.le_add_left 1 _) _)]
      · rw [if_neg hk, List.filter_cons_of_neg (by simpa using Ne.symm hk)]

/-- The overdue candidates of a call. -/
theorem expiredCandidates_filter (w : World) (now : Time) (k : CallKey) :
    (w.expiredCandidates now 15).filter (·.key = k) =
      (w.openCandidates k).filter (·.requestedAt < now - 15 * 60000) := by
  rw [World.expiredCandidates, World.openCandidates, List.filter_filter, List.filter_filter]
  refine List.filter_congr fun c _ => ?_
  simp only [Nat.cast_ofNat, Bool.and_comm, Bool.and_left_comm]

theorem openCandidates_expirePhases (h : (w.candidates.map (·.candidateId)).Nodup) :
    (w.expirePhases ((w.expiredCandidates now 15).map (·.candidateId)) now).openCandidates k =
      (w.openCandidates k).filter (¬ ·.requestedAt < now - 15 * 60000) := by
  have hoverdue : ∀ c ∈ w.candidates, c.phase.isOpen = true →
      (c.candidateId ∈ (w.expiredCandidates now 15).map (·.candidateId) ↔
        c.requestedAt < now - 15 * 60000) := by
    intro c hc hopen
    constructor
    · intro hid
      obtain ⟨d, hd, hsame⟩ := List.mem_map.1 hid
      obtain ⟨hdmem, hdue⟩ := List.mem_filter.1 hd
      obtain rfl := eq_of_same_id h hdmem hc hsame
      simpa [hopen] using hdue
    · intro hdue
      exact List.mem_map.2 ⟨c, List.mem_filter.2 ⟨hc, by simpa [hopen] using hdue⟩, rfl⟩
  generalize (w.expiredCandidates now 15).map (·.candidateId) = ids at hoverdue
  rw [World.openCandidates, World.openCandidates, World.expirePhases, List.filter_filter]
  dsimp only
  generalize w.candidates = rows at hoverdue
  generalize now - 15 * 60000 = cutoff at hoverdue
  have hexpired : TransferPhase.expired.isOpen = false := rfl
  clear h
  induction rows with
  | nil => rfl
  | cons c rest ih =>
    obtain ⟨hhead, htail⟩ := List.forall_mem_cons.1 hoverdue
    rw [List.map_cons, List.filter_cons, List.filter_cons, ih htail]
    cases hopen : c.phase.isOpen with
    | false => split <;> simp [hopen, hexpired]
    | true =>
      by_cases hdue : c.requestedAt < cutoff
      · rw [if_pos ((hhead hopen).2 hdue)]
        simp [hdue, hexpired]
      · rw [if_neg (mt (hhead hopen).1 hdue)]
        simp [hdue, hopen]

/-- A sweep takes all pending rows of a call, or none. -/
theorem Booked.sweep (h : Booked s) (horderly : Orderly s (.sweep now)) :
    Booked (s.step (.sweep now)) ∧ ClosedTogether s (s.step (.sweep now)) now := by
  have hphaseRows : ∀ k, (s.world.expirePhases
      ((s.world.expiredCandidates now 15).map (·.candidateId)) now).pendingAttended k =
      s.world.pendingAttended k := fun _ => rfl
  obtain ⟨hids, hcands, hmem, hpending⟩ := @foldl_expireCandidate (s.world.expirePhases
    ((s.world.expiredCandidates now 15).map (·.candidateId)) now) now
    (s.world.expiredCandidates now 15) h.numbered.transfers h.rowsInOrder
  have hstep : s.step (.sweep now) = ⟨(s.world.expiredCandidates now 15).foldl (expireCandidate now)
    (s.world.expirePhases ((s.world.expiredCandidates now 15).map (·.candidateId)) now),
    s.requests⟩ := rfl
  rw [hstep]
  generalize hw' : (s.world.expiredCandidates now 15).foldl (expireCandidate now)
    (s.world.expirePhases ((s.world.expiredCandidates now 15).map (·.candidateId)) now) = w'
    at hids hcands hmem hpending
  have hopen : ∀ k, w'.openCandidates k =
      (s.world.openCandidates k).filter (¬ ·.requestedAt < now - 15 * 60000) := by
    intro k
    rw [← openCandidates_expirePhases h.numbered.candidates, World.openCandidates, hcands]
    rfl
  have hnumbered : Numbered w' := by
    refine h.numbered.of_ids hids ?_
    rw [hcands, World.expirePhases, List.map_map]
    refine List.map_congr_left fun c _ => ?_
    dsimp only [Function.comp_apply]
    split <;> rfl
  -- all or none, for each call
  have hall : ∀ k, (w'.pendingAttended k = [] ∧ w'.openCandidates k = [] ∧
      ∀ c ∈ s.world.openCandidates k, c.requestedAt < now - 15 * 60000) ∨
      (w'.pendingAttended k = s.world.pendingAttended k ∧
        w'.openCandidates k = s.world.openCandidates k) := by
    intro k
    rw [hpending, hopen, hphaseRows, expiredCandidates_filter]
    by_cases hdue : ∃ c ∈ s.world.openCandidates k, c.requestedAt < now - 15 * 60000
    · have hevery := horderly k hdue
      refine .inl ⟨?_, ?_, hevery⟩
      · rw [List.filter_eq_self.2 (by simpa using hevery), (h.paired k).length_eq, Nat.sub_self,
          List.take_zero]
      · refine List.filter_eq_nil_iff.2 fun c hc => ?_
        rw [decide_eq_true_eq]
        exact not_not_intro (hevery c hc)
    · have hnone : ∀ c ∈ s.world.openCandidates k, ¬ c.requestedAt < now - 15 * 60000 :=
        fun c hc hlt => hdue ⟨c, hc, hlt⟩
      refine .inr ⟨?_, ?_⟩
      · rw [List.filter_eq_nil_iff.2 (by simpa using hnone), List.length_nil, Nat.sub_zero,
          List.take_length]
      · exact List.filter_eq_self.2 (by simpa using hnone)
  refine ⟨⟨hnumbered, ?_, ?_, ?_⟩, closedTogether_of .expired h.numbered hnumbered ?_ ?_⟩
  · intro k
    obtain ⟨hrows, hopen, -⟩ | ⟨hrows, hopen⟩ := hall k
    · rw [hrows, hopen]
      exact .nil
    · rw [hrows, hopen]
      exact h.paired k
  · intro k
    obtain ⟨hrows, -, -⟩ | ⟨hrows, -⟩ := hall k
    · rw [hrows]
      exact .nil
    · rw [hrows]
      exact h.rowsInOrder k
  · intro k
    obtain ⟨-, hopen, -⟩ | ⟨-, hopen⟩ := hall k
    · rw [hopen]
      exact .nil
    · rw [hopen]
      exact h.candidatesInOrder k
  · intro t ht
    exact (hmem t ht).imp id .inr
  · intro t ht hpend hgone
    have hrow := mem_pendingAttended.2 ⟨ht, rfl, hpend⟩
    obtain ⟨-, -, hevery⟩ | ⟨hrows, -⟩ := hall t.key
    · obtain ⟨c, hc, hmade⟩ := forall₂_exists_right (h.paired t.key) t hrow
      obtain ⟨hcmem, -, hcopen⟩ := mem_openCandidates.1 hc
      refine ⟨⟨c, hcmem, { c with phase := .expired, expiredAt := some now, updatedAt := now }, ?_,
        hmade.1, hcopen, rfl, rfl⟩, fun _ => lt_of_le_of_lt hmade.2 (hevery c hc)⟩
      rw [hcands]
      refine List.mem_map.2 ⟨c, hcmem, if_pos (List.mem_map.2 ⟨c, List.mem_filter.2 ⟨hcmem, ?_⟩, rfl⟩)⟩
      simpa [hcopen] using hevery c hc
    · rw [← hrows] at hrow
      exact absurd (mem_pendingAttended.1 hrow).1 hgone

/-! ## 6. Runs -/

theorem Booked.step (a : TransferAction) (h : Booked s) (horderly : Orderly s a) :
    Booked (s.step a) ∧ BooksAgree s a := by
  cases a with
  | transfer key dto allowed requestedAt took => exact h.transfer horderly
  | cancel key allowed now => exact h.cancel
  | sweep now => exact h.sweep horderly
  | detected type event now =>
    cases type with
    | attended =>
      simp only [BooksAgree, Books.step, handle, transferEventName]
      split
      · exact h.same rfl rfl
      · exact h.attended
    | blind =>
      simp only [BooksAgree, Books.step, handle, transferEventName]
      split
      · rw [← and_assoc]
        exact ⟨h.same rfl rfl, fun c hc hopen => ⟨c, hc, rfl, hopen⟩⟩
      · next key hkey => exact h.blind (horderly key hkey)

/-- From empty tables on, in a run whose steps are orderly, every step keeps the two books
in agreement. -/
theorem transfer_books_agree (w : World) (htransfers : w.transfers = [])
    (hcandidates : w.candidates = []) (actions : List TransferAction)
    (h : Along Books.step Orderly ⟨w, []⟩ actions) :
    Along Books.step BooksAgree ⟨w, []⟩ actions := by
  have hbooked : Booked ⟨w, []⟩ := by
    have hrows : ∀ key, w.pendingAttended key = [] := by
      intro key
      rw [World.pendingAttended, htransfers]
      rfl
    have hopen : ∀ key, w.openCandidates key = [] := by
      intro key
      rw [World.openCandidates, hcandidates]
      rfl
    refine ⟨⟨?_, ?_, ?_, ?_⟩, ?_, ?_, ?_⟩
    · rw [htransfers]; exact List.nodup_nil
    · rw [htransfers]; exact fun t ht => absurd ht List.not_mem_nil
    · rw [hcandidates]; exact List.nodup_nil
    · rw [hcandidates]; exact fun c hc => absurd hc List.not_mem_nil
    · intro key
      rw [hrows, hopen]
      exact .nil
    · intro key
      rw [hrows]
      exact .nil
    · intro key
      rw [hopen]
      exact .nil
  intro pre a post hsplit
  rw [hsplit] at h
  have hbefore := h.take.invariant (fun s a horderly hs => (Booked.step a hs horderly).1) hbooked
  exact (Booked.step a hbefore (h pre a post rfl)).2

/-! ## 7. A blind transfer during a consultation -/

def exTransferKey : CallKey := ⟨"t1", "100.1"⟩

/-- An agent talks to a customer. -/
def exTalking : World :=
  { World.empty with
    sessions := fun key =>
      if key = exTransferKey then
        some { direction := "inbound", sessionStatus := .talking, ani := none, aniNormalized := none,
               dnis := none, queueName := none, customerId := none, primaryAgentId := some "a1",
               transferFlag := false, startedAt := 0, queuedAt := none, ringingAt := none,
               answeredAt := some 500, endedAt := none, talkSeconds := 0, holdSeconds := 0,
               updatedAt := 500 }
      else none
    legs := [⟨exTransferKey, "100.2", "agent", "PJSIP/1001-00000001", some "1001", none, 100, none⟩] }

def exConsult : TransferAction := .transfer exTransferKey ⟨.attended, "1002", "1001"⟩ true 1000 5

def exTransferEvent : AmiEvent :=
  { eventName := .other "", tenantId := "t1", linkedid := some "100.1" }

theorem transfer_books_agree_consultation :
    Along Books.step BooksAgree ⟨exTalking, []⟩ [exConsult, .detected .attended exTransferEvent 2000] := by
  refine transfer_books_agree exTalking rfl rfl _ ?_
  refine along_cons.2 ⟨?_, along_cons.2 ⟨trivial, along_nil⟩⟩
  intro _ c hc
  cases hc

/-- The consultation is still open when a blind transfer of the call comes in. -/
theorem blind_closes_attended :
    ¬ Along Books.step BooksAgree ⟨exTalking, []⟩ [exConsult, .detected .blind exTransferEvent 2000] := by
  intro h
  have hleaves := ((along_cons.1 (along_cons.1 h).2).1).2
  have hopen : (Books.step ⟨exTalking, []⟩ exConsult).world.candidates.map
      (fun c => (c.candidateId, c.phase.isOpen)) = [(0, true)] := by
    decide
  have hclosed : ((Books.step ⟨exTalking, []⟩ exConsult).step
      (.detected .blind exTransferEvent 2000)).world.candidates.map
      (fun c => (c.candidateId, c.phase.isOpen)) = [(0, false)] := by
    decide
  have hmem : (0, true) ∈ (Books.step ⟨exTalking, []⟩ exConsult).world.candidates.map
      (fun c => (c.candidateId, c.phase.isOpen)) := by
    rw [hopen]
    exact List.mem_singleton_self _
  obtain ⟨c, hc, heq⟩ := List.mem_map.1 hmem
  obtain ⟨c', hc', -, hstays⟩ := hleaves c hc (Prod.mk.inj heq).2
  have hmem' := List.mem_map_of_mem (f := fun c => (c.candidateId, c.phase.isOpen)) hc'
  rw [hclosed, List.mem_singleton, Prod.mk.injEq, hstays] at hmem'
  cases hmem'.2

end KasterCti.Calls
