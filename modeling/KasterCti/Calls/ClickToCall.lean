import KasterCti.Calls.SessionEngine
import KasterCti.Calls.TransferCommand
import KasterCti.Library.Trace

/-!
# Click-to-call

A request of `CallsService.originate` leaves an entry with the session engine and hands an
Originate action to the PBX. A new channel on the telephone of the agent takes the oldest
entry. The entry does not say which channel it waits for, and the action may be dropped or
come to nothing.

Results:
1. `clickStep_waits`: while channels come in the order of their requests, the entries of an
   extension are the requests that still wait.
2. `channel_gets_its_request`: in a run of such steps a channel gets the entry of its own
   request, or none.
3. `dropped_request_shifts`: what follows a request that was not sent.
-/

namespace KasterCti.Calls

open Ami CallsService JsText Trace

/-- What `originate` passes on. -/
structure OriginateInput where
  tenantId : String
  agentExtension : String
  phoneNumber : String
  callerId : Option String
  customerId : Option String

/-- What is registered for a request. -/
def OriginateInput.item (input : OriginateInput) (now : Time) : PendingOriginate :=
  ⟨input.tenantId, input.agentExtension, input.phoneNumber, input.callerId, input.customerId, now⟩

/-- The entry that this leaves. -/
def OriginateInput.pending (input : OriginateInput) (now : Time) : PendingOriginate :=
  ⟨input.tenantId, trim input.agentExtension, trim input.phoneNumber,
    (input.callerId.map trim).filter (· ≠ ""), (input.customerId.map trim).filter (· ≠ ""), now⟩

def OriginateInput.registered (input : OriginateInput) : Bool :=
  input.tenantId ≠ "" && trim input.agentExtension ≠ "" && trim input.phoneNumber ≠ ""

def pendingKey (tenantId agentExtension : String) : String := tenantId ++ ":" ++ agentExtension

def OriginateInput.key (input : OriginateInput) : String :=
  pendingKey input.tenantId (trim input.agentExtension)

/-- The entries that a new channel looks at. -/
def channelKey (event : AmiEvent) : Option String :=
  let agentExtension := originateExtension event
  if agentExtension = "" || (event.rawField "Context").getD "" ≠ "agent-phone-" ++ agentExtension ||
      (event.rawField "Exten").getD "" ≠ "s" then none
  else some (pendingKey event.tenantId agentExtension)

/-- A request whose channel may still come. -/
structure Waiting where
  request : Nat
  entry : PendingOriginate

structure ClickState where
  host : CommandHost
  now : Time
  /-- The entries of all requests, the first one first. -/
  requests : List PendingOriginate
  /-- The requests for an extension whose channel has not come: the last five. -/
  waiting : String → List Waiting
  /-- The entries that channels were given, each with the entry of the request whose action
  created the channel. -/
  given : List (Option PendingOriginate × PendingOriginate)

inductive ClickAction
  | tick (ms : Nat)
  | connection (up : Bool)
  /-- `originate`, behind its checks. -/
  | originate (input : OriginateInput)
  /-- A `Newchannel` event. The channel was created by the action of a request, or by
  something else. -/
  | newchannel (event : AmiEvent) (creator : Option Nat)

def isFresh (now : Time) (entry : PendingOriginate) : Bool :=
  now - entry.registeredAt ≤ pendingOriginateTtlMs

def fresh (now : Time) (waiting : List Waiting) : List Waiting :=
  waiting.filter fun w => isFresh now w.entry

/-- `slice(-5)` -/
def lastFive {α : Type} (as : List α) : List α := as.drop (as.length - 5)

namespace ClickState

def setWaiting (s : ClickState) (key : String) (waiting : List Waiting) : ClickState :=
  { s with waiting := fun k => if k = key then waiting else s.waiting k }

def originate (env : AmiEnv) (s : ClickState) (input : OriginateInput) : ClickState :=
  let world := registerPendingOriginate s.host.world (input.item s.now)
  let actions := Ami.originate env input.agentExtension input.phoneNumber none input.callerId none
  let s' := { s with
    host := (s.host.onWorld world).sendActions actions
    requests := s.requests ++ [input.pending s.now] }
  if input.registered then
    s'.setWaiting input.key
      (lastFive (fresh s.now (s.waiting input.key) ++ [⟨s.requests.length, input.pending s.now⟩]))
  else s'

/-- The channel of a request has come. -/
def arrive (s : ClickState) (key : String) (creator : Option Nat) : ClickState :=
  s.setWaiting key ((s.waiting key).filter fun w => some w.request ≠ creator)

def newchannel (s : ClickState) (event : AmiEvent) (creator : Option Nat) : ClickState :=
  let taken := consumePendingOriginateForNewChannel s.host.world event s.now
  let s' := { s with
    host := s.host.onWorld taken.2
    given := match taken.1 with
      | none => s.given
      | some entry => (creator.bind (s.requests[·]?), entry) :: s.given }
  match channelKey event with
  | none => s'
  | some key => s'.arrive key creator

end ClickState

def clickStep (env : AmiEnv) (s : ClickState) : ClickAction → ClickState
  | .tick ms => { s with now := s.now + ms }
  | .connection up => { s with host := { s.host with connected := up } }
  | .originate input => s.originate env input
  | .newchannel event creator => s.newchannel event creator

def noClicks : ClickState :=
  ⟨⟨World.empty, fun _ => none, true, []⟩, 0, [], fun _ => [], []⟩

/-! ## The condition -/

/-- A channel on the telephone of an agent comes when no request for it of the last minute
waits, or the oldest of those has created it. -/
def InOrder (s : ClickState) : ClickAction → Prop
  | .newchannel event creator => ∀ key, channelKey event = some key →
    ∀ oldest ∈ (fresh s.now (s.waiting key)).head?, creator = some oldest.request
  | _ => True

/-- A step can be tested. -/
instance decidableInOrder (s : ClickState) : ∀ action, Decidable (InOrder s action)
  | .tick _ => .isTrue trivial
  | .connection _ => .isTrue trivial
  | .originate _ => .isTrue trivial
  | .newchannel event creator =>
    match hkey : channelKey event with
    | none => .isTrue fun _ h => by simp [hkey] at h
    | some key =>
      decidable_of_iff
        (∀ oldest ∈ (fresh s.now (s.waiting key)).head?, creator = some oldest.request) <| by
        constructor
        · intro h other hother
          obtain rfl := Option.some.inj (hkey.symm.trans hother)
          exact h
        · exact fun h => h key hkey

/-! ## The entries of an extension -/

def entriesOf (pending : List (String × List PendingOriginate)) (key : String) :
    List PendingOriginate :=
  (pending.lookup key).getD []

/-- The keys of the entries differ. -/
def KeysDiffer (pending : List (String × List PendingOriginate)) : Prop :=
  (pending.map (·.1)).Nodup

variable {pending : List (String × List PendingOriginate)} {key k : String} {now : Time}
  {w : World} {event : AmiEvent}

theorem entriesOf_cons (p : String × List PendingOriginate) :
    entriesOf (p :: pending) key = if key = p.1 then p.2 else entriesOf pending key := by
  unfold entriesOf
  rw [List.lookup_cons]
  by_cases h : key = p.1
  · simp [h]
  · simp [h, beq_false_of_ne h]

theorem entriesOf_of_not_mem (h : key ∉ pending.map (·.1)) : entriesOf pending key = [] := by
  induction pending with
  | nil => rfl
  | cons p pending ih =>
    rw [List.map_cons, List.mem_cons, not_or] at h
    rw [entriesOf_cons, if_neg h.1, ih h.2]

theorem entriesOf_filter_other (h : k ≠ key) :
    entriesOf (pending.filter fun p => p.1 ≠ key) k = entriesOf pending k := by
  induction pending with
  | nil => rfl
  | cons p pending ih =>
    by_cases hp : p.1 = key
    · rw [List.filter_cons_of_neg (by simpa using hp), ih, entriesOf_cons,
        if_neg (by rw [hp]; exact h)]
    · rw [List.filter_cons_of_pos (by simpa using hp), entriesOf_cons, entriesOf_cons, ih]

theorem entriesOf_filter_self : entriesOf (pending.filter fun p => p.1 ≠ key) key = [] := by
  refine entriesOf_of_not_mem ?_
  rintro hmem
  obtain ⟨p, hp, hkey⟩ := List.mem_map.mp hmem
  exact absurd hkey (by simpa using (List.mem_filter.mp hp).2)

theorem KeysDiffer.filter (h : KeysDiffer pending) (p : String × List PendingOriginate → Bool) :
    KeysDiffer (pending.filter p) :=
  h.sublist (List.filter_sublist.map _)

theorem KeysDiffer.cons_filter (h : KeysDiffer pending) (key : String)
    (entries : List PendingOriginate) :
    KeysDiffer ((key, entries) :: pending.filter fun p => p.1 ≠ key) := by
  refine List.nodup_cons.mpr ⟨?_, h.filter _⟩
  intro hmem
  obtain ⟨p, hp, hkey⟩ := List.mem_map.mp hmem
  exact absurd hkey (by simpa using (List.mem_filter.mp hp).2)

theorem KeysDiffer.prune (h : KeysDiffer pending) (now : Time) :
    KeysDiffer (prunePendingOriginates pending now) := by
  refine List.Nodup.sublist (List.filter_sublist.map _) ?_
  rw [List.map_map]
  exact h

/-- Pruning leaves the fresh entries of every key. -/
theorem entriesOf_prune (h : KeysDiffer pending) (now : Time) (key : String) :
    entriesOf (prunePendingOriginates pending now) key =
      (entriesOf pending key).filter (isFresh now) := by
  induction pending with
  | nil => rfl
  | cons p pending ih =>
    obtain ⟨hhead, htail⟩ := List.nodup_cons.mp h
    have hrest := ih htail
    unfold prunePendingOriginates at hrest ⊢
    rw [List.map_cons, entriesOf_cons]
    by_cases hempty : p.2.filter (isFresh now) = []
    · rw [List.filter_cons_of_neg (by simpa [isFresh] using hempty), hrest]
      split
      · next hkey =>
        rw [hkey, entriesOf_of_not_mem hhead, hempty]
        rfl
      · rfl
    · rw [List.filter_cons_of_pos (by simpa [isFresh] using hempty), entriesOf_cons, hrest]
      split <;> rfl

/-! ## What the two operations do -/

theorem register_unregistered {input : OriginateInput} (h : input.registered = false) :
    registerPendingOriginate w (input.item now) = w := by
  unfold OriginateInput.registered at h
  unfold registerPendingOriginate OriginateInput.item
  dsimp only
  rw [if_pos]
  by_contra hall
  simp only [Bool.or_eq_true, decide_eq_true_eq, not_or] at hall
  simp [hall.1.1, hall.1.2, hall.2] at h

theorem register_registered {input : OriginateInput} (h : input.registered = true) :
    (registerPendingOriginate w (input.item now)).pendingOriginates =
      (input.key, lastFive (entriesOf (prunePendingOriginates w.pendingOriginates now) input.key ++
          [input.pending now])) ::
        (prunePendingOriginates w.pendingOriginates now).filter fun p => p.1 ≠ input.key := by
  unfold OriginateInput.registered at h
  unfold registerPendingOriginate OriginateInput.item
  dsimp only
  rw [if_neg]
  · rfl
  · simp only [Bool.and_eq_true, decide_eq_true_eq] at h
    simp [h.1.1, h.1.2, h.2]

theorem consume_elsewhere (h : channelKey event = none) :
    consumePendingOriginateForNewChannel w event now = (none, w) := by
  unfold channelKey at h
  unfold consumePendingOriginateForNewChannel
  dsimp only at h ⊢
  split at h
  · next hcond => rw [if_pos hcond]
  · cases h

theorem consume_phone (h : channelKey event = some key) :
    consumePendingOriginateForNewChannel w event now =
      let pruned := prunePendingOriginates w.pendingOriginates now
      let others := pruned.filter fun p => p.1 ≠ key
      match entriesOf pruned key with
      | [] => (none, { w with pendingOriginates := pruned })
      | next :: rest =>
        (some next, { w with
          pendingOriginates := if rest = [] then others else (key, rest) :: others }) := by
  unfold channelKey at h
  dsimp only at h
  split at h
  · cases h
  next hcond =>
    have hkey : event.tenantId ++ ":" ++ originateExtension event = key := Option.some.inj h
    unfold consumePendingOriginateForNewChannel entriesOf
    dsimp only
    rw [if_neg hcond, hkey]
    cases (prunePendingOriginates w.pendingOriginates now).lookup key with
    | none => rfl
    | some entries => cases entries <;> rfl

/-- A channel on the telephone of an agent takes the first fresh entry. -/
theorem consume_first (h : channelKey event = some key) (hkeys : KeysDiffer w.pendingOriginates) :
    (consumePendingOriginateForNewChannel w event now).1 =
      ((entriesOf w.pendingOriginates key).filter (isFresh now)).head? := by
  rw [consume_phone h, ← entriesOf_prune hkeys]
  dsimp only
  cases entriesOf (prunePendingOriginates w.pendingOriginates now) key <;> rfl

/-- The other fresh entries stay. -/
theorem consume_rest (h : channelKey event = some key) (hkeys : KeysDiffer w.pendingOriginates)
    (k : String) :
    entriesOf (consumePendingOriginateForNewChannel w event now).2.pendingOriginates k =
      if k = key then ((entriesOf w.pendingOriginates key).filter (isFresh now)).tail
      else (entriesOf w.pendingOriginates k).filter (isFresh now) := by
  rw [consume_phone h, ← entriesOf_prune hkeys, ← entriesOf_prune hkeys]
  dsimp only
  cases hentries : entriesOf (prunePendingOriginates w.pendingOriginates now) key with
  | nil =>
    dsimp only
    split
    · next hk => rw [hk, hentries, List.tail_nil]
    · rfl
  | cons next rest =>
    dsimp only
    rw [List.tail_cons]
    by_cases hk : k = key
    · rw [if_pos hk, hk]
      split
      · next hrest => rw [entriesOf_filter_self, hrest]
      · rw [entriesOf_cons, if_pos rfl]
    · rw [if_neg hk]
      split
      · rw [entriesOf_filter_other hk]
      · rw [entriesOf_cons, if_neg hk, entriesOf_filter_other hk]

theorem KeysDiffer.consume (hkeys : KeysDiffer w.pendingOriginates) (event : AmiEvent)
    (now : Time) :
    KeysDiffer (consumePendingOriginateForNewChannel w event now).2.pendingOriginates := by
  cases h : channelKey event with
  | none => rwa [consume_elsewhere h]
  | some key =>
    have hpruned := hkeys.prune now
    rw [consume_phone h]
    dsimp only
    split
    · exact hpruned
    · dsimp only
      split
      · exact hpruned.filter _
      · exact hpruned.cons_filter key _

/-! ## The invariant -/

/-- The fresh entries of an extension are those of its requests that still wait. -/
structure Queued (pending : List (String × List PendingOriginate)) (now : Time)
    (requests : List PendingOriginate) (waiting : String → List Waiting) : Prop where
  keys : KeysDiffer pending
  entries : ∀ key, (entriesOf pending key).filter (isFresh now) =
    (fresh now (waiting key)).map (·.entry)
  numbered : ∀ key, ∀ w ∈ waiting key, requests[w.request]? = some w.entry
  once : ∀ key, ((waiting key).map (·.request)).Nodup

structure Waits (s : ClickState) : Prop where
  queued : Queued s.host.world.pendingOriginates s.now s.requests s.waiting
  given : ∀ g ∈ s.given, g.1 = some g.2

variable {requests : List PendingOriginate} {waiting : String → List Waiting} {s : ClickState}
  {env : AmiEnv}

/-- What is fresh later is fresh now. -/
theorem filter_later {α : Type} (f : α → PendingOriginate) (as : List α) (ms : Nat) :
    (as.filter fun a => isFresh now (f a)).filter (fun a => isFresh (now + ms) (f a)) =
      as.filter fun a => isFresh (now + ms) (f a) := by
  rw [List.filter_filter]
  refine List.filter_congr fun a _ => ?_
  cases hlater : isFresh (now + ms) (f a) with
  | false => rfl
  | true =>
    have hle := of_decide_eq_true hlater
    have hearlier : now - (f a).registeredAt ≤ now + ms - (f a).registeredAt :=
      Int.sub_le_sub_right (Int.le_add_of_nonneg_right (Int.natCast_nonneg ms)) _
    rw [isFresh, decide_eq_true (Int.le_trans hearlier hle), Bool.and_true]

theorem filter_again {α : Type} (p : α → Bool) (as : List α) :
    (as.filter p).filter p = as.filter p := by
  rw [List.filter_filter]
  exact List.filter_congr fun _ _ => Bool.and_self _

theorem fresh_map (now : Time) (waiting : List Waiting) :
    (waiting.map (·.entry)).filter (isFresh now) = (fresh now waiting).map (·.entry) :=
  List.filter_map

theorem lastFive_map {α β : Type} (f : α → β) (as : List α) :
    lastFive (as.map f) = (lastFive as).map f := by
  unfold lastFive
  rw [List.length_map, List.map_drop]

theorem Queued.tick (h : Queued pending now requests waiting) (ms : Nat) :
    Queued pending (now + ms) requests waiting := by
  refine ⟨h.keys, fun key => ?_, h.numbered, h.once⟩
  have hnow := congrArg (List.filter (isFresh (now + ms))) (h.entries key)
  rw [filter_later (fun entry => entry), fresh_map] at hnow
  exact hnow.trans (congrArg (List.map _) (filter_later (fun w : Waiting => w.entry) _ ms))

theorem Queued.request (h : Queued pending now requests waiting) (entry : PendingOriginate) :
    Queued pending now (requests ++ [entry]) waiting := by
  refine ⟨h.keys, h.entries, fun key w hw => ?_, h.once⟩
  have hold := h.numbered key w hw
  rw [List.getElem?_append_left (List.getElem?_eq_some_iff.mp hold).1, hold]

/-- A request is registered behind the fresh ones, and the last five stay. -/
theorem Queued.register (h : Queued pending now requests waiting) (entry : PendingOriginate)
    {pending' : List (String × List PendingOriginate)} (hkeys : KeysDiffer pending')
    (hentries : ∀ k, entriesOf pending' k =
      if k = key then lastFive ((entriesOf pending key).filter (isFresh now) ++ [entry])
      else (entriesOf pending k).filter (isFresh now)) :
    Queued pending' now (requests ++ [entry]) fun k =>
      if k = key then lastFive (fresh now (waiting key) ++ [⟨requests.length, entry⟩])
      else waiting k := by
  have hnumbered := (h.request entry).numbered
  have hbefore : ∀ w ∈ waiting key, w.request < requests.length := fun w hw =>
    (List.getElem?_eq_some_iff.mp (h.numbered key w hw)).1
  refine ⟨hkeys, fun k => ?_, fun k w hw => ?_, fun k => ?_⟩
  · rw [hentries]
    split
    · have hmap : lastFive ((fresh now (waiting key)).map (·.entry) ++ [entry]) =
          (lastFive (fresh now (waiting key) ++ [⟨requests.length, entry⟩])).map (·.entry) := by
        rw [← lastFive_map, List.map_append]
        rfl
      rw [h.entries key, hmap, fresh_map]
    · rw [filter_again, h.entries k]
  · split at hw
    · rcases List.mem_append.mp (List.mem_of_mem_drop hw) with hold | hnew
      · exact hnumbered key w (List.mem_filter.mp hold).1
      · rw [List.mem_singleton.mp hnew]
        exact List.getElem?_concat_length ..
    · exact hnumbered k w hw
  · split
    · refine List.Nodup.sublist ((List.drop_sublist _ _).map _) ?_
      rw [List.map_append]
      refine List.Nodup.append ((h.once key).sublist (List.filter_sublist.map _))
        (List.nodup_singleton _) ?_
      intro n hold hnew
      obtain ⟨w, hw, rfl⟩ := List.mem_map.mp hold
      have hlt := hbefore w (List.mem_filter.mp hw).1
      exact absurd (List.mem_singleton.mp hnew) (Nat.ne_of_lt hlt)
    · exact h.once k

/-- Taking away the oldest request, where it is the creator, or nothing waits. -/
theorem filter_creator {ws : List Waiting} {creator : Option Nat}
    (hnodup : (ws.map (·.request)).Nodup)
    (horder : ∀ oldest ∈ ws.head?, creator = some oldest.request) :
    (ws.filter fun w => some w.request ≠ creator) = ws.tail := by
  cases ws with
  | nil => rfl
  | cons oldest rest =>
    have hcreator := horder oldest rfl
    have hnot := (List.nodup_cons.mp hnodup).1
    rw [List.filter_cons_of_neg (by simp [hcreator]), List.tail_cons]
    refine List.filter_eq_self.mpr fun w hw => ?_
    have hdiffers : w.request ≠ oldest.request := fun heq => hnot (List.mem_map.mpr ⟨w, hw, heq⟩)
    simp [hcreator, hdiffers]

theorem fresh_filter (now : Time) (waiting : List Waiting) (p : Waiting → Bool) :
    fresh now (waiting.filter p) = (fresh now waiting).filter p := by
  unfold fresh
  rw [List.filter_filter, List.filter_filter]
  exact List.filter_congr fun _ _ => Bool.and_comm _ _

theorem fresh_tail (now : Time) (waiting : List Waiting) :
    fresh now (fresh now waiting).tail = (fresh now waiting).tail :=
  List.filter_eq_self.mpr fun _ hw => (List.mem_filter.mp (List.mem_of_mem_tail hw)).2

/-- The channel of the oldest request, or of none that waits, takes its entry away. -/
theorem Queued.arrive (h : Queued pending now requests waiting) {creator : Option Nat}
    (horder : ∀ oldest ∈ (fresh now (waiting key)).head?, creator = some oldest.request)
    {pending' : List (String × List PendingOriginate)} (hkeys : KeysDiffer pending')
    (hentries : ∀ k, entriesOf pending' k =
      if k = key then ((entriesOf pending key).filter (isFresh now)).tail
      else (entriesOf pending k).filter (isFresh now)) :
    Queued pending' now requests fun k =>
      if k = key then (waiting key).filter fun w => some w.request ≠ creator else waiting k := by
  refine ⟨hkeys, fun k => ?_, fun k w hw => ?_, fun k => ?_⟩
  · rw [hentries]
    split
    · have hnodup : ((fresh now (waiting key)).map (·.request)).Nodup :=
        (h.once key).sublist (List.filter_sublist.map _)
      have htail := filter_creator hnodup horder
      rw [fresh_filter, htail, h.entries key, ← List.map_tail, fresh_map, fresh_tail]
    · rw [filter_again, h.entries k]
  · split at hw
    · exact h.numbered key w (List.mem_filter.mp hw).1
    · exact h.numbered k w hw
  · split
    · exact (h.once key).sublist (List.filter_sublist.map _)
    · exact h.once k

/-! ## Runs -/

theorem Waits.originate (h : Waits s) (input : OriginateInput) : Waits (s.originate env input) := by
  unfold ClickState.originate
  dsimp only
  cases hregistered : input.registered with
  | false =>
    refine ⟨?_, h.given⟩
    rw [register_unregistered hregistered, if_neg Bool.false_ne_true, sendActions_world]
    exact h.queued.request _
  | true =>
    have hkeys := h.queued.keys.prune s.now
    refine ⟨?_, h.given⟩
    rw [if_pos rfl, ClickState.setWaiting, sendActions_world]
    refine h.queued.register (input.pending s.now) ?_ fun k => ?_
    · rw [CommandHost.onWorld, register_registered hregistered]
      exact hkeys.cons_filter _ _
    · rw [CommandHost.onWorld, register_registered hregistered, entriesOf_cons]
      by_cases hk : k = input.key
      · rw [if_pos hk, if_pos hk, entriesOf_prune h.queued.keys]
      · rw [if_neg hk, if_neg hk, entriesOf_filter_other hk, entriesOf_prune h.queued.keys]

theorem Waits.newchannel (h : Waits s) {creator : Option Nat}
    (horder : InOrder s (.newchannel event creator)) : Waits (s.newchannel event creator) := by
  unfold ClickState.newchannel
  dsimp only
  cases hkey : channelKey event with
  | none =>
    rw [consume_elsewhere hkey]
    exact ⟨h.queued, h.given⟩
  | some key =>
    have hfirst : (consumePendingOriginateForNewChannel _ event s.now).1 = _ :=
      consume_first hkey h.queued.keys
    rw [h.queued.entries key, List.head?_map] at hfirst
    refine ⟨h.queued.arrive (horder key hkey) (h.queued.keys.consume event s.now)
      (consume_rest hkey h.queued.keys), ?_⟩
    dsimp only [ClickState.arrive, ClickState.setWaiting]
    rw [hfirst]
    cases hfresh : (fresh s.now (s.waiting key)).head? with
    | none => exact h.given
    | some oldest =>
      intro g hg
      rcases List.mem_cons.mp hg with rfl | hold
      · have hmem := (List.mem_filter.mp (List.mem_of_mem_head? hfresh)).1
        rw [horder key hkey oldest hfresh]
        exact h.queued.numbered key oldest hmem
      · exact h.given g hold

/-- Every step in which no channel comes out of order. -/
theorem clickStep_waits {action : ClickAction} (h : Waits s) (horder : InOrder s action) :
    Waits (clickStep env s action) := by
  cases action with
  | tick ms => exact ⟨h.queued.tick ms, h.given⟩
  | connection up => exact ⟨h.queued, h.given⟩
  | originate input => exact h.originate input
  | newchannel event creator => exact h.newchannel horder

theorem waits_noClicks : Waits noClicks :=
  ⟨⟨List.nodup_nil, fun _ => rfl, by rintro _ _ ⟨⟩, fun _ => List.nodup_nil⟩, by rintro _ ⟨⟩⟩

/-- In every run in which the channels of an extension come in the order of its requests,
an entry that a channel is given is that of the request whose action created the channel. -/
theorem channel_gets_its_request (env : AmiEnv) (actions : List ClickAction)
    (h : Along (clickStep env) InOrder noClicks actions) :
    ∀ g ∈ (actions.foldl (clickStep env) noClicks).given, g.1 = some g.2 :=
  (h.invariant (fun _ _ horder hs => clickStep_waits hs horder) waits_noClicks).given

/-! ## A request that is not sent -/

def exInput (phoneNumber customerId : String) : OriginateInput :=
  ⟨"t1", "1001", phoneNumber, none, some customerId⟩

def exFirst : ClickAction := .originate (exInput "01011112222" "A")

def exSecond : ClickAction := .originate (exInput "01033334444" "B")

def exChannel (creator : Nat) : ClickAction :=
  .newchannel { eventName := .newchannel, tenantId := "t1", linkedid := some "1.1"
                raw := [("Channel", "PJSIP/1001-0000000a"), ("Context", "agent-phone-1001"),
                  ("Exten", "s")] } (some creator)

/-- Two requests, each with its channel. -/
def exOrdered : List ClickAction :=
  [exFirst, exChannel 0, .tick 30000, exSecond, .tick 2000, exChannel 1]

/-- The first request comes while the connection is down. -/
def exDropped : List ClickAction :=
  [.connection false, exFirst, .tick 20000, .connection true, exSecond, exChannel 1]

theorem channel_gets_its_request_exOrdered :
    (∀ g ∈ (exOrdered.foldl (clickStep Ami.exEnv) noClicks).given, g.1 = some g.2) ∧
      (exOrdered.foldl (clickStep Ami.exEnv) noClicks).given.map (·.2.customerId) =
        [some "B", some "A"] :=
  ⟨channel_gets_its_request Ami.exEnv exOrdered (by decide), by decide⟩

/-- The call to the second customer is stored under the first. -/
theorem dropped_request_shifts :
    ¬ ∀ g ∈ (exDropped.foldl (clickStep Ami.exEnv) noClicks).given, g.1 = some g.2 := by
  decide

end KasterCti.Calls
