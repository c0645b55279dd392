import KasterCti.Library.JsMap
import KasterCti.Library.Trace
import Mathlib.Algebra.Order.Ring.Int

/-!
# Presence of an agent

`AgentPresenceService` on any number of nodes that share one Redis, for one agent: every
node has its map of connections and writes its own field of the agent's hash, whose key has
a time to live. A call runs up to its command and goes on when that is answered; the
commands of a node are executed and answered in the order in which they were issued.

Results:
1. `presenceStep_fields`, `PresenceState.connected_iff_open`: while the refreshes come in time, and once
   every call has finished, `isConnected` answers whether a node has an open connection.
2. `presenceStep_tells`: what a step keeps of the notifications, where the last connection
   of a node is closed only after the first write of its opening was answered.
3. `presence_agrees`: in a run of such steps the last notification of a node is right, too.
4. `quick_close_told_open`: a connection that is closed at once is told as open.
-/

namespace KasterCti.Realtime

open Trace

def agentPresenceTtlSeconds : Int := 30

def ttlMs : Int := agentPresenceTtlSeconds * 1000

theorem ttlMs_pos : 0 < ttlMs := by decide

/-- A command on the hash of the agent, with what the node does at the answer: `notifies`
stands at the two commands of the `markConnected` that opens the entry. -/
inductive PresenceCommand
  | hset (expiresAt : Int) (notifies : Bool)
  | expire (notifies : Bool)
  | hdel

structure PresenceNode where
  /-- The connections of the agent's entry in `tracked`. -/
  tracked : Option (List String)
  /-- Issued and not yet executed. -/
  sent : List PresenceCommand
  /-- Executed, the answer not yet taken. -/
  replies : List PresenceCommand
  /-- The field `connected` of the notifications, the last one first. -/
  notified : List Bool
  /-- The connections that were marked connected and not marked disconnected since. -/
  opened : List String
  /-- When the last `writeField` was called. -/
  writtenAt : Int

structure PresenceState where
  nodes : String → PresenceNode
  /-- The hash under `presenceKey`: the node, and the expiry it has written. A hash without
  a field does not exist. -/
  fields : List (String × Int)
  /-- When the key expires. -/
  expiresAt : Option Int
  now : Int

inductive PresenceAction
  | markConnected (nodeId connectionId : String)
  | markDisconnected (nodeId connectionId : String)
  /-- `refreshAll` comes to the agent. -/
  | refresh (nodeId : String)
  /-- Redis executes the next command of a node. -/
  | execute (nodeId : String)
  /-- The node goes on with the next answer. -/
  | answer (nodeId : String)
  | clock (now : Int)

namespace PresenceNode

/-- `Set.add`. -/
def add (connections : List String) (connectionId : String) : List String :=
  if connectionId ∈ connections then connections else connections ++ [connectionId]

def remove (connections : List String) (connectionId : String) : List String :=
  connections.filter (· ≠ connectionId)

def issue (node : PresenceNode) (command : PresenceCommand) : PresenceNode :=
  { node with sent := node.sent ++ [command] }

def notify (node : PresenceNode) (connected : Bool) : PresenceNode :=
  { node with notified := connected :: node.notified }

/-- Up to the first await of `writeField`. -/
def writeField (node : PresenceNode) (now : Int) (notifies : Bool) : PresenceNode :=
  { node with writtenAt := now }.issue (.hset (now + ttlMs) notifies)

def clearField (node : PresenceNode) : PresenceNode := node.issue .hdel

def markConnected (node : PresenceNode) (connectionId : String) (now : Int) : PresenceNode :=
  let marked := { node with opened := add node.opened connectionId }
  match node.tracked with
  | some connections =>
    { marked with tracked := some (add connections connectionId) }.writeField now false
  | none => { marked with tracked := some [connectionId] }.writeField now true

def markDisconnected (node : PresenceNode) (connectionId : String) : PresenceNode :=
  let marked := { node with opened := remove node.opened connectionId }
  match node.tracked with
  | some connections =>
    match remove connections connectionId with
    | [] => { marked with tracked := none }.clearField
    | rest => { marked with tracked := some rest }
  | none => marked

/-- `refreshAll` goes through the entries that are there. -/
def refresh (node : PresenceNode) (now : Int) : PresenceNode :=
  if node.tracked.isSome then node.writeField now false else node

/-- What stands behind the await of a command. -/
def goOn (node : PresenceNode) : PresenceCommand → PresenceNode
  | .hset _ notifies => node.issue (.expire notifies)
  | .expire notifies => if notifies then node.notify true else node
  | .hdel => node.notify false

end PresenceNode

namespace PresenceState

def setNode (s : PresenceState) (nodeId : String) (node : PresenceNode) : PresenceState :=
  { s with nodes := Function.update s.nodes nodeId node }

/-- One command of a node. `HDEL` of the last field deletes the key, with its time to live. -/
def redis (s : PresenceState) (nodeId : String) : PresenceCommand → PresenceState
  | .hset expiresAt _ => { s with fields := JsMap.set s.fields nodeId expiresAt }
  | .expire _ => if s.fields = [] then s else { s with expiresAt := some (s.now + ttlMs) }
  | .hdel =>
    let fields := JsMap.delete s.fields nodeId
    { s with fields, expiresAt := if fields = [] then none else s.expiresAt }

/-- The key is gone when its time has come. -/
def tick (s : PresenceState) (now : Int) : PresenceState :=
  let now := max s.now now
  match s.expiresAt with
  | some expiresAt =>
    if expiresAt ≤ now then { s with now, fields := [], expiresAt := none } else { s with now }
  | none => { s with now }

def isConnected (s : PresenceState) : Bool := s.fields.any fun field => s.now < field.2

end PresenceState

/-- One step; an action that fits nothing changes nothing. -/
def presenceStep (s : PresenceState) : PresenceAction → PresenceState
  | .markConnected nodeId connectionId =>
    s.setNode nodeId ((s.nodes nodeId).markConnected connectionId s.now)
  | .markDisconnected nodeId connectionId =>
    s.setNode nodeId ((s.nodes nodeId).markDisconnected connectionId)
  | .refresh nodeId => s.setNode nodeId ((s.nodes nodeId).refresh s.now)
  | .execute nodeId =>
    match (s.nodes nodeId).sent with
    | command :: sent =>
      (s.redis nodeId command).setNode nodeId
        { s.nodes nodeId with sent, replies := (s.nodes nodeId).replies ++ [command] }
    | [] => s
  | .answer nodeId =>
    match (s.nodes nodeId).replies with
    | command :: replies => s.setNode nodeId ({ s.nodes nodeId with replies }.goOn command)
    | [] => s
  | .clock now => s.tick now

def idleNode : PresenceNode := ⟨none, [], [], [], [], 0⟩

/-- Nobody has connected yet. -/
def nobody : PresenceState := ⟨fun _ => idleNode, [], none, 0⟩

/-- Every call that was started has finished. -/
def PresenceState.Quiet (s : PresenceState) : Prop :=
  ∀ nodeId, (s.nodes nodeId).sent = [] ∧ (s.nodes nodeId).replies = []

structure PresenceState.Agrees (s : PresenceState) : Prop where
  connected : s.isConnected = true ↔ ∃ nodeId, (s.nodes nodeId).opened ≠ []
  /-- A node that has told nothing has been without a connection. -/
  notified : ∀ nodeId, (s.nodes nodeId).notified.headD false = !(s.nodes nodeId).opened.isEmpty

/-- The refreshes come in time: the clock passes neither the expiry of a node with an open
connection nor, while there is one, that of the key. -/
def WithinTtl (s : PresenceState) : PresenceAction → Prop
  | .clock now => ∀ nodeId, (s.nodes nodeId).opened ≠ [] →
      now < (s.nodes nodeId).writtenAt + ttlMs ∧ ∀ expiresAt ∈ s.expiresAt, now < expiresAt
  | _ => True

/-- The first command of the `markConnected` that opens the entry. -/
def PresenceCommand.opens : PresenceCommand → Bool
  | .hset _ notifies => notifies
  | _ => false

/-- The commands of a node that were not answered, in their order. -/
def PresenceNode.unanswered (node : PresenceNode) : List PresenceCommand :=
  node.replies ++ node.sent

/-- A node whose last connection is closed has an answer to the first command of its opening. -/
def OpeningAnswered (s : PresenceState) : PresenceAction → Prop
  | .markDisconnected nodeId connectionId =>
    (s.nodes nodeId).tracked.map (PresenceNode.remove · connectionId) = some [] →
      (s.nodes nodeId).unanswered.any PresenceCommand.opens = false
  | _ => True

/-! ## The fields of the hash -/

/-- What a command leaves of the node's field. -/
def PresenceCommand.field (value : Option Int) : PresenceCommand → Option Int
  | .hset expiresAt _ => some expiresAt
  | .expire _ => value
  | .hdel => none

/-- A key that is gone leaves no more of a field than before. -/
theorem foldl_field_none {commands : List PresenceCommand} {value : Option Int}
    (h : commands.foldl PresenceCommand.field value = none) :
    commands.foldl PresenceCommand.field none = none := by
  induction commands generalizing value with
  | nil => rfl
  | cons command commands ih =>
    cases command with
    | hset expiresAt notifies => exact h
    | expire notifies => exact ih h
    | hdel => exact h

/-- A node whose field is `value`: once its commands have been executed, the field is there
when the node has a connection, and holds the expiry that was written last. -/
structure PresenceNode.Settles (node : PresenceNode) (value : Option Int) (now : Int) : Prop where
  tracked : node.tracked = if node.opened = [] then none else some node.opened
  settled : node.sent.foldl PresenceCommand.field value =
    if node.opened = [] then none else some (node.writtenAt + ttlMs)
  fresh : node.opened ≠ [] → now < node.writtenAt + ttlMs

structure PresenceState.Settles (s : PresenceState) : Prop where
  nodes : ∀ nodeId, (s.nodes nodeId).Settles (JsMap.get s.fields nodeId) s.now
  key : ∀ expiresAt ∈ s.expiresAt, s.now < expiresAt

namespace PresenceNode

variable {node : PresenceNode} {value : Option Int} {now : Int} {connectionId : String}
  {connections : List String}

theorem add_ne_nil : add connections connectionId ≠ [] := by
  unfold add
  split
  · next hmem => exact List.ne_nil_of_mem hmem
  · simp

theorem add_nil : add [] connectionId = [connectionId] := rfl

theorem foldl_issue (command : PresenceCommand) :
    (node.issue command).sent.foldl PresenceCommand.field value =
      PresenceCommand.field (node.sent.foldl PresenceCommand.field value) command := by
  unfold PresenceNode.issue
  rw [List.foldl_append]
  rfl

/-- A node with a connection writes its field. -/
theorem Settles.writeField (notifies : Bool)
    (htracked : node.tracked = some node.opened) (hopen : node.opened ≠ []) :
    (node.writeField now notifies).Settles value now := by
  refine ⟨?_, ?_, ?_⟩
  · exact htracked.trans (if_neg hopen).symm
  · refine (foldl_issue _).trans ?_
    exact (if_neg hopen).symm
  · intro _
    exact Int.lt_add_of_pos_right now ttlMs_pos

theorem Settles.markConnected (h : node.Settles value now) :
    (node.markConnected connectionId now).Settles value now := by
  unfold PresenceNode.markConnected
  have htracked := h.tracked
  by_cases hopen : node.opened = []
  · rw [if_pos hopen] at htracked
    rw [htracked, hopen, add_nil]
    exact Settles.writeField true rfl (List.cons_ne_nil _ _)
  · rw [if_neg hopen] at htracked
    rw [htracked]
    exact Settles.writeField false rfl add_ne_nil

theorem Settles.markDisconnected (h : node.Settles value now) :
    (node.markDisconnected connectionId).Settles value now := by
  unfold PresenceNode.markDisconnected
  have htracked := h.tracked
  have hsettled := h.settled
  by_cases hopen : node.opened = []
  · rw [if_pos hopen] at htracked hsettled
    rw [htracked, hopen]
    exact ⟨rfl, hsettled, fun hne => absurd rfl hne⟩
  · rw [if_neg hopen] at htracked hsettled
    rw [htracked]
    dsimp only
    cases hrest : remove node.opened connectionId with
    | nil => exact ⟨rfl, foldl_issue _, fun hne => absurd rfl hne⟩
    | cons first rest => exact ⟨rfl, hsettled, fun _ => h.fresh hopen⟩

theorem Settles.refresh (h : node.Settles value now) : (node.refresh now).Settles value now := by
  unfold PresenceNode.refresh
  split
  · next hsome =>
    have htracked := h.tracked
    by_cases hopen : node.opened = []
    · rw [htracked, if_pos hopen] at hsome
      cases hsome
    · rw [if_neg hopen] at htracked
      exact Settles.writeField false htracked hopen
  · exact h

theorem Settles.goOn (command : PresenceCommand) (replies : List PresenceCommand)
    (h : node.Settles value now) : ({ node with replies }.goOn command).Settles value now := by
  cases command with
  | hset expiresAt notifies => exact ⟨h.tracked, (foldl_issue _).trans h.settled, h.fresh⟩
  | expire notifies =>
    cases notifies with
    | true => exact ⟨h.tracked, h.settled, h.fresh⟩
    | false => exact ⟨h.tracked, h.settled, h.fresh⟩
  | hdel => exact ⟨h.tracked, h.settled, h.fresh⟩

theorem Settles.later {later : Int} (h : node.Settles value now)
    (hfresh : node.opened ≠ [] → later < node.writtenAt + ttlMs) : node.Settles value later :=
  ⟨h.tracked, h.settled, hfresh⟩

end PresenceNode

namespace PresenceState

variable {s : PresenceState} {nodeId : String} {node : PresenceNode} {action : PresenceAction}

theorem Settles.setNode (h : s.Settles)
    (hnode : node.Settles (JsMap.get s.fields nodeId) s.now) : (s.setNode nodeId node).Settles := by
  refine ⟨fun other => ?_, h.key⟩
  show (Function.update s.nodes nodeId node other).Settles (JsMap.get s.fields other) s.now
  by_cases hother : other = nodeId
  · subst hother
    rw [Function.update_self]
    exact hnode
  · rw [Function.update_of_ne hother]
    exact h.nodes other

/-- Redis changes the field of the node only. -/
theorem get_redis (command : PresenceCommand) (other : String) :
    JsMap.get (s.redis nodeId command).fields other =
      if other = nodeId then PresenceCommand.field (JsMap.get s.fields nodeId) command
      else JsMap.get s.fields other := by
  cases command with
  | hset expiresAt notifies => exact JsMap.get_set
  | expire notifies =>
    have hfields : (s.redis nodeId (.expire notifies)).fields = s.fields := by
      unfold PresenceState.redis
      dsimp only
      split <;> rfl
    rw [hfields]
    split
    · next hother => rw [hother]; rfl
    · rfl
  | hdel => exact JsMap.get_delete

theorem nodes_redis (command : PresenceCommand) : (s.redis nodeId command).nodes = s.nodes := by
  unfold PresenceState.redis
  cases command with
  | hset expiresAt notifies => rfl
  | expire notifies => dsimp only; split <;> rfl
  | hdel => rfl

theorem now_redis (command : PresenceCommand) : (s.redis nodeId command).now = s.now := by
  unfold PresenceState.redis
  cases command with
  | hset expiresAt notifies => rfl
  | expire notifies => dsimp only; split <;> rfl
  | hdel => rfl

theorem Settles.key_redis (h : s.Settles) (command : PresenceCommand) :
    ∀ expiresAt ∈ (s.redis nodeId command).expiresAt,
      (s.redis nodeId command).now < expiresAt := by
  intro expiresAt hmem
  rw [now_redis]
  unfold PresenceState.redis at hmem
  cases command with
  | hset value notifies => exact h.key expiresAt hmem
  | expire notifies =>
    dsimp only at hmem
    split at hmem
    · exact h.key expiresAt hmem
    · obtain rfl := Option.some.inj hmem
      exact Int.lt_add_of_pos_right s.now ttlMs_pos
  | hdel =>
    dsimp only at hmem
    split at hmem
    · cases hmem
    · exact h.key expiresAt hmem

theorem Settles.execute (h : s.Settles) : (presenceStep s (.execute nodeId)).Settles := by
  unfold presenceStep
  dsimp only
  split
  · next command sent hsent =>
    refine ⟨fun other => ?_, h.key_redis command⟩
    show (Function.update (s.redis nodeId command).nodes nodeId _ other).Settles
      (JsMap.get (s.redis nodeId command).fields other) (s.redis nodeId command).now
    rw [get_redis, nodes_redis, now_redis]
    by_cases hother : other = nodeId
    · subst hother
      rw [Function.update_self, if_pos rfl]
      obtain ⟨htracked, hsettled, hfresh⟩ := h.nodes other
      rw [hsent] at hsettled
      exact ⟨htracked, hsettled, hfresh⟩
    · rw [Function.update_of_ne hother, if_neg hother]
      exact h.nodes other
  · exact h

/-- The clock deletes the key only where no node has a connection. -/
theorem Settles.tick {now : Int} (hwithin : WithinTtl s (.clock now)) (h : s.Settles) :
    (s.tick now).Settles := by
  have hfresh : ∀ other, (s.nodes other).opened ≠ [] →
      max s.now now < (s.nodes other).writtenAt + ttlMs :=
    fun other hopen => max_lt ((h.nodes other).fresh hopen) (hwithin other hopen).1
  unfold PresenceState.tick
  dsimp only
  split
  · next expiresAt hexpires =>
    split
    · next hgone =>
      refine ⟨fun other => ?_, nofun⟩
      have hclosed : (s.nodes other).opened = [] := by
        by_contra hopen
        have hbefore := max_lt (h.key expiresAt hexpires)
          ((hwithin other hopen).2 expiresAt hexpires)
        exact absurd hgone (not_le.mpr hbefore)
      obtain ⟨htracked, hsettled, -⟩ := h.nodes other
      refine ⟨htracked, ?_, fun hopen => absurd hclosed hopen⟩
      rw [if_pos hclosed] at hsettled ⊢
      exact foldl_field_none hsettled
    · next hthere =>
      refine ⟨fun other => (h.nodes other).later (hfresh other), ?_⟩
      intro key hkey
      obtain rfl := Option.some.inj (hexpires.symm.trans hkey)
      exact not_le.mp hthere
  · next hexpires =>
    refine ⟨fun other => (h.nodes other).later (hfresh other), ?_⟩
    intro key hkey
    cases hexpires.symm.trans hkey

/-- Once the commands of all nodes have been executed, the hash has the fields of the nodes
with a connection, and none of them has expired. -/
theorem connected_iff_open (h : s.Settles) (hsent : ∀ nodeId, (s.nodes nodeId).sent = []) :
    s.isConnected = true ↔ ∃ nodeId, (s.nodes nodeId).opened ≠ [] := by
  have hfield : ∀ nodeId, JsMap.get s.fields nodeId =
      if (s.nodes nodeId).opened = [] then none
      else some ((s.nodes nodeId).writtenAt + ttlMs) := by
    intro nodeId
    have hsettled := (h.nodes nodeId).settled
    rwa [hsent nodeId] at hsettled
  constructor
  · intro hconnected
    obtain ⟨⟨nodeId, expiresAt⟩, hmem, -⟩ := List.any_eq_true.mp hconnected
    refine ⟨nodeId, fun hclosed => ?_⟩
    have hnone : JsMap.get s.fields nodeId = none := (hfield nodeId).trans (if_pos hclosed)
    exact JsMap.get_eq_none_iff.mp hnone (List.mem_map_of_mem hmem)
  · rintro ⟨nodeId, hopen⟩
    have hsome := (hfield nodeId).trans (if_neg hopen)
    refine List.any_eq_true.mpr ⟨_, JsMap.mem_of_get hsome, decide_eq_true ?_⟩
    exact (h.nodes nodeId).fresh hopen

end PresenceState

/-- What every step keeps of the hash while the refreshes come in time. -/
theorem presenceStep_fields {s : PresenceState} {action : PresenceAction}
    (hwithin : WithinTtl s action) (h : s.Settles) : (presenceStep s action).Settles := by
  cases action with
  | markConnected nodeId connectionId => exact h.setNode (h.nodes nodeId).markConnected
  | markDisconnected nodeId connectionId => exact h.setNode (h.nodes nodeId).markDisconnected
  | refresh nodeId => exact h.setNode (h.nodes nodeId).refresh
  | execute nodeId => exact h.execute
  | answer nodeId =>
    unfold presenceStep
    dsimp only
    split
    · next command replies _ => exact h.setNode ((h.nodes nodeId).goOn command replies)
    · exact h
  | clock now => exact h.tick hwithin

theorem nobody_settles : nobody.Settles :=
  ⟨fun _ => ⟨rfl, rfl, fun hopen => absurd rfl hopen⟩, nofun⟩

/-! ## The notifications -/

/-- What the last notification says once a command has been answered and gone on with. -/
def PresenceCommand.tell (told : Bool) : PresenceCommand → Bool
  | .expire true => true
  | .hdel => false
  | _ => told

/-- What the last notification of the node will say: an opening that waits for its first
answer issues its second command behind all that wait now. -/
def PresenceNode.willTell (node : PresenceNode) : Bool :=
  node.unanswered.any PresenceCommand.opens ||
    node.unanswered.foldl PresenceCommand.tell (node.notified.headD false)

def PresenceNode.Tells (node : PresenceNode) : Prop := node.willTell = !node.opened.isEmpty

namespace PresenceNode

variable {node : PresenceNode} {value : Option Int} {now : Int} {connectionId : String}

theorem unanswered_issue (command : PresenceCommand) :
    (node.issue command).unanswered = node.unanswered ++ [command] :=
  (List.append_assoc node.replies node.sent [command]).symm

theorem willTell_issue (command : PresenceCommand) :
    (node.issue command).willTell =
      (node.unanswered.any PresenceCommand.opens || command.opens ||
        PresenceCommand.tell (node.unanswered.foldl PresenceCommand.tell (node.notified.headD false))
          command) := by
  unfold willTell
  rw [unanswered_issue, List.any_append, List.foldl_append]
  simp only [List.any_cons, List.any_nil, Bool.or_false]
  rfl

theorem willTell_writeField (notifies : Bool) :
    (node.writeField now notifies).willTell = (notifies || node.willTell) := by
  refine (willTell_issue _).trans ?_
  show (node.unanswered.any PresenceCommand.opens || notifies ||
    node.unanswered.foldl PresenceCommand.tell (node.notified.headD false)) = _
  unfold willTell
  cases notifies with
  | true => simp
  | false => simp

theorem isEmpty_add {connections : List String} : (add connections connectionId).isEmpty = false :=
  List.isEmpty_eq_false_iff.mpr add_ne_nil

theorem Tells.markConnected (hsettles : node.Settles value now) (h : node.Tells) :
    (node.markConnected connectionId now).Tells := by
  unfold PresenceNode.markConnected
  have htracked := hsettles.tracked
  by_cases hopen : node.opened = []
  · rw [if_pos hopen] at htracked
    rw [htracked]
    refine (willTell_writeField true).trans ?_
    exact (congrArg not isEmpty_add).symm
  · rw [if_neg hopen] at htracked
    rw [htracked]
    refine (willTell_writeField false).trans ?_
    have hbefore : node.willTell = true := by
      rw [h, List.isEmpty_eq_false_iff.mpr hopen]
      rfl
    exact hbefore.trans (congrArg not isEmpty_add).symm

/-- The last connection of a node is closed when no opening waits for its first answer. -/
theorem Tells.markDisconnected (hsettles : node.Settles value now)
    (hanswered : node.tracked.map (PresenceNode.remove · connectionId) = some [] →
      node.unanswered.any PresenceCommand.opens = false) (h : node.Tells) :
    (node.markDisconnected connectionId).Tells := by
  unfold PresenceNode.markDisconnected
  have htracked := hsettles.tracked
  by_cases hopen : node.opened = []
  · rw [if_pos hopen] at htracked
    rw [htracked]
    have hbefore : node.willTell = false := by
      rw [h, hopen]
      rfl
    refine hbefore.trans ?_
    rw [hopen]
    rfl
  · rw [if_neg hopen] at htracked
    rw [htracked] at hanswered
    rw [htracked]
    dsimp only
    cases hrest : remove node.opened connectionId with
    | nil =>
      have hnone := hanswered (congrArg some hrest)
      refine (willTell_issue _).trans ?_
      show (node.unanswered.any PresenceCommand.opens || false || false) = false
      rw [hnone]
      rfl
    | cons first rest =>
      have hbefore : node.willTell = true := by
        rw [h, List.isEmpty_eq_false_iff.mpr hopen]
        rfl
      exact hbefore

theorem Tells.refresh (h : node.Tells) : (node.refresh now).Tells := by
  unfold PresenceNode.refresh
  split
  · exact (willTell_writeField false).trans h
  · exact h

theorem Tells.goOn {command : PresenceCommand} {replies : List PresenceCommand}
    (hreplies : node.replies = command :: replies) (h : node.Tells) :
    ({ node with replies }.goOn command).Tells := by
  have hcons : node.unanswered = command :: (replies ++ node.sent) := by
    unfold unanswered
    rw [hreplies]
    rfl
  have hbefore : (command.opens || (replies ++ node.sent).any PresenceCommand.opens ||
      (replies ++ node.sent).foldl PresenceCommand.tell
        (PresenceCommand.tell (node.notified.headD false) command)) = !node.opened.isEmpty := by
    rw [← h]
    unfold willTell
    rw [hcons]
    rfl
  cases command with
  | hset expiresAt notifies =>
    refine (willTell_issue _).trans (Eq.trans ?_ hbefore)
    cases notifies with
    | true => exact Bool.or_true _
    | false => exact congrArg (· || _) (Bool.or_false _)
  | expire notifies =>
    cases notifies with
    | true => exact hbefore
    | false => exact hbefore
  | hdel => exact hbefore

end PresenceNode

/-- What the condition says of one step. -/
def InOrder (s : PresenceState) (action : PresenceAction) : Prop :=
  WithinTtl s action ∧ OpeningAnswered s action

section Runs

variable {s : PresenceState} {nodeId : String} {node : PresenceNode} {action : PresenceAction}

def PresenceState.Tells (s : PresenceState) : Prop := ∀ nodeId, (s.nodes nodeId).Tells

theorem PresenceState.Tells.setNode (h : s.Tells) (hnode : node.Tells) :
    (s.setNode nodeId node).Tells := by
  intro other
  show (Function.update s.nodes nodeId node other).Tells
  by_cases hother : other = nodeId
  · subst hother
    rw [Function.update_self]
    exact hnode
  · rw [Function.update_of_ne hother]
    exact h other

theorem nodes_tick (now : Int) : (s.tick now).nodes = s.nodes := by
  unfold PresenceState.tick
  dsimp only
  split
  · split <;> rfl
  · rfl

/-- What every step keeps of the notifications. -/
theorem presenceStep_tells (hanswered : OpeningAnswered s action) (hsettles : s.Settles)
    (h : s.Tells) : (presenceStep s action).Tells := by
  cases action with
  | markConnected nodeId connectionId =>
    exact h.setNode ((h nodeId).markConnected (hsettles.nodes nodeId))
  | markDisconnected nodeId connectionId =>
    exact h.setNode ((h nodeId).markDisconnected (hsettles.nodes nodeId) hanswered)
  | refresh nodeId => exact h.setNode (h nodeId).refresh
  | execute nodeId =>
    unfold presenceStep
    dsimp only
    split
    · next command sent hsent =>
      -- the command goes from one queue to the other
      have hnode : PresenceNode.Tells
          { s.nodes nodeId with sent, replies := (s.nodes nodeId).replies ++ [command] } := by
        have htells := h nodeId
        unfold PresenceNode.Tells PresenceNode.willTell PresenceNode.unanswered at htells ⊢
        rw [hsent] at htells
        rwa [List.append_assoc]
      refine PresenceState.Tells.setNode (fun other => ?_) hnode
      rw [PresenceState.nodes_redis]
      exact h other
    · exact h
  | answer nodeId =>
    unfold presenceStep
    dsimp only
    split
    · next command replies hreplies => exact h.setNode ((h nodeId).goOn hreplies)
    · exact h
  | clock now =>
    intro other
    rw [presenceStep, nodes_tick]
    exact h other

theorem PresenceState.agrees (hsettles : s.Settles) (htells : s.Tells) (hquiet : s.Quiet) :
    s.Agrees := by
  refine ⟨connected_iff_open hsettles fun nodeId => (hquiet nodeId).1, fun nodeId => ?_⟩
  have htells := htells nodeId
  unfold PresenceNode.Tells PresenceNode.willTell PresenceNode.unanswered at htells
  rwa [(hquiet nodeId).1, (hquiet nodeId).2] at htells

end Runs

/-- In every run in which the refreshes come in time and the last connection of a node is
closed only after the first answer of its opening: once every call has finished, presence
and the last notification of each node agree with the connections. -/
theorem presence_agrees (actions : List PresenceAction)
    (h : Along presenceStep InOrder nobody actions)
    (hquiet : (actions.foldl presenceStep nobody).Quiet) :
    (actions.foldl presenceStep nobody).Agrees := by
  have hkept : (actions.foldl presenceStep nobody).Settles ∧
      (actions.foldl presenceStep nobody).Tells := by
    have hstep : ∀ s action, InOrder s action → s.Settles ∧ s.Tells →
        (presenceStep s action).Settles ∧ (presenceStep s action).Tells := by
      rintro s action ⟨hwithin, hanswered⟩ ⟨hsettles, htells⟩
      exact ⟨presenceStep_fields hwithin hsettles, presenceStep_tells hanswered hsettles htells⟩
    exact h.invariant hstep ⟨nobody_settles, fun _ => rfl⟩
  exact PresenceState.agrees hkept.1 hkept.2 hquiet

/-! ## Runs of one node -/

def PresenceAction.nodeId : PresenceAction → Option String
  | .markConnected nodeId _ => some nodeId
  | .markDisconnected nodeId _ => some nodeId
  | .refresh nodeId => some nodeId
  | .execute nodeId => some nodeId
  | .answer nodeId => some nodeId
  | .clock _ => none

theorem nodes_of_other {s : PresenceState} {action : PresenceAction} {nodeId : String}
    (h : action.nodeId ≠ some nodeId) : (presenceStep s action).nodes nodeId = s.nodes nodeId := by
  have hother {other : String} (h : some other ≠ some nodeId) : nodeId ≠ other :=
    fun hsame => h (congrArg some hsame.symm)
  cases action with
  | markConnected other connectionId => exact Function.update_of_ne (hother h) _ _
  | markDisconnected other connectionId => exact Function.update_of_ne (hother h) _ _
  | refresh other => exact Function.update_of_ne (hother h) _ _
  | execute other =>
    unfold presenceStep
    dsimp only
    split
    · refine (Function.update_of_ne (hother h) _ _).trans ?_
      rw [PresenceState.nodes_redis]
    · rfl
  | answer other =>
    unfold presenceStep
    dsimp only
    split
    · exact Function.update_of_ne (hother h) _ _
    · rfl
  | clock now => rw [presenceStep, nodes_tick]

/-- The actions of other nodes leave a node as it is. -/
theorem nodes_foldl_of_other {s : PresenceState} {actions : List PresenceAction} {nodeId : String}
    (h : ∀ action ∈ actions, action.nodeId ≠ some nodeId) :
    (actions.foldl presenceStep s).nodes nodeId = s.nodes nodeId := by
  induction actions generalizing s with
  | nil => rfl
  | cons action actions ih =>
    obtain ⟨hhead, htail⟩ := List.forall_mem_cons.mp h
    exact (ih htail).trans (nodes_of_other hhead)

/-- What a run of one node leaves quiet. -/
theorem quiet_of_node {actions : List PresenceAction} (nodeId : String)
    (hnode : ∀ action ∈ actions, action.nodeId = some nodeId)
    (hquiet : ((actions.foldl presenceStep nobody).nodes nodeId).sent = [] ∧
      ((actions.foldl presenceStep nobody).nodes nodeId).replies = []) :
    (actions.foldl presenceStep nobody).Quiet := by
  intro other
  by_cases hother : other = nodeId
  · subst hother
    exact hquiet
  · rw [nodes_foldl_of_other]
    · exact ⟨rfl, rfl⟩
    · intro action hmem hsame
      exact hother (Option.some.inj (hsame.symm.trans (hnode action hmem)))

/-- A socket of one node, opened, refreshed and closed. -/
def exSocket : List PresenceAction :=
  [.markConnected "a" "socket-1", .execute "a", .answer "a", .execute "a", .answer "a",
    .refresh "a", .execute "a", .markDisconnected "a" "socket-1", .answer "a", .execute "a",
    .execute "a", .answer "a", .answer "a"]

theorem exSocket_inOrder : Along presenceStep InOrder nobody exSocket := by
  repeat
    first
    | exact along_nil
    | refine along_cons.mpr ⟨⟨trivial, trivial⟩, ?_⟩
    | refine along_cons.mpr ⟨⟨trivial, fun _ => rfl⟩, ?_⟩

theorem presence_agrees_exSocket : (exSocket.foldl presenceStep nobody).Agrees :=
  presence_agrees exSocket exSocket_inOrder (quiet_of_node "a" (by decide) (by decide))

/-- A connection that is closed before the answer to its first command: the opening has two
commands and the closing one, and is told last. -/
def exQuick : List PresenceAction :=
  [.markConnected "a" "socket-1", .markDisconnected "a" "socket-1", .execute "a", .execute "a",
    .answer "a", .answer "a", .execute "a", .answer "a"]

theorem exQuick_withinTtl : Along presenceStep WithinTtl nobody exQuick := by
  repeat
    first
    | exact along_nil
    | refine along_cons.mpr ⟨trivial, ?_⟩

/-- The refreshes alone do not make the notifications right. -/
theorem quick_close_told_open :
    ¬ ∀ actions : List PresenceAction, Along presenceStep WithinTtl nobody actions →
      (actions.foldl presenceStep nobody).Quiet → (actions.foldl presenceStep nobody).Agrees := by
  intro h
  have hagrees := h exQuick exQuick_withinTtl (quiet_of_node "a" (by decide) (by decide))
  have htold := hagrees.notified "a"
  revert htold
  decide

end KasterCti.Realtime
