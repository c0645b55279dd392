import Mathlib.Data.List.Sort
import KasterCti.Library.Trace

/-!
# Share rules and queue members

A share rule gives its agents to its branches. `ShareRulesService` writes them into the
queues of the branches, where a call finds them: `putAgents` and `putBranches` replace the
members of the queues of the rule's present branches, `update` and `remove` write no
members at all.

Results:
1. `mem_resolveShareRuleAgentIds`: who the agents of a rule are.
2. `determined_step_iff`: which operation leaves every queue with the agents of its rules.
3. `queues_determined_iff`: which runs of operations do.
4. `deactivated_rule_leaves_members`: a rule that is switched off.
-/

namespace KasterCti.ShareRules

open Trace

/-! ## 1. The service -/

structure AgentRow where
  agentId : String
  agentGroupId : Option String
  isActive : Bool

/-- What the service reads of a tenant and never writes. The agents are in the order of
their `agentCode`. -/
structure Directory where
  agents : List AgentRow
  /-- `branchQueues`: branch and queue. -/
  branchQueues : List (String × String)

structure RuleAgent where
  agentId : String
  priority : Nat

structure RuleAgentGroup where
  agentGroupId : String
  priority : Nat

structure RuleBranch where
  branchId : String
  mainPhone : Option String
  transferPhone : Option String
deriving DecidableEq

/-- A row of `shareRules` with the rows that go with it when it is deleted. -/
structure ShareRule where
  ruleCode : String
  ruleName : String
  description : Option String
  isActive : Bool
  agents : List RuleAgent
  agentGroups : List RuleAgentGroup
  branches : List RuleBranch

structure QueueMember where
  agentId : String
  penalty : Nat
  memberOrder : Nat
  isActive : Bool

/-- The tables that the service writes, of one tenant. -/
structure Db where
  shareRules : String → Option ShareRule
  queueAgentMembers : String → List QueueMember

structure AgentEntryDto where
  agentId : String
  priority : Option Nat

structure AgentGroupEntryDto where
  agentGroupId : String
  priority : Option Nat

structure UpdateShareRuleDto where
  ruleCode : Option String
  ruleName : Option String
  description : Option String
  isActive : Option Bool

inductive ShareRuleError
  | notFound (message : String)
  | badRequest (message : String)

structure SyncResult where
  queueCount : Nat
  memberCount : Nat

section Service

variable (dir : Directory)

def Directory.isActive (agentId : String) : Bool :=
  dir.agents.any fun agent => agent.agentId = agentId && agent.isActive

/-- The active agents of a group. -/
def Directory.groupAgents (agentGroupId : String) : List String :=
  (dir.agents.filter fun agent => agent.isActive && agent.agentGroupId = some agentGroupId).map
    (·.agentId)

/-- `if (!ordered.has(agentId)) ordered.set(agentId, priority)` -/
def setOnce (ordered : List (String × Nat)) (agentId : String) (priority : Nat) :
    List (String × Nat) :=
  if ordered.any (·.1 = agentId) then ordered else ordered ++ [(agentId, priority)]

/-- Rows of one priority come in the order in which they were written. -/
def resolveShareRuleAgentIds (rule : ShareRule) : List String :=
  let direct := (rule.agents.insertionSort (·.priority ≤ ·.priority)).foldl
    (fun ordered item =>
      if dir.isActive item.agentId then setOnce ordered item.agentId item.priority else ordered) []
  let ordered := (rule.agentGroups.insertionSort (·.priority ≤ ·.priority)).foldl
    (fun ordered group =>
      (dir.groupAgents group.agentGroupId).foldl (setOnce · · group.priority) ordered) direct
  (ordered.insertionSort (·.2 ≤ ·.2)).map (·.1)

/-- The queues of the rule's branches. -/
def queueIds (rule : ShareRule) : List String :=
  let branchIds := (rule.branches.map (·.branchId)).eraseDups
  ((dir.branchQueues.filter fun row => branchIds.contains row.1).map (·.2)).eraseDups

/-- What `createMany` inserts into each queue. -/
def memberRows (orderedAgentIds : List String) : List QueueMember :=
  orderedAgentIds.zipIdx.map fun (agentId, index) => ⟨agentId, 0, index, true⟩

/-- Without branches the rule has no queues, and without queues nothing is written. -/
def syncQueueMembersForShareRule (db : Db) (shareRuleId : String) : SyncResult × Db :=
  match db.shareRules shareRuleId with
  | none => (⟨0, 0⟩, db)
  | some rule =>
    if !rule.isActive then (⟨0, 0⟩, db)
    else if queueIds dir rule = [] then (⟨0, 0⟩, db)
    else
      let orderedAgentIds := resolveShareRuleAgentIds dir rule
      (⟨(queueIds dir rule).length, orderedAgentIds.length⟩,
        { db with
          queueAgentMembers := fun queueId =>
            if (queueIds dir rule).contains queueId then memberRows orderedAgentIds
            else db.queueAgentMembers queueId })

def Db.setRule (db : Db) (shareRuleId : String) (rule : Option ShareRule) : Db :=
  { db with shareRules := fun id => if id = shareRuleId then rule else db.shareRules id }

/-- `shareRules.findFirst`, with the error of every operation. -/
def Db.find (db : Db) (shareRuleId : String) : Except ShareRuleError ShareRule :=
  match db.shareRules shareRuleId with
  | some rule => .ok rule
  | none => .error (.notFound "shareRule not found")

def update (db : Db) (shareRuleId : String) (dto : UpdateShareRuleDto) : Except ShareRuleError Db := do
  let existing ← db.find shareRuleId
  pure (db.setRule shareRuleId (some { existing with
    ruleCode := dto.ruleCode.getD existing.ruleCode
    ruleName := dto.ruleName.getD existing.ruleName
    description := dto.description.orElse fun _ => existing.description
    isActive := dto.isActive.getD existing.isActive }))

def remove (db : Db) (shareRuleId : String) : Except ShareRuleError Db := do
  let _ ← db.find shareRuleId
  pure (db.setRule shareRuleId none)

def ruleAgents (agents : List AgentEntryDto) : List RuleAgent :=
  agents.zipIdx.map fun (a, idx) => ⟨a.agentId, a.priority.getD idx⟩

def ruleAgentGroups (agentGroups : List AgentGroupEntryDto) : List RuleAgentGroup :=
  agentGroups.zipIdx.map fun (g, idx) => ⟨g.agentGroupId, g.priority.getD idx⟩

def putAgents (db : Db) (shareRuleId : String) (agents : List AgentEntryDto)
    (agentGroups : List AgentGroupEntryDto) : Except ShareRuleError (SyncResult × Db) := do
  let rule ← db.find shareRuleId
  if ¬ (agents.map (·.agentId)).Nodup then throw (.badRequest "duplicate agentId")
  if ¬ (agentGroups.map (·.agentGroupId)).Nodup then throw (.badRequest "duplicate agentGroupId")
  pure (syncQueueMembersForShareRule dir
    (db.setRule shareRuleId (some { rule with
      agents := ruleAgents agents
      agentGroups := ruleAgentGroups agentGroups }))
    shareRuleId)

def putBranches (db : Db) (shareRuleId : String) (branches : List RuleBranch) :
    Except ShareRuleError (SyncResult × Db) := do
  let rule ← db.find shareRuleId
  if ¬ (branches.map (·.branchId)).Nodup then throw (.badRequest "duplicate branchId")
  pure (syncQueueMembersForShareRule dir
    (db.setRule shareRuleId (some { rule with branches := branches })) shareRuleId)

end Service

/-! ## 2. Who the members should be -/

/-- The agent is an active one of the rule, by himself or through a group. -/
def Shares (dir : Directory) (rule : ShareRule) (agentId : String) : Prop :=
  (∃ item ∈ rule.agents, item.agentId = agentId ∧ dir.isActive agentId = true) ∨
    ∃ group ∈ rule.agentGroups, agentId ∈ dir.groupAgents group.agentGroupId

/-- The queue is one of a branch of the rule. -/
def Serves (dir : Directory) (rule : ShareRule) (queueId : String) : Prop :=
  ∃ branch ∈ rule.branches, (branch.branchId, queueId) ∈ dir.branchQueues

def Grants (dir : Directory) (rule : ShareRule) (queueId agentId : String) : Prop :=
  rule.isActive = true ∧ Serves dir rule queueId ∧ Shares dir rule agentId

/-- A rule other than `shareRuleId` gives the agent to the queue. -/
def Others (dir : Directory) (db : Db) (shareRuleId queueId agentId : String) : Prop :=
  ∃ id rule, id ≠ shareRuleId ∧ db.shareRules id = some rule ∧ Grants dir rule queueId agentId

/-- Some active rule that contains a branch of the queue has the agent. -/
def Wanted (dir : Directory) (db : Db) (queueId agentId : String) : Prop :=
  ∃ id rule, db.shareRules id = some rule ∧ Grants dir rule queueId agentId

def Db.IsMember (db : Db) (queueId agentId : String) : Prop :=
  agentId ∈ (db.queueAgentMembers queueId).map (·.agentId)

/-- The members of every queue of a branch are exactly the agents of its rules. -/
def Determined (dir : Directory) (db : Db) : Prop :=
  ∀ branchId queueId, (branchId, queueId) ∈ dir.branchQueues →
    ∀ agentId, db.IsMember queueId agentId ↔ Wanted dir db queueId agentId

variable {dir : Directory} {db : Db} {rule rule' : ShareRule} {shareRuleId queueId agentId : String}

variable {ordered : List (String × Nat)}

theorem mem_setOnce {added : String} {priority : Nat} :
    agentId ∈ (setOnce ordered added priority).map (·.1) ↔
      agentId ∈ ordered.map (·.1) ∨ agentId = added := by
  unfold setOnce
  split
  · next hthere =>
    obtain ⟨entry, hentry, heq⟩ := List.any_eq_true.1 hthere
    have hadded : added ∈ ordered.map (·.1) :=
      List.mem_map.2 ⟨entry, hentry, of_decide_eq_true heq⟩
    refine ⟨.inl, ?_⟩
    rintro (h | rfl)
    · exact h
    · exact hadded
  · simp

theorem mem_foldl_setOnce {agentIds : List String} {priority : Nat} :
    agentId ∈ (agentIds.foldl (setOnce · · priority) ordered).map (·.1) ↔
      agentId ∈ ordered.map (·.1) ∨ agentId ∈ agentIds := by
  induction agentIds generalizing ordered with
  | nil => simp
  | cons head tail ih => rw [List.foldl_cons, ih, mem_setOnce, or_assoc, List.mem_cons]

theorem mem_direct {items : List RuleAgent} :
    agentId ∈ (items.foldl (fun ordered item =>
        if dir.isActive item.agentId then setOnce ordered item.agentId item.priority else ordered)
        ordered).map (·.1) ↔
      agentId ∈ ordered.map (·.1) ∨
        ∃ item ∈ items, item.agentId = agentId ∧ dir.isActive agentId = true := by
  induction items generalizing ordered with
  | nil => simp
  | cons item items ih =>
    rw [List.foldl_cons, ih]
    cases hactive : dir.isActive item.agentId with
    | true =>
      rw [if_pos rfl, mem_setOnce, or_assoc, List.exists_mem_cons_iff]
      refine or_congr_right (or_congr_left ⟨?_, ?_⟩)
      · rintro rfl
        exact ⟨rfl, hactive⟩
      · rintro ⟨rfl, -⟩
        rfl
    | false =>
      rw [if_neg Bool.false_ne_true, List.exists_mem_cons_iff]
      refine or_congr_right (or_iff_right ?_).symm
      rintro ⟨rfl, hyes⟩
      rw [hactive] at hyes
      cases hyes

theorem mem_grouped {groups : List RuleAgentGroup} :
    agentId ∈ (groups.foldl (fun ordered group =>
        (dir.groupAgents group.agentGroupId).foldl (setOnce · · group.priority) ordered)
        ordered).map (·.1) ↔
      agentId ∈ ordered.map (·.1) ∨
        ∃ group ∈ groups, agentId ∈ dir.groupAgents group.agentGroupId := by
  induction groups generalizing ordered with
  | nil => simp
  | cons group groups ih =>
    rw [List.foldl_cons, ih, mem_foldl_setOnce, or_assoc, List.exists_mem_cons_iff]

theorem mem_resolveShareRuleAgentIds :
    agentId ∈ resolveShareRuleAgentIds dir rule ↔ Shares dir rule agentId := by
  unfold resolveShareRuleAgentIds Shares
  have hsorted : ∀ ordered : List (String × Nat),
      agentId ∈ (ordered.insertionSort (·.2 ≤ ·.2)).map (·.1) ↔ agentId ∈ ordered.map (·.1) :=
    fun ordered => ((List.perm_insertionSort _ ordered).map _).mem_iff
  rw [hsorted, mem_grouped, mem_direct]
  simp only [List.map_nil, List.not_mem_nil, false_or, List.mem_insertionSort]

theorem mem_queueIds : queueId ∈ queueIds dir rule ↔ Serves dir rule queueId := by
  simp only [queueIds, Serves, List.mem_eraseDups, List.mem_map, List.mem_filter,
    List.contains_iff_mem]
  constructor
  · rintro ⟨⟨branchId, _⟩, ⟨hrow, branch, hbranch, rfl⟩, rfl⟩
    exact ⟨branch, hbranch, hrow⟩
  · rintro ⟨branch, hbranch, hrow⟩
    exact ⟨_, ⟨hrow, branch, hbranch, rfl⟩, rfl⟩

theorem mem_memberRows {orderedAgentIds : List String} :
    agentId ∈ (memberRows orderedAgentIds).map (·.agentId) ↔ agentId ∈ orderedAgentIds := by
  have hids : (memberRows orderedAgentIds).map (·.agentId) = orderedAgentIds := by
    rw [memberRows, List.map_map]
    exact List.zipIdx_map_fst 0 orderedAgentIds
  rw [hids]

/-! ## 3. What an operation changes -/

theorem grants_mapped (h : Grants dir rule queueId agentId) :
    ∃ branchId, (branchId, queueId) ∈ dir.branchQueues := by
  obtain ⟨-, ⟨branch, -, hrow⟩, -⟩ := h
  exact ⟨_, hrow⟩

theorem wanted_setRule {row : Option ShareRule} :
    Wanted dir (db.setRule shareRuleId row) queueId agentId ↔
      (∃ rule, row = some rule ∧ Grants dir rule queueId agentId) ∨
        Others dir db shareRuleId queueId agentId := by
  constructor
  · rintro ⟨id, rule, hrule, hgrants⟩
    by_cases hid : id = shareRuleId
    · exact .inl ⟨rule, (if_pos hid).symm.trans hrule, hgrants⟩
    · exact .inr ⟨id, rule, hid, (if_neg hid).symm.trans hrule, hgrants⟩
  · rintro (⟨rule, rfl, hgrants⟩ | ⟨id, rule, hid, hrule, hgrants⟩)
    · exact ⟨shareRuleId, rule, if_pos rfl, hgrants⟩
    · exact ⟨id, rule, (if_neg hid).trans hrule, hgrants⟩

theorem wanted_iff (h : db.shareRules shareRuleId = some rule) :
    Wanted dir db queueId agentId ↔
      Grants dir rule queueId agentId ∨ Others dir db shareRuleId queueId agentId := by
  have hself : db.setRule shareRuleId (some rule) = db := by
    unfold Db.setRule
    congr 1
    funext id
    split
    · next hid => rw [hid, h]
    · rfl
  have hwanted := @wanted_setRule dir db shareRuleId queueId agentId (some rule)
  rw [hself] at hwanted
  simpa using hwanted

theorem sync_inactive (h : db.shareRules shareRuleId = some rule) (hoff : rule.isActive = false) :
    (syncQueueMembersForShareRule dir db shareRuleId).2 = db := by
  simp [syncQueueMembersForShareRule, h, hoff]

theorem sync_shareRules :
    (syncQueueMembersForShareRule dir db shareRuleId).2.shareRules = db.shareRules := by
  unfold syncQueueMembersForShareRule
  split
  · rfl
  · split
    · rfl
    · split <;> rfl

/-- The members of the queues of an active rule become its agents. -/
theorem isMember_sync (h : db.shareRules shareRuleId = some rule) (hon : rule.isActive = true) :
    (syncQueueMembersForShareRule dir db shareRuleId).2.IsMember queueId agentId ↔
      if queueId ∈ queueIds dir rule then Shares dir rule agentId
      else db.IsMember queueId agentId := by
  unfold syncQueueMembersForShareRule
  simp only [h, hon, Bool.not_true, Bool.false_eq_true, if_false]
  split
  · next hnone => simp [hnone]
  · simp only [Db.IsMember, List.contains_iff_mem]
    split
    · rw [mem_memberRows, mem_resolveShareRuleAgentIds]
    · rfl

theorem wanted_sync :
    Wanted dir (syncQueueMembersForShareRule dir db shareRuleId).2 queueId agentId ↔
      Wanted dir db queueId agentId := by
  unfold Wanted
  rw [sync_shareRules]

/-- In the queues of the rule its agents are all that the other rules give. -/
def Covers (dir : Directory) (db : Db) (shareRuleId : String) (rule : ShareRule) : Prop :=
  ∀ queueId agentId, Serves dir rule queueId → Others dir db shareRuleId queueId agentId →
    Shares dir rule agentId

/-- In a queue the other rules give all the agents of the rule. -/
def CoveredIn (dir : Directory) (db : Db) (shareRuleId : String) (rule : ShareRule)
    (queueId : String) : Prop :=
  ∀ agentId, Shares dir rule agentId → Others dir db shareRuleId queueId agentId

/-- A row that is replaced without writing members. -/
theorem determined_setRule_iff {row : Option ShareRule} (hdet : Determined dir db)
    (h : db.shareRules shareRuleId = some rule) :
    Determined dir (db.setRule shareRuleId row) ↔
      ∀ queueId agentId,
        (Grants dir rule queueId agentId →
          (∃ rule', row = some rule' ∧ Grants dir rule' queueId agentId) ∨
            Others dir db shareRuleId queueId agentId) ∧
        ∀ rule', row = some rule' → Grants dir rule' queueId agentId →
          Grants dir rule queueId agentId ∨ Others dir db shareRuleId queueId agentId := by
  constructor
  · intro hafter queueId agentId
    refine ⟨?_, ?_⟩
    · intro hgrants
      obtain ⟨branchId, hmapped⟩ := grants_mapped hgrants
      have hmember := (hdet branchId queueId hmapped agentId).2 ((wanted_iff h).2 (.inl hgrants))
      exact wanted_setRule.1 ((hafter branchId queueId hmapped agentId).1 hmember)
    · intro rule' hrow hgrants
      obtain ⟨branchId, hmapped⟩ := grants_mapped hgrants
      have hmember := (hafter branchId queueId hmapped agentId).2
        (wanted_setRule.2 (.inl ⟨rule', hrow, hgrants⟩))
      exact (wanted_iff h).1 ((hdet branchId queueId hmapped agentId).1 hmember)
  · intro hcond branchId queueId hmapped agentId
    refine (hdet branchId queueId hmapped agentId).trans ?_
    obtain ⟨hlost, hnew⟩ := hcond queueId agentId
    rw [wanted_iff h, wanted_setRule]
    constructor
    · rintro (hgrants | hother)
      · exact hlost hgrants
      · exact .inr hother
    · rintro (⟨rule', hrow, hgrants⟩ | hother)
      · exact hnew rule' hrow hgrants
      · exact .inr hother

/-- A rule whose queues are written anew. -/
theorem determined_sync_iff (hdet : Determined dir db) (h : db.shareRules shareRuleId = some rule)
    (hon : rule.isActive = true) (hon' : rule'.isActive = true) :
    Determined dir (syncQueueMembersForShareRule dir
        (db.setRule shareRuleId (some rule')) shareRuleId).2 ↔
      Covers dir db shareRuleId rule' ∧
        ∀ queueId, Serves dir rule queueId → ¬ Serves dir rule' queueId →
          CoveredIn dir db shareRuleId rule queueId := by
  have hrow : (db.setRule shareRuleId (some rule')).shareRules shareRuleId = some rule' := if_pos rfl
  have hwanted : ∀ queueId agentId, Wanted dir (syncQueueMembersForShareRule dir
      (db.setRule shareRuleId (some rule')) shareRuleId).2 queueId agentId ↔
      Grants dir rule' queueId agentId ∨ Others dir db shareRuleId queueId agentId := by
    intro queueId agentId
    rw [wanted_sync, wanted_setRule]
    simp
  constructor
  · intro hafter
    refine ⟨?_, ?_⟩
    · rintro queueId agentId hserves hother
      obtain ⟨branch, hbranch, hmapped⟩ := id hserves
      have hmember := (hafter _ queueId hmapped agentId).2 ((hwanted _ _).2 (.inr hother))
      rwa [isMember_sync hrow hon', if_pos (mem_queueIds.2 hserves)] at hmember
    · rintro queueId hserves hgone agentId hshares
      obtain ⟨branch, hbranch, hmapped⟩ := id hserves
      have hold := (hdet _ queueId hmapped agentId).2
        ((wanted_iff h).2 (.inl ⟨hon, hserves, hshares⟩))
      have hmember : (syncQueueMembersForShareRule dir (db.setRule shareRuleId (some rule'))
          shareRuleId).2.IsMember queueId agentId := by
        rwa [isMember_sync hrow hon', if_neg (mt mem_queueIds.1 hgone)]
      obtain hgrants | hother := (hwanted _ _).1 ((hafter _ queueId hmapped agentId).1 hmember)
      · exact absurd hgrants.2.1 hgone
      · exact hother
  · rintro ⟨hcovers, hleft⟩ branchId queueId hmapped agentId
    rw [isMember_sync hrow hon', hwanted]
    by_cases hserves : Serves dir rule' queueId
    · rw [if_pos (mem_queueIds.2 hserves)]
      constructor
      · exact fun hshares => .inl ⟨hon', hserves, hshares⟩
      · rintro (hgrants | hother)
        · exact hgrants.2.2
        · exact hcovers queueId agentId hserves hother
    · rw [if_neg (mt mem_queueIds.1 hserves)]
      refine (hdet branchId queueId hmapped agentId).trans ?_
      rw [wanted_iff h]
      constructor
      · rintro (hgrants | hother)
        · exact .inr (hleft queueId hgrants.2.1 hserves agentId hgrants.2.2)
        · exact .inr hother
      · rintro (hgrants | hother)
        · exact absurd hgrants.2.1 hserves
        · exact .inr hother

/-! ## 4. Runs -/

/-- One that throws writes nothing; one that fails in the database is left out of a run. -/
inductive Operation
  | putAgents (shareRuleId : String) (agents : List AgentEntryDto)
      (agentGroups : List AgentGroupEntryDto)
  | putBranches (shareRuleId : String) (branches : List RuleBranch)
  | update (shareRuleId : String) (dto : UpdateShareRuleDto)
  | remove (shareRuleId : String)

def Operation.ofRule : Operation → String
  | putAgents shareRuleId _ _ => shareRuleId
  | putBranches shareRuleId _ => shareRuleId
  | update shareRuleId _ => shareRuleId
  | remove shareRuleId => shareRuleId

def Operation.apply (dir : Directory) (db : Db) : Operation → Db
  | putAgents shareRuleId agents agentGroups =>
    ((ShareRules.putAgents dir db shareRuleId agents agentGroups).map (·.2)).toOption.getD db
  | putBranches shareRuleId branches =>
    ((ShareRules.putBranches dir db shareRuleId branches).map (·.2)).toOption.getD db
  | update shareRuleId dto => (ShareRules.update db shareRuleId dto).toOption.getD db
  | remove shareRuleId => (ShareRules.remove db shareRuleId).toOption.getD db

/-- What an operation must find, by the rules before it:
* a rule whose queues are written anew has every agent that other active rules give to
  these queues, and in a queue that it leaves they give every agent of the rule;
* where an active rule is switched off or deleted, or one is switched on, the other active
  rules give all of its agents to all of its queues. -/
def Keeps (dir : Directory) (db : Db) : Operation → Prop
  | .putAgents shareRuleId agents agentGroups => ∀ rule, db.shareRules shareRuleId = some rule →
    (agents.map (·.agentId)).Nodup → (agentGroups.map (·.agentGroupId)).Nodup →
    rule.isActive = true →
    Covers dir db shareRuleId { rule with
      agents := ruleAgents agents, agentGroups := ruleAgentGroups agentGroups }
  | .putBranches shareRuleId branches => ∀ rule, db.shareRules shareRuleId = some rule →
    (branches.map (·.branchId)).Nodup → rule.isActive = true →
    Covers dir db shareRuleId { rule with branches := branches } ∧
      ∀ queueId, Serves dir rule queueId → ¬ Serves dir { rule with branches := branches } queueId →
        CoveredIn dir db shareRuleId rule queueId
  | .update shareRuleId dto => ∀ rule, db.shareRules shareRuleId = some rule →
    dto.isActive.getD rule.isActive ≠ rule.isActive →
    ∀ queueId, Serves dir rule queueId → CoveredIn dir db shareRuleId rule queueId
  | .remove shareRuleId => ∀ rule, db.shareRules shareRuleId = some rule → rule.isActive = true →
    ∀ queueId, Serves dir rule queueId → CoveredIn dir db shareRuleId rule queueId

section Operations

variable {agents : List AgentEntryDto} {agentGroups : List AgentGroupEntryDto}
  {branches : List RuleBranch} {dto : UpdateShareRuleDto}

theorem find_none (h : db.shareRules shareRuleId = none) :
    db.find shareRuleId = .error (.notFound "shareRule not found") := by
  rw [Db.find, h]

theorem find_some (h : db.shareRules shareRuleId = some rule) : db.find shareRuleId = .ok rule := by
  rw [Db.find, h]

theorem apply_putAgents (h : db.shareRules shareRuleId = some rule) :
    (Operation.putAgents shareRuleId agents agentGroups).apply dir db =
      if (agents.map (·.agentId)).Nodup ∧ (agentGroups.map (·.agentGroupId)).Nodup then
        (syncQueueMembersForShareRule dir (db.setRule shareRuleId (some { rule with
          agents := ruleAgents agents, agentGroups := ruleAgentGroups agentGroups })) shareRuleId).2
      else db := by
  rw [Operation.apply, putAgents, find_some h]
  by_cases hagents : (agents.map (·.agentId)).Nodup
  · by_cases hgroups : (agentGroups.map (·.agentGroupId)).Nodup
    · simp [hagents, hgroups, bind, Except.bind, pure, Except.pure, Except.map, Except.toOption]
    · simp [hagents, hgroups, bind, Except.bind, throw, throwThe, MonadExceptOf.throw, Except.map,
        Except.toOption]
  · simp [hagents, bind, Except.bind, throw, throwThe, MonadExceptOf.throw, Except.map,
      Except.toOption]

theorem apply_putBranches (h : db.shareRules shareRuleId = some rule) :
    (Operation.putBranches shareRuleId branches).apply dir db =
      if (branches.map (·.branchId)).Nodup then
        (syncQueueMembersForShareRule dir
          (db.setRule shareRuleId (some { rule with branches := branches })) shareRuleId).2
      else db := by
  rw [Operation.apply, putBranches, find_some h]
  by_cases hbranches : (branches.map (·.branchId)).Nodup
  · simp [hbranches, bind, Except.bind, pure, Except.pure, Except.map, Except.toOption]
  · simp [hbranches, bind, Except.bind, throw, throwThe, MonadExceptOf.throw, Except.map,
      Except.toOption]

/-- A rule that is not active gives nobody, whatever else is in it. -/
theorem determined_resync_iff (hdet : Determined dir db)
    (h : db.shareRules shareRuleId = some rule) (hsame : rule'.isActive = rule.isActive) :
    Determined dir (syncQueueMembersForShareRule dir
        (db.setRule shareRuleId (some rule')) shareRuleId).2 ↔
      (rule.isActive = true → Covers dir db shareRuleId rule' ∧
        ∀ queueId, Serves dir rule queueId → ¬ Serves dir rule' queueId →
          CoveredIn dir db shareRuleId rule queueId) := by
  by_cases hon : rule.isActive = true
  · rw [determined_sync_iff hdet h hon (hsame.trans hon)]
    exact ⟨fun hcond _ => hcond, fun hcond => hcond hon⟩
  · refine iff_of_true ?_ fun hyes => absurd hyes hon
    have hoff' : ¬ rule'.isActive = true := by rwa [hsame]
    rw [sync_inactive (if_pos rfl) (Bool.eq_false_of_not_eq_true hoff'),
      determined_setRule_iff hdet h]
    refine fun queueId agentId => ⟨fun hgrants => absurd hgrants.1 hon, ?_⟩
    rintro _ ⟨⟩ hgrants
    exact absurd hgrants.1 hoff'

theorem forall_row_iff (h : db.shareRules shareRuleId = some rule) {P : ShareRule → Prop} :
    (∀ rule, db.shareRules shareRuleId = some rule → P rule) ↔ P rule := by
  refine ⟨fun hall => hall rule h, ?_⟩
  intro hP rule₁ hrule₁
  obtain rfl : rule = rule₁ := Option.some.inj (h.symm.trans hrule₁)
  exact hP

theorem forall_no_row (h : db.shareRules shareRuleId = none) {P : ShareRule → Prop} :
    ∀ rule, db.shareRules shareRuleId = some rule → P rule := by
  intro rule hrule
  rw [h] at hrule
  cases hrule

theorem putAgents_step_iff (hdet : Determined dir db) :
    Determined dir ((Operation.putAgents shareRuleId agents agentGroups).apply dir db) ↔
      Keeps dir db (.putAgents shareRuleId agents agentGroups) := by
  cases hrule : db.shareRules shareRuleId with
  | none =>
    refine iff_of_true ?_ (forall_no_row hrule)
    rw [Operation.apply, putAgents, find_none hrule]
    exact hdet
  | some rule =>
    rw [apply_putAgents hrule, Keeps, forall_row_iff hrule]
    by_cases hnodup : (agents.map (·.agentId)).Nodup ∧ (agentGroups.map (·.agentGroupId)).Nodup
    · rw [if_pos hnodup, determined_resync_iff hdet hrule (by rfl)]
      constructor
      · intro hcond _ _ hon
        exact (hcond hon).1
      · intro hcovers hon
        -- the branches stay, so the rule leaves no queue
        exact ⟨hcovers hnodup.1 hnodup.2 hon, fun _ hserves hgone => absurd hserves hgone⟩
    · rw [if_neg hnodup]
      exact iff_of_true hdet fun hagents hgroups => absurd ⟨hagents, hgroups⟩ hnodup

theorem putBranches_step_iff (hdet : Determined dir db) :
    Determined dir ((Operation.putBranches shareRuleId branches).apply dir db) ↔
      Keeps dir db (.putBranches shareRuleId branches) := by
  cases hrule : db.shareRules shareRuleId with
  | none =>
    refine iff_of_true ?_ (forall_no_row hrule)
    rw [Operation.apply, putBranches, find_none hrule]
    exact hdet
  | some rule =>
    rw [apply_putBranches hrule, Keeps, forall_row_iff hrule]
    by_cases hnodup : (branches.map (·.branchId)).Nodup
    · rw [if_pos hnodup, determined_resync_iff hdet hrule (by rfl)]
      exact ⟨fun hcond _ => hcond, fun hcond => hcond hnodup⟩
    · rw [if_neg hnodup]
      exact iff_of_true hdet fun hbranches => absurd hbranches hnodup

theorem update_step_iff (hdet : Determined dir db) :
    Determined dir ((Operation.update shareRuleId dto).apply dir db) ↔
      Keeps dir db (.update shareRuleId dto) := by
  cases hrule : db.shareRules shareRuleId with
  | none =>
    refine iff_of_true ?_ (forall_no_row hrule)
    rw [Operation.apply, update, find_none hrule]
    exact hdet
  | some rule =>
    have hupdate : (Operation.update shareRuleId dto).apply dir db = db.setRule shareRuleId
        (some { rule with
          ruleCode := dto.ruleCode.getD rule.ruleCode
          ruleName := dto.ruleName.getD rule.ruleName
          description := dto.description.orElse fun _ => rule.description
          isActive := dto.isActive.getD rule.isActive }) := by
      rw [Operation.apply, update, find_some hrule]
      rfl
    rw [hupdate, determined_setRule_iff hdet hrule, Keeps, forall_row_iff hrule]
    constructor
    · intro hcond hchanged queueId hserves agentId hshares
      obtain ⟨hlost, hnew⟩ := hcond queueId agentId
      by_cases hon : rule.isActive = true
      · obtain ⟨_, ⟨⟩, hgrants⟩ | hother := hlost ⟨hon, hserves, hshares⟩
        · exact absurd (hgrants.1.trans hon.symm) hchanged
        · exact hother
      · have hon' : dto.isActive.getD rule.isActive = true := by
          rw [Bool.eq_false_of_not_eq_true hon] at hchanged ⊢
          simpa using hchanged
        obtain hgrants | hother := hnew _ rfl ⟨hon', hserves, hshares⟩
        · exact absurd hgrants.1 hon
        · exact hother
    · intro hkeeps queueId agentId
      by_cases hchanged : dto.isActive.getD rule.isActive = rule.isActive
      · refine ⟨?_, ?_⟩
        · rintro ⟨hon, hserves, hshares⟩
          exact .inl ⟨_, rfl, hchanged.trans hon, hserves, hshares⟩
        · rintro _ ⟨⟩ ⟨hon, hserves, hshares⟩
          exact .inl ⟨hchanged.symm.trans hon, hserves, hshares⟩
      · refine ⟨?_, ?_⟩
        · rintro ⟨-, hserves, hshares⟩
          exact .inr (hkeeps hchanged queueId hserves agentId hshares)
        · rintro _ ⟨⟩ ⟨-, hserves, hshares⟩
          exact .inr (hkeeps hchanged queueId hserves agentId hshares)

theorem remove_step_iff (hdet : Determined dir db) :
    Determined dir ((Operation.remove shareRuleId).apply dir db) ↔
      Keeps dir db (.remove shareRuleId) := by
  cases hrule : db.shareRules shareRuleId with
  | none =>
    refine iff_of_true ?_ (forall_no_row hrule)
    rw [Operation.apply, remove, find_none hrule]
    exact hdet
  | some rule =>
    have hremove : (Operation.remove shareRuleId).apply dir db = db.setRule shareRuleId none := by
      rw [Operation.apply, remove, find_some hrule]
      rfl
    rw [hremove, determined_setRule_iff hdet hrule, Keeps, forall_row_iff hrule]
    constructor
    · intro hcond hon queueId hserves agentId hshares
      obtain ⟨_, ⟨⟩, _⟩ | hother := (hcond queueId agentId).1 ⟨hon, hserves, hshares⟩
      exact hother
    · intro hkeeps queueId agentId
      refine ⟨?_, fun _ => nofun⟩
      rintro ⟨hon, hserves, hshares⟩
      exact .inr (hkeeps hon queueId hserves agentId hshares)

theorem setRule_other {row : Option ShareRule} {id : String} (h : shareRuleId ≠ id) :
    (db.setRule shareRuleId row).shareRules id = db.shareRules id := if_neg h.symm

/-- An operation writes no rule but its own. -/
theorem apply_other {op : Operation} {id : String} (h : op.ofRule ≠ id) :
    (op.apply dir db).shareRules id = db.shareRules id := by
  cases op with
  | putAgents shareRuleId agents agentGroups =>
    cases hrule : db.shareRules shareRuleId with
    | none =>
      rw [Operation.apply, putAgents, find_none hrule]
      rfl
    | some rule =>
      rw [apply_putAgents hrule]
      split
      · rw [sync_shareRules]
        exact setRule_other h
      · rfl
  | putBranches shareRuleId branches =>
    cases hrule : db.shareRules shareRuleId with
    | none =>
      rw [Operation.apply, putBranches, find_none hrule]
      rfl
    | some rule =>
      rw [apply_putBranches hrule]
      split
      · rw [sync_shareRules]
        exact setRule_other h
      · rfl
  | update shareRuleId dto =>
    rw [Operation.apply, update]
    cases hrule : db.shareRules shareRuleId with
    | none =>
      rw [find_none hrule]
      rfl
    | some rule =>
      rw [find_some hrule]
      exact setRule_other h
  | remove shareRuleId =>
    rw [Operation.apply, remove]
    cases hrule : db.shareRules shareRuleId with
    | none =>
      rw [find_none hrule]
      rfl
    | some rule =>
      rw [find_some hrule]
      exact setRule_other h

theorem foldl_apply_other {id : String} (ops : List Operation)
    (h : ∀ op ∈ ops, op.ofRule ≠ id) :
    (ops.foldl (Operation.apply dir) db).shareRules id = db.shareRules id := by
  induction ops generalizing db with
  | nil => rfl
  | cons op ops ih =>
    obtain ⟨hhead, htail⟩ := List.forall_mem_cons.1 h
    rw [List.foldl_cons, ih htail, apply_other hhead]

end Operations

theorem determined_step_iff (op : Operation) (hdet : Determined dir db) :
    Determined dir (op.apply dir db) ↔ Keeps dir db op := by
  cases op with
  | putAgents shareRuleId agents agentGroups => exact putAgents_step_iff hdet
  | putBranches shareRuleId branches => exact putBranches_step_iff hdet
  | update shareRuleId dto => exact update_step_iff hdet
  | remove shareRuleId => exact remove_step_iff hdet

/-- From queues that hold the agents of their rules on, every state of a run has such
queues exactly when every operation meets `Keeps`. -/
theorem queues_determined_iff (dir : Directory) (db : Db) (hdet : Determined dir db)
    (ops : List Operation) :
    (∀ pre post, ops = pre ++ post → Determined dir (pre.foldl (Operation.apply dir) db)) ↔
      Along (Operation.apply dir) (Keeps dir) db ops :=
  always_iff_along (fun _ op => determined_step_iff op) hdet

/-! ## 5. A rule that is switched off -/

/-- One agent, and one branch with one queue. -/
def exDirectory : Directory := ⟨[⟨"agent", none, true⟩], [("branch", "queue")]⟩

/-- An active rule without agents and branches. -/
def exDb : Db where
  shareRules := fun id =>
    if id = "rule" then some ⟨"R1", "rule one", none, true, [], [], []⟩ else none
  queueAgentMembers := fun _ => []

def exFill : List Operation :=
  [.putAgents "rule" [⟨"agent", none⟩] [], .putBranches "rule" [⟨"branch", none, none⟩]]

theorem exDb_determined : Determined exDirectory exDb := by
  rintro branchId queueId - agentId
  refine iff_of_false (List.not_mem_nil) ?_
  rintro ⟨id, rule, hrule, -, ⟨branch, hbranch, -⟩, -⟩
  simp only [exDb] at hrule
  split at hrule
  · cases hrule
    cases hbranch
  · cases hrule

def exSwitchedOff : List Operation :=
  exFill ++ [Operation.update "rule" ⟨none, none, none, some false⟩]

/-- There is one rule only, and so it stays. -/
theorem exDb_only (ops : List Operation) (hops : ∀ op ∈ ops, op.ofRule = "rule") {id : String}
    (hid : id ≠ "rule") : (ops.foldl (Operation.apply exDirectory) exDb).shareRules id = none := by
  have hframe := @foldl_apply_other exDirectory exDb id ops fun op hop =>
    (hops op hop).trans_ne hid.symm
  exact hframe.trans (if_neg hid)

theorem exDb_others (ops : List Operation) (hops : ∀ op ∈ ops, op.ofRule = "rule")
    {queueId agentId : String} :
    ¬ Others exDirectory (ops.foldl (Operation.apply exDirectory) exDb) "rule" queueId agentId := by
  rintro ⟨id, rule, hid, hrule, -⟩
  rw [exDb_only ops hops hid] at hrule
  cases hrule

theorem queues_determined_filled :
    (exFill.foldl (Operation.apply exDirectory) exDb).IsMember "queue" "agent" ∧
      ∀ pre post, exFill = pre ++ post →
        Determined exDirectory (pre.foldl (Operation.apply exDirectory) exDb) := by
  refine ⟨?_, (queues_determined_iff exDirectory exDb exDb_determined exFill).2 ?_⟩
  · unfold Db.IsMember
    decide
  refine along_cons.2 ⟨?_, along_cons.2 ⟨?_, along_nil⟩⟩
  · intro rule _ _ _ _ queueId agentId _ hother
    exact absurd hother (exDb_others [] (List.forall_mem_nil _))
  · intro rule hrule _ _
    refine ⟨?_, ?_⟩
    · intro queueId agentId _ hother
      refine absurd hother (exDb_others [.putAgents "rule" [⟨"agent", none⟩] []] ?_)
      simp [Operation.ofRule]
    rintro queueId ⟨branch, hbranch, -⟩
    -- the rule has had no branch so far
    have hnone : ((Operation.apply exDirectory exDb
        (.putAgents "rule" [⟨"agent", none⟩] [])).shareRules "rule").map (·.branches) = some [] := by
      decide
    rw [hrule, Option.map_some, Option.some.injEq] at hnone
    rw [hnone] at hbranch
    cases hbranch

/-- The rule is switched off, and its agent stays in the queue. -/
theorem deactivated_rule_leaves_members :
    ¬ ∀ pre post, exSwitchedOff = pre ++ post →
      Determined exDirectory (pre.foldl (Operation.apply exDirectory) exDb) := by
  intro h
  have hdet := h exSwitchedOff [] (List.append_nil _).symm
  have hmember : (exSwitchedOff.foldl
      (Operation.apply exDirectory) exDb).IsMember "queue" "agent" := by
    unfold Db.IsMember
    decide
  obtain ⟨id, rule, hrule, hon, -⟩ := (hdet "branch" "queue" (by decide) "agent").1 hmember
  by_cases hid : id = "rule"
  · subst hid
    have hoff : ((exSwitchedOff.foldl
        (Operation.apply exDirectory) exDb).shareRules "rule").map (·.isActive) = some false := by
      decide
    rw [hrule, Option.map_some, hon] at hoff
    cases hoff
  · rw [exDb_only _ (by simp [exSwitchedOff, exFill, Operation.ofRule]) hid] at hrule
    cases hrule

end KasterCti.ShareRules
