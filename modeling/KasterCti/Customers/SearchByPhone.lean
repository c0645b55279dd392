import KasterCti.Customers.CustomerPhones
import Mathlib

/-!
# The screen pop

`CustomersService.searchByPhone` takes ten active phones with the number and keeps those of
the tenant. The query has no order: the lists of a database are in the order in which it
returns the rows.

Results:
1. `search_agree_of_few`: while no more than ten active phones have the number, the rows of
   the other tenants do not matter.
2. `search_independent_iff`: the answer for a tenant depends on the rows of the others
   exactly where the tenant knows the number.
3. `crowded_out`: ten customers of another tenant.
-/

namespace KasterCti.Customers

open JsText

/-! ## 1. The database -/

/-- The other columns of `customers`. -/
structure CustomerProfile where
  customerName : Option String
  grade : Option String
  memo : Option String
  lastCalledAt : Option Int
deriving DecidableEq

/-- What is selected of a call. -/
structure RecentCall where
  callId : String
  direction : String
  sessionStatus : String
  startedAt : Int
  endedAt : Option Int
  talkSeconds : Int
  primaryAgentId : Option String
  queueName : Option String
deriving DecidableEq

structure CallRow where
  tenantId : String
  customerId : Option Nat
  call : RecentCall

def phoneKey (p : CustomerPhone) : Nat × String := (p.customerId, p.normalizedPhone)

/-- The tables, with the constraints of the schema. -/
structure Database where
  tables : CustomerTables
  profiles : Nat → CustomerProfile
  calls : List CallRow
  numbered : Numbered tables
  owned : ∀ p ∈ tables.phones, (tables.customers p.customerId).isSome = true
  unique : (tables.phones.map phoneKey).Nodup

structure PhoneMatch where
  customerId : Nat
  customer : Customer
  profile : CustomerProfile
  recentCalls : List RecentCall
deriving DecidableEq

namespace Database

/-- The active phones with a number. -/
def hits (db : Database) (phone : String) : List CustomerPhone :=
  db.tables.phones.filter fun p => p.normalizedPhone = phone && p.isActive

/-- The five last calls of a customer. -/
def recentCalls (db : Database) (tenantId : String) (customerId : Nat) : List RecentCall :=
  let rows := db.calls.filter fun row => row.customerId = some customerId && row.tenantId = tenantId
  ((rows.map (·.call)).insertionSort fun a b => b.startedAt ≤ a.startedAt).take 5

/-- The owner of a phone, where it is an active customer of the tenant. -/
def matchOf (db : Database) (tenantId : String) (p : CustomerPhone) : Option PhoneMatch :=
  (db.tables.findActive tenantId p.customerId).map fun customer =>
    ⟨p.customerId, customer, db.profiles p.customerId, db.recentCalls tenantId p.customerId⟩

def searchByPhone (db : Database) (tenantId rawPhone : String) : List PhoneMatch :=
  let phone := normalizePhone rawPhone
  if phone = "" then []
  else ((db.hits phone).take 10).filterMap (db.matchOf tenantId)

end Database

/-! ## 2. Independence -/

/-- The phone is one of the tenant's. -/
def Database.holds (db : Database) (tenantId : String) (p : CustomerPhone) : Prop :=
  p ∈ db.tables.phones ∧ ∃ c ∈ db.tables.customers p.customerId, c.tenantId = tenantId

/-- The same rows of a tenant. -/
structure AgreeOn (tenantId : String) (db db' : Database) : Prop where
  customers : ∀ id c, c.tenantId = tenantId →
    (c ∈ db.tables.customers id ↔ c ∈ db'.tables.customers id)
  profiles : ∀ id, ∀ c ∈ db.tables.customers id, c.tenantId = tenantId →
    db.profiles id = db'.profiles id
  phones : ∀ p, db.holds tenantId p ↔ db'.holds tenantId p
  calls : ∀ row, row.tenantId = tenantId → (row ∈ db.calls ↔ row ∈ db'.calls)

/-- The answer for the tenant does not depend on the rows of the others. -/
def Independent (db : Database) (tenantId rawPhone : String) : Prop :=
  ∀ db', AgreeOn tenantId db db' →
    ∀ m, m ∈ db.searchByPhone tenantId rawPhone ↔ m ∈ db'.searchByPhone tenantId rawPhone

/-- An active customer of the tenant has an active phone with the number. -/
def Database.Knows (db : Database) (tenantId rawPhone : String) : Prop :=
  normalizePhone rawPhone ≠ "" ∧
    ∃ p ∈ db.hits (normalizePhone rawPhone), (db.tables.findActive tenantId p.customerId).isSome = true

variable {db db' : Database} {tenantId rawPhone : String}

/-- With at most ten active phones with the number, the search misses none. -/
theorem mem_search_of_few (hphone : normalizePhone rawPhone ≠ "")
    (hfew : (db.hits (normalizePhone rawPhone)).length ≤ 10) (m : PhoneMatch) :
    m ∈ db.searchByPhone tenantId rawPhone ↔
      ∃ p ∈ db.hits (normalizePhone rawPhone), db.matchOf tenantId p = some m := by
  unfold Database.searchByPhone
  dsimp only
  rw [if_neg hphone, List.take_of_length_le hfew, List.mem_filterMap]

theorem AgreeOn.findActive (h : AgreeOn tenantId db db') (id : Nat) :
    db.tables.findActive tenantId id = db'.tables.findActive tenantId id := by
  refine Option.ext fun c => ?_
  simp only [CustomerTables.findActive, Option.filter_eq_some_iff, Bool.and_eq_true,
    decide_eq_true_eq]
  constructor
  · rintro ⟨hc, htenant, hactive⟩
    exact ⟨(h.customers id c htenant).mp hc, htenant, hactive⟩
  · rintro ⟨hc, htenant, hactive⟩
    exact ⟨(h.customers id c htenant).mpr hc, htenant, hactive⟩

section Calls
variable (hcalls : db.calls.filter (·.tenantId = tenantId) = db'.calls.filter (·.tenantId = tenantId))
include hcalls

theorem AgreeOn.recentCalls (id : Nat) :
    db.recentCalls tenantId id = db'.recentCalls tenantId id := by
  have hrows := congrArg (List.filter (·.customerId = some id)) hcalls
  rw [List.filter_filter, List.filter_filter] at hrows
  unfold Database.recentCalls
  rw [hrows]

theorem AgreeOn.matchOf (h : AgreeOn tenantId db db') (p : CustomerPhone) :
    db.matchOf tenantId p = db'.matchOf tenantId p := by
  unfold Database.matchOf
  rw [← h.findActive p.customerId]
  cases hfound : db.tables.findActive tenantId p.customerId with
  | none => rfl
  | some c =>
    obtain ⟨hc, hcond⟩ := Option.filter_eq_some_iff.mp hfound
    have htenant := of_decide_eq_true (Bool.and_eq_true_iff.mp hcond).1
    rw [Option.map_some, Option.map_some, h.profiles p.customerId c hc htenant,
      AgreeOn.recentCalls hcalls]

theorem AgreeOn.mem_search (h : AgreeOn tenantId db db') (hphone : normalizePhone rawPhone ≠ "")
    (hfew : (db.hits (normalizePhone rawPhone)).length ≤ 10)
    (hfew' : (db'.hits (normalizePhone rawPhone)).length ≤ 10) {m : PhoneMatch}
    (hm : m ∈ db.searchByPhone tenantId rawPhone) : m ∈ db'.searchByPhone tenantId rawPhone := by
  obtain ⟨p, hp, hmatch⟩ := (mem_search_of_few hphone hfew m).mp hm
  obtain ⟨c, hfound, -⟩ := Option.map_eq_some_iff.mp hmatch
  obtain ⟨hc, hcond⟩ := Option.filter_eq_some_iff.mp hfound
  have htenant := of_decide_eq_true (Bool.and_eq_true_iff.mp hcond).1
  obtain ⟨hmem, hhit⟩ := List.mem_filter.mp hp
  have hheld := ((h.phones p).mp ⟨hmem, c, hc, htenant⟩).1
  exact (mem_search_of_few hphone hfew' m).mpr
    ⟨p, List.mem_filter.mpr ⟨hheld, hhit⟩, h.matchOf hcalls p ▸ hmatch⟩

end Calls

theorem AgreeOn.symm (h : AgreeOn tenantId db db') : AgreeOn tenantId db' db :=
  ⟨fun id c htenant => (h.customers id c htenant).symm,
    fun id c hc htenant => (h.profiles id c ((h.customers id c htenant).mpr hc) htenant).symm,
    fun p => (h.phones p).symm, fun row htenant => (h.calls row htenant).symm⟩

/-- While no more than ten active phones have the number, two databases with the same rows
of the tenant give the same answer. -/
theorem search_agree_of_few (h : AgreeOn tenantId db db')
    (hcalls : db.calls.filter (·.tenantId = tenantId) = db'.calls.filter (·.tenantId = tenantId))
    (hfew : (db.hits (normalizePhone rawPhone)).length ≤ 10)
    (hfew' : (db'.hits (normalizePhone rawPhone)).length ≤ 10) (m : PhoneMatch) :
    m ∈ db.searchByPhone tenantId rawPhone ↔ m ∈ db'.searchByPhone tenantId rawPhone := by
  by_cases hphone : normalizePhone rawPhone = ""
  · unfold Database.searchByPhone
    rw [if_pos hphone, if_pos hphone]
  · exact ⟨h.mem_search hcalls hphone hfew hfew', h.symm.mem_search hcalls.symm hphone hfew' hfew⟩

theorem knows_of_mem {m : PhoneMatch} (h : m ∈ db.searchByPhone tenantId rawPhone) :
    db.Knows tenantId rawPhone := by
  unfold Database.searchByPhone at h
  dsimp only at h
  split at h
  · cases h
  · next hphone =>
    obtain ⟨p, hp, hmatch⟩ := List.mem_filterMap.mp h
    refine ⟨hphone, p, List.mem_of_mem_take hp, ?_⟩
    obtain ⟨customer, hfound, -⟩ := Option.map_eq_some_iff.mp hmatch
    rw [hfound]
    rfl

theorem AgreeOn.knows (h : AgreeOn tenantId db db') (hknows : db'.Knows tenantId rawPhone) :
    db.Knows tenantId rawPhone := by
  obtain ⟨hphone, p, hp, hfound⟩ := hknows
  obtain ⟨c, hc, htenant, hactive⟩ := (findActive_isSome _ _ _).mp hfound
  obtain ⟨hmem, hhit⟩ := List.mem_filter.mp hp
  have hheld := ((h.phones p).mpr ⟨hmem, c, hc, htenant⟩).1
  refine ⟨hphone, p, List.mem_filter.mpr ⟨hheld, hhit⟩, ?_⟩
  exact (findActive_isSome _ _ _).mpr ⟨c, (h.customers _ c htenant).mpr hc, htenant, hactive⟩

/-! ## 3. Two other databases -/

namespace Database

/-- The same rows, in an order in which a given phone comes first. -/
def bringFirst (db : Database) (p : CustomerPhone) (hp : p ∈ db.tables.phones) : Database where
  tables := { db.tables with phones := p :: db.tables.phones.erase p }
  profiles := db.profiles
  calls := db.calls
  numbered := ⟨db.numbered.fresh, fun q hq =>
    db.numbered.owned q ((List.perm_cons_erase hp).mem_iff.mpr hq)⟩
  owned q hq := db.owned q ((List.perm_cons_erase hp).mem_iff.mpr hq)
  unique := ((List.perm_cons_erase hp).map phoneKey).nodup_iff.mp db.unique

/-- Ten phones with a number, of customers with the ids from `first` on. -/
def crowd (first : Nat) (phone : String) : List CustomerPhone :=
  (List.range 10).map fun i => ⟨first + i, phone, phone, true, true⟩

theorem mem_crowd {first : Nat} {phone : String} {p : CustomerPhone} (h : p ∈ crowd first phone) :
    first ≤ p.customerId ∧ p.customerId < first + 10 ∧ p.normalizedPhone = phone ∧
      p.isActive = true := by
  obtain ⟨i, hi, rfl⟩ := List.mem_map.mp h
  exact ⟨Nat.le_add_right _ _, Nat.add_lt_add_left (List.mem_range.mp hi) _, rfl, rfl⟩

def crowdedCustomers (db : Database) (tenantId : String) (id : Nat) : Option Customer :=
  if db.tables.nextCustomer ≤ id ∧ id < db.tables.nextCustomer + 10 then some ⟨tenantId, true⟩
  else db.tables.customers id

theorem crowdedCustomers_old (db : Database) {tenantId : String} {id : Nat} {c : Customer}
    (hc : db.tables.customers id = some c) : db.crowdedCustomers tenantId id = some c := by
  have hlt := db.numbered.lt hc
  exact (if_neg fun hnew => absurd hlt (Nat.not_lt.mpr hnew.1)).trans hc

/-- Ten more customers of a tenant, who all have the number. -/
def crowded (db : Database) (tenantId phone : String) : Database where
  tables := ⟨db.crowdedCustomers tenantId, db.tables.nextCustomer + 10,
    crowd db.tables.nextCustomer phone ++ db.tables.phones⟩
  profiles := db.profiles
  calls := db.calls
  numbered := by
    refine ⟨fun id hid => ?_, fun p hp => ?_⟩
    · have hold := db.numbered.fresh id (Nat.le_of_add_right_le hid)
      exact (if_neg fun hnew => absurd hnew.2 (Nat.not_lt.mpr hid)).trans hold
    · rcases List.mem_append.mp hp with hnew | hold
      · exact (mem_crowd hnew).2.1
      · exact Nat.lt_add_right 10 (db.numbered.owned p hold)
  owned p hp := by
    rcases List.mem_append.mp hp with hnew | hold
    · obtain ⟨hle, hlt, -⟩ := mem_crowd hnew
      exact congrArg Option.isSome (if_pos ⟨hle, hlt⟩)
    · obtain ⟨c, hc⟩ := Option.isSome_iff_exists.mp (db.owned p hold)
      exact congrArg Option.isSome (db.crowdedCustomers_old hc)
  unique := by
    rw [List.map_append]
    refine List.Nodup.append ?_ db.unique ?_
    · rw [crowd, List.map_map]
      refine List.nodup_range.map fun i j hij => ?_
      exact Nat.add_left_cancel (congrArg Prod.fst hij)
    · intro key hnew hold
      obtain ⟨p, hp, rfl⟩ := List.mem_map.mp hnew
      obtain ⟨q, hq, hkey⟩ := List.mem_map.mp hold
      have hid : q.customerId = p.customerId := congrArg Prod.fst hkey
      exact absurd (hid ▸ db.numbered.owned q hq) (Nat.not_lt.mpr (mem_crowd hp).1)

end Database

theorem agreeOn_bringFirst (tenantId : String) {p : CustomerPhone} (hp : p ∈ db.tables.phones) :
    AgreeOn tenantId db (db.bringFirst p hp) :=
  ⟨fun _ _ _ => Iff.rfl, fun _ _ _ _ => rfl,
    fun _ => and_congr_left' (List.perm_cons_erase hp).mem_iff, fun _ _ => Iff.rfl⟩

theorem agreeOn_crowded {other : String} (hother : other ≠ tenantId) (phone : String) :
    AgreeOn tenantId db (db.crowded other phone) := by
  have hcustomers : ∀ id c, c.tenantId = tenantId →
      (c ∈ db.tables.customers id ↔ c ∈ (db.crowded other phone).tables.customers id) := by
    intro id c htenant
    refine ⟨fun hc => db.crowdedCustomers_old hc, fun hc => ?_⟩
    by_cases hnew : db.tables.nextCustomer ≤ id ∧ id < db.tables.nextCustomer + 10
    · have hrow := Option.some.inj ((if_pos hnew).symm.trans hc)
      exact absurd ((congrArg Customer.tenantId hrow).trans htenant) hother
    · exact (if_neg hnew).symm.trans hc
  refine ⟨hcustomers, fun _ _ _ _ => rfl, fun p => ⟨?_, ?_⟩, fun _ _ => Iff.rfl⟩
  · rintro ⟨hp, c, hc, htenant⟩
    exact ⟨List.mem_append_right _ hp, c, (hcustomers _ c htenant).mp hc, htenant⟩
  · rintro ⟨hp, c, hc, htenant⟩
    have hold := (hcustomers _ c htenant).mpr hc
    rcases List.mem_append.mp hp with hnew | hold'
    · exact absurd (db.numbered.lt hold) (Nat.not_lt.mpr (Database.mem_crowd hnew).1)
    · exact ⟨hold', c, hold, htenant⟩

/-- The search finds the phone that comes first. -/
theorem search_bringFirst {p : CustomerPhone} (hphone : normalizePhone rawPhone ≠ "")
    (hp : p ∈ db.hits (normalizePhone rawPhone)) {m : PhoneMatch}
    (hmatch : db.matchOf tenantId p = some m) :
    m ∈ (db.bringFirst p (List.mem_filter.mp hp).1).searchByPhone tenantId rawPhone := by
  have hhits : (db.bringFirst p (List.mem_filter.mp hp).1).hits (normalizePhone rawPhone) =
      p :: (db.tables.phones.erase p).filter fun q =>
        q.normalizedPhone = normalizePhone rawPhone && q.isActive :=
    List.filter_cons_of_pos (List.mem_filter.mp hp).2
  unfold Database.searchByPhone
  dsimp only
  rw [if_neg hphone, hhits, List.take_succ_cons]
  exact List.mem_filterMap.mpr ⟨p, List.mem_cons_self, hmatch⟩

/-- The search does not get past the ten customers. -/
theorem search_crowded {other : String} (hother : other ≠ tenantId) :
    (db.crowded other (normalizePhone rawPhone)).searchByPhone tenantId rawPhone = [] := by
  have hcrowd : (Database.crowd db.tables.nextCustomer (normalizePhone rawPhone)).filter
      (fun p => p.normalizedPhone = normalizePhone rawPhone && p.isActive) =
      Database.crowd db.tables.nextCustomer (normalizePhone rawPhone) := by
    refine List.filter_eq_self.mpr fun p hp => ?_
    obtain ⟨-, -, hnumber, hactive⟩ := Database.mem_crowd hp
    simp [hnumber, hactive]
  unfold Database.searchByPhone
  dsimp only
  split
  · rfl
  · unfold Database.hits Database.crowded
    dsimp only
    rw [List.filter_append, hcrowd, List.take_left' (by simp [Database.crowd])]
    refine List.filterMap_eq_nil_iff.mpr fun p hp => ?_
    obtain ⟨hle, hlt, -⟩ := Database.mem_crowd hp
    have hrow : db.crowdedCustomers other p.customerId = some ⟨other, true⟩ := if_pos ⟨hle, hlt⟩
    simp [Database.matchOf, CustomerTables.findActive, hrow, hother]

/-- The answer for a tenant does not depend on the rows of the others exactly where no active
customer of the tenant has an active phone with the number. -/
theorem search_independent_iff (db : Database) (tenantId rawPhone : String) :
    Independent db tenantId rawPhone ↔ ¬ db.Knows tenantId rawPhone := by
  constructor
  · rintro hindependent ⟨hphone, p, hp, hfound⟩
    obtain ⟨m, hmatch⟩ : ∃ m, db.matchOf tenantId p = some m :=
      Option.isSome_iff_exists.mp (Option.isSome_map.trans hfound)
    have hother : tenantId ++ "2" ≠ tenantId := by
      intro hsame
      have hlength := congrArg String.length hsame
      rw [String.length_append] at hlength
      have hone : "2".length = 1 := rfl
      omega
    have hfirst := hindependent _ (agreeOn_bringFirst tenantId (List.mem_filter.mp hp).1) m
    have hcrowded := hindependent _ (agreeOn_crowded hother (normalizePhone rawPhone)) m
    have hmem := hcrowded.mp (hfirst.mpr (search_bringFirst hphone hp hmatch))
    rw [search_crowded hother] at hmem
    cases hmem
  · intro hunknown db' hagree m
    exact iff_of_false (fun hm => hunknown (knows_of_mem hm))
      fun hm => hunknown (hagree.knows (knows_of_mem hm))

/-! ## 4. Ten customers of another tenant -/

def exDatabase : Database where
  tables := ⟨fun id => if id = 0 then some ⟨"t1", true⟩ else none, 1,
    [⟨0, "010-1234-5678", "01012345678", true, true⟩]⟩
  profiles := fun _ => ⟨some "Kim", some "VIP", none, none⟩
  calls := [⟨"t1", some 0, ⟨"c1", "inbound", "ENDED", 1000, some 61000, 60, none, none⟩⟩]
  numbered := ⟨fun _ hid => if_neg (Nat.ne_of_gt hid), by simp⟩
  owned := by simp
  unique := List.nodup_singleton _

def exMatch : PhoneMatch :=
  ⟨0, ⟨"t1", true⟩, ⟨some "Kim", some "VIP", none, none⟩,
    [⟨"c1", "inbound", "ENDED", 1000, some 61000, 60, none, none⟩]⟩

/-- Ten customers with another number. -/
theorem search_agree_of_few_crowded :
    exMatch ∈ exDatabase.searchByPhone "t1" "010-1234-5678" ↔
      exMatch ∈ (exDatabase.crowded "t2" "021").searchByPhone "t1" "010-1234-5678" :=
  search_agree_of_few (agreeOn_crowded (by decide) "021") rfl (by decide) (by decide) exMatch

theorem crowded_out : ¬ Independent exDatabase "t1" "010-1234-5678" := by
  intro h
  have hcrowded := h _ (agreeOn_crowded (show "t2" ≠ "t1" by decide) "01012345678") exMatch
  exact absurd (hcrowded.mp (by decide)) (by decide)

end KasterCti.Customers
