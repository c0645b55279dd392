import KasterCti.Library.Json

/-!
# JavaScript values and JSON

The values that `JSON.stringify` is given and `JSON.parse` gives back. Writing leaves out
the members that are undefined, and writes `null` for the items that are and for numbers
that are not finite; reading keeps the last of two members of one name.

Result: `keys_ofMembers_toMembers`: writing and reading add no name to an object.
-/

/-- How numbers are read: `read n` is the text that the number read from `n` is written as,
none when it is too large. -/
structure NumberReading where
  read : JsonNumber → Option JsonNumber
  read_written : ∀ {n m}, read n = some m → read m = some m

variable {N : NumberReading}

/-- A finite number, by the text it is written as. -/
structure JsNumber (N : NumberReading) where
  text : JsonNumber
  written : N.read text = some text

mutual
/-- A function or a symbol counts as undefined. -/
inductive JsValue (N : NumberReading)
  | undefined
  | null
  | boolean (b : Bool)
  | number (n : JsNumber N)
  | nonFinite
  | string (s : String)
  | array (items : JsItems N)
  | object (members : JsMembers N)

inductive JsItems (N : NumberReading)
  | nil
  | hole (tail : JsItems N)
  | cons (head : JsValue N) (tail : JsItems N)

/-- The own enumerable properties, in order. -/
inductive JsMembers (N : NumberReading)
  | nil
  | cons (key : String) (value : JsValue N) (tail : JsMembers N)
end

namespace JsMembers

def keys : JsMembers N → List String
  | .nil => []
  | .cons key _ tail => key :: keys tail

def get? : JsMembers N → String → Option (JsValue N)
  | .nil, _ => none
  | .cons key value tail, name => if key = name then some value else get? tail name

def erase : JsMembers N → String → JsMembers N
  | .nil, _ => .nil
  | .cons key value tail, name => if key = name then tail else .cons key value (erase tail name)

theorem get?_eq_none : ∀ {members : JsMembers N} {name : String}, name ∉ members.keys →
    members.get? name = none
  | .nil, _, _ => rfl
  | .cons _ _ _, _, h => by
    obtain ⟨hkey, htail⟩ := not_or.mp (mt List.mem_cons.mpr h)
    rw [get?, if_neg (Ne.symm hkey)]
    exact get?_eq_none htail

end JsMembers

namespace JsValue

/-! ## Writing and reading -/

mutual
/-- What `JSON.stringify` writes of a value. -/
def toJson? : JsValue N → Option Json
  | .undefined => none
  | .null => some .null
  | .boolean b => some (.boolean b)
  | .number n => some (.number n.text)
  | .nonFinite => some .null
  | .string s => some (.string s)
  | .array items => some (.array (toItems items))
  | .object members => some (.object (toMembers members))

def toItems : JsItems N → JsonItems
  | .nil => .nil
  | .hole tail => .cons .null (toItems tail)
  | .cons head tail => .cons ((toJson? head).getD .null) (toItems tail)

def toMembers : JsMembers N → JsonMembers
  | .nil => .nil
  | .cons key value tail =>
    match toJson? value with
    | none => toMembers tail
    | some j => .cons key j (toMembers tail)
end

/-- One more member in front: a later one of its name has its value and goes. -/
def putFirst (key : String) (value : JsValue N) (members : JsMembers N) : JsMembers N :=
  match members.get? key with
  | none => .cons key value members
  | some last => .cons key last (members.erase key)

def ofNumber (n : JsonNumber) : JsValue N :=
  match h : N.read n with
  | none => .nonFinite
  | some m => .number ⟨m, N.read_written h⟩

mutual
def ofJson : Json → JsValue N
  | .null => .null
  | .boolean b => .boolean b
  | .number n => ofNumber n
  | .string s => .string s
  | .array items => .array (ofItems items)
  | .object members => .object (ofMembers members)

def ofItems : JsonItems → JsItems N
  | .nil => .nil
  | .cons head tail => .cons (ofJson head) (ofItems tail)

def ofMembers : JsonMembers → JsMembers N
  | .nil => .nil
  | .cons key j tail => putFirst key (ofJson j) (ofMembers tail)
end

/-- `JSON.stringify`. -/
def stringify? (v : JsValue N) : Option (List Char) := (toJson? v).map Json.stringify

/-- `JSON.parse`; `none` stands for the exception. -/
def parse? (cs : List Char) : Option (JsValue N) := (Json.parse cs).map ofJson

theorem ofNumber_text (n : JsNumber N) : (ofNumber n.text : JsValue N) = .number n := by
  unfold ofNumber
  split
  · next h =>
    rw [n.written] at h
    cases h
  · next m h =>
    obtain rfl := Option.some.inj (n.written.symm.trans h)
    rfl

/-! ## Names -/

mutual
/-- The members of every object differ in their names. -/
def KeysOnce : JsValue N → Prop
  | .array items => ItemsOnce items
  | .object members => members.keys.Nodup ∧ MembersOnce members
  | _ => True

def ItemsOnce : JsItems N → Prop
  | .nil => True
  | .hole tail => ItemsOnce tail
  | .cons head tail => KeysOnce head ∧ ItemsOnce tail

def MembersOnce : JsMembers N → Prop
  | .nil => True
  | .cons _ value tail => KeysOnce value ∧ MembersOnce tail
end

theorem putFirst_of_notMem {key : String} {value : JsValue N} {members : JsMembers N}
    (h : key ∉ members.keys) : putFirst key value members = .cons key value members := by
  rw [putFirst, JsMembers.get?_eq_none h]

/-- Writing and reading add no name. -/
theorem keys_ofMembers_toMembers : ∀ {members : JsMembers N}, members.keys.Nodup →
    (ofMembers (toMembers members) : JsMembers N).keys ⊆ members.keys
  | .nil, _ => List.Subset.refl _
  | .cons key value tail, h => by
    obtain ⟨hkey, htail⟩ := List.nodup_cons.mp h
    have ih := keys_ofMembers_toMembers htail
    rw [toMembers]
    split
    · exact List.subset_cons_of_subset key ih
    · rw [ofMembers, putFirst_of_notMem fun hin => hkey (ih hin)]
      exact List.cons_subset_cons key ih

end JsValue
