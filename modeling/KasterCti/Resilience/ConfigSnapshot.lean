import KasterCti.Library.JsValue
import Mathlib

/-!
# The last known good configuration

`ConfigSnapshotService` keeps a snapshot of a configuration in memory, in Redis and in a
local file, with the checksum of its payload: the hash of a canonical text that sorts the
names of every object. `sha256` is a parameter, and so is how numbers are read.

Results:
1. `canonicalize_encoded_iff`: JSON leaves the canonical text of a value as it is exactly
   when no member is undefined and no array has a hole.
2. `lkg_integrity`: a process that starts loads checked snapshots only, and reads the file
   of a save back, exactly when what Redis holds is checked and JSON leaves nothing of the
   redacted payload out.
3. `redis_snapshot_unchecked`: from Redis a snapshot comes back whatever its checksum.
-/

namespace KasterCti.Resilience

open JsValue

variable {N : NumberReading}

/-! ## Keys -/

/-- What the service throws. -/
inductive LkgError (N : NumberReading)
  /-- `invalid tenantId for LKG` -/
  | invalidTenantId (tenantId : String)
  /-- `invalid configType for LKG` -/
  | invalidConfigType (configType : String)
  /-- `LKG_CHECKSUM_MISMATCH` -/
  | checksumMismatch (tenantId configType : String) (version : JsValue N)

/-- `UUID_RE` -/
def isTenantId (tenantId : String) : Bool :=
  tenantId.toList.length = 36 && tenantId.toList.all fun c =>
    JsText.isDigit c || ('a' ≤ c && c ≤ 'f') || ('A' ≤ c && c ≤ 'F') || c = '-'

/-- `CONFIG_TYPE_RE` -/
def isConfigType (configType : String) : Bool :=
  1 ≤ configType.toList.length && configType.toList.length ≤ 32 &&
    configType.toList.all fun c => ('a' ≤ c && c ≤ 'z') || c = '_'

def lkgKey (tenantId configType : String) : Except (LkgError N) String :=
  if !isTenantId tenantId then .error (.invalidTenantId tenantId)
  else if !isConfigType configType then .error (.invalidConfigType configType)
  else .ok (tenantId ++ "." ++ configType)

def lkgRedisKey (key : String) : String := "kcti:lkg:" ++ key

def lkgPath (dir key : String) : String := dir ++ "/" ++ key ++ ".json"

/-! ## The checksum -/

/-- The code units of UTF-16. -/
def codeUnits (s : String) : List Nat :=
  s.toList.flatMap fun c =>
    if c.toNat < 0x10000 then [c.toNat]
    else [0xD800 + (c.toNat - 0x10000) / 0x400, 0xDC00 + (c.toNat - 0x10000) % 0x400]

/-- The comparator of the sort in `canonicalize`. -/
def nameLe (a b : String × List Char) : Bool := !decide (codeUnits b.1 < codeUnits a.1)

def joined (texts : List (List Char)) : List Char := [','].intercalate texts

def entryText (entry : String × List Char) : List Char :=
  '"' :: Json.quoted entry.1 ++ ':' :: entry.2

def sortedEntries (entries : List (String × List Char)) : List (String × List Char) :=
  entries.insertionSort fun a b => nameLe a b = true

mutual
def canonicalize : JsValue N → List Char
  | .array items => '[' :: joined (canonicalItems items) ++ [']']
  | .object members =>
    '\x7b' :: joined ((sortedEntries (canonicalMembers members)).map entryText) ++ ['\x7d']
  | .undefined => "null".toList
  | .null => "null".toList
  | .boolean b => Json.stringify (.boolean b)
  | .number n => n.text.text
  | .nonFinite => "null".toList
  | .string s => Json.stringify (.string s)

/-- `map` leaves a hole, and `join` writes nothing for it. -/
def canonicalItems : JsItems N → List (List Char)
  | .nil => []
  | .hole tail => [] :: canonicalItems tail
  | .cons head tail => canonicalize head :: canonicalItems tail

def canonicalMembers : JsMembers N → List (String × List Char)
  | .nil => []
  | .cons key value tail => (key, canonicalize value) :: canonicalMembers tail
end

/-! ## Redaction -/

def secretNames : List String :=
  ["password", "secret", "token", "credential", "privatekey", "apikey"]

/-- `SECRET_KEY_PATTERN` -/
def isSecretKey (key : String) : Bool :=
  let name := key.toList.map Char.toLower
  secretNames.any fun secret => name.tails.any fun rest => secret.toList.isPrefixOf rest

def redacted : String := "***REDACTED***"

mutual
def redact : JsValue N → JsValue N
  | .array items => .array (redactItems items)
  | .object members => .object (redactMembers members)
  | v => v

def redactItems : JsItems N → JsItems N
  | .nil => .nil
  | .hole tail => .hole (redactItems tail)
  | .cons head tail => .cons (redact head) (redactItems tail)

/-- An assignment to `__proto__` makes no property. -/
def redactMembers : JsMembers N → JsMembers N
  | .nil => .nil
  | .cons key value tail =>
    if key = "__proto__" then redactMembers tail
    else .cons key (if isSecretKey key then .string redacted else redact value) (redactMembers tail)
end

/-! ## Saving and loading -/

section Layers

variable (sha256 : String → String)

def computeChecksum (payload : JsValue N) : String := sha256 (String.ofList (canonicalize payload))

/-- `JSON.stringify(snapshot)`, for what `save` has made of the payload. -/
def snapshotText (tenantId configType : String) (version : JsonNumber) (generatedAt : String)
    (payload : JsMembers N) : String :=
  let safePayload := redactMembers payload
  String.ofList (Json.stringify (.object
    (.cons "tenantId" (.string tenantId)
    (.cons "configType" (.string configType)
    (.cons "version" (.number version)
    (.cons "schemaVersion" (.number ⟨['1'], by decide⟩)
    (.cons "generatedAt" (.string generatedAt)
    (.cons "checksum" (.string (computeChecksum sha256 (.object safePayload)))
    (.cons "payload" (.object (toMembers safePayload)) .nil)))))))))

inductive ConfigSource
  | fresh
  | lkg
  | missing

structure LkgLayers (N : NumberReading) where
  memory : String → Option (JsValue N)
  /-- `none` when the client throws. -/
  redis : Option (String → Option String)
  /-- The local files that can be read, by path. -/
  files : String → Option String

structure LoadOutcome (N : NumberReading) where
  snapshot : Option (JsValue N)
  /-- What is reported to the operating mode. -/
  source : ConfigSource
  memory : String → Option (JsValue N)

/-- A property of a value that `JSON.parse` made. -/
def property (v : JsValue N) (name : String) : JsValue N :=
  match v with
  | .object members => (members.get? name).getD .undefined
  | _ => .undefined

def isNull : JsValue N → Bool
  | .null => true
  | _ => false

def isFalsy : JsValue N → Bool
  | .undefined | .null => true
  | .boolean b => !b
  | .number n => n.text.text = ['0']
  | .string s => s = ""
  | _ => false

/-- The checksum of a snapshot is the one of its payload. -/
def checks (snapshot : JsValue N) : Bool :=
  match property snapshot "checksum" with
  | .string checksum => computeChecksum sha256 (property snapshot "payload") = checksum
  | _ => false

def readLocal (file : Option String) : Option (JsValue N) := file.bind fun raw => parse? raw.toList

def loadLocalLkg (tenantId configType : String) (file : Option String) :
    Except (LkgError N) (Option (JsValue N)) :=
  match readLocal file with
  | none => .ok none
  | some snapshot =>
    if isFalsy snapshot then .ok none
    else if checks sha256 snapshot then .ok (some snapshot)
    else .error (.checksumMismatch tenantId configType (property snapshot "version"))

/-- What the `get` of `load` gives when it can be parsed; an empty answer counts as none. -/
def redisSnapshot (layers : LkgLayers N) (key : String) : Option (JsValue N) :=
  match layers.redis.bind fun get => get (lkgRedisKey key) with
  | none => none
  | some raw => if raw = "" then none else parse? raw.toList

def remember (layers : LkgLayers N) (key : String) (snapshot : JsValue N) :
    String → Option (JsValue N) :=
  Function.update layers.memory key (some snapshot)

def load (dir tenantId configType : String) (layers : LkgLayers N) :
    Except (LkgError N) (LoadOutcome N) :=
  match lkgKey tenantId configType with
  | .error error => .error error
  | .ok key =>
    match (layers.memory key).filter (!isFalsy ·) with
    | some cached => .ok ⟨some cached, .fresh, layers.memory⟩
    | none =>
      match redisSnapshot layers key with
      | some snapshot =>
        -- `null` is remembered like everything else that Redis holds, and no snapshot
        .ok ⟨if isNull snapshot then none else some snapshot, .fresh, remember layers key snapshot⟩
      | none =>
        match loadLocalLkg sha256 tenantId configType (layers.files (lkgPath dir key)) with
        | .ok (some snapshot) => .ok ⟨some snapshot, .lkg, remember layers key snapshot⟩
        | _ => .ok ⟨none, .missing, layers.memory⟩

end Layers

/-! ## What JSON leaves of a canonical text -/

def isUndefined : JsValue N → Bool
  | .undefined => true
  | _ => false

mutual
/-- JSON leaves nothing out: no member is undefined and no array has a hole. -/
def kept : JsValue N → Bool
  | .array items => itemsKept items
  | .object members => membersKept members
  | _ => true

def itemsKept : JsItems N → Bool
  | .nil => true
  | .hole _ => false
  | .cons head tail => kept head && itemsKept tail

def membersKept : JsMembers N → Bool
  | .nil => true
  | .cons _ value tail => !isUndefined value && kept value && membersKept tail
end

/-- The value that `JSON.parse` makes of what `JSON.stringify` writes within an array. -/
def encoded (v : JsValue N) : JsValue N := ofJson ((toJson? v).getD .null)

def quotes (text : List Char) : Nat := text.count '"'

def quotesOf (texts : List (List Char)) : Nat := (texts.map quotes).sum

def lengthOf (texts : List (List Char)) : Nat := (texts.map List.length).sum

theorem joined_cons_cons (a b : List Char) (texts : List (List Char)) :
    joined (a :: b :: texts) = a ++ ',' :: joined (b :: texts) := by
  simp [joined, List.intercalate]

theorem quotes_append (a b : List Char) : quotes (a ++ b) = quotes a + quotes b :=
  List.count_append

theorem quotes_joined : ∀ texts : List (List Char), quotes (joined texts) = quotesOf texts
  | [] => rfl
  | [a] => by simp [joined, List.intercalate, quotesOf]
  | a :: b :: texts => by
    have ih := quotes_joined (b :: texts)
    rw [joined_cons_cons, quotes_append, quotesOf, List.map_cons, List.sum_cons, ← quotesOf, ← ih]
    rfl

theorem length_joined : ∀ texts : List (List Char),
    (joined texts).length = lengthOf texts + (texts.length - 1)
  | [] => rfl
  | [a] => by simp [joined, List.intercalate, lengthOf]
  | a :: b :: texts => by
    have ih := length_joined (b :: texts)
    simp only [joined_cons_cons, List.length_append, List.length_cons, ih, lengthOf, List.map_cons,
      List.sum_cons]
    omega

/-- The text of what was written and read, beside the text of the value: where JSON leaves
something out it has fewer quotation marks, or the same and more characters. -/
def Compared (after before : List Char) (kept : Bool) : Prop :=
  (kept = true ∧ after = before) ∨
    (kept = false ∧ (quotes after < quotes before ∨
      (quotes after = quotes before ∧ before.length < after.length)))

/-- The same of the texts of items. -/
def ComparedAll (after before : List (List Char)) (kept : Bool) : Prop :=
  (kept = true ∧ after = before) ∨
    (kept = false ∧ (quotesOf after < quotesOf before ∨
      (after.length = before.length ∧ quotesOf after = quotesOf before ∧
        lengthOf before < lengthOf after)))

/-- The same of the entries of objects. -/
def ComparedEntries (after before : List (String × List Char)) (kept : Bool) : Prop :=
  (kept = true ∧ after = before) ∨
    (kept = false ∧ (quotesOf (after.map entryText) < quotesOf (before.map entryText) ∨
      (after.length = before.length ∧
        quotesOf (after.map entryText) = quotesOf (before.map entryText) ∧
        lengthOf (before.map entryText) < lengthOf (after.map entryText))))

theorem ComparedAll.joined {after before : List (List Char)} {kept : Bool}
    (h : ComparedAll after before kept) (first last : Char) :
    Compared (first :: joined after ++ [last]) (first :: joined before ++ [last]) kept := by
  have hquotes (texts : List (List Char)) : quotes (first :: Resilience.joined texts ++ [last]) =
      quotes [first] + quotesOf texts + quotes [last] := by
    rw [quotes_append, ← List.singleton_append, quotes_append, quotes_joined]
  have hlength (texts : List (List Char)) : (first :: Resilience.joined texts ++ [last]).length =
      lengthOf texts + (texts.length - 1) + 2 := by
    rw [List.length_append, List.length_cons, length_joined, List.length_singleton]
  unfold Compared
  rw [hquotes, hquotes, hlength, hlength]
  rcases h with ⟨hkept, rfl⟩ | ⟨hkept, hother⟩
  · exact .inl ⟨hkept, rfl⟩
  · exact .inr ⟨hkept, by omega⟩

theorem ComparedAll.cons {after before : List (List Char)} {a b : List Char} {kept kept' : Bool}
    (hhead : Compared a b kept') (htail : ComparedAll after before kept) :
    ComparedAll (a :: after) (b :: before) (kept' && kept) := by
  unfold ComparedAll quotesOf lengthOf at *
  simp only [List.map_cons, List.sum_cons, List.length_cons]
  rcases hhead with ⟨rfl, rfl⟩ | ⟨rfl, hhead⟩
  · rcases htail with ⟨rfl, rfl⟩ | ⟨rfl, htail⟩
    · exact .inl ⟨rfl, rfl⟩
    · exact .inr ⟨rfl, by omega⟩
  · rcases htail with ⟨rfl, rfl⟩ | ⟨rfl, htail⟩
    · exact .inr ⟨rfl, by omega⟩
    · exact .inr ⟨rfl, by omega⟩

variable {after before : List (String × List Char)}

/-- Sorting moves whole entries. -/
theorem ComparedEntries.sorted {kept : Bool} (h : ComparedEntries after before kept) :
    ComparedAll ((sortedEntries after).map entryText) ((sortedEntries before).map entryText) kept := by
  have hperm (entries : List (String × List Char)) :
      ((sortedEntries entries).map entryText).Perm (entries.map entryText) :=
    (List.perm_insertionSort _ entries).map entryText
  have hquotes (entries : List (String × List Char)) :
      quotesOf ((sortedEntries entries).map entryText) = quotesOf (entries.map entryText) :=
    ((hperm entries).map quotes).sum_nat
  have hlength (entries : List (String × List Char)) :
      lengthOf ((sortedEntries entries).map entryText) = lengthOf (entries.map entryText) :=
    ((hperm entries).map List.length).sum_nat
  unfold ComparedAll
  rw [hquotes, hquotes, hlength, hlength, (hperm after).length_eq, (hperm before).length_eq,
    List.length_map, List.length_map]
  rcases h with ⟨hkept, rfl⟩ | hother
  · exact .inl ⟨hkept, rfl⟩
  · exact .inr hother

theorem entryText_eq (key : String) (text : List Char) :
    entryText (key, text) = entryText (key, []) ++ text := by simp [entryText]

theorem quotes_entryText (key : String) (text : List Char) :
    quotes (entryText (key, text)) = quotes (entryText (key, [])) + quotes text := by
  rw [entryText_eq, quotes_append]

theorem length_entryText (key : String) (text : List Char) :
    (entryText (key, text)).length = (entryText (key, [])).length + text.length := by
  rw [entryText_eq, List.length_append]

theorem quotes_entryText_pos (key : String) (text : List Char) :
    0 < quotes (entryText (key, text)) :=
  List.count_pos_iff.mpr List.mem_cons_self

theorem ComparedEntries.cons {key : String} {a b : List Char} {kept kept' : Bool}
    (hhead : Compared a b kept') (htail : ComparedEntries after before kept) :
    ComparedEntries ((key, a) :: after) ((key, b) :: before) (kept' && kept) := by
  have ha := quotes_entryText key a
  have hb := quotes_entryText key b
  have hla := length_entryText key a
  have hlb := length_entryText key b
  unfold ComparedEntries quotesOf lengthOf at *
  simp only [List.map_cons, List.sum_cons, List.length_cons]
  rcases hhead with ⟨rfl, rfl⟩ | ⟨rfl, hhead⟩
  · rcases htail with ⟨rfl, rfl⟩ | ⟨rfl, htail⟩
    · exact .inl ⟨rfl, rfl⟩
    · exact .inr ⟨rfl, by omega⟩
  · rcases htail with ⟨rfl, rfl⟩ | ⟨rfl, htail⟩
    · exact .inr ⟨rfl, by omega⟩
    · exact .inr ⟨rfl, by omega⟩

/-- A member that JSON leaves out had quotation marks. -/
theorem ComparedEntries.drop {kept : Bool} (htail : ComparedEntries after before kept)
    (key : String) (text : List Char) : ComparedEntries after ((key, text) :: before) false := by
  have hpos := quotes_entryText_pos key text
  unfold ComparedEntries quotesOf lengthOf at *
  simp only [List.map_cons, List.sum_cons]
  rcases htail with ⟨-, rfl⟩ | ⟨-, htail⟩
  · exact .inr ⟨trivial, by omega⟩
  · exact .inr ⟨trivial, by omega⟩

theorem toJson?_eq_none {v : JsValue N} (h : toJson? v = none) : v = .undefined := by
  cases v with
  | undefined => rfl
  | _ => cases h

mutual
theorem canonicalize_compared : ∀ v : JsValue N, KeysOnce v →
    Compared (canonicalize (encoded v)) (canonicalize v) (kept v)
  | .undefined, _ => .inl ⟨rfl, rfl⟩
  | .null, _ => .inl ⟨rfl, rfl⟩
  | .boolean _, _ => .inl ⟨rfl, rfl⟩
  | .number n, _ => .inl ⟨rfl, congrArg canonicalize (ofNumber_text n)⟩
  | .nonFinite, _ => .inl ⟨rfl, rfl⟩
  | .string _, _ => .inl ⟨rfl, rfl⟩
  | .array items, h => (canonicalItems_compared items h).joined '[' ']'
  | .object members, h => (canonicalMembers_compared members h.1 h.2).sorted.joined '\x7b' '\x7d'

theorem canonicalItems_compared : ∀ items : JsItems N, ItemsOnce items →
    ComparedAll (canonicalItems (ofItems (toItems items) : JsItems N)) (canonicalItems items)
      (itemsKept items)
  | .nil, _ => .inl ⟨rfl, rfl⟩
  | .hole tail, h => by
    have hnull : Compared "null".toList [] false := .inr ⟨rfl, .inr ⟨rfl, by decide⟩⟩
    exact (canonicalItems_compared tail h).cons hnull
  | .cons head tail, h => (canonicalItems_compared tail h.2).cons (canonicalize_compared head h.1)

theorem canonicalMembers_compared : ∀ members : JsMembers N, members.keys.Nodup →
    MembersOnce members →
      ComparedEntries (canonicalMembers (ofMembers (toMembers members) : JsMembers N))
        (canonicalMembers members) (membersKept members)
  | .nil, _, _ => .inl ⟨rfl, rfl⟩
  | .cons key value tail, hkeys, h => by
    obtain ⟨hkey, htail⟩ := List.nodup_cons.mp hkeys
    have ih := canonicalMembers_compared tail htail h.2
    have hvalue := canonicalize_compared value h.1
    rw [toMembers, membersKept]
    split
    · next hnone =>
      obtain rfl := toJson?_eq_none hnone
      exact ih.drop key _
    · next j hsome =>
      have hdefined : isUndefined value = false := by
        cases value with
        | undefined => cases hsome
        | _ => rfl
      have hnew : key ∉ (ofMembers (toMembers tail) : JsMembers N).keys :=
        fun hin => hkey (keys_ofMembers_toMembers htail hin)
      rw [ofMembers, putFirst_of_notMem hnew, hdefined, Bool.not_false, Bool.true_and]
      rw [encoded, hsome] at hvalue
      exact ih.cons hvalue
end

/-- JSON leaves the canonical text of a value as it is exactly when it leaves nothing out. -/
theorem canonicalize_encoded_iff {v : JsValue N} (h : KeysOnce v) :
    canonicalize (encoded v) = canonicalize v ↔ kept v = true := by
  rcases canonicalize_compared v h with ⟨hkept, hsame⟩ | ⟨hkept, hother⟩
  · exact ⟨fun _ => hkept, fun _ => hsame⟩
  · constructor
    · intro hsame
      rw [hsame] at hother
      rcases hother with hless | ⟨-, hlonger⟩
      · exact absurd hless (Nat.lt_irrefl _)
      · exact absurd hlonger (Nat.lt_irrefl _)
    · intro htrue
      rw [hkept] at htrue
      cases htrue

/-! ## Redaction keeps names apart -/

theorem keys_redactMembers : ∀ members : JsMembers N,
    (redactMembers members).keys.Sublist members.keys
  | .nil => .slnil
  | .cons key value tail => by
    have ih := keys_redactMembers tail
    rw [redactMembers]
    split
    · exact ih.cons key
    · exact ih.cons_cons key

mutual
theorem redact_keysOnce : ∀ v : JsValue N, KeysOnce v → KeysOnce (redact v)
  | .undefined, _ | .null, _ | .boolean _, _ | .number _, _ | .nonFinite, _ | .string _, _ => trivial
  | .array items, h => redactItems_once items h
  | .object members, h =>
    ⟨h.1.sublist (keys_redactMembers members), redactMembers_once members h.2⟩

theorem redactItems_once : ∀ items : JsItems N, ItemsOnce items → ItemsOnce (redactItems items)
  | .nil, _ => trivial
  | .hole tail, h => redactItems_once tail h
  | .cons head tail, h => ⟨redact_keysOnce head h.1, redactItems_once tail h.2⟩

theorem redactMembers_once : ∀ members : JsMembers N, MembersOnce members →
    MembersOnce (redactMembers members)
  | .nil, _ => trivial
  | .cons key value tail, h => by
    have ih := redactMembers_once tail h.2
    have hvalue := redact_keysOnce value h.1
    rw [redactMembers]
    split
    · exact ih
    · refine ⟨?_, ih⟩
      split
      · trivial
      · exact hvalue
end

/-! ## Loading -/

section Loading

variable {sha256 : String → String} {dir tenantId configType key : String} {layers : LkgLayers N}

/-- What `load` returns has the checksum of its payload. -/
def LoadsChecked (sha256 : String → String) (dir tenantId configType : String)
    (layers : LkgLayers N) : Prop :=
  ∀ outcome, load sha256 dir tenantId configType layers = .ok outcome →
    ∀ snapshot, outcome.snapshot = some snapshot → checks sha256 snapshot = true

/-- The file that a save of the payload writes is read back. -/
def ReadsBack (sha256 : String → String) (tenantId configType : String) (version : JsonNumber)
    (generatedAt : String) (payload : JsMembers N) : Prop :=
  ∃ snapshot : JsValue N,
    loadLocalLkg sha256 tenantId configType
        (some (snapshotText sha256 tenantId configType version generatedAt payload)) =
      .ok (some snapshot) ∧
    property snapshot "payload" = encoded (.object (redactMembers payload))

/-- What Redis holds for the key cannot be parsed, is `null`, or has its checksum. -/
def RedisChecked (sha256 : String → String) (layers : LkgLayers N) (key : String) : Prop :=
  ∀ snapshot, redisSnapshot layers key = some snapshot → isNull snapshot = false →
    checks sha256 snapshot = true

theorem loadLocalLkg_checks {file : Option String} {snapshot : JsValue N}
    (h : loadLocalLkg sha256 tenantId configType file = .ok (some snapshot)) :
    checks sha256 snapshot = true := by
  unfold loadLocalLkg at h
  split at h
  · cases h
  · split at h
    · cases h
    · split at h
      · next hchecks =>
        cases h
        exact hchecks
      · cases h

theorem loadsChecked_iff (hkey : lkgKey (N := N) tenantId configType = .ok key)
    (hfresh : layers.memory key = none) :
    LoadsChecked sha256 dir tenantId configType layers ↔ RedisChecked sha256 layers key := by
  have hload : load sha256 dir tenantId configType layers =
      match redisSnapshot layers key with
      | some snapshot =>
        .ok ⟨if isNull snapshot then none else some snapshot, .fresh, remember layers key snapshot⟩
      | none =>
        match loadLocalLkg sha256 tenantId configType (layers.files (lkgPath dir key)) with
        | .ok (some snapshot) => .ok ⟨some snapshot, .lkg, remember layers key snapshot⟩
        | _ => .ok ⟨none, .missing, layers.memory⟩ := by
    simp only [load, hkey, hfresh, Option.filter_none]
  constructor
  · intro h snapshot hredis hnull
    rw [hredis] at hload
    exact h _ hload snapshot (by simp [hnull])
  · intro h outcome hok snapshot hsnapshot
    rw [hload] at hok
    split at hok
    · next stored hredis =>
      cases hok
      cases hnull : isNull stored with
      | true =>
        simp only [hnull, if_true] at hsnapshot
        cases hsnapshot
      | false =>
        simp only [hnull, Bool.false_eq_true, if_false] at hsnapshot
        exact Option.some.inj hsnapshot ▸ h stored hredis hnull
    · split at hok
      · next found hlocal =>
        cases hok
        exact Option.some.inj hsnapshot ▸ loadLocalLkg_checks hlocal
      · cases hok
        cases hsnapshot

/-- What is read of the file of a save. -/
def writtenSnapshot (sha256 : String → String) (tenantId configType : String) (version : JsonNumber)
    (generatedAt : String) (payload : JsMembers N) : JsValue N :=
  .object
    (.cons "tenantId" (.string tenantId)
    (.cons "configType" (.string configType)
    (.cons "version" (ofNumber version)
    (.cons "schemaVersion" (ofNumber ⟨['1'], by decide⟩)
    (.cons "generatedAt" (.string generatedAt)
    (.cons "checksum" (.string (computeChecksum sha256 (.object (redactMembers payload))))
    (.cons "payload" (encoded (.object (redactMembers payload))) .nil)))))))

theorem readLocal_snapshotText (version : JsonNumber) (generatedAt : String)
    (payload : JsMembers N) :
    readLocal (some (snapshotText sha256 tenantId configType version generatedAt payload)) =
      some (writtenSnapshot sha256 tenantId configType version generatedAt payload) := by
  rw [readLocal, Option.bind_some, snapshotText, String.toList_ofList, parse?, Json.parse_stringify]
  rfl

theorem readsBack_iff (version : JsonNumber) (generatedAt : String) (payload : JsMembers N)
    (honce : KeysOnce (.object payload))
    (hsha : sha256 (String.ofList (canonicalize (encoded (.object (redactMembers payload))))) =
        sha256 (String.ofList (canonicalize (.object (redactMembers payload)))) →
      canonicalize (encoded (.object (redactMembers payload))) =
        canonicalize (.object (redactMembers payload))) :
    ReadsBack sha256 tenantId configType version generatedAt payload ↔
      kept (.object (redactMembers payload)) = true := by
  have hredacted : KeysOnce (.object (redactMembers payload)) := redact_keysOnce (.object payload) honce
  have hchecks : checks sha256
      (writtenSnapshot sha256 tenantId configType version generatedAt payload) =
        decide (computeChecksum sha256 (encoded (.object (redactMembers payload))) =
          computeChecksum sha256 (.object (redactMembers payload))) := rfl
  have hload : loadLocalLkg sha256 tenantId configType
      (some (snapshotText sha256 tenantId configType version generatedAt payload)) =
        if checks sha256 (writtenSnapshot sha256 tenantId configType version generatedAt payload)
        then .ok (some (writtenSnapshot sha256 tenantId configType version generatedAt payload))
        else .error (.checksumMismatch tenantId configType
          (property (writtenSnapshot sha256 tenantId configType version generatedAt payload)
            "version")) := by
    rw [loadLocalLkg, readLocal_snapshotText]
    rfl
  rw [← canonicalize_encoded_iff hredacted]
  constructor
  · rintro ⟨snapshot, hok, -⟩
    rw [hload] at hok
    split at hok
    · next htrue =>
      rw [hchecks, decide_eq_true_eq] at htrue
      exact hsha htrue
    · cases hok
  · intro hsame
    refine ⟨writtenSnapshot sha256 tenantId configType version generatedAt payload, ?_, rfl⟩
    have hsum : computeChecksum sha256 (encoded (.object (redactMembers payload))) =
        computeChecksum sha256 (.object (redactMembers payload)) := by
      rw [computeChecksum, computeChecksum, hsame]
    rw [hload, hchecks, if_pos (decide_eq_true hsum)]

/-- In a process that starts, what `load` returns has the checksum of its payload and the
file of a save is read back, exactly when what Redis holds has its checksum and JSON leaves
nothing of the redacted payload out. -/
theorem lkg_integrity (sha256 : String → String) (dir tenantId configType key : String)
    (layers : LkgLayers N) (version : JsonNumber) (generatedAt : String) (payload : JsMembers N)
    (hkey : lkgKey (N := N) tenantId configType = .ok key) (hfresh : layers.memory key = none)
    (honce : KeysOnce (.object payload))
    (hsha : sha256 (String.ofList (canonicalize (encoded (.object (redactMembers payload))))) =
        sha256 (String.ofList (canonicalize (.object (redactMembers payload)))) →
      canonicalize (encoded (.object (redactMembers payload))) =
        canonicalize (.object (redactMembers payload))) :
    (LoadsChecked sha256 dir tenantId configType layers ∧
        ReadsBack sha256 tenantId configType version generatedAt payload) ↔
      (RedisChecked sha256 layers key ∧ kept (.object (redactMembers payload)) = true) :=
  and_congr (loadsChecked_iff hkey hfresh) (readsBack_iff version generatedAt payload honce hsha)

end Loading

def exNumbers : NumberReading := ⟨some, fun h => Option.some.inj h ▸ h⟩

/-- The hash, on the texts below. -/
def exSha256 (text : String) : String :=
  if text = "\x7b\"queues\":[]\x7d" then
    "20f2bdc58ef52f4b6601c40c6072cd068a26c3c58d265e99752177ef90b91b42"
  else if text = "\x7b\x7d" then "44136fa355b3678a1146ad16f7e8649e94fb4fc21fe77e8310c060f61caaff8a"
  else if text = "\x7b\"a\":null\x7d" then
    "d091f9c83c091f79652fe8786375b3fe4ce0861a56f5bfbafedbe431877ff0e8"
  else ""

def exSnapshotTenant : String := "00000000-0000-0000-0000-000000000001"

def exKey : String := "00000000-0000-0000-0000-000000000001.queue"

def exPayload : JsMembers exNumbers := .cons "queues" (.array .nil) .nil

/-- A process that has just started; Redis answers `raw`. -/
def exLayers (raw : Option String) : LkgLayers exNumbers := ⟨fun _ => none, some fun _ => raw, fun _ => none⟩

def exVersion : JsonNumber := ⟨['1'], by decide⟩

theorem lkg_integrity_exPayload :
    LoadsChecked exSha256 "/var/lkg" exSnapshotTenant "queue" (exLayers none) ∧
      ReadsBack exSha256 exSnapshotTenant "queue" exVersion "2026-01-01T00:00:00.000Z" exPayload :=
  (lkg_integrity exSha256 "/var/lkg" exSnapshotTenant "queue" exKey (exLayers none) exVersion
    "2026-01-01T00:00:00.000Z" exPayload rfl rfl ⟨by decide, trivial, trivial⟩ (fun _ => rfl)).mpr
      ⟨nofun, rfl⟩

/-- A snapshot with a checksum that is not the one of its payload. -/
def exTampered : String := "\x7b\"checksum\":\"0\",\"payload\":\x7b\x7d\x7d"

/-- From Redis a snapshot comes back whatever its checksum; and where a member of the payload
is undefined, the file of the save is not read back. -/
theorem redis_snapshot_unchecked :
    (¬ ∀ (sha256 : String → String) (layers : LkgLayers exNumbers), layers.memory exKey = none →
      LoadsChecked sha256 "/var/lkg" exSnapshotTenant "queue" layers) ∧
    ¬ ∀ (sha256 : String → String) (payload : JsMembers exNumbers), KeysOnce (.object payload) →
      ReadsBack sha256 exSnapshotTenant "queue" exVersion "2026-01-01T00:00:00.000Z" payload := by
  constructor
  · intro h
    have hredis := (loadsChecked_iff rfl rfl).mp (h exSha256 (exLayers (some exTampered)) rfl)
    have hchecks : (redisSnapshot (exLayers (some exTampered)) exKey).map
        (fun snapshot => (isNull snapshot, checks exSha256 snapshot)) = some (false, false) := by
      decide +kernel
    obtain ⟨snapshot, hsnapshot, hpair⟩ := Option.map_eq_some_iff.mp hchecks
    obtain ⟨hnull, hfalse⟩ := Prod.mk.inj hpair
    rw [hredis snapshot hsnapshot hnull] at hfalse
    cases hfalse
  · intro h
    have honce : KeysOnce (.object (.cons "a" .undefined .nil : JsMembers exNumbers)) :=
      ⟨by decide, trivial, trivial⟩
    have hreads := h exSha256 (.cons "a" .undefined .nil) honce
    rw [readsBack_iff _ _ _ honce] at hreads
    · cases hreads
    · intro hsame
      revert hsame
      decide +kernel

end KasterCti.Resilience
