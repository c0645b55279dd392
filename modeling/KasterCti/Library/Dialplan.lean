import KasterCti.Library.Lines
import Mathlib.Data.List.TakeWhile

/-!
# Reading a dialplan

The part of Asterisk's `extensions.conf` that generated files use: context
headers, `exten => name,priority(label),App(args)` and `same => n(label),App(args)`,
with comments from a semicolon on. Loading gives the priorities of every
extension of every context, in the order of the file; where a priority is given
twice, the first one counts. Texts are lists of characters.
-/

namespace Dialplan

abbrev Text := List Char

/-! ## Cutting texts -/

/-- Before and behind the first `sep`. -/
def cut (sep : Char) : Text → Text × Option Text
  | [] => ([], none)
  | c :: cs => if c = sep then ([], some cs) else (c :: (cut sep cs).1, (cut sep cs).2)

/-- Up to the last `sep`, or all when there is none. -/
def upToLast (sep : Char) (t : Text) : Text :=
  match t.reverse.dropWhile (· ≠ sep) with
  | [] => t
  | _ :: before => before.reverse

def isBlank (c : Char) : Bool := c.toNat ≤ 32

/-- Without the blanks at both ends. -/
def strip (t : Text) : Text := ((t.dropWhile isBlank).reverse.dropWhile isBlank).reverse

theorem cut_cons (sep c : Char) (cs : Text) : cut sep (c :: cs) =
    if c = sep then ([], some cs) else (c :: (cut sep cs).1, (cut sep cs).2) :=
  rfl

theorem cut_append {sep : Char} {a : Text} (h : sep ∉ a) (b : Text) :
    cut sep (a ++ sep :: b) = (a, some b) := by
  induction a with
  | nil => exact if_pos rfl
  | cons c a ih =>
    have hc : c ≠ sep := fun hc => h (by simp [hc])
    rw [List.cons_append, cut_cons, if_neg hc, ih (fun ha => h (List.mem_cons_of_mem _ ha))]

theorem cut_of_notMem {sep : Char} {a : Text} (h : sep ∉ a) : cut sep a = (a, none) := by
  induction a with
  | nil => rfl
  | cons c a ih =>
    have hc : c ≠ sep := fun hc => h (by simp [hc])
    rw [cut_cons, if_neg hc, ih (fun ha => h (List.mem_cons_of_mem _ ha))]

theorem upToLast_append (sep : Char) (a : Text) : upToLast sep (a ++ [sep]) = a := by
  simp [upToLast]

/-- A text that neither starts nor ends with a blank. -/
structure Stripped (t : Text) : Prop where
  head : ∀ c, t.head? = some c → isBlank c = false
  last : ∀ c, t.getLast? = some c → isBlank c = false

theorem dropWhile_of_head {p : Char → Bool} {t : Text}
    (h : ∀ c, t.head? = some c → p c = false) : t.dropWhile p = t := by
  cases t with
  | nil => rfl
  | cons c t => rw [List.dropWhile_cons, h c rfl, if_neg (by decide)]

theorem Stripped.strip {t : Text} (h : Stripped t) : strip t = t := by
  have hend : t.reverse.dropWhile isBlank = t.reverse :=
    dropWhile_of_head (fun c hc => h.last c (by rwa [List.head?_reverse] at hc))
  rw [Dialplan.strip, dropWhile_of_head h.head, hend, List.reverse_reverse]

theorem Stripped.strip_cons_blank {t : Text} {c : Char} (h : Stripped t) (hc : isBlank c = true) :
    Dialplan.strip (c :: t) = t := by
  have hdrop : (c :: t).dropWhile isBlank = t := by
    rw [List.dropWhile_cons, if_pos hc, dropWhile_of_head h.head]
  have hend : t.reverse.dropWhile isBlank = t.reverse :=
    dropWhile_of_head (fun c hc => h.last c (by rwa [List.head?_reverse] at hc))
  rw [Dialplan.strip, hdrop, hend, List.reverse_reverse]

theorem stripped_of {t : Text} {c d : Char} (hhead : t.head? = some c) (hlast : t.getLast? = some d)
    (hc : isBlank c = false) (hd : isBlank d = false) : Stripped t := by
  refine ⟨?_, ?_⟩
  · intro e he
    rw [hhead] at he
    exact Option.some.inj he ▸ hc
  · intro e he
    rw [hlast] at he
    exact Option.some.inj he ▸ hd

/-! ## Lines -/

/-- One priority of an extension: an application with its arguments, perhaps
labelled. -/
structure Step where
  label : Option Text
  app : Text
  args : Text
deriving DecidableEq

/-- The priority of a line: a number, or the next one. -/
inductive Priority
  | number (n : Nat)
  | next
deriving DecidableEq

inductive Line
  | header (context : Text)
  | exten (name : Text) (priority : Priority) (step : Step)
  | same (priority : Priority) (step : Step)
  | other
deriving DecidableEq

def isDigit (c : Char) : Bool := '0' ≤ c && c ≤ '9'

/-- The value of a run of decimal digits. -/
def natOf (t : Text) : Nat := Nat.ofDigitChars 10 t 0

def parsePriority (t : Text) : Option Priority :=
  if t = ['n'] then some .next
  else if t ≠ [] && t.all isDigit then some (.number (natOf t))
  else none

/-- `App(args)`: the name before the first parenthesis, the arguments up to the
last one. -/
def parseApp (label : Option Text) (t : Text) : Step :=
  match cut '(' t with
  | (app, none) => ⟨label, strip app, []⟩
  | (app, some rest) => ⟨label, strip app, upToLast ')' rest⟩

/-- `priority(label),App(args)`. -/
def parseStep (t : Text) : Option (Priority × Step) :=
  match cut ',' t with
  | (_, none) => none
  | (head, some app) =>
    match cut '(' head with
    | (priority, none) => (parsePriority (strip priority)).map (·, parseApp none app)
    | (priority, some label) =>
      (parsePriority (strip priority)).map (·, parseApp (some (cut ')' label).1) app)

def parseExten (t : Text) : Line :=
  match cut ',' t with
  | (_, none) => .other
  | (name, some rest) =>
    match parseStep rest with
    | some (priority, step) => .exten name priority step
    | none => .other

def parseSame (t : Text) : Line :=
  match parseStep t with
  | some (priority, step) => .same priority step
  | none => .other

def dropArrow : Text → Text
  | '>' :: t => t
  | t => t

/-- The text up to the first semicolon; one behind a backslash is text. -/
def uncomment : Text → Text
  | [] => []
  | '\\' :: ';' :: t => ';' :: uncomment t
  | c :: t => if c = ';' then [] else c :: uncomment t

def parseLine (line : Text) : Line :=
  let t := strip (uncomment line)
  match t with
  | '[' :: rest => .header (cut ']' rest).1
  | _ =>
    match cut '=' t with
    | (_, none) => .other
    | (key, some value) =>
      if strip key = "exten".toList then parseExten (strip (dropArrow value))
      else if strip key = "same".toList then parseSame (strip (dropArrow value))
      else .other

/-! ## Reading the lines that generators write -/

theorem uncomment_of_notMem {t : Text} (h : ';' ∉ t) : uncomment t = t := by
  induction t with
  | nil => rfl
  | cons c t ih =>
    have hc : c ≠ ';' := fun hc => h (by simp [hc])
    have ht : ';' ∉ t := fun ht => h (List.mem_cons_of_mem _ ht)
    have hpair : ∀ t', c = '\\' → t = ';' :: t' → False := by
      rintro t' _ rfl
      exact ht (by simp)
    rw [uncomment.eq_3 _ _ hpair, if_neg hc, ih ht]

/-- `App(args)` as it is written. -/
def appText (app args : Text) : Text := app ++ '(' :: args ++ [')']


theorem parseApp_appText {label : Option Text} {app args : Text} (happ : '(' ∉ app)
    (hstrip : Stripped app) : parseApp label (appText app args) = ⟨label, app, args⟩ := by
  rw [parseApp, appText, List.append_assoc, List.cons_append, cut_append happ]
  simp only [hstrip.strip, upToLast_append]

theorem getLast?_append_of {a b : Text} {c : Char} (h : b.getLast? = some c) :
    (a ++ b).getLast? = some c := by
  rw [List.getLast?_append, h]
  rfl

theorem appText_getLast? (app args : Text) : (appText app args).getLast? = some ')' :=
  getLast?_append_of rfl

theorem parseLine_header {name : Text} (hclose : ']' ∉ name) (hsemi : ';' ∉ name) :
    parseLine ('[' :: name ++ [']']) = .header name := by
  have hno : ';' ∉ '[' :: name ++ [']'] := by simp [hsemi]
  have hstrip : Stripped ('[' :: name ++ [']']) :=
    stripped_of (c := '[') (d := ']') rfl (by simp [List.getLast?_cons]) rfl rfl
  rw [parseLine, uncomment_of_notMem hno, hstrip.strip]
  simp only [List.cons_append, cut_append hclose]

theorem parseLine_exten {name app : Text} {c : Char} (hname : name.head? = some c)
    (hc : isBlank c = false) (hcomma : ',' ∉ name) (hsemi : ';' ∉ name) (happ : ';' ∉ app)
    (hlast : app.getLast? = some ')') :
    parseLine ("exten => ".toList ++ name ++ ",1,".toList ++ app) =
      .exten name (.number 1) (parseApp none app) := by
  have hno : ';' ∉ "exten => ".toList ++ name ++ ",1,".toList ++ app := by
    simp [hsemi, happ]
  have hstrip : Stripped ("exten => ".toList ++ name ++ ",1,".toList ++ app) :=
    stripped_of (c := 'e') (d := ')') rfl (getLast?_append_of hlast) rfl rfl
  have hvalue : Stripped (name ++ (",1,".toList ++ app)) :=
    stripped_of (c := c) (d := ')') (by simp [hname])
      (getLast?_append_of (getLast?_append_of hlast)) hc rfl
  have hcut : cut '=' ("exten => ".toList ++ name ++ ",1,".toList ++ app) =
      ("exten ".toList, some ('>' :: ' ' :: (name ++ (",1,".toList ++ app)))) := by
    have hkey : '=' ∉ "exten ".toList := by decide
    simpa using cut_append hkey ('>' :: ' ' :: (name ++ (",1,".toList ++ app)))
  have hkey : strip "exten ".toList = "exten".toList := by decide
  rw [parseLine, uncomment_of_notMem hno, hstrip.strip]
  have hexten : parseExten (name ++ (",1,".toList ++ app)) =
      .exten name (.number 1) (parseApp none app) := by
    have hone : cut ',' (name ++ (",1,".toList ++ app)) = (name, some ("1,".toList ++ app)) :=
      cut_append hcomma _
    have htwo : cut ',' ("1,".toList ++ app) = ("1".toList, some app) :=
      cut_append (show ',' ∉ "1".toList by decide) app
    rw [parseExten, hone]
    simp only [parseStep, htwo]
    rfl
  split
  · rename_i rest heq
    exact absurd (congrArg List.head? heq) (by simp)
  · rw [hcut]
    simp only [hkey, if_true, dropArrow, hvalue.strip_cons_blank (c := ' ') rfl]
    exact hexten

/-- A `same` line is read at its value. -/
theorem parseLine_sameValue {value : Text} {c : Char} (hhead : value.head? = some c)
    (hc : isBlank c = false) (hlast : value.getLast? = some ')') (hsemi : ';' ∉ value) :
    parseLine (" same => ".toList ++ value) = parseSame value := by
  have hno : ';' ∉ " same => ".toList ++ value := by simp [hsemi]
  have hstrip : Stripped ("same => ".toList ++ value) :=
    stripped_of (c := 's') (d := ')') rfl (getLast?_append_of hlast) rfl rfl
  have hvalue : Stripped value := stripped_of hhead hlast hc rfl
  have hcut : cut '=' ("same => ".toList ++ value) = ("same ".toList, some ('>' :: ' ' :: value)) :=
    cut_append (show '=' ∉ "same ".toList by decide) _
  have hkey : strip "same ".toList = "same".toList := by decide
  have hnot : "same".toList ≠ "exten".toList := by decide
  have hline : strip (" same => ".toList ++ value) = "same => ".toList ++ value :=
    hstrip.strip_cons_blank (c := ' ') rfl
  rw [parseLine, uncomment_of_notMem hno, hline]
  split
  · rename_i rest heq
    exact absurd (congrArg List.head? heq) (by simp)
  · rw [hcut]
    simp only [hkey, hnot, if_true, if_false, dropArrow,
      hvalue.strip_cons_blank (c := ' ') rfl]

theorem parseLine_same {app : Text} (hsemi : ';' ∉ app) (hlast : app.getLast? = some ')') :
    parseLine (" same => n,".toList ++ app) = .same .next (parseApp none app) := by
  have hhead : ("n,".toList ++ app).head? = some 'n' := rfl
  have hline := parseLine_sameValue hhead rfl (getLast?_append_of hlast) (by simp [hsemi])
  have hcut : cut ',' ("n,".toList ++ app) = ("n".toList, some app) :=
    cut_append (show ',' ∉ "n".toList by decide) app
  have hsame : parseSame ("n,".toList ++ app) = .same .next (parseApp none app) := by
    rw [parseSame, parseStep, hcut]
    rfl
  exact hline.trans hsame

theorem parseLine_sameLabel {label app : Text} (hcomma : ',' ∉ label) (hclose : ')' ∉ label)
    (hlabel : ';' ∉ label) (hsemi : ';' ∉ app) (hlast : app.getLast? = some ')') :
    parseLine (" same => n(".toList ++ label ++ "),".toList ++ app) =
      .same .next (parseApp (some label) app) := by
  have hhead : ("n(".toList ++ (label ++ ("),".toList ++ app))).head? = some 'n' := rfl
  have hline := parseLine_sameValue hhead rfl
    (getLast?_append_of (getLast?_append_of (getLast?_append_of hlast))) (by simp [hlabel, hsemi])
  have hcut : cut ',' ("n(".toList ++ (label ++ ("),".toList ++ app))) =
      ("n(".toList ++ (label ++ [')']), some app) := by
    have hno : ',' ∉ "n(".toList ++ (label ++ [')']) := by simp [hcomma]
    simpa using cut_append hno app
  have hopen : cut '(' ("n(".toList ++ (label ++ [')'])) = ("n".toList, some (label ++ [')'])) :=
    cut_append (show '(' ∉ "n".toList by decide) _
  have hsame : parseSame ("n(".toList ++ (label ++ ("),".toList ++ app))) =
      .same .next (parseApp (some label) app) := by
    rw [parseSame, parseStep, hcut]
    simp only [hopen, cut_append hclose]
    rfl
  have happ : " same => n(".toList ++ label ++ "),".toList ++ app =
      " same => ".toList ++ ("n(".toList ++ (label ++ ("),".toList ++ app))) := by simp
  rw [happ]
  exact hline.trans hsame

/-! ## Loading -/

/-- One priority with its place. -/
structure Entry where
  context : Text
  exten : Text
  priority : Nat
  step : Step

/-- The loader between two lines: where the next `same` line goes. -/
structure Cursor where
  context : Text
  exten : Text
  last : Nat

def Priority.after (last : Nat) : Priority → Nat
  | .number n => n
  | .next => last + 1

def Cursor.advance (cursor : Cursor) : Line → Cursor
  | .header context => ⟨context, [], 0⟩
  | .exten name priority _ => ⟨cursor.context, name, priority.after cursor.last⟩
  | .same priority _ => ⟨cursor.context, cursor.exten, priority.after cursor.last⟩
  | .other => cursor

def Cursor.entry (cursor : Cursor) : Line → List Entry
  | .exten name priority step => [⟨cursor.context, name, priority.after cursor.last, step⟩]
  | .same priority step => [⟨cursor.context, cursor.exten, priority.after cursor.last, step⟩]
  | _ => []

def loadFrom (cursor : Cursor) : List Line → List Entry
  | [] => []
  | line :: lines => cursor.entry line ++ loadFrom (cursor.advance line) lines

def Cursor.start : Cursor := ⟨[], [], 0⟩

/-- The dialplan that a text stands for. -/
def load (text : String) : List Entry :=
  loadFrom .start ((Lines.lines text).map (fun line => parseLine line.toList))

end Dialplan
