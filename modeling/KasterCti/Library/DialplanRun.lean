import KasterCti.Library.ExtenPattern
import KasterCti.Library.Machine
import Mathlib.Data.Char
import Mathlib.Data.List.Lex

/-!
# Running a dialplan

A call is at a place of the dialplan and has channel variables; each step runs
the application there. What comes from outside is given with the call: the keys
the caller presses, the variables that an AGI script sets, whether a time window
is open, and the values of channel functions. `${…}` and `$[…]` are expanded
before an application sees its arguments. A jump to a context that is not in the
text leaves it; a jump to a place that does not exist ends the call.
-/

namespace Dialplan

/-! ## Expressions -/

def natText (n : Nat) : Text := (toString n).toList

/-- The parts between the separators that stand outside quotes. -/
def splitUnquoted (sep : Char) (quoted : Bool) : Text → List Text
  | [] => [[]]
  | c :: t =>
    if c = sep && !quoted then [] :: splitUnquoted sep false t
    else (splitUnquoted sep (if c = '"' then !quoted else quoted) t).modifyHead (c :: ·)

inductive Op
  | eq | ne | ge | le | gt | lt | plus

def readOp : Text → Option (Op × Text)
  | '=' :: t => some (.eq, t)
  | '!' :: '=' :: t => some (.ne, t)
  | '>' :: '=' :: t => some (.ge, t)
  | '<' :: '=' :: t => some (.le, t)
  | '>' :: t => some (.gt, t)
  | '<' :: t => some (.lt, t)
  | '+' :: t => some (.plus, t)
  | _ => none

/-- The text before the first operator outside quotes, and what follows it. -/
def cutOp (quoted : Bool) : Text → Text × Option (Op × Text)
  | [] => ([], none)
  | c :: t =>
    match (if quoted then none else readOp (c :: t)) with
    | some found => ([], some found)
    | none =>
      let after := cutOp (if c = '"' then !quoted else quoted) t
      (c :: after.1, after.2)

def unquote (t : Text) : Text :=
  match t with
  | '"' :: rest => if rest.getLast? = some '"' then rest.dropLast else t
  | _ => t

def isNumber (t : Text) : Bool := t ≠ [] && t.all isDigit

def truth (b : Bool) : Text := if b then ['1'] else ['0']

/-- Numbers are compared as numbers, other texts as texts; digits in quotes are a text. -/
def evalOp (op : Op) (a b : Text) : Text :=
  let numbers := isNumber a && isNumber b
  let left := unquote a
  let right := unquote b
  match op with
  | .eq => truth (if numbers then natOf left = natOf right else left = right)
  | .ne => truth (if numbers then natOf left ≠ natOf right else left ≠ right)
  | .ge => truth (if numbers then natOf right ≤ natOf left else decide (right ≤ left))
  | .le => truth (if numbers then natOf left ≤ natOf right else decide (left ≤ right))
  | .gt => truth (if numbers then natOf right < natOf left else decide (right < left))
  | .lt => truth (if numbers then natOf left < natOf right else decide (left < right))
  | .plus => natText (natOf left + natOf right)

def evalComparison (t : Text) : Text :=
  match cutOp false t with
  | (a, none) => unquote (strip a)
  | (a, some (op, b)) => evalOp op (strip a) (strip b)

/-- What `GotoIf` takes as true. -/
def isTrue (t : Text) : Bool :=
  let t := strip t
  t ≠ [] && !(isNumber t && natOf t = 0)

/-- The value of `$[t]`. -/
def evalExpr (t : Text) : Text :=
  match splitUnquoted '|' false t with
  | [conjunction] =>
    match splitUnquoted '&' false conjunction with
    | [comparison] => evalComparison comparison
    | parts => truth (parts.all (fun part => isTrue (evalComparison part)))
  | parts =>
    truth (parts.any (fun part =>
      (splitUnquoted '&' false part).all (fun p => isTrue (evalComparison p))))

/-! ## Variables -/

/-- The value of `${t}`: `LEN`, `FILTER`, or what the channel says. -/
def valueOf (lookup : Text → Text) (t : Text) : Text :=
  match cut '(' t with
  | (_, none) => lookup t
  | (name, some rest) =>
    let args := upToLast ')' rest
    if name = "LEN".toList then natText args.length
    else if name = "FILTER".toList then
      match cut ',' args with
      | (_, none) => []
      | (allowed, some text) => text.filter (fun c => c ∈ charRange allowed)
    else lookup t

/-- An open `${` or `$[` with the text collected in it so far. -/
structure Frame where
  isExpr : Bool
  text : Text

/-- Add a text to the innermost open frame, or to the output. -/
def put (out : Text) (frames : List Frame) (t : Text) : Text × List Frame :=
  match frames with
  | [] => (out ++ t, [])
  | frame :: rest => (out, ⟨frame.isExpr, frame.text ++ t⟩ :: rest)

/-- Expansion from the left; a frame that is never closed is dropped. -/
def expandFrom (lookup : Text → Text) (out : Text) (frames : List Frame) : Text → Text
  | [] => out
  | '$' :: '\x7b' :: t => expandFrom lookup out (⟨false, []⟩ :: frames) t
  | '$' :: '[' :: t => expandFrom lookup out (⟨true, []⟩ :: frames) t
  | c :: t =>
    match frames with
    | frame :: rest =>
      if c = '\x7d' && !frame.isExpr then
        let next := put out rest (valueOf lookup frame.text)
        expandFrom lookup next.1 next.2 t
      else if c = ']' && frame.isExpr then
        let next := put out rest (evalExpr frame.text)
        expandFrom lookup next.1 next.2 t
      else
        let next := put out frames [c]
        expandFrom lookup next.1 next.2 t
    | [] => expandFrom lookup (out ++ [c]) [] t

theorem expandFrom_nil (lookup : Text → Text) (out : Text) (frames : List Frame) :
    expandFrom lookup out frames [] = out := by
  rw [expandFrom]

def expand (lookup : Text → Text) (t : Text) : Text := expandFrom lookup [] [] t

/-- A variable without the underscores that make it inherited. -/
def varName : Text → Text
  | '_' :: '_' :: t => t
  | '_' :: t => t
  | t => t

/-! ## Places -/

structure Pos where
  context : Text
  exten : Text
  priority : Nat
deriving DecidableEq

/-- The entries of the extension that the place names. -/
def Pos.isAt (pos : Pos) (name : Text) (entry : Entry) : Bool :=
  entry.context = pos.context && entry.exten = name && entry.priority = pos.priority

def stepAt (dialplan : List Entry) (pos : Pos) : Option Step :=
  match extenFor dialplan pos.context pos.exten with
  | none => none
  | some name => (dialplan.find? (pos.isAt name)).map Entry.step

/-- The priority that a number or a label names. -/
def priorityOf (dialplan : List Entry) (context exten priority : Text) : Option Nat :=
  if isNumber priority then some (natOf priority)
  else
    match extenFor dialplan context exten with
    | none => none
    | some name =>
      (dialplan.find? (fun entry => entry.context = context && entry.exten = name &&
        entry.step.label = some priority)).map Entry.priority

inductive Jump
  | to (pos : Pos)
  | leave (context exten priority : Text)
  | fail

def jumpTo (dialplan : List Entry) (context exten priority : Text) : Jump :=
  match priorityOf dialplan context exten priority with
  | some n => .to ⟨context, exten, n⟩
  | none => .fail

/-- `priority`, `exten,priority` or `context,exten,priority`. -/
def resolve (dialplan : List Entry) (pos : Pos) (dest : Text) : Jump :=
  match dest.splitOnP (· == ',') with
  | [priority] => jumpTo dialplan pos.context pos.exten priority
  | [exten, priority] => jumpTo dialplan pos.context exten priority
  | [context, exten, priority] =>
    if (dialplan.map Entry.context).contains context then
      jumpTo dialplan context exten priority
    else .leave context exten priority
  | _ => .fail

/-! ## The caller and the machine -/

/-- A key of a telephone. -/
def isKey (c : Char) : Bool := isDigit c || c ∈ ['*', '#', 'A', 'B', 'C', 'D']

/-- Keys pressed while an extension is awaited. -/
structure Typed where
  keys : Text
  valid : keys ≠ [] ∧ keys.all isKey = true
deriving DecidableEq

/-- What the outside does, each in the order in which it is asked for: the
extensions typed (`none` for a timeout), the keys pressed at `Read`, the
variables that AGI scripts set, the truth of time windows. -/
structure Caller where
  extens : List (Option Typed)
  reads : List Text
  agis : List (List (Text × Text))
  windows : List Bool

inductive Outcome
  | hungUp
  | left (context exten priority : Text)
  | gone
deriving DecidableEq

/-- A place that was run, with its label. -/
structure Visited where
  pos : Pos
  label : Option Text

structure State where
  pos : Pos
  vars : List (Text × Text)
  caller : Caller
  returns : List Pos
  trace : List Visited

/-- How a run ended, with the places it visited, the last one first. -/
structure Result where
  outcome : Outcome
  trace : List Visited

inductive App
  | pass | set | goto | gotoIf | gotoIfTime | hangup | read | waitExten | agi | gosub | return
  | execIf | unknown
deriving DecidableEq

def apps : List (String × App) :=
  [("NoOp", .pass), ("Answer", .pass), ("Playback", .pass), ("Background", .pass),
    ("System", .pass), ("Dial", .pass), ("Pickup", .pass), ("Wait", .pass), ("SayDigits", .pass),
    ("Queue", .pass), ("UserEvent", .pass), ("StartMusicOnHold", .pass),
    ("StopMusicOnHold", .pass), ("MixMonitor", .pass), ("Set", .set), ("Goto", .goto),
    ("GotoIf", .gotoIf), ("GotoIfTime", .gotoIfTime), ("Hangup", .hangup), ("Read", .read),
    ("WaitExten", .waitExten), ("AGI", .agi), ("Gosub", .gosub), ("Return", .return),
    ("ExecIf", .execIf)]

def appOf (name : Text) : App :=
  ((apps.find? (fun app => app.1.toList = name)).map Prod.snd).getD .unknown

namespace State

def advance (s : State) : State :=
  { s with pos := ⟨s.pos.context, s.pos.exten, s.pos.priority + 1⟩ }

def finish (s : State) (outcome : Outcome) : State ⊕ Result := .inr ⟨outcome, s.trace⟩

def setVar (s : State) (name value : Text) : State :=
  { s with vars := (varName name, value) :: s.vars }

def goto (dialplan : List Entry) (s : State) (dest : Text) : State ⊕ Result :=
  match resolve dialplan s.pos dest with
  | .to pos => .inl { s with pos := pos }
  | .leave context exten priority => s.finish (.left context exten priority)
  | .fail => s.finish .hungUp

/-- `…?yes:no`, with a branch that is not there meaning the next priority. -/
def branch (dialplan : List Entry) (s : State) (condition : Bool) (branches : Text) :
    State ⊕ Result :=
  match cut ':' branches with
  | (yes, no) =>
    if condition then (if yes = [] then .inl s.advance else s.goto dialplan yes)
    else
      match no with
      | some dest => s.goto dialplan dest
      | none => .inl s.advance

/-- The keys that `Read` keeps: up to the pound key, and no more than the limit
when there is one. -/
def keptKeys (limit : Nat) (keys : Text) : Text :=
  let typed := keys.takeWhile (· ≠ '#')
  if limit = 0 then typed else typed.take limit

/-- `Read(name,prompt,max,…)`. -/
def read (s : State) (args : Text) : State ⊕ Result :=
  match s.caller.reads with
  | [] => s.finish .gone
  | keys :: reads =>
    let parts := args.splitOnP (· == ',')
    let kept := keptKeys (natOf (parts.getD 2 [])) keys
    .inl ({ s with caller := { s.caller with reads := reads } }.setVar (parts.headD []) kept).advance

/-- `WaitExten`: what is typed is the next extension, `i` stands in for one that
does not exist, `t` for a timeout. -/
def waitExten (dialplan : List Entry) (s : State) : State ⊕ Result :=
  match s.caller.extens with
  | [] => s.finish .gone
  | typed :: extens =>
    let s := { s with caller := { s.caller with extens := extens } }
    match typed with
    | none => s.goto dialplan "t,1".toList
    | some typed =>
      if (extenFor dialplan s.pos.context typed.keys).isSome then
        .inl { s with pos := ⟨s.pos.context, typed.keys, 1⟩ }
      else s.goto dialplan "i,1".toList

def agi (s : State) : State ⊕ Result :=
  match s.caller.agis with
  | [] => s.finish .gone
  | vars :: agis =>
    .inl { s with
      caller := { s.caller with agis := agis }
      vars := vars.reverse ++ s.vars }.advance

/-- `GotoIfTime`: the window of all times is open, any other one is asked for. -/
def gotoIfTime (dialplan : List Entry) (s : State) (args : Text) : State ⊕ Result :=
  match cut '?' args with
  | (_, none) => .inl s.advance
  | (spec, some branches) =>
    if spec = "*,*,*,*".toList then s.branch dialplan true branches
    else
      match s.caller.windows with
      | [] => s.finish .gone
      | isOpen :: windows =>
        { s with caller := { s.caller with windows := windows } }.branch dialplan isOpen branches

def basic (dialplan : List Entry) (s : State) (app : App) (args : Text) : State ⊕ Result :=
  match app with
  | .pass => .inl s.advance
  | .set =>
    match cut '=' args with
    | (_, none) => .inl s.advance
    | (name, some value) => .inl (s.setVar name value).advance
  | .goto => s.goto dialplan args
  | .gotoIf =>
    match cut '?' args with
    | (_, none) => .inl s.advance
    | (condition, some branches) => s.branch dialplan (isTrue condition) branches
  | .gotoIfTime => s.gotoIfTime dialplan args
  | .hangup => s.finish .hungUp
  | .read => s.read args
  | .waitExten => s.waitExten dialplan
  | .agi => s.agi
  | .gosub => { s with returns := s.advance.pos :: s.returns }.goto dialplan args
  | .return =>
    match s.returns with
    | [] => s.finish .hungUp
    | pos :: returns => .inl { s with pos := pos, returns := returns }
  | .execIf => .inl s.advance
  | .unknown => s.finish .hungUp

/-- `ExecIf(condition?App(args):App(args))` runs one of its applications here. -/
def apply (dialplan : List Entry) (s : State) (app : App) (args : Text) : State ⊕ Result :=
  match app with
  | .execIf =>
    match cut '?' args with
    | (_, none) => .inl s.advance
    | (condition, some branches) =>
      let chosen := if isTrue condition then some (cut ':' branches).1 else (cut ':' branches).2
      match chosen with
      | none => .inl s.advance
      | some text => s.basic dialplan (appOf (parseApp none text).app) (parseApp none text).args
  | app => s.basic dialplan app args

/-- What `${name}` gives: the place, a channel variable, or what the channel
says at this moment. -/
def lookup (world : Nat → Text → Text) (s : State) (name : Text) : Text :=
  if name = "EXTEN".toList then s.pos.exten
  else (s.vars.lookup name).getD (world s.trace.length name)

end State

/-- One priority. `world` gives the values that the channel has from outside, at
each moment. -/
def step (dialplan : List Entry) (world : Nat → Text → Text) (s : State) : State ⊕ Result :=
  match stepAt dialplan s.pos with
  | none => s.finish .hungUp
  | some code =>
    let s := { s with trace := ⟨s.pos, code.label⟩ :: s.trace }
    s.apply dialplan (appOf code.app) (expand (s.lookup world) code.args)

end Dialplan
