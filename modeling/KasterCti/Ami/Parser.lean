import KasterCti.Calls.World

/-!
# AMI frames

`ami.parser.ts` and `ami-event-normalizer.service.ts`: frames are separated by
an empty line, a frame is a list of `Key: Value` lines. Texts are lists of
characters; a parsed frame lists its keys in the order in which they were first
set.
-/

namespace KasterCti.Ami

open JsText Calls

/-! ## Frames -/

/-- `rest.indexOf('\r\n\r\n')`: what is before and behind the first empty line. -/
def cutFrame : List Char → Option (List Char × List Char)
  | '\r' :: '\n' :: '\r' :: '\n' :: rest => some ([], rest)
  | c :: rest => (cutFrame rest).map (fun cut => (c :: cut.1, cut.2))
  | [] => none

/-- The loop of `splitAmiFrames`; every round shortens the buffer. -/
def splitLoop : Nat → List Char → List (List Char) × List Char
  | 0, buffer => ([], buffer)
  | fuel + 1, buffer =>
    match cutFrame buffer with
    | none => ([], buffer)
    | some (frame, rest) => (frame :: (splitLoop fuel rest).1, (splitLoop fuel rest).2)

/-- The complete frames of the buffer and the rest. -/
def splitAmiFrames (buffer : List Char) : List (List Char) × List Char :=
  splitLoop buffer.length buffer

theorem eq_of_cutFrame {t x y : List Char} (h : cutFrame t = some (x, y)) :
    t = x ++ ['\r', '\n', '\r', '\n'] ++ y := by
  induction t using cutFrame.induct generalizing x with
  | case1 rest =>
    obtain ⟨rfl, rfl⟩ : [] = x ∧ rest = y := by simpa [cutFrame] using h
    rfl
  | case2 c rest hno ih =>
    rw [cutFrame] at h
    · obtain ⟨⟨x', y'⟩, hcut, heq⟩ := Option.map_eq_some_iff.mp h
      obtain ⟨rfl, rfl⟩ := Prod.mk.inj heq
      rw [ih hcut]
      rfl
    · exact hno
  | case3 => cases h

theorem length_of_cutFrame {t x y : List Char} (h : cutFrame t = some (x, y)) :
    t.length = x.length + 4 + y.length := by
  rw [eq_of_cutFrame h]
  simp only [List.length_append, List.length_cons, List.length_nil]

/-- What a text has been cut into stays when more follows. -/
theorem cutFrame_append {t x y : List Char} (h : cutFrame t = some (x, y)) (more : List Char) :
    cutFrame (t ++ more) = some (x, y ++ more) := by
  induction t using cutFrame.induct generalizing x with
  | case1 rest =>
    obtain ⟨rfl, rfl⟩ : [] = x ∧ rest = y := by simpa [cutFrame] using h
    rfl
  | case2 c rest hno ih =>
    rw [cutFrame] at h
    · obtain ⟨⟨x', y'⟩, hcut, heq⟩ := Option.map_eq_some_iff.mp h
      obtain ⟨rfl, rfl⟩ := Prod.mk.inj heq
      have hlen := length_of_cutFrame hcut
      rw [List.cons_append, cutFrame, ih hcut]
      · rfl
      · -- The four characters of an empty line would all lie in `c :: rest`.
        intro tail hc hrest
        have hprefix : ['\n', '\r', '\n'] <+: rest :=
          List.prefix_of_prefix_length_le ⟨tail, hrest.symm⟩ (List.prefix_append rest more)
            (by simp only [List.length_cons, List.length_nil]; omega)
        obtain ⟨tail', rfl⟩ := hprefix
        exact hno tail' hc rfl
    · exact hno
  | case3 => cases h

theorem splitLoop_of_none {t : List Char} (h : cutFrame t = none) (fuel : Nat) :
    splitLoop fuel t = ([], t) := by
  cases fuel with
  | zero => rfl
  | succ fuel => rw [splitLoop, h]

theorem splitLoop_of_some {t x y : List Char} (h : cutFrame t = some (x, y)) (fuel : Nat) :
    splitLoop (fuel + 1) t = (x :: (splitLoop fuel y).1, (splitLoop fuel y).2) := by
  rw [splitLoop, h]

/-- More rounds than the buffer needs change nothing. -/
theorem splitLoop_fuel {fuel : Nat} {t : List Char} (h : t.length ≤ fuel) :
    splitLoop fuel t = splitAmiFrames t := by
  suffices hboth : ∀ n m, t.length ≤ n → t.length ≤ m → splitLoop n t = splitLoop m t from
    hboth fuel t.length h (Nat.le_refl _)
  clear h
  induction hlen : t.length using Nat.strongRecOn generalizing t with
  | ind k ih =>
    intro n m hn hm
    cases hcut : cutFrame t with
    | none => rw [splitLoop_of_none hcut, splitLoop_of_none hcut]
    | some cut =>
      obtain ⟨x, y⟩ := cut
      have hy := length_of_cutFrame hcut
      obtain ⟨n, rfl⟩ := Nat.exists_eq_succ_of_ne_zero (show n ≠ 0 by omega)
      obtain ⟨m, rfl⟩ := Nat.exists_eq_succ_of_ne_zero (show m ≠ 0 by omega)
      have hrest := ih y.length (by omega) rfl n m (by omega) (by omega)
      rw [splitLoop_of_some hcut, splitLoop_of_some hcut, hrest]

theorem splitAmiFrames_of_none {t : List Char} (h : cutFrame t = none) :
    splitAmiFrames t = ([], t) :=
  splitLoop_of_none h t.length

theorem splitAmiFrames_of_some {t x y : List Char} (h : cutFrame t = some (x, y)) :
    splitAmiFrames t = (x :: (splitAmiFrames y).1, (splitAmiFrames y).2) := by
  have hlen := length_of_cutFrame h
  obtain ⟨n, hn⟩ := Nat.exists_eq_succ_of_ne_zero (show t.length ≠ 0 by omega)
  rw [splitAmiFrames, hn, splitLoop_of_some h, splitLoop_fuel (show y.length ≤ n by omega)]

/-- Cutting what has been cut so far and then the rest with what follows is cutting
everything at once. -/
theorem splitAmiFrames_append (t more : List Char) :
    splitAmiFrames (t ++ more) =
      ((splitAmiFrames t).1 ++ (splitAmiFrames ((splitAmiFrames t).2 ++ more)).1,
        (splitAmiFrames ((splitAmiFrames t).2 ++ more)).2) := by
  induction hlen : t.length using Nat.strongRecOn generalizing t with
  | ind k ih =>
    cases hcut : cutFrame t with
    | none =>
      rw [splitAmiFrames_of_none hcut]
      rfl
    | some cut =>
      obtain ⟨x, y⟩ := cut
      have hy := length_of_cutFrame hcut
      have hrest := ih y.length (by omega) y rfl
      rw [splitAmiFrames_of_some hcut, splitAmiFrames_of_some (cutFrame_append hcut more), hrest]
      rfl

/-! ## Headers -/

/-- `frame.split(/\r?\n/)`. -/
def splitLines : List Char → List (List Char)
  | '\r' :: '\n' :: rest => [] :: splitLines rest
  | '\n' :: rest => [] :: splitLines rest
  | c :: rest => (splitLines rest).modifyHead (c :: ·)
  | [] => [[]]

/-- `line.slice(0, colon)` and `line.slice(colon + 1)`. -/
def cutColon : List Char → Option (List Char × List Char)
  | [] => none
  | ':' :: rest => some ([], rest)
  | c :: rest => (cutColon rest).map (fun cut => (c :: cut.1, cut.2))

/-- The key and value of a line, trimmed; a line without a colon has none. -/
def headerOf (line : List Char) : Option (String × String) :=
  (cutColon (trimChars line)).map (fun cut =>
    (String.ofList (trimChars cut.1), String.ofList (trimChars cut.2)))

abbrev ParsedAmiFrame := List (String × String)

/-- `out[key] = value`: a key keeps its place. A string given to `__proto__` is
ignored. -/
def setHeader (out : ParsedAmiFrame) (key value : String) : ParsedAmiFrame :=
  if key = "__proto__" then out
  else if out.any (fun header => header.1 = key) then
    out.map (fun header => if header.1 = key then (key, value) else header)
  else out ++ [(key, value)]

def parseAmiFrame (frame : List Char) : ParsedAmiFrame :=
  ((splitLines frame).filterMap headerOf).foldl
    (fun out header => if header.1 = "" then out else setHeader out header.1 header.2) []

/-- `frame[key]`. -/
def header (frame : ParsedAmiFrame) (key : String) : Option String := frame.lookup key

/-! ## Normalized events -/

def defaultTenantId : String := "00000000-0000-0000-0000-000000000001"

/-- The event that a text names. -/
def eventNameOf (name : String) : EventName :=
  match [EventName.newchannel, .queueCallerJoin, .agentCalled, .agentConnect, .bridgeEnter,
    .bridgeLeave, .hold, .unhold, .hangup, .agentComplete, .blindTransfer, .attendedTransfer,
    .dialBegin, .dialEnd, .userEvent].find? (fun event => event.text = name) with
  | some event => event
  | none => .other name

theorem eventNameOf_text (name : String) : (eventNameOf name).text = name := by
  unfold eventNameOf
  split
  · rename_i event hevent
    simpa using List.find?_some hevent
  · rfl

/-- The headers as the normalizer collects them: an empty key counts too. -/
def normalizedPayload (raw : List Char) : ParsedAmiFrame :=
  ((splitLines raw).filterMap headerOf).foldl (fun out header => setHeader out header.1 header.2) []

/-- `AmiEventNormalizerService.normalize`, at the time `now`. -/
def normalize (raw : List Char) (now : Time) : Option AmiEvent :=
  let payload := normalizedPayload raw
  let field := fun name => header payload name
  if !truthy (field "Event") then none
  else some {
    eventName := eventNameOf ((field "Event").getD "")
    tenantId := (orElse (field "TenantId") (some defaultTenantId)).getD ""
    linkedid := orElse (orElse (field "Linkedid") (field "LinkedId")) (field "Uniqueid")
    uniqueid := field "Uniqueid"
    ani := orElse (orElse (field "CallerIDNum") (field "CallerID")) (field "CallerIDNum")
    dnis := field "Exten"
    queueName := orElse (field "Queue") (field "QueueName")
    agentId := orElse (field "Interface") (field "MemberName")
    eventTime := some now
    raw := payload }

end KasterCti.Ami
