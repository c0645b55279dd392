import KasterCti.Ami.Connection
import KasterCti.Library.Trace

/-!
# Frames do not depend on how the stream is cut

The handler decodes every chunk on its own, keeps what is behind the last frame in
a buffer that outlives the connection, and awaits between two frames. So a chunk
that ends inside a character, a connection that ends inside a frame and a chunk
that overtakes a handler each change what is passed on. Without these three, in
every run, the frames are those of the whole streams.

Results:
1. `step_framed`: a step that none of the three disturbs keeps the frames.
2. `frames_of_whole_streams`: so does every run of such steps.
3. `split_character_changes_frame`, `reconnect_mixes_connections`,
   `overtaken_frame_comes_late`: each of the three changes them.
-/

namespace KasterCti.Ami

open Trace

namespace Connection

/-- Everything that is passed on, the frames that waiting handlers have left
included. -/
def sequence (s : Connection) : List (List Char) := s.passed ++ s.waiting.flatten

end Connection

/-- The frames that the handler passes on when the stream arrives as one chunk. -/
def framesOf (stream : List UInt8) : List (List Char) := (Connection.init.onData stream).sequence

/-- The frames passed on are those of the streams, and the buffer holds what is
behind the last frame of this connection. -/
structure Framed (s : Connection) : Prop where
  frames : s.sequence = s.streams.flatMap framesOf ++ framesOf s.stream
  buffer : s.buffer = (splitAmiFrames (Utf8.decode s.stream)).2

/-- The chunk ends no character that an earlier one began, and if it completes a
frame then no handler has frames left; a connection is replaced when no part of a
frame is buffered. -/
def Undisturbed (s : Connection) : ConnectionAction → Prop
  | .data chunk => Utf8.splitsCharacter s.stream chunk = false ∧
      (s.waiting.flatten = [] ∨ (splitAmiFrames (s.buffer ++ Utf8.decode chunk)).1 = [])
  | .reconnect => s.buffer = []
  | _ => True

/-! ## What the handling of actions leaves alone -/

/-- The part of the state that framing is about. -/
structure FramePart where
  buffer : List Char
  waiting : List (List (List Char))
  log : List LogEntry
  streams : List (List UInt8)
  stream : List UInt8

namespace Connection

def framePart (s : Connection) : FramePart := ⟨s.buffer, s.waiting, s.log, s.streams, s.stream⟩

theorem framePart_push (s : Connection) (actionId : String) (pending : PendingAmiAction)
    (frame : ParsedAmiFrame) : (s.push actionId pending frame).framePart = s.framePart := by
  unfold push
  dsimp only
  split <;> rfl

theorem framePart_rejectAll (s : Connection) (error : String)
    (entries : List (String × PendingAmiAction)) :
    (s.rejectAll error entries).framePart = s.framePart := by
  induction entries generalizing s with
  | nil => rfl
  | cons entry entries ih =>
    rw [rejectAll, ih]
    rfl

theorem framePart_failPendingActions (s : Connection) (error : String) :
    (s.failPendingActions error).framePart = s.framePart :=
  framePart_rejectAll s error s.pendingActions

theorem framePart_timeout (s : Connection) (promise : Nat) :
    (s.timeout promise).framePart = s.framePart := by
  unfold timeout
  split <;> rfl

end Connection

theorem Framed.of_framePart {s t : Connection} (h : Framed s) (heq : t.framePart = s.framePart) :
    Framed t := by
  obtain ⟨hbuffer, hwaiting, hlog, hstreams, hstream⟩ := FramePart.mk.inj heq
  refine ⟨?_, ?_⟩
  · have hframes := h.frames
    rw [Connection.sequence, Connection.passed] at hframes ⊢
    rw [hlog, hwaiting, hstreams, hstream]
    exact hframes
  · rw [hbuffer, hstream]
    exact h.buffer

/-! ## One handler -/

namespace Connection

theorem passed_log {s : Connection} {entries : List LogEntry} {raw : List Char}
    {pending : List PendingView} (h : entries = s.log ++ [.frame raw pending]) :
    entries.filterMap (fun entry =>
      match entry with
      | .frame raw _ => some raw
      | .requested _ => none) = s.passed ++ [raw] := by
  rw [h, List.filterMap_append]
  rfl

/-- A handler passes its frames on up to one it awaits, and waits with the rest. -/
theorem passFrames_spec (frames : List (List Char)) (s : Connection) :
    ∃ left : List (List (List Char)), left.length ≤ 1 ∧
      (passFrames frames s).waiting = s.waiting ++ left ∧
      (passFrames frames s).passed ++ left.flatten = s.passed ++ frames ∧
      (passFrames frames s).buffer = s.buffer ∧ (passFrames frames s).stream = s.stream ∧
      (passFrames frames s).streams = s.streams := by
  induction frames generalizing s with
  | nil => exact ⟨[], by simp, by simp [passFrames], by simp [passFrames], rfl, rfl, rfl⟩
  | cons raw rest ih =>
    -- the state of the next round, given by its frame part
    have hround : ∀ t : Connection, t.framePart = { s with log := s.log ++
        [LogEntry.frame raw (viewOf s.pendingActions)] }.framePart →
        ∃ left : List (List (List Char)), left.length ≤ 1 ∧
          (passFrames rest t).waiting = s.waiting ++ left ∧
          (passFrames rest t).passed ++ left.flatten = s.passed ++ raw :: rest ∧
          (passFrames rest t).buffer = s.buffer ∧ (passFrames rest t).stream = s.stream ∧
          (passFrames rest t).streams = s.streams := by
      intro t ht
      obtain ⟨hbuffer, hwaiting, hlog, hstreams, hstream⟩ := FramePart.mk.inj ht
      obtain ⟨left, hleft, hwait, hpassed, hbuf, hstr, hstrs⟩ := ih t
      have hpass : t.passed = s.passed ++ [raw] := passed_log hlog
      refine ⟨left, hleft, hwait.trans (by rw [hwaiting]), ?_, hbuf.trans hbuffer,
        hstr.trans hstream, hstrs.trans hstreams⟩
      rw [hpassed, hpass, List.append_assoc, List.singleton_append]
    rw [passFrames]
    split
    · refine hround _ ?_
      rw [framePart_push]
      rfl
    · split
      · refine ⟨[rest], Nat.le_refl 1, rfl, ?_, rfl, rfl, rfl⟩
        have hpass : Connection.passed { s with
            log := s.log ++ [.frame raw (viewOf s.pendingActions)]
            events := s.events ++ [s.log.length]
            waiting := s.waiting ++ [rest] } = s.passed ++ [raw] := passed_log rfl
        rw [hpass]
        simp
      · exact hround _ rfl

end Connection

theorem framesOf_eq (stream : List UInt8) :
    framesOf stream = (splitAmiFrames (Utf8.decode stream)).1 := by
  obtain ⟨left, _, hwaiting, hpassed, _⟩ := Connection.passFrames_spec
    (splitAmiFrames (Utf8.decode stream)).1
    { Connection.init with
      buffer := (splitAmiFrames (Utf8.decode stream)).2
      loggedIn := Connection.isAsteriskBanner (Utf8.decode stream)
      stream := stream }
  have hinit : Connection.init.onData stream = Connection.passFrames
      (splitAmiFrames (Utf8.decode stream)).1
      { Connection.init with
        buffer := (splitAmiFrames (Utf8.decode stream)).2
        loggedIn := Connection.isAsteriskBanner (Utf8.decode stream)
        stream := stream } := by
    simp [Connection.onData, Connection.init]
  rw [framesOf, hinit, Connection.sequence, hwaiting]
  exact hpassed

/-! ## Steps -/

/-- At most one handler has frames left. -/
def OneHandler (s : Connection) : Prop := (s.waiting.filter (fun left => left ≠ [])).length ≤ 1

variable {s : Connection}

theorem OneHandler.of_flatten {before left : List (List (List Char))}
    (hwaiting : s.waiting = before ++ left) (hbefore : before.flatten = [])
    (hleft : left.length ≤ 1) : OneHandler s := by
  have hnone : before.filter (fun left => left ≠ []) = [] := by
    rw [List.filter_eq_nil_iff]
    intro l hl
    simpa using List.flatten_eq_nil_iff.mp hbefore l hl
  rw [OneHandler, hwaiting, List.filter_append, hnone, List.nil_append]
  exact Nat.le_trans (List.length_filter_le _ _) hleft

/-- When one handler has frames left, the others have none. -/
theorem OneHandler.others (h : OneHandler s) {before after : List (List (List Char))}
    {left : List (List Char)} (hwaiting : s.waiting = before ++ left :: after) (hleft : left ≠ []) :
    (before ++ after).flatten = [] := by
  rw [OneHandler, hwaiting, List.filter_append, List.filter_cons_of_pos (by simpa using hleft),
    List.length_append, List.length_cons] at h
  have hnone : ((before ++ after).filter (fun left => left ≠ [])) = [] := by
    rw [← List.length_eq_zero_iff, List.filter_append, List.length_append]
    omega
  rw [List.flatten_eq_nil_iff]
  intro l hl
  by_contra hne
  exact absurd (List.filter_eq_nil_iff.mp hnone l hl) (by simpa using hne)

/-- The chunk's frames come behind everything before: the handlers are done, or the
chunk completes nothing. -/
theorem onData_framed {chunk : List UInt8} (h : Framed s) (hone : OneHandler s)
    (hok : Undisturbed s (.data chunk)) :
    Framed (s.onData chunk) ∧ OneHandler (s.onData chunk) := by
  obtain ⟨hsplits, hquiet⟩ := hok
  have hdecode := Utf8.decode_append hsplits
  have hcut := splitAmiFrames_append (Utf8.decode s.stream) (Utf8.decode chunk)
  rw [← hdecode, ← h.buffer] at hcut
  have hframes : framesOf (s.stream ++ chunk) = framesOf s.stream ++
      (splitAmiFrames (s.buffer ++ Utf8.decode chunk)).1 := by
    rw [framesOf_eq, framesOf_eq, hcut]
  obtain ⟨left, hleft, hwaiting, hpassed, hbuffer, hstream, hstreams⟩ :=
    Connection.passFrames_spec (splitAmiFrames (s.buffer ++ Utf8.decode chunk)).1
    { s with
      buffer := (splitAmiFrames (s.buffer ++ Utf8.decode chunk)).2
      loggedIn := s.loggedIn || Connection.isAsteriskBanner (s.buffer ++ Utf8.decode chunk)
      stream := s.stream ++ chunk }
  have hrest : (s.onData chunk).buffer =
      (splitAmiFrames (Utf8.decode (s.onData chunk).stream)).2 := by
    rw [Connection.onData, hbuffer, hstream, hcut]
  have hsequence := h.frames
  rw [Connection.sequence] at hsequence
  rcases hquiet with hdone | hnone
  · refine ⟨⟨?_, hrest⟩, OneHandler.of_flatten hwaiting hdone hleft⟩
    rw [hdone, List.append_nil] at hsequence
    rw [Connection.sequence, Connection.onData, hwaiting, hstreams, hstream, hframes,
      List.flatten_append, hdone, List.nil_append, hpassed, ← List.append_assoc, ← hsequence]
    rfl
  · have hsame : s.onData chunk = { s with
        buffer := (splitAmiFrames (s.buffer ++ Utf8.decode chunk)).2
        loggedIn := s.loggedIn || Connection.isAsteriskBanner (s.buffer ++ Utf8.decode chunk)
        stream := s.stream ++ chunk } := by
      rw [Connection.onData, hnone]
      rfl
    refine ⟨⟨?_, hrest⟩, ?_⟩
    · rw [hsame]
      show s.passed ++ s.waiting.flatten = s.streams.flatMap framesOf ++ framesOf (s.stream ++ chunk)
      rw [hframes, hnone, List.append_nil, hsequence]
    · rw [hsame]
      exact hone

theorem resume_framed {handler : Nat} (h : Framed s) (hone : OneHandler s) :
    Framed (s.resume handler) ∧ OneHandler (s.resume handler) := by
  unfold Connection.resume
  split
  · rename_i rest hrest
    obtain ⟨hlt, hget⟩ := List.getElem?_eq_some_iff.mp hrest
    have hsplit : s.waiting = s.waiting.take handler ++ rest :: s.waiting.drop (handler + 1) := by
      rw [← hget, List.getElem_cons_drop, List.take_append_drop]
    have herase : s.waiting.eraseIdx handler =
        s.waiting.take handler ++ s.waiting.drop (handler + 1) := List.eraseIdx_eq_take_drop_succ _ _
    obtain ⟨left, hleft, hwaiting, hpassed, hbuffer, hstream, hstreams⟩ :=
      Connection.passFrames_spec rest { s with waiting := s.waiting.eraseIdx handler }
    have hsequence := h.frames
    rw [Connection.sequence, hsplit, List.flatten_append, List.flatten_cons] at hsequence
    have hbuf : (Connection.passFrames rest { s with waiting := s.waiting.eraseIdx handler }).buffer =
        (splitAmiFrames (Utf8.decode (Connection.passFrames rest
          { s with waiting := s.waiting.eraseIdx handler }).stream)).2 := by
      rw [hbuffer, hstream]
      exact h.buffer
    cases rest with
    | nil =>
      refine ⟨⟨?_, hbuf⟩, ?_⟩
      · show s.passed ++ (s.waiting.eraseIdx handler).flatten = _
        rw [herase, List.flatten_append]
        exact hsequence
      · exact Nat.le_trans ((List.eraseIdx_sublist s.waiting handler).filter _).length_le hone
    | cons raw rest =>
      have hothers := hone.others hsplit (by simp)
      rw [← herase] at hothers
      refine ⟨⟨?_, hbuf⟩, OneHandler.of_flatten hwaiting hothers hleft⟩
      have hnone := hothers
      rw [herase, List.flatten_append, List.append_eq_nil_iff] at hnone
      rw [hnone.1, hnone.2, List.nil_append, List.append_nil] at hsequence
      rw [Connection.sequence, hwaiting, hstreams, hstream, List.flatten_append, hothers,
        List.nil_append, hpassed]
      exact hsequence
  · exact ⟨h, hone⟩

theorem OneHandler.of_framePart {s t : Connection} (h : OneHandler s)
    (heq : t.framePart = s.framePart) : OneHandler t := by
  have hwaiting : t.waiting = s.waiting := congrArg FramePart.waiting heq
  rw [OneHandler, hwaiting]
  exact h

/-- An action sent adds to the history and to no frame. -/
theorem request_framed {actionName : Option String} {now : Nat} {random : String} {eventList : Bool}
    (h : Framed s) (hone : OneHandler s) :
    Framed (s.request actionName now random eventList) ∧
      OneHandler (s.request actionName now random eventList) := by
  unfold Connection.request
  dsimp only
  split
  · exact ⟨h.of_framePart rfl, hone⟩
  · refine ⟨⟨?_, h.buffer⟩, hone⟩
    rw [Connection.sequence, Connection.passed, List.filterMap_append]
    simp only [List.filterMap_cons, List.filterMap_nil, List.append_nil]
    exact h.frames

/-- A step that nothing disturbs. -/
theorem step_framed {a : ConnectionAction} (hok : Undisturbed s a) (h : Framed s ∧ OneHandler s) :
    Framed (s.step a) ∧ OneHandler (s.step a) := by
  obtain ⟨hframed, hone⟩ := h
  have hkeep : (s.step a).framePart = s.framePart →
      Framed (s.step a) ∧ OneHandler (s.step a) :=
    fun heq => ⟨hframed.of_framePart heq, hone.of_framePart heq⟩
  cases a with
  | connected => exact hkeep rfl
  | data chunk => exact onData_framed hframed hone hok
  | resume handler => exact resume_framed hframed hone
  | request actionName now random eventList => exact request_framed hframed hone
  | timeout promise => exact hkeep (Connection.framePart_timeout s promise)
  | error message => exact hkeep (Connection.framePart_failPendingActions _ message)
  | close => exact hkeep (Connection.framePart_failPendingActions _ _)
  | reconnect =>
    have hbuffer : s.buffer = [] := hok
    refine ⟨⟨?_, ?_⟩, hone⟩
    · show s.sequence = (s.streams ++ [s.stream]).flatMap framesOf ++ framesOf []
      rw [List.flatMap_append, hframed.frames]
      simp [framesOf_eq, Utf8.decode, Utf8.decodeFrom, Utf8.flush, splitAmiFrames, splitLoop]
    · exact hbuffer

/-- In every run that nothing disturbs, the frames passed on are those of the
connections' streams, each cut as one chunk, and each connection begins with an
empty buffer. -/
theorem frames_of_whole_streams {actions : List ConnectionAction}
    (h : Along Connection.step Undisturbed Connection.init actions) :
    Framed (actions.foldl Connection.step Connection.init) := by
  have hinit : Framed Connection.init ∧ OneHandler Connection.init := by
    refine ⟨⟨?_, rfl⟩, Nat.zero_le 1⟩
    rw [framesOf_eq]
    rfl
  exact (h.invariant (fun s a hok => step_framed hok) hinit).1

/-- A frame with a Korean name, as the bytes that arrive. -/
def exFrame : String := "Event: Newchannel\r\nCallerIDName: 김철수\r\n\r\n"

def exBytes : List UInt8 := exFrame.toUTF8.toList

/-- The frame in two chunks. -/
def exCut (n : Nat) : List ConnectionAction :=
  [.connected, .data (exBytes.take n), .data (exBytes.drop n)]

theorem frames_of_whole_streams_korean :
    Along Connection.step Undisturbed Connection.init (exCut 36) ∧
      Framed ((exCut 36).foldl Connection.step Connection.init) := by
  have hok : Along Connection.step Undisturbed Connection.init (exCut 36) := by
    refine along_cons.mpr ⟨trivial, along_cons.mpr ⟨?_, along_cons.mpr ⟨?_, along_nil⟩⟩⟩
    · exact ⟨by decide, .inl (by decide)⟩
    · exact ⟨by with_unfolding_all decide, .inl (by with_unfolding_all decide)⟩
  exact ⟨hok, frames_of_whole_streams hok⟩

/-- The second chunk begins inside a character: the name is read as three
replacement characters and the rest. -/
theorem split_character_changes_frame :
    ((exCut 34).foldl Connection.step Connection.init).sequence =
        ["Event: Newchannel\r\nCallerIDName: \uFFFD\uFFFD\uFFFD철수".toList] ∧
      ((exCut 34).foldl Connection.step Connection.init).sequence ≠ framesOf exBytes := by
  with_unfolding_all decide

/-- The connection closes inside a frame, and the next one goes on with it. -/
def exReconnect : List ConnectionAction :=
  [.connected, .data "Event: Hold\r\nChannel: a".toUTF8.toList, .close, .reconnect, .connected,
    .data "Event: Hangup\r\nChannel: b\r\n\r\n".toUTF8.toList]

theorem reconnect_mixes_connections :
    (exReconnect.foldl Connection.step Connection.init).sequence =
        ["Event: Hold\r\nChannel: aEvent: Hangup\r\nChannel: b".toList] := by
  with_unfolding_all decide

/-- The first handler waits for its first event when the second chunk arrives. -/
def exOvertaken : List ConnectionAction :=
  [.connected, .data "Event: Hold\r\n\r\nEvent: Unhold\r\n\r\n".toUTF8.toList,
    .data "Event: Hangup\r\n\r\n".toUTF8.toList, .resume 0]

theorem overtaken_frame_comes_late :
    (exOvertaken.foldl Connection.step Connection.init).sequence =
        ["Event: Hold".toList, "Event: Hangup".toList, "Event: Unhold".toList] := by
  with_unfolding_all decide

end KasterCti.Ami
