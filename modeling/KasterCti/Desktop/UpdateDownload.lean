import KasterCti.Desktop.UpdateAddress
import Mathlib

/-!
# The download of an update

`UpdateClient.FetchArtifactAsync`: the file is received beside its destination, under the name
with `.part`, while its fingerprint is computed, and takes its place only when the fingerprint is
the one of the ticket. A cancellation shows as an `await` that throws.

Results:
1. `saveAsync_spec`: what is behind a completed and behind a failed reception.
2. `fetchArtifactAsync_verified`: what the call leaves on the disk, whatever fails in it.
-/

namespace KasterCti.Desktop

structure DownloadTicket where
  artifactId : String
  downloadUrl : Option String
  downloadToken : String
  sha256 : Option String

abbrev Bytes := List UInt8

/-- `SHA256` as it is fed block by block. -/
structure Sha256 where
  State : Type
  create : State
  transformBlock : State → Bytes → State
  transformFinalBlock : State → Bytes

/-- The blocks count as the bytes in them, one behind the other. -/
def Sha256.Computes (sha : Sha256) (hash : Bytes → Bytes) : Prop :=
  ∀ blocks : List Bytes, sha.transformFinalBlock (blocks.foldl sha.transformBlock sha.create) =
    hash blocks.flatten

inductive Failure
  | update (message : String)
  | server (message : String) (status : Nat)
  | threw
deriving DecidableEq

/-- One pass of the reading loop: what `ReadAsync` puts into the buffer, if it does not throw, and
whether `WriteAsync` then succeeds. -/
structure Turn where
  read : Option Bytes
  writes : Bool

/-- What becomes of `File.Delete`: `denied` are the two exceptions that are caught. -/
inductive Deletion
  | done
  | denied
  | threw

/-- What the server and the file system answer. -/
structure Script where
  directoryName : String → Option String
  createDirectory : String → Bool
  send : Uri → String → Option Nat
  streamOpens : Bool
  fileCreates : Bool
  turns : List Turn
  fileCloses : Bool
  streamCloses : Bool
  moves : Bool
  deletion : Deletion
  /-- What is in a file that was not written to its end. -/
  torn : Bytes

/-- The files, and the one that the call holds open. -/
structure Disk where
  files : String → Option Bytes
  openFile : Option String

def Disk.set (disk : Disk) (path : String) (content : Option Bytes) : Disk :=
  { disk with files := Function.update disk.files path content }

def hexDigit (n : Nat) : Char := "0123456789abcdef".toList.getD n '0'

/-- `Convert.ToHexString`, in lower case. -/
def toHex (bytes : Bytes) : List Char :=
  bytes.flatMap fun byte => [hexDigit (byte.toNat / 16), hexDigit (byte.toNat % 16)]

/-- The reading loop. It ends with the first read of no bytes. -/
def receive (sha : Sha256) : List Turn → sha.State → Bytes → Option (sha.State × Bytes)
  | [], digest, written => some (digest, written)
  | turn :: turns, digest, written =>
    match turn.read with
    | none => none
    | some [] => some (digest, written)
    | some chunk =>
      if turn.writes then
        receive sha turns (sha.transformBlock digest chunk) (written ++ chunk)
      else none

/-- The bytes the stream delivers before its end. -/
def received : List Turn → Bytes
  | [] => []
  | turn :: turns =>
    match turn.read with
    | none | some [] => []
    | some chunk => chunk ++ received turns

def saveAsync (sha : Sha256) (script : Script) (uri : Uri) (downloadToken partialPath : String)
    (disk : Disk) : Except Failure (List Char) × Disk :=
  match script.send uri downloadToken with
  | none => (.error .threw, disk)
  | some status =>
    if status < 200 ∨ 299 < status then
      (.error (.server ("설치 파일을 받지 못했다 (서버가 " ++ status.repr ++ " 로 응답했다)") status), disk)
    else if !script.streamOpens || !script.fileCreates then (.error .threw, disk)
    else
      let disk := { disk.set partialPath (some script.torn) with openFile := some partialPath }
      match receive sha script.turns sha.create [] with
      | none =>
        -- the file is closed before the exception goes on
        (.error .threw, { disk with openFile := none })
      | some (digest, written) =>
        if !script.fileCloses then (.error .threw, { disk with openFile := none })
        else
          let disk := { disk.set partialPath (some written) with openFile := none }
          if !script.streamCloses then (.error .threw, disk)
          else (.ok (toHex (sha.transformFinalBlock digest)), disk)

/-- `File.Move` with overwriting; a file that is open cannot be moved. -/
def moveFile (script : Script) (source destination : String) (disk : Disk) :
    Except Failure Unit × Disk :=
  if disk.openFile = some source || !script.moves then (.error .threw, disk)
  else
    match disk.files source with
    | none => (.error .threw, disk)
    | some content => (.ok (), (disk.set destination (some content)).set source none)

/-- A file that is open cannot be deleted. -/
def discard (script : Script) (path : String) (disk : Disk) : Option Failure × Disk :=
  match disk.files path with
  | none => (none, disk)
  | some _ =>
    if disk.openFile = some path then (none, disk)
    else
      match script.deletion with
      | .done => (none, disk.set path none)
      | .denied => (none, disk)
      | .threw => (some .threw, disk)

def partOf (destinationPath : String) : String := destinationPath ++ ".part"

/-- The body of the `try`. -/
def receiveArtifact (uris : UriLibrary) (sha : Sha256) (script : Script) (ticket : DownloadTicket)
    (uri : Uri) (destinationPath : String) (disk : Disk) : Except Failure String × Disk :=
  match saveAsync sha script uri ticket.downloadToken (partOf destinationPath) disk with
  | (.error failure, disk) => (.error failure, disk)
  | (.ok actual, disk) =>
    if !uris.equalsIgnoreCase actual (trimmed (ticket.sha256.getD "")) then
      (.error (.update "받은 설치 파일이 서버가 알려준 것과 다르다. 그 파일은 지웠다."), disk)
    else
      match moveFile script (partOf destinationPath) destinationPath disk with
      | (.error failure, disk) => (.error failure, disk)
      | (.ok (), disk) => (.ok destinationPath, disk)

def folderFails (script : Script) (destinationPath : String) : Bool :=
  match script.directoryName destinationPath with
  | none | some "" => false
  | some folder => !script.createDirectory folder

def fetchArtifactAsync (uris : UriLibrary) (sha : Sha256) (script : Script) (baseAddress : Uri)
    (ticket : DownloadTicket) (destinationPath : String) (files : String → Option Bytes) :
    Except Failure String × Disk :=
  let disk : Disk := ⟨files, none⟩
  if trimmed (ticket.sha256.getD "") = [] then
    (.error (.update "설치 파일의 지문이 없어 확인할 수 없다. 관리자에게 알리세요."), disk)
  else
    match resolveArtifactUri uris baseAddress ticket.downloadUrl ticket.artifactId with
    | .error message => (.error (.update message), disk)
    | .ok uri =>
      if folderFails script destinationPath then (.error .threw, disk)
      else
        match receiveArtifact uris sha script ticket uri destinationPath disk with
        | (.ok path, disk) => (.ok path, disk)
        | (.error failure, disk) =>
          match discard script (partOf destinationPath) disk with
          | (none, disk) => (.error failure, disk)
          | (some other, disk) => (.error other, disk)

section Fetch

variable {uris : UriLibrary} {sha : Sha256} {hash : Bytes → Bytes} {script : Script}
  {baseAddress uri : Uri} {ticket : DownloadTicket} {destinationPath partialPath downloadToken : String}
  {disk after : Disk}

theorem partOf_ne (destinationPath : String) : partOf destinationPath ≠ destinationPath := by
  intro equal
  have lengths := congrArg String.length equal
  rw [partOf, String.length_append] at lengths
  exact absurd (Nat.add_eq_left.mp lengths) (by decide)

/-- Every byte that is written is hashed, in the order of the stream. -/
theorem receive_spec {turns : List Turn} {digest : sha.State} {written : Bytes}
    {ended : sha.State × Bytes} (completes : receive sha turns digest written = some ended) :
    ∃ blocks : List Bytes, ended.1 = blocks.foldl sha.transformBlock digest ∧
      blocks.flatten = received turns ∧ ended.2 = written ++ received turns := by
  induction turns generalizing digest written with
  | nil =>
    cases completes
    exact ⟨[], rfl, rfl, (List.append_nil _).symm⟩
  | cons turn turns induction =>
    rw [receive] at completes
    rw [received]
    split at completes
    · cases completes
    · cases completes
      exact ⟨[], rfl, rfl, (List.append_nil _).symm⟩
    · rename_i chunk _ _
      split at completes
      · obtain ⟨blocks, hashed, flat, wrote⟩ := induction completes
        refine ⟨chunk :: blocks, hashed, ?_, ?_⟩
        · rw [List.flatten_cons, flat]
        · rw [wrote, List.append_assoc]
      · cases completes

/-- Only the file with `.part` differs, and the call holds no file open. -/
structure OnlyPart (partialPath : String) (disk after : Disk) : Prop where
  others : ∀ path ≠ partialPath, after.files path = disk.files path
  closed : after.openFile = none

theorem onlyPart_set (content : Option Bytes) :
    OnlyPart partialPath disk { disk.set partialPath content with openFile := none } :=
  ⟨fun _ other => Function.update_of_ne other _ _, rfl⟩

theorem saveAsync_onlyPart (sha : Sha256) (script : Script) (uri : Uri)
    (downloadToken partialPath : String) (closed : disk.openFile = none) :
    OnlyPart partialPath disk
      (saveAsync sha script uri downloadToken partialPath disk).2 := by
  have untouched : OnlyPart partialPath disk disk := ⟨fun _ _ => rfl, closed⟩
  rw [saveAsync]
  split
  · exact untouched
  · split
    · exact untouched
    · split
      · exact untouched
      · dsimp only
        split
        · exact onlyPart_set (some script.torn)
        · rename_i digest written _
          have rewritten : OnlyPart partialPath disk
              { Disk.set { disk.set partialPath (some script.torn) with
                openFile := some partialPath } partialPath (some written) with openFile := none } :=
            ⟨fun path other => (Function.update_of_ne other _ _).trans
              (Function.update_of_ne other _ _), rfl⟩
          split
          · exact onlyPart_set (some script.torn)
          · split
            · exact rewritten
            · exact rewritten

/-- A completed reception has the bytes of the stream in the file, and their fingerprint. -/
theorem saveAsync_ok (computes : sha.Computes hash) {actual : List Char}
    (completes : saveAsync sha script uri downloadToken partialPath disk = (.ok actual, after)) :
    actual = toHex (hash (received script.turns)) ∧
      after.files partialPath = some (received script.turns) := by
  rw [saveAsync] at completes
  split at completes
  · cases completes
  · split at completes
    · cases completes
    · split at completes
      · cases completes
      · dsimp only at completes
        split at completes
        · cases completes
        · rename_i digest written ended
          obtain ⟨blocks, hashed, flat, wrote⟩ := receive_spec ended
          split at completes
          · cases completes
          · split at completes
            · cases completes
            · cases completes
              refine ⟨?_, ?_⟩
              · rw [← flat, ← computes blocks, ← hashed]
              · rw [← List.nil_append (received script.turns), ← wrote]
                exact Function.update_self _ _ _

theorem discard_onlyPart (script : Script) (closed : disk.openFile = none) (path : String) :
    OnlyPart path disk (discard script path disk).2 := by
  have untouched : OnlyPart path disk disk := ⟨fun _ _ => rfl, closed⟩
  rw [discard]
  split
  · exact untouched
  · split
    · exact untouched
    · split
      · exact ⟨fun _ other => Function.update_of_ne other _ _, closed⟩
      · exact untouched
      · exact untouched

/-- What can be deleted is gone, since nothing is open any more. -/
theorem discard_done (script : Script) (closed : disk.openFile = none) (path : String)
    (possible : script.deletion = .done) : (discard script path disk).2.files path = none := by
  rw [discard]
  split
  · assumption
  · rw [closed, possible]
    exact Function.update_self _ _ _

theorem moveFile_error {failure : Failure}
    (fails : moveFile script partialPath destinationPath disk = (.error failure, after)) :
    after = disk := by
  rw [moveFile] at fails
  split at fails
  · cases fails
    rfl
  · split at fails
    · cases fails
      rfl
    · cases fails

theorem moveFile_ok
    (moves : moveFile script partialPath destinationPath disk = (.ok (), after)) :
    after = (disk.set destinationPath (disk.files partialPath)).set partialPath none := by
  rw [moveFile] at moves
  split at moves
  · cases moves
  · split at moves
    · cases moves
    · rename_i content found
      cases moves
      rw [found]

/-- The file has the fingerprint of the ticket. -/
def FingerprintOf (uris : UriLibrary) (hash : Bytes → Bytes) (ticket : DownloadTicket)
    (content : Bytes) : Prop :=
  uris.equalsIgnoreCase (toHex (hash content)) (trimmed (ticket.sha256.getD "")) = true

theorem receiveArtifact_error (closed : disk.openFile = none) {failure : Failure}
    (fails : receiveArtifact uris sha script ticket uri destinationPath disk =
      (.error failure, after)) : OnlyPart (partOf destinationPath) disk after := by
  have onlyPart := saveAsync_onlyPart sha script uri ticket.downloadToken
    (partOf destinationPath) closed
  rw [receiveArtifact] at fails
  split at fails
  · rename_i saved
    rw [saved] at onlyPart
    cases fails
    exact onlyPart
  · rename_i actual received saved
    rw [saved] at onlyPart
    split at fails
    · cases fails
      exact onlyPart
    · split at fails
      · rename_i stays
        cases fails
        exact moveFile_error stays ▸ onlyPart
      · cases fails

theorem receiveArtifact_ok (computes : sha.Computes hash) (closed : disk.openFile = none)
    {path : String}
    (completes : receiveArtifact uris sha script ticket uri destinationPath disk =
      (.ok path, after)) :
    path = destinationPath ∧ FingerprintOf uris hash ticket (received script.turns) ∧
      after.files destinationPath = some (received script.turns) ∧
      after.files (partOf destinationPath) = none ∧ after.openFile = none ∧
      ∀ other, other ≠ destinationPath → other ≠ partOf destinationPath →
        after.files other = disk.files other := by
  have onlyPart := saveAsync_onlyPart sha script uri ticket.downloadToken
    (partOf destinationPath) closed
  rw [receiveArtifact] at completes
  split at completes
  · cases completes
  · rename_i actual saved isSaved
    rw [isSaved] at onlyPart
    obtain ⟨rfl, content⟩ := saveAsync_ok computes isSaved
    split at completes
    · cases completes
    · rename_i same
      split at completes
      · cases completes
      · rename_i isMoved
        cases completes
        rw [moveFile_ok isMoved, content]
        refine ⟨rfl, by simpa [FingerprintOf] using same, ?_, Function.update_self _ _ _,
          onlyPart.closed, fun other ne nePart => ?_⟩
        · exact (Function.update_of_ne (partOf_ne destinationPath).symm _ _).trans
            (Function.update_self _ _ _)
        · exact ((Function.update_of_ne nePart _ _).trans (Function.update_of_ne ne _ _)).trans
            (onlyPart.others other nePart)

/-- The call throws before it sends anything: no fingerprint, no address or no folder. -/
def Refused (uris : UriLibrary) (script : Script) (baseAddress : Uri) (ticket : DownloadTicket)
    (destinationPath : String) : Prop :=
  trimmed (ticket.sha256.getD "") = [] ∨
    (∃ message, resolveArtifactUri uris baseAddress ticket.downloadUrl ticket.artifactId =
      .error message) ∨
    folderFails script destinationPath = true

/-- What a call leaves on the disk. -/
structure LeavesVerified (uris : UriLibrary) (hash : Bytes → Bytes) (script : Script)
    (baseAddress : Uri) (ticket : DownloadTicket) (destinationPath : String)
    (files : String → Option Bytes) (result : Except Failure String) (after : Disk) : Prop where
  /-- The destination is as before, or it holds what was received and that was asked for. -/
  destination : match result with
    | .ok path => path = destinationPath ∧
        after.files destinationPath = some (received script.turns) ∧
        FingerprintOf uris hash ticket (received script.turns)
    | .error _ => after.files destinationPath = files destinationPath
  others : ∀ path, path ≠ destinationPath → path ≠ partOf destinationPath →
    after.files path = files path
  closed : after.openFile = none
  /-- No `.part` is left, where it can be deleted; a call that is refused touches nothing. -/
  noPart : script.deletion = .done → after.files (partOf destinationPath) = none ∨
    Refused uris script baseAddress ticket destinationPath ∧ after.files = files

/-- Only verified installers appear. -/
theorem fetchArtifactAsync_verified (computes : sha.Computes hash) (script : Script)
    (baseAddress : Uri) (ticket : DownloadTicket) (destinationPath : String)
    (files : String → Option Bytes) :
    LeavesVerified uris hash script baseAddress ticket destinationPath files
      (fetchArtifactAsync uris sha script baseAddress ticket destinationPath files).1
      (fetchArtifactAsync uris sha script baseAddress ticket destinationPath files).2 := by
  have untouched (refused : Refused uris script baseAddress ticket destinationPath)
      (failure : Failure) : LeavesVerified uris hash script baseAddress ticket destinationPath files
        (.error failure) ⟨files, none⟩ :=
    ⟨rfl, fun _ _ _ => rfl, rfl, fun _ => Or.inr ⟨refused, rfl⟩⟩
  rw [fetchArtifactAsync]
  split
  · exact untouched (Or.inl ‹_›) _
  · split
    · rename_i message refused
      exact untouched (Or.inr (Or.inl ⟨message, refused⟩)) _
    · split
      · exact untouched (Or.inr (Or.inr ‹_›)) _
      · split
        · rename_i path after completes
          obtain ⟨isPath, fingerprint, content, noPart, closed, others⟩ :=
            receiveArtifact_ok computes rfl completes
          exact ⟨⟨isPath, content, fingerprint⟩, fun other ne nePart => others other ne nePart,
            closed, fun _ => Or.inl noPart⟩
        · rename_i failure after fails
          have onlyPart := receiveArtifact_error rfl fails
          have discarded := discard_onlyPart script onlyPart.closed
            (partOf destinationPath)
          have kept : ∀ path ≠ partOf destinationPath,
              (discard script (partOf destinationPath) after).2.files path = files path :=
            fun path other => (discarded.others path other).trans (onlyPart.others path other)
          have gone := discard_done script onlyPart.closed (partOf destinationPath)
          have leaves (failure : Failure) : LeavesVerified uris hash script baseAddress ticket
              destinationPath files (.error failure)
              (discard script (partOf destinationPath) after).2 :=
            ⟨kept _ (partOf_ne destinationPath).symm, fun path _ nePart => kept path nePart,
              discarded.closed, fun possible => Or.inl (gone possible)⟩
          split
          · rename_i isDiscarded
            rw [isDiscarded] at leaves
            exact leaves failure
          · rename_i other _ isDiscarded
            rw [isDiscarded] at leaves
            exact leaves other

end Fetch

/-- SHA-256 of the three bytes of `abc`. -/
def abcHash (bytes : Bytes) : Bytes :=
  if bytes = [0x61, 0x62, 0x63] then
    [0xba, 0x78, 0x16, 0xbf, 0x8f, 0x01, 0xcf, 0xea, 0x41, 0x41, 0x40, 0xde, 0x5d, 0xae, 0x22, 0x23,
      0xb0, 0x03, 0x61, 0xa3, 0x96, 0x17, 0x7a, 0x9c, 0xb4, 0x10, 0xff, 0x61, 0xf2, 0x00, 0x15, 0xad]
  else []

def abcSha : Sha256 := ⟨Bytes, [], (· ++ ·), abcHash⟩

theorem abcSha_computes : abcSha.Computes abcHash := by
  intro blocks
  have joined (before : Bytes) : blocks.foldl (· ++ ·) before = before ++ blocks.flatten := by
    induction blocks generalizing before with
    | nil => exact (List.append_nil before).symm
    | cons block blocks induction =>
      rw [List.foldl_cons, induction, List.flatten_cons, List.append_assoc]
  exact congrArg abcHash (joined [])

/-- Two blocks, and then the end; nothing fails. -/
def smoothScript : Script where
  directoryName _ := some "C:/updates"
  createDirectory _ := true
  send _ _ := some 200
  streamOpens := true
  fileCreates := true
  turns := [⟨some [0x61], true⟩, ⟨some [0x62, 0x63], true⟩, ⟨some [], true⟩]
  fileCloses := true
  streamCloses := true
  moves := true
  deletion := .done
  torn := []

def abcTicket : DownloadTicket where
  artifactId := "7"
  downloadUrl := some "/agent-updates/artifacts/7"
  downloadToken := "once"
  sha256 := some " BA7816BF8F01CFEA414140DE5DAE2223B00361A396177A9CB410FF61F20015AD "

theorem abc_downloaded :
    (fetchArtifactAsync plainUris abcSha smoothScript updateServer abcTicket "C:/updates/setup.exe"
      fun _ => none).1 = .ok "C:/updates/setup.exe" ∧
    LeavesVerified plainUris abcHash smoothScript updateServer abcTicket "C:/updates/setup.exe"
      (fun _ => none)
      (fetchArtifactAsync plainUris abcSha smoothScript updateServer abcTicket
        "C:/updates/setup.exe" fun _ => none).1
      (fetchArtifactAsync plainUris abcSha smoothScript updateServer abcTicket
        "C:/updates/setup.exe" fun _ => none).2 :=
  ⟨by decide, fetchArtifactAsync_verified abcSha_computes smoothScript updateServer
    abcTicket "C:/updates/setup.exe" fun _ => none⟩

end KasterCti.Desktop
