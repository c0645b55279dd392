import KasterCti.Library.PosixPath

/-!
# Recording files and their names

The paths that `RecordingStorageService`, `RecordingEncryptionService` and the
finalizer derive from the file name of a recording, and what a file can hold. The
functions on paths are irreducible: no proof about the finalizer looks into them.
-/

namespace KasterCti.Recordings

open JsText

/-- The configuration the services read. -/
structure RecordingConfig where
  /-- `RECORDING_STORAGE_ROOT`. -/
  storageRoot : Option String
  /-- `RECORDING_ENCRYPTED_STORAGE_ROOT`. -/
  encryptedRoot : Option String
  /-- `RECORDING_ENCRYPTION_ENABLED` is `'true'`. -/
  encryptionEnabled : Bool
  keyRef : String
  cwd : String

@[irreducible] def RecordingConfig.resolveLocalPath (cfg : RecordingConfig) (recFile : String) : String :=
  if PosixPath.isAbsolute recFile then PosixPath.normalize recFile
  else PosixPath.normalize
    (PosixPath.join (cfg.storageRoot.getD "/var/spool/asterisk/monitor") recFile)

@[irreducible] def RecordingConfig.resolveEncryptedFilePath (cfg : RecordingConfig) (filePath : String) : String :=
  let encryptedRoot := trim (cfg.encryptedRoot.getD "")
  if encryptedRoot = "" then filePath ++ ".enc"
  else
    let sourceRoot := trim (cfg.storageRoot.getD "")
    let relative := PosixPath.relative cfg.cwd sourceRoot filePath
    if sourceRoot ≠ "" && relative ≠ "" && !startsWith relative ".." &&
        !PosixPath.isAbsolute relative then
      PosixPath.join encryptedRoot (relative ++ ".enc")
    else PosixPath.join encryptedRoot (PosixPath.basename filePath ++ ".enc")

/-- `path.extname(fileName).replace(/^\./, '').toLowerCase() || 'wav'`. -/
@[irreducible] def fileFormatOf (fileName : String) : String :=
  let format := toLowerCase (String.ofList ((PosixPath.extname fileName).toList.drop 1))
  if format = "" then "wav" else format

/-- `filePath.replace(/\.raw$/i, '.wav')`. -/
@[irreducible] def playbackPathOf (filePath : String) : String :=
  let cs := filePath.toList
  let stem := cs.take (cs.length - 4)
  if 4 ≤ cs.length && toLowerCase (String.ofList (cs.drop (cs.length - 4))) = ".raw" then
    String.ofList stem ++ ".wav"
  else filePath

/-- `recFile.replace(/\\/g, '/').split('/').pop() || 'recording.wav'`. -/
@[irreducible] def fileNameFromRecFile (recFile : String) : String :=
  let name := ((PosixPath.parts (String.ofList (recFile.toList.map fun c =>
    if c = '\\' then '/' else c))).getLast?).getD ""
  if name = "" then "recording.wav" else name

/-- The text behind the last dot. -/
@[irreducible] def fileFormatFromRecFile (recFile : String) : String :=
  let name := (fileNameFromRecFile recFile).toList
  if '.' ∈ name then
    let format := toLowerCase (String.ofList (name.reverse.takeWhile (· ≠ '.')).reverse)
    if format = "" then "wav" else format
  else "wav"

/-! ## What a file holds -/

inductive Content
  | audio (bytes : List UInt8)
  /-- The AES-256-GCM encryption of a file, with its trailer. -/
  | encrypted (inner : Content)
  /-- What the sweep `writer` has encrypted so far, without a trailer. -/
  | ciphering (writer : Nat)
  /-- A playback variant, or a part of one. -/
  | playback (size : Nat)
deriving DecidableEq

def wavHeaderBytes : Nat := 44

/-- IV and tag. -/
def trailerBytes : Nat := 28

def Content.size : Content → Nat
  | .audio bytes => bytes.length
  | .encrypted inner => inner.size + trailerBytes
  | .ciphering _ => 0
  | .playback size => size

/-- The file holds the recording, plain or encrypted. -/
def Holds (disk : String → Option Content) (path : String) (recording : Content) : Prop :=
  disk path = some recording ∨ disk path = some (.encrypted recording)

end KasterCti.Recordings
