import KasterCti.Library.Aead
import KasterCti.Library.Moves
import KasterCti.Recordings.Finalizer

/-!
# Encrypted recordings

`RecordingEncryptionService`, byte by byte. A file stands at the segments of its resolved
path; AES-256-GCM is a cipher of the library. Every read and write succeeds where its file is
there, and the calls come one after the other.

Results:
1. `decryptFileToBuffer_eq`, `openDecryptedReadStream_eq`: both readers open the box that
   `encryptFile` has sealed, each with offsets of its own.
2. `encryptAll_files`: a sequence of calls moves the files.
3. `encrypted_storage_keeps`: exactly when every recording can be read back.
4. `same_name_overwritten`: two files of one name in two directories.
-/

namespace KasterCti.Recordings

open Aead JsText

def gcmIvBytes : Nat := 12

def gcmTagBytes : Nat := 16

def keyBytes : Nat := 32

abbrev Aes256Gcm := Cipher keyBytes gcmIvBytes gcmTagBytes

/-- `randomBytes(GCM_IV_BYTES)`. -/
structure GcmIv where
  bytes : List UInt8
  length_eq : bytes.length = gcmIvBytes

structure EncryptionConfig where
  recordings : RecordingConfig
  /-- `RECORDING_ENCRYPTION_KEY`, empty where it is not set. -/
  encryptionKey : String

/-! ## The key -/

def hexValue (c : Char) : Option Nat :=
  if isDigit c then some (c.toNat - 48)
  else if 'a' ≤ c ∧ c ≤ 'f' then some (c.toNat - 87)
  else if 'A' ≤ c ∧ c ≤ 'F' then some (c.toNat - 55)
  else none

def hexBytes : List Nat → List UInt8
  | high :: low :: rest => UInt8.ofNat (high * 16 + low) :: hexBytes rest
  | _ => []

def base64Value (c : Char) : Option Nat :=
  if 'A' ≤ c ∧ c ≤ 'Z' then some (c.toNat - 65)
  else if 'a' ≤ c ∧ c ≤ 'z' then some (c.toNat - 71)
  else if isDigit c then some (c.toNat + 4)
  else if c = '+' ∨ c = '-' then some 62
  else if c = '/' ∨ c = '_' then some 63
  else none

def sextetBytes : List Nat → List UInt8
  | a :: b :: c :: d :: rest =>
    UInt8.ofNat (a * 4 + b / 16) :: UInt8.ofNat (b % 16 * 16 + c / 4) ::
      UInt8.ofNat (c % 4 * 64 + d) :: sextetBytes rest
  | [a, b, c] => [UInt8.ofNat (a * 4 + b / 16), UInt8.ofNat (b % 16 * 16 + c / 4)]
  | [a, b] => [UInt8.ofNat (a * 4 + b / 16)]
  | _ => []

/-- `Buffer.from(raw, 'base64')`: up to the padding, and what is no digit is passed over. -/
def base64Bytes (cs : List Char) : List UInt8 :=
  sextetBytes ((cs.takeWhile (· ≠ '=')).filterMap base64Value)

def decodeKey (raw : List Char) : List UInt8 :=
  if raw.length = 64 ∧ raw.all fun c => (hexValue c).isSome then hexBytes (raw.filterMap hexValue)
  else base64Bytes raw

def EncryptionConfig.loadKey (cfg : EncryptionConfig) : Except String (List UInt8) := do
  if cfg.encryptionKey = "" then
    throw "RECORDING_ENCRYPTION_KEY is required when recording encryption is enabled"
  let decoded := decodeKey cfg.encryptionKey.toList
  if decoded.length ≠ keyBytes then throw "RECORDING_ENCRYPTION_KEY must decode to 32 bytes"
  return decoded

theorem EncryptionConfig.length_loadKey {cfg : EncryptionConfig} {key : List UInt8}
    (h : cfg.loadKey = .ok key) : key.length = keyBytes := by
  simp only [loadKey, bind, Except.bind, pure, Except.pure, throw, throwThe,
    MonadExceptOf.throw] at h
  split at h
  · cases h
  split at h
  · cases h
  next hlength =>
  obtain rfl := Except.ok.inj h
  exact not_not.mp hlength

/-! ## Files -/

abbrev Files := List String → Option (List UInt8)

def EncryptionConfig.location (cfg : EncryptionConfig) (path : String) : List String :=
  PosixPath.resolved cfg.recordings.cwd path

/-- Where the encryption of a file goes. -/
def EncryptionConfig.target (cfg : EncryptionConfig) (filePath : String) : List String :=
  cfg.location (cfg.recordings.resolveEncryptedFilePath filePath)

def appendFile (files : Files) (location : List String) (bytes : List UInt8) : Files :=
  Function.update files location (some ((files location).getD [] ++ bytes))

structure RecordingEncryptionResult where
  encryptionStatus : EncryptionStatus
  encryptedFilePath : Option String
  keyRef : Option String

def encryptFile (gcm : Aes256Gcm) (cfg : EncryptionConfig) (files : Files) (filePath : String)
    (iv : GcmIv) : Except String RecordingEncryptionResult × Files :=
  if !cfg.recordings.encryptionEnabled then (.ok ⟨.none, none, none⟩, files)
  else
    match cfg.loadKey with
    | .error message => (.error message, files)
    | .ok key =>
      let encryptedFilePath := cfg.recordings.resolveEncryptedFilePath filePath
      let target := cfg.location encryptedFilePath
      match files (cfg.location filePath) with
      -- the output is truncated also when there is nothing to read
      | none => (.error (Finalizer.enoent filePath), Function.update files target (some []))
      | some plain =>
        let encrypted := gcm.encrypt key iv.bytes plain
        let files := Function.update files target (some encrypted.1)
        let files := appendFile files target (iv.bytes ++ encrypted.2)
        (.ok ⟨.encrypted, some encryptedFilePath, some cfg.recordings.keyRef⟩,
          Function.update files (cfg.location filePath) none)

/-! ## The two readers -/

def tooShort : String := "encrypted recording payload is too short"

/-- `buffer.subarray(first, last)`. -/
def subarray (bytes : List UInt8) (first last : Nat) : List UInt8 := (bytes.take last).drop first

def decryptFileToBuffer (gcm : Aes256Gcm) (cfg : EncryptionConfig) (files : Files)
    (encryptedFilePath : String) : Except String (List UInt8) := do
  let key ← cfg.loadKey
  let some encrypted := files (cfg.location encryptedFilePath) | throw (Finalizer.enoent encryptedFilePath)
  if encrypted.length ≤ gcmIvBytes + gcmTagBytes then throw tooShort
  let trailerOffset := encrypted.length - gcmIvBytes - gcmTagBytes
  let payload := subarray encrypted 0 trailerOffset
  let iv := subarray encrypted trailerOffset (trailerOffset + gcmIvBytes)
  let tag := encrypted.drop (trailerOffset + gcmIvBytes)
  match gcm.decrypt key iv tag payload with
  | some plain => return plain
  | none => throw "Unsupported state or unable to authenticate data"

/-- The stream breaks off where the tag does not fit. -/
structure RecordingDecryptStreamResult where
  stream : Option (List UInt8)
  size : Nat

/-- `createReadStream(path, { start, end })`, with both ends. -/
def readStream (bytes : List UInt8) (first last : Nat) : List UInt8 :=
  (bytes.drop first).take (last + 1 - first)

def openDecryptedReadStream (gcm : Aes256Gcm) (cfg : EncryptionConfig) (files : Files)
    (encryptedFilePath : String) : Except String RecordingDecryptStreamResult := do
  let key ← cfg.loadKey
  let some encrypted := files (cfg.location encryptedFilePath)
    | throw s!"ENOENT: no such file or directory, stat '{encryptedFilePath}'"
  if encrypted.length ≤ gcmIvBytes + gcmTagBytes then throw tooShort
  let payloadSize := encrypted.length - gcmIvBytes - gcmTagBytes
  let trailer := (encrypted.drop payloadSize).take (gcmIvBytes + gcmTagBytes)
  let iv := subarray trailer 0 gcmIvBytes
  let tag := trailer.drop gcmIvBytes
  return ⟨gcm.decrypt key iv tag (readStream encrypted 0 (payloadSize - 1)), payloadSize⟩

variable {gcm : Aes256Gcm} {cfg : EncryptionConfig} {files : Files} {key box bytes : List UInt8}
  {path : String}

/-- The box is opened when it is long enough. -/
def openLong (gcm : Aes256Gcm) (key box : List UInt8) : Option (List UInt8) :=
  if box.length ≤ gcmIvBytes + gcmTagBytes then none else gcm.openBox key box

theorem subarray_eq (first count : Nat) :
    subarray bytes first (first + count) = (bytes.drop first).take count := by
  rw [subarray, List.drop_take, Nat.add_sub_cancel_left]

/-- The buffer is the plaintext of the box. -/
theorem decryptFileToBuffer_eq (hkey : cfg.loadKey = .ok key) :
    decryptFileToBuffer gcm cfg files path = .ok bytes ↔
      (files (cfg.location path)).bind (openLong gcm key) = some bytes := by
  unfold decryptFileToBuffer
  rw [hkey]
  cases files (cfg.location path) with
  | none => exact ⟨nofun, nofun⟩
  | some box =>
    rw [Option.bind_some]
    unfold openLong
    by_cases hshort : box.length ≤ gcmIvBytes + gcmTagBytes
    · rw [if_pos hshort]
      simp [hshort, bind, Except.bind, throw, throwThe, MonadExceptOf.throw]
    · have hpayload : ∀ last, subarray box 0 last = box.take last := fun last => List.drop_zero
      rw [if_neg hshort]
      simp only [bind, Except.bind, pure, Except.pure, throw, throwThe, MonadExceptOf.throw,
        if_neg hshort, hpayload, subarray_eq, Nat.sub_sub, Cipher.openBox]
      split
      next plain hplain => rw [hplain, Except.ok.injEq, Option.some.injEq]
      next hnone =>
        rw [hnone]
        exact ⟨nofun, nofun⟩

/-- So is the stream, and its size is that of the plaintext. -/
theorem openDecryptedReadStream_eq (hkey : cfg.loadKey = .ok key) :
    openDecryptedReadStream gcm cfg files path = .ok ⟨some bytes, bytes.length⟩ ↔
      (files (cfg.location path)).bind (openLong gcm key) = some bytes := by
  unfold openDecryptedReadStream
  rw [hkey]
  cases files (cfg.location path) with
  | none => exact ⟨nofun, nofun⟩
  | some box =>
    rw [Option.bind_some]
    unfold openLong
    by_cases hshort : box.length ≤ gcmIvBytes + gcmTagBytes
    · rw [if_pos hshort]
      simp [hshort, bind, Except.bind, throw, throwThe, MonadExceptOf.throw]
    · have hlong : gcmIvBytes + gcmTagBytes < box.length := Nat.lt_of_not_le hshort
      -- the trailer is all that stands behind the payload
      have htrailer : (box.drop (box.length - (gcmIvBytes + gcmTagBytes))).take
          (gcmIvBytes + gcmTagBytes) = box.drop (box.length - (gcmIvBytes + gcmTagBytes)) := by
        refine List.take_of_length_le ?_
        rw [List.length_drop]
        omega
      have hpayload : readStream box 0 (box.length - (gcmIvBytes + gcmTagBytes + 1)) =
          box.take (box.length - (gcmIvBytes + gcmTagBytes)) := by
        rw [readStream, List.drop_zero]
        congr 1
        omega
      have hiv : ∀ trailer : List UInt8, subarray trailer 0 gcmIvBytes = trailer.take gcmIvBytes :=
        fun trailer => List.drop_zero
      have hsize : ∀ plain, gcm.openBox key box = some plain →
          box.length - (gcmIvBytes + gcmTagBytes) = plain.length :=
        fun plain hplain => (gcm.length_of_openBox key plain hplain).symm
      rw [if_neg hshort]
      simp only [bind, Except.bind, pure, Except.pure, if_neg hshort, Nat.sub_sub, htrailer,
        hpayload, hiv, List.drop_drop, Except.ok.injEq, RecordingDecryptStreamResult.mk.injEq]
      constructor
      · rintro ⟨hplain, -⟩
        exact hplain
      · intro hplain
        exact ⟨hplain, hsize bytes hplain⟩

/-! ## A sequence of calls -/

structure EncryptCall where
  filePath : String
  iv : GcmIv

/-- The files, and the `encryptedFilePath` that each file was given. -/
structure Archive where
  files : Files
  returned : List (String × String)

def encryptNext (gcm : Aes256Gcm) (cfg : EncryptionConfig) (s : Archive) (call : EncryptCall) :
    Archive :=
  match encryptFile gcm cfg s.files call.filePath call.iv with
  | (.ok ⟨_, some path, _⟩, files) => ⟨files, s.returned ++ [(call.filePath, path)]⟩
  | (_, files) => ⟨files, s.returned⟩

def encryptAll (gcm : Aes256Gcm) (cfg : EncryptionConfig) (files : Files)
    (calls : List EncryptCall) : Archive :=
  calls.foldl (encryptNext gcm cfg) ⟨files, []⟩

/-- Behind every call each path that was returned gives back the file, by both readers. -/
def KeepsEvery (gcm : Aes256Gcm) (cfg : EncryptionConfig) (files : Files)
    (calls : List EncryptCall) : Prop :=
  ∀ pre post, calls = pre ++ post → ∀ entry ∈ (encryptAll gcm cfg files pre).returned,
    ∀ bytes, files (cfg.location entry.1) = some bytes →
      decryptFileToBuffer gcm cfg (encryptAll gcm cfg files pre).files entry.2 = .ok bytes ∧
        openDecryptedReadStream gcm cfg (encryptAll gcm cfg files pre).files entry.2 =
          .ok ⟨some bytes, bytes.length⟩

/-- Encryption is on and has its key. -/
def EncryptionConfig.Encrypts (cfg : EncryptionConfig) : Prop :=
  cfg.recordings.encryptionEnabled = true ∧ ∃ key, cfg.loadKey = .ok key

/-- No call reads where it or an earlier one writes, and files that go to one target hold the
same bytes. -/
def OwnTargets (cfg : EncryptionConfig) (files : Files) (calls : List EncryptCall) : Prop :=
  (∀ c ∈ calls, cfg.target c.filePath ≠ cfg.location c.filePath) ∧
    calls.Pairwise fun c d => cfg.target c.filePath ≠ cfg.location d.filePath ∧
      (cfg.target c.filePath = cfg.target d.filePath →
        files (cfg.location c.filePath) = files (cfg.location d.filePath))

/-- What a call does to the files. -/
def EncryptCall.move (gcm : Aes256Gcm) (cfg : EncryptionConfig) (key : List UInt8)
    (call : EncryptCall) : Moves.Move (List String) (List UInt8) :=
  ⟨cfg.location call.filePath, cfg.target call.filePath, gcm.sealBox key call.iv.bytes⟩

variable {call : EncryptCall} {calls pre post : List EncryptCall}

theorem encryptAll_concat :
    encryptAll gcm cfg files (calls ++ [call]) =
      encryptNext gcm cfg (encryptAll gcm cfg files calls) call := by
  rw [encryptAll, List.foldl_append]
  rfl

/-- A file that is there is moved. -/
theorem encryptFile_eq (henabled : cfg.recordings.encryptionEnabled = true)
    (hkey : cfg.loadKey = .ok key) (hfile : files (cfg.location call.filePath) = some bytes) :
    encryptFile gcm cfg files call.filePath call.iv =
      (.ok ⟨.encrypted, some (cfg.recordings.resolveEncryptedFilePath call.filePath),
        some cfg.recordings.keyRef⟩, Moves.step files (call.move gcm cfg key)) := by
  have hstep : Moves.step files (call.move gcm cfg key) =
      Function.update (Function.update files (cfg.target call.filePath)
        (some (gcm.sealBox key call.iv.bytes bytes))) (cfg.location call.filePath) none := by
    rw [Moves.step, EncryptCall.move, hfile]
  rw [hstep]
  simp only [encryptFile, henabled, hkey, hfile, Bool.not_true, Bool.false_eq_true, if_false,
    appendFile, Function.update_self, Function.update_idem, Option.getD_some]
  rfl

/-- Without encryption no path is returned. -/
theorem encryptAll_returned_off (h : ¬ cfg.Encrypts) :
    (encryptAll gcm cfg files calls).returned = [] := by
  induction calls using List.reverseRecOn with
  | nil => rfl
  | append_singleton calls call ih =>
    rw [encryptAll_concat]
    unfold encryptNext encryptFile
    by_cases henabled : cfg.recordings.encryptionEnabled = true
    · cases hkey : cfg.loadKey with
      | ok key => exact absurd ⟨henabled, key, hkey⟩ h
      | error message =>
        simp only [henabled, Bool.not_true, Bool.false_eq_true, if_false]
        exact ih
    · simp only [henabled, Bool.not_false, if_true]
      exact ih

/-- The calls move the files, one after the other. -/
theorem encryptAll_files (henabled : cfg.recordings.encryptionEnabled = true)
    (hkey : cfg.loadKey = .ok key)
    (hdistinct : calls.Pairwise fun c d => cfg.location c.filePath ≠ cfg.location d.filePath)
    (hfiles : ∀ c ∈ calls, (files (cfg.location c.filePath)).isSome) :
    encryptAll gcm cfg files calls =
      ⟨Moves.after files (calls.map (EncryptCall.move gcm cfg key)),
        calls.map fun c => (c.filePath, cfg.recordings.resolveEncryptedFilePath c.filePath)⟩ := by
  induction calls using List.reverseRecOn with
  | nil => rfl
  | append_singleton calls call ih =>
    obtain ⟨hdistinct', -, hlast⟩ := List.pairwise_append.mp hdistinct
    have hbefore := ih hdistinct' fun c hc => hfiles c (List.mem_append_left _ hc)
    have hpresent : (Moves.after files (calls.map (EncryptCall.move gcm cfg key))
        (call.move gcm cfg key).source).isSome := by
      refine Moves.source_present (hfiles call (List.mem_append_right _ List.mem_cons_self)) ?_
      intro m hm
      obtain ⟨c, hc, rfl⟩ := List.mem_map.mp hm
      exact hlast c hc call List.mem_cons_self
    obtain ⟨bytes, hbytes⟩ := Option.isSome_iff_exists.mp hpresent
    rw [encryptAll_concat, hbefore, encryptNext, encryptFile_eq henabled hkey hbytes,
      List.map_append, List.map_append, List.map_singleton, List.map_singleton,
      Moves.after_concat]

theorem openLong_sealBox (hkey : cfg.loadKey = .ok key) (iv : GcmIv) (hbytes : bytes ≠ []) :
    openLong gcm key (gcm.sealBox key iv.bytes bytes) = some bytes := by
  have hlength := gcm.length_sealBox key iv.bytes bytes iv.length_eq
  have hpositive := List.length_pos_iff.mpr hbytes
  unfold openLong
  rw [if_neg (by omega)]
  exact gcm.openBox_sealBox key iv.bytes bytes (EncryptionConfig.length_loadKey hkey) iv.length_eq

/-- Both readers find the file exactly when its value is kept by the moves. -/
theorem keepsEvery_iff_kept (henabled : cfg.recordings.encryptionEnabled = true)
    (hkey : cfg.loadKey = .ok key)
    (hdistinct : calls.Pairwise fun c d => cfg.location c.filePath ≠ cfg.location d.filePath)
    (hfiles : ∀ c ∈ calls, (files (cfg.location c.filePath)).isSome) :
    KeepsEvery gcm cfg files calls ↔
      ∀ pre post, calls.map (EncryptCall.move gcm cfg key) = pre ++ post →
        Moves.Kept (openLong gcm key) files pre := by
  have hall : ∀ pre post, calls = pre ++ post → encryptAll gcm cfg files pre =
      ⟨Moves.after files (pre.map (EncryptCall.move gcm cfg key)),
        pre.map fun c => (c.filePath, cfg.recordings.resolveEncryptedFilePath c.filePath)⟩ := by
    rintro pre post rfl
    exact encryptAll_files henabled hkey (List.pairwise_append.mp hdistinct).1
      fun c hc => hfiles c (List.mem_append_left _ hc)
  constructor
  · intro hkeeps pre post hsplit m hm bytes hbytes
    obtain ⟨pre', post', rfl, rfl, rfl⟩ := List.map_eq_append_iff.mp hsplit
    obtain ⟨c, hc, rfl⟩ := List.mem_map.mp hm
    have hread := hkeeps pre' post' rfl
    rw [hall pre' post' rfl] at hread
    exact (decryptFileToBuffer_eq hkey).mp
      (hread _ (List.mem_map.mpr ⟨c, hc, rfl⟩) bytes hbytes).1
  · intro hkept pre post hsplit entry hentry bytes hbytes
    have hread := hkept (pre.map _) (post.map _) (by rw [hsplit, List.map_append])
    rw [hall pre post hsplit] at hentry ⊢
    obtain ⟨c, hc, rfl⟩ := List.mem_map.mp hentry
    have hvalue := hread _ (List.mem_map.mpr ⟨c, hc, rfl⟩) bytes hbytes
    exact ⟨(decryptFileToBuffer_eq hkey).mpr hvalue, (openDecryptedReadStream_eq hkey).mpr hvalue⟩

/-- For distinct files that are not empty, in any order and under any configuration. -/
theorem encrypted_storage_keeps (gcm : Aes256Gcm) (cfg : EncryptionConfig) (files : Files)
    (calls : List EncryptCall)
    (hdistinct : calls.Pairwise fun c d => cfg.location c.filePath ≠ cfg.location d.filePath)
    (hfiles : ∀ c ∈ calls, ∃ bytes, files (cfg.location c.filePath) = some bytes ∧ bytes ≠ []) :
    KeepsEvery gcm cfg files calls ↔ (cfg.Encrypts → OwnTargets cfg files calls) := by
  by_cases hencrypts : cfg.Encrypts
  · have hpresent : ∀ c ∈ calls, (files (cfg.location c.filePath)).isSome := by
      intro c hc
      obtain ⟨bytes, hbytes, -⟩ := hfiles c hc
      rw [hbytes]
      rfl
    have hseparate : ∀ key, Moves.Separate files (calls.map (EncryptCall.move gcm cfg key)) ↔
        OwnTargets cfg files calls := by
      intro key
      unfold Moves.Separate OwnTargets
      rw [List.forall_mem_map, List.pairwise_map]
      rfl
    obtain ⟨henabled, key, hkey⟩ := id hencrypts
    rw [keepsEvery_iff_kept henabled hkey hdistinct hpresent, Moves.kept_iff, hseparate key]
    · exact ⟨fun h _ => h, fun h => h hencrypts⟩
    · exact List.pairwise_map.mpr hdistinct
    · exact List.forall_mem_map.mpr hpresent
    · intro m hm bytes hbytes
      obtain ⟨c, hc, rfl⟩ := List.mem_map.mp hm
      obtain ⟨bytes', hbytes', hne⟩ := hfiles c hc
      obtain rfl := Option.some.inj (hbytes'.symm.trans hbytes)
      exact openLong_sealBox hkey c.iv hne
  · refine ⟨fun _ h => absurd h hencrypts, fun _ pre post _ entry hentry => ?_⟩
    rw [encryptAll_returned_off hencrypts] at hentry
    cases hentry

def exTagOne : List UInt8 :=
  [112, 125, 207, 128, 161, 185, 166, 23, 3, 231, 149, 212, 209, 9, 240, 253]

def exTagTwo : List UInt8 :=
  [180, 9, 66, 135, 170, 27, 226, 129, 139, 24, 155, 50, 67, 174, 157, 184]

def exEncrypt (plain : List UInt8) : List UInt8 × List UInt8 :=
  if plain = [1] then ([207], exTagOne)
  else if plain = [2] then ([204], exTagTwo)
  else (plain, List.replicate gcmTagBytes 0)

def exDecrypt (tag payload : List UInt8) : Option (List UInt8) :=
  if payload = [207] ∧ tag = exTagOne then some [1]
  else if payload = [204] ∧ tag = exTagTwo then some [2]
  else if payload ≠ [1] ∧ payload ≠ [2] ∧ tag = List.replicate gcmTagBytes 0 then some payload
  else none

theorem exEncrypt_of_exDecrypt {tag payload plain : List UInt8}
    (h : exDecrypt tag payload = some plain) : exEncrypt plain = (payload, tag) := by
  unfold exDecrypt at h
  split at h
  next hone =>
    obtain ⟨rfl, rfl⟩ := hone
    obtain rfl := Option.some.inj h
    rfl
  split at h
  next htwo =>
    obtain ⟨rfl, rfl⟩ := htwo
    obtain rfl := Option.some.inj h
    rfl
  split at h
  next hother =>
    obtain ⟨hone, htwo, rfl⟩ := hother
    obtain rfl := Option.some.inj h
    rw [exEncrypt, if_neg hone, if_neg htwo]
  · cases h

theorem exDecrypt_exEncrypt (plain : List UInt8) :
    exDecrypt (exEncrypt plain).2 (exEncrypt plain).1 = some plain := by
  unfold exEncrypt
  split
  next h => rw [h]; rfl
  split
  next h => rw [h]; rfl
  next hone htwo =>
    have hzero : List.replicate gcmTagBytes (0 : UInt8) ≠ exTagOne := by decide
    have hzero' : List.replicate gcmTagBytes (0 : UInt8) ≠ exTagTwo := by decide
    unfold exDecrypt
    rw [if_neg fun h => hzero h.2, if_neg fun h => hzero' h.2, if_pos ⟨hone, htwo, rfl⟩]

/-- AES-256-GCM with a key and an IV of zeros, on two files of one byte. -/
def exGcm : Aes256Gcm where
  encrypt _ _ plain := exEncrypt plain
  decrypt _ _ tag payload := exDecrypt tag payload
  length_payload _ _ plain := by
    unfold exEncrypt
    split
    next h => rw [h]; rfl
    split
    next h => rw [h]; rfl
    · rfl
  length_tag _ _ plain := by
    unfold exEncrypt
    split
    · rfl
    split <;> rfl
  decrypt_encrypt _ _ plain _ _ := exDecrypt_exEncrypt plain
  encrypt_of_decrypt _ _ _ _ _ h := exEncrypt_of_exDecrypt h

def exIv : GcmIv := ⟨List.replicate gcmIvBytes 0, rfl⟩

def exEncryption (storageRoot : Option String) : EncryptionConfig :=
  ⟨⟨storageRoot, some "/enc", true, "local-env", "/"⟩, String.ofList (List.replicate 64 '0')⟩

def exCalls : List EncryptCall := [⟨"/rec/a/x.wav", exIv⟩, ⟨"/rec/b/x.wav", exIv⟩]

def exFiles : Files := fun location =>
  if location = ["rec", "a", "x.wav"] then some [1]
  else if location = ["rec", "b", "x.wav"] then some [2] else none

theorem exCalls_exist (storageRoot : Option String) : ∀ c ∈ exCalls, ∃ bytes,
    exFiles ((exEncryption storageRoot).location c.filePath) = some bytes ∧ bytes ≠ [] := by
  have hone : exFiles (PosixPath.resolved "/" "/rec/a/x.wav") = some [1] := by decide
  have htwo : exFiles (PosixPath.resolved "/" "/rec/b/x.wav") = some [2] := by decide
  intro c hc
  rcases List.mem_pair.mp hc with rfl | rfl
  · exact ⟨[1], hone, by decide⟩
  · exact ⟨[2], htwo, by decide⟩

/-- With the root of the recordings the directories stay apart. -/
theorem encrypted_storage_keeps_exCalls :
    KeepsEvery exGcm (exEncryption (some "/rec")) exFiles exCalls :=
  (encrypted_storage_keeps exGcm (exEncryption (some "/rec")) exFiles exCalls (by decide)
    (exCalls_exist _)).mpr fun _ => ⟨by decide +kernel, by decide +kernel⟩

/-- Without it the second file takes the place of the first one. -/
theorem same_name_overwritten :
    (exCalls.Pairwise fun c d => (exEncryption none).location c.filePath ≠
        (exEncryption none).location d.filePath) ∧
      (∀ c ∈ exCalls, ∃ bytes, exFiles ((exEncryption none).location c.filePath) = some bytes ∧
        bytes ≠ []) ∧
      ¬ KeepsEvery exGcm (exEncryption none) exFiles exCalls := by
  refine ⟨by decide, exCalls_exist none, fun h => ?_⟩
  obtain ⟨hread, -⟩ := h exCalls [] rfl ("/rec/a/x.wav", "/enc/x.wav.enc") (by decide +kernel) [1]
    (by decide)
  exact absurd hread (by decide +kernel)

end KasterCti.Recordings
