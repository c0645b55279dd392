import KasterCti.Library.Bytes
import KasterCti.Library.JsText

/-!
# WAV files of a call

The header that `buildMonoWav` writes for the speech recognizer, the one that the finalizer puts
before a raw stereo recording, `parseWavHeader` that reads both, and `deinterleaveStereoPcm`.

Results:
1. `parseChunks_range`: a range that is returned lies in the buffer.
2. `parseWavHeader_wavHeader`: a header that could be written is read back.
3. `interleave_deinterleave`: the two sides, put together, are the frames.
4. `wav_handling_lossless`: the three together.
5. `large_raw_has_no_header`: a raw file that the header cannot tell the size of.
-/

namespace KasterCti.CallAnalysis

open Bytes JsText

def WAV_HEADER_BYTES : Nat := 44

def SUPPORTED_BITS_PER_SAMPLE : List Nat := [8, 16]

/-- The `RangeError` of a buffer. -/
def outOfRange : String := "ERR_OUT_OF_RANGE"

/-! ## Fields of a buffer -/

/-- `buffer.toString('ascii', start, start + count)`, without the high bit. -/
def asciiText (buffer : List UInt8) (start count : Nat) : List Char :=
  (slice buffer start count).map fun b => Char.ofNat (b.toNat % 128)

def readUIntLE (width : Nat) (buffer : List UInt8) (offset : Nat) : Except String Nat :=
  if offset + width ≤ buffer.length then .ok (combine (slice buffer offset width))
  else .error outOfRange

/-- A number `num / den` of JavaScript; `none` is `NaN`. -/
structure Quotient where
  num : Option Nat
  den : Nat

/-- What is behind the point is cut off, and `NaN` passes the check and is written as zero. -/
def writeUIntLE (width : Nat) (buffer : List UInt8) (value : Quotient) (offset : Nat) :
    Except String (List UInt8) :=
  match value.num with
  | none => .ok (writeAt buffer offset (split width 0))
  | some num =>
    if num ≤ (256 ^ width - 1) * value.den then
      .ok (writeAt buffer offset (split width (num / value.den)))
    else .error outOfRange

/-! ## Headers -/

def riffTag : List UInt8 := [82, 73, 70, 70]

def waveTag : List UInt8 := [87, 65, 86, 69]

def fmtTag : List UInt8 := [102, 109, 116, 32]

def dataTag : List UInt8 := [100, 97, 116, 97]

/-- The writes of both encoders. -/
def wavHeader (channels : Nat) (sampleRate bitsPerSample : Option Nat) (dataSize : Nat) :
    Except String (List UInt8) := do
  let whole (n : Nat) : Quotient := ⟨some n, 1⟩
  let blockAlign : Quotient := ⟨bitsPerSample.map (channels * ·), 8⟩
  let byteRate : Quotient := ⟨sampleRate.bind fun rate => bitsPerSample.map (rate * channels * ·), 8⟩
  let header := List.replicate WAV_HEADER_BYTES 0
  let header := writeAt header 0 riffTag
  let header ← writeUIntLE 4 header (whole (36 + dataSize)) 4
  let header := writeAt header 8 waveTag
  let header := writeAt header 12 fmtTag
  let header ← writeUIntLE 4 header (whole 16) 16
  let header ← writeUIntLE 2 header (whole 1) 20
  let header ← writeUIntLE 2 header (whole channels) 22
  let header ← writeUIntLE 4 header ⟨sampleRate, 1⟩ 24
  let header ← writeUIntLE 4 header byteRate 28
  let header ← writeUIntLE 2 header blockAlign 32
  let header ← writeUIntLE 2 header ⟨bitsPerSample, 1⟩ 34
  let header := writeAt header 36 dataTag
  writeUIntLE 4 header (whole dataSize) 40

structure MonoWavFormat where
  sampleRate : Nat
  bitsPerSample : Nat

def buildMonoWav (pcm : List UInt8) (format : MonoWavFormat) : Except String (List UInt8) := do
  let header ← wavHeader 1 (some format.sampleRate) (some format.bitsPerSample) pcm.length
  return header ++ pcm

/-- `RECORDING_STEREO_RAW_SAMPLE_RATE` and `RECORDING_STEREO_RAW_BITS_PER_SAMPLE`. -/
structure StereoRawConfig where
  sampleRate : Option String
  bitsPerSample : Option String

/-- `Math.max(least, Number.parseInt(text, 10))`. -/
def atLeast (least : Nat) (text : String) : Option Nat :=
  (parseInt text).map fun n => (max (least : Int) n).toNat

def StereoRawConfig.rate (config : StereoRawConfig) : Option Nat :=
  atLeast 1 (config.sampleRate.getD "8000")

def StereoRawConfig.bits (config : StereoRawConfig) : Option Nat :=
  atLeast 8 (config.bitsPerSample.getD "16")

def buildStereoPcmWavHeader (config : StereoRawConfig) (dataSize : Nat) :
    Except String (List UInt8) :=
  wavHeader 2 config.rate config.bits dataSize

/-- The file that `createPlaybackVariant` writes beside a raw recording. -/
def createPlaybackVariant (config : StereoRawConfig) (raw : List UInt8) :
    Except String (List UInt8) := do
  let header ← buildStereoPcmWavHeader config raw.length
  return header ++ raw

/-! ## Reading -/

structure WavFormat where
  channels : Nat
  sampleRate : Nat
  bitsPerSample : Nat

structure WavHeader extends WavFormat where
  dataOffset : Nat
  dataSize : Nat

def readFormat (buffer : List UInt8) (body : Nat) : Except String WavFormat := do
  let channels ← readUIntLE 2 buffer (body + 2)
  let sampleRate ← readUIntLE 4 buffer (body + 4)
  let bitsPerSample ← readUIntLE 2 buffer (body + 14)
  return ⟨channels, sampleRate, bitsPerSample⟩

/-- The loop over the chunks, from `offset` on. -/
def parseChunks (buffer : List UInt8) (format : Option WavFormat) (offset : Nat) :
    Except String WavHeader :=
  if offset + 8 ≤ buffer.length then
    let chunkId := asciiText buffer offset 4
    let chunkSize := combine (slice buffer (offset + 4) 4)
    let body := offset + 8
    let next := body + chunkSize + chunkSize % 2
    if chunkId = ['f', 'm', 't', ' '] then
      match readFormat buffer body with
      | .error message => .error message
      | .ok format => parseChunks buffer (some format) next
    else if chunkId = ['d', 'a', 't', 'a'] then
      match format with
      | none => .error "wav data chunk appeared before fmt chunk"
      | some format => .ok ⟨format, body, min chunkSize (buffer.length - body)⟩
    else parseChunks buffer format next
  else .error "wav data chunk not found"
termination_by buffer.length - offset
decreasing_by all_goals omega

def parseWavHeader (buffer : List UInt8) : Except String WavHeader :=
  if buffer.length < WAV_HEADER_BYTES then .error "wav buffer is too short to contain a header"
  else if asciiText buffer 0 4 ≠ ['R', 'I', 'F', 'F'] ∨ asciiText buffer 8 4 ≠ ['W', 'A', 'V', 'E'] then
    .error "not a RIFF/WAVE buffer"
  else parseChunks buffer none 12

/-! ## Two sides -/

/-- `pcm.copy` of one frame into both sides. -/
def copyFrame (pcm : List UInt8) (bytesPerSample : Nat) (sides : List UInt8 × List UInt8)
    (frame : Nat) : List UInt8 × List UInt8 :=
  let source := frame * (bytesPerSample * 2)
  let target := frame * bytesPerSample
  (writeAt sides.1 target (slice pcm source bytesPerSample),
    writeAt sides.2 target (slice pcm (source + bytesPerSample) bytesPerSample))

def deinterleaveStereoPcm (pcm : List UInt8) (bitsPerSample : Nat) :
    Except String (List UInt8 × List UInt8) :=
  if bitsPerSample ∉ SUPPORTED_BITS_PER_SAMPLE then
    .error s!"unsupported bitsPerSample: {bitsPerSample}"
  else
    let bytesPerSample := bitsPerSample / 8
    let frames := pcm.length / (bytesPerSample * 2)
    let empty := List.replicate (frames * bytesPerSample) 0
    .ok ((List.range frames).foldl (copyFrame pcm bytesPerSample) (empty, empty))

/-! ## What is read -/

/-- The loop ends, and a range that it returns lies in the buffer. -/
theorem parseChunks_range {buffer : List UInt8} {header : WavHeader} (format : Option WavFormat)
    (offset : Nat) (h : parseChunks buffer format offset = .ok header) :
    header.dataOffset + header.dataSize ≤ buffer.length := by
  fun_induction parseChunks buffer format offset with
  | case1 => cases h
  | case2 _ _ _ _ _ _ _ _ _ _ ih => exact ih h
  | case3 => cases h
  | case4 offset hin chunkId chunkSize body _ _ format =>
    obtain rfl := Except.ok.inj h
    show body + min chunkSize (buffer.length - body) ≤ buffer.length
    have hbody : body = offset + 8 := rfl
    omega
  | case5 _ _ _ _ _ _ _ _ _ ih => exact ih h
  | case6 => cases h

theorem parseWavHeader_range {buffer : List UInt8} {header : WavHeader}
    (h : parseWavHeader buffer = .ok header) :
    header.dataOffset + header.dataSize ≤ buffer.length := by
  unfold parseWavHeader at h
  split at h
  · cases h
  split at h
  · cases h
  exact parseChunks_range none 12 h

/-! ## Headers that are read back -/

section

variable {channels rate bits dataSize : Nat} {buffer pcm : List UInt8} {offset width : Nat}

/-- The values of a header that its fields can hold. -/
structure FieldsFit (channels rate bits dataSize : Nat) : Prop where
  riffSize : 36 + dataSize < 256 ^ 4
  numChannels : channels < 256 ^ 2
  sampleRate : rate < 256 ^ 4
  bitsPerSample : bits < 256 ^ 2
  byteRate : rate * channels * bits ≤ (256 ^ 4 - 1) * 8
  blockAlign : channels * bits ≤ (256 ^ 2 - 1) * 8

/-- The fields of a header with their offsets. -/
def headerFields (channels rate bits dataSize : Nat) : List (Nat × List UInt8) :=
  [(0, riffTag), (4, split 4 (36 + dataSize)), (8, waveTag), (12, fmtTag), (16, split 4 16),
    (20, split 2 1), (22, split 2 channels), (24, split 4 rate),
    (28, split 4 (rate * channels * bits / 8)), (32, split 2 (channels * bits / 8)),
    (34, split 2 bits), (36, dataTag), (40, split 4 dataSize)]

/-- The 44 bytes. -/
def headerBytes (channels rate bits dataSize : Nat) : List UInt8 :=
  ((headerFields channels rate bits dataSize).map (·.2)).flatten

theorem headerFields_consecutive : Consecutive 0 (headerFields channels rate bits dataSize) := by
  simp [headerFields, Consecutive, riffTag, waveTag, fmtTag, dataTag]

theorem writeUIntLE_whole {n : Nat} (h : n < 256 ^ width) :
    writeUIntLE width buffer ⟨some n, 1⟩ offset = .ok (writeAt buffer offset (split width n)) := by
  unfold writeUIntLE
  simp only [Nat.mul_one, Nat.div_one]
  exact if_pos (Nat.le_pred_of_lt h)

theorem writeUIntLE_quotient {n den : Nat} (h : n ≤ (256 ^ width - 1) * den) :
    writeUIntLE width buffer ⟨some n, den⟩ offset =
      .ok (writeAt buffer offset (split width (n / den))) :=
  if_pos h

theorem wavHeader_eq (h : FieldsFit channels rate bits dataSize) :
    wavHeader channels (some rate) (some bits) dataSize =
      .ok (headerBytes channels rate bits dataSize) := by
  have hsize : dataSize < 256 ^ 4 := by
    have hall := h.riffSize
    omega
  have hlength : (List.replicate WAV_HEADER_BYTES (0 : UInt8)).length =
      ((headerFields channels rate bits dataSize).map fun piece => piece.2.length).sum := by
    simp [headerFields, WAV_HEADER_BYTES, riffTag, waveTag, fmtTag, dataTag]
  have hwrites := @foldl_writeAt _ [] _ _ headerFields_consecutive hlength
  unfold wavHeader
  simp only [Option.map_some, Option.bind_some, writeUIntLE_whole h.riffSize, writeUIntLE_whole hsize,
    writeUIntLE_whole h.numChannels, writeUIntLE_whole h.sampleRate, writeUIntLE_whole h.bitsPerSample,
    writeUIntLE_whole (show 16 < 256 ^ 4 by decide), writeUIntLE_whole (show 1 < 256 ^ 2 by decide),
    writeUIntLE_quotient h.byteRate, writeUIntLE_quotient h.blockAlign, bind, Except.bind]
  exact congrArg Except.ok hwrites

theorem length_headerBytes : (headerBytes channels rate bits dataSize).length = 44 := by
  rw [headerBytes, List.length_flatten]
  simp [headerFields, riffTag, waveTag, fmtTag, dataTag]

/-- Every field is read at its offset. -/
theorem slice_field {field : Nat × List UInt8} (hfield : field ∈ headerFields channels rate bits dataSize) :
    slice (headerBytes channels rate bits dataSize ++ pcm) field.1 field.2.length = field.2 :=
  @slice_of_mem _ [] pcm _ _ headerFields_consecutive hfield

theorem readUIntLE_field {n : Nat} (hn : n < 256 ^ width)
    (hfield : (offset, split width n) ∈ headerFields channels rate bits dataSize)
    (hend : offset + width ≤ 44) :
    readUIntLE width (headerBytes channels rate bits dataSize ++ pcm) offset = .ok n := by
  have hslice : slice (headerBytes channels rate bits dataSize ++ pcm) offset width = split width n := by
    have h := @slice_field channels rate bits dataSize pcm _ hfield
    rwa [length_split] at h
  unfold readUIntLE
  rw [if_pos (by rw [List.length_append, length_headerBytes]; omega), hslice, combine_split hn]

theorem asciiText_field (tag : List UInt8) (htag : tag.length = 4)
    (hfield : (offset, tag) ∈ headerFields channels rate bits dataSize) :
    asciiText (headerBytes channels rate bits dataSize ++ pcm) offset 4 =
      tag.map fun b => Char.ofNat (b.toNat % 128) := by
  have h := @slice_field channels rate bits dataSize pcm _ hfield
  rw [asciiText, ← htag, h]

theorem combine_field {n : Nat} (hn : n < 256 ^ 4)
    (hfield : (offset, split 4 n) ∈ headerFields channels rate bits dataSize) :
    combine (slice (headerBytes channels rate bits dataSize ++ pcm) offset 4) = n := by
  have h := @slice_field channels rate bits dataSize pcm _ hfield
  rw [length_split] at h
  rw [h, combine_split hn]

theorem parseChunks_fmt {format : Option WavFormat} {read : WavFormat} {next : Nat}
    (hin : offset + 8 ≤ buffer.length) (hid : asciiText buffer offset 4 = ['f', 'm', 't', ' '])
    (hread : readFormat buffer (offset + 8) = .ok read)
    (hnext : offset + 8 + combine (slice buffer (offset + 4) 4) +
      combine (slice buffer (offset + 4) 4) % 2 = next) :
    parseChunks buffer format offset = parseChunks buffer (some read) next := by
  rw [parseChunks, if_pos hin]
  dsimp only
  rw [if_pos hid, hread, hnext]

theorem parseChunks_data {format : WavFormat} (hin : offset + 8 ≤ buffer.length)
    (hid : asciiText buffer offset 4 = ['d', 'a', 't', 'a']) :
    parseChunks buffer (some format) offset = .ok ⟨format, offset + 8,
      min (combine (slice buffer (offset + 4) 4)) (buffer.length - (offset + 8))⟩ := by
  rw [parseChunks, if_pos hin]
  dsimp only
  rw [if_neg (by rw [hid]; decide), if_pos hid]

theorem readFormat_headerBytes (h : FieldsFit channels rate bits dataSize) :
    readFormat (headerBytes channels rate bits dataSize ++ pcm) 20 =
      .ok ⟨channels, rate, bits⟩ := by
  unfold readFormat
  rw [readUIntLE_field h.numChannels (by simp [headerFields]) (by decide),
    readUIntLE_field h.sampleRate (by simp [headerFields]) (by decide),
    readUIntLE_field h.bitsPerSample (by simp [headerFields]) (by decide)]
  rfl

theorem parseWavHeader_headerBytes (h : FieldsFit channels rate bits dataSize) :
    parseWavHeader (headerBytes channels rate bits dataSize ++ pcm) =
      .ok ⟨⟨channels, rate, bits⟩, 44, min dataSize pcm.length⟩ := by
  have hlength : (headerBytes channels rate bits dataSize ++ pcm).length = 44 + pcm.length := by
    rw [List.length_append, length_headerBytes]
  have hsize : dataSize < 256 ^ 4 := by
    have hall := h.riffSize
    omega
  have hfmt : parseChunks (headerBytes channels rate bits dataSize ++ pcm) none 12 =
      parseChunks (headerBytes channels rate bits dataSize ++ pcm) (some ⟨channels, rate, bits⟩) 36 := by
    refine parseChunks_fmt (by omega) ?_ (readFormat_headerBytes h) ?_
    · exact asciiText_field fmtTag rfl (by simp [headerFields])
    · rw [combine_field (show 16 < 256 ^ 4 by decide) (by simp [headerFields])]
  have hdata : parseChunks (headerBytes channels rate bits dataSize ++ pcm)
      (some ⟨channels, rate, bits⟩) 36 = .ok ⟨⟨channels, rate, bits⟩, 44, min dataSize pcm.length⟩ := by
    rw [parseChunks_data (by omega) (asciiText_field dataTag rfl (by simp [headerFields])),
      combine_field hsize (by simp [headerFields]), hlength, Nat.add_sub_cancel_left]
  unfold parseWavHeader
  rw [if_neg (by rw [hlength, WAV_HEADER_BYTES]; omega),
    asciiText_field riffTag rfl (by simp [headerFields]),
    asciiText_field waveTag rfl (by simp [headerFields]), if_neg (by decide), hfmt, hdata]

/-! ## Sides that are put together -/

/-- The samples of one side in the first `frames` frames. -/
def side (pcm : List UInt8) (bytesPerSample shift frames : Nat) : List UInt8 :=
  (List.range frames).flatMap fun frame =>
    slice pcm (frame * (bytesPerSample * 2) + shift) bytesPerSample

/-- The samples of two sides by turns. -/
def interleave (bytesPerSample frames : Nat) (left right : List UInt8) : List UInt8 :=
  (List.range frames).flatMap fun frame =>
    slice left (frame * bytesPerSample) bytesPerSample ++
      slice right (frame * bytesPerSample) bytesPerSample

variable {bytesPerSample shift frames : Nat}

theorem length_sample {frame : Nat} (hframe : frame < frames) (hshift : shift ≤ bytesPerSample)
    (hframes : frames * (bytesPerSample * 2) ≤ pcm.length) :
    (slice pcm (frame * (bytesPerSample * 2) + shift) bytesPerSample).length = bytesPerSample := by
  have hend : (frame + 1) * (bytesPerSample * 2) ≤ frames * (bytesPerSample * 2) :=
    Nat.mul_le_mul_right _ hframe
  rw [Nat.add_mul, Nat.one_mul] at hend
  exact length_slice (by omega)

theorem length_side (hshift : shift ≤ bytesPerSample)
    (hframes : frames * (bytesPerSample * 2) ≤ pcm.length) :
    (side pcm bytesPerSample shift frames).length = frames * bytesPerSample :=
  length_flatMap_range fun _ hframe => length_sample hframe hshift hframes

/-- Copying one more frame fills the next sample of a side. -/
theorem writeAt_side (rest : Nat) (hshift : shift ≤ bytesPerSample)
    (hframes : (frames + 1) * (bytesPerSample * 2) ≤ pcm.length) :
    writeAt (side pcm bytesPerSample shift frames ++
        List.replicate ((rest + 1) * bytesPerSample) 0) (frames * bytesPerSample)
        (slice pcm (frames * (bytesPerSample * 2) + shift) bytesPerSample) =
      side pcm bytesPerSample shift (frames + 1) ++ List.replicate (rest * bytesPerSample) 0 := by
  have hpre : frames * (bytesPerSample * 2) ≤ pcm.length :=
    (Nat.mul_le_mul_right _ (Nat.le_succ frames)).trans hframes
  have hzeros : List.replicate ((rest + 1) * bytesPerSample) (0 : UInt8) =
      List.replicate bytesPerSample 0 ++ List.replicate (rest * bytesPerSample) 0 := by
    rw [List.replicate_append_replicate, Nat.add_mul, Nat.one_mul, Nat.add_comm]
  have hsample := length_sample (Nat.lt_succ_self frames) hshift hframes
  rw [hzeros, writeAt_append (length_side hshift hpre) (by rw [List.length_replicate, hsample]),
    side, side, List.range_succ, List.flatMap_append, List.flatMap_singleton, List.append_assoc]

/-- The loop after `frames` frames, with `rest` to come. -/
theorem foldl_copyFrame (rest : Nat) (hframes : (frames + rest) * (bytesPerSample * 2) ≤ pcm.length) :
    (List.range frames).foldl (copyFrame pcm bytesPerSample)
        (List.replicate ((frames + rest) * bytesPerSample) 0,
          List.replicate ((frames + rest) * bytesPerSample) 0) =
      (side pcm bytesPerSample 0 frames ++ List.replicate (rest * bytesPerSample) 0,
        side pcm bytesPerSample bytesPerSample frames ++
          List.replicate (rest * bytesPerSample) 0) := by
  induction frames generalizing rest with
  | zero => rw [Nat.zero_add]; rfl
  | succ frames ih =>
    have hmore : frames + 1 + rest = frames + (rest + 1) := by omega
    have hone : (frames + 1) * (bytesPerSample * 2) ≤ pcm.length :=
      (Nat.mul_le_mul_right _ (Nat.le_add_right _ rest)).trans hframes
    rw [hmore] at hframes ⊢
    rw [List.range_succ, List.foldl_append, ih (rest + 1) hframes, List.foldl_cons, List.foldl_nil,
      copyFrame]
    rw [← writeAt_side rest (Nat.zero_le _) hone, ← writeAt_side rest (le_refl _) hone]
    rfl

theorem interleave_side (hframes : frames * (bytesPerSample * 2) ≤ pcm.length) :
    interleave bytesPerSample frames (side pcm bytesPerSample 0 frames)
        (side pcm bytesPerSample bytesPerSample frames) =
      pcm.take (frames * (bytesPerSample * 2)) := by
  rw [← flatMap_slice]
  unfold interleave
  refine List.flatMap_congr fun frame hframe => ?_
  have hlt := List.mem_range.mp hframe
  rw [side, slice_flatMap (fun _ hin => length_sample hin (Nat.zero_le _) hframes) hlt,
    side, slice_flatMap (fun _ hin => length_sample hin (le_refl _) hframes) hlt, Nat.add_zero,
    ← slice_add, ← Nat.mul_two]

theorem deinterleaveStereoPcm_eq (hbits : bits ∈ SUPPORTED_BITS_PER_SAMPLE) :
    deinterleaveStereoPcm pcm bits =
      let frames := pcm.length / (bits / 8 * 2)
      .ok (side pcm (bits / 8) 0 frames, side pcm (bits / 8) (bits / 8) frames) := by
  have hframes : (pcm.length / (bits / 8 * 2) + 0) * (bits / 8 * 2) ≤ pcm.length := by
    rw [Nat.add_zero]
    exact Nat.div_mul_le_self _ _
  have hloop := foldl_copyFrame 0 hframes
  rw [Nat.add_zero, Nat.zero_mul, List.replicate_zero, List.append_nil, List.append_nil] at hloop
  unfold deinterleaveStereoPcm
  rw [if_neg (not_not.mpr hbits)]
  exact congrArg Except.ok hloop

end

/-! ## Without loss -/

/-- A format that the encoders know and whose byte rate has its field. -/
structure SupportedFormat (channels rate bits : Nat) : Prop where
  supported : bits ∈ SUPPORTED_BITS_PER_SAMPLE
  byteRate : rate * channels * bits ≤ (256 ^ 4 - 1) * 8

def MonoWavFormat.Supported (format : MonoWavFormat) : Prop :=
  SupportedFormat 1 format.sampleRate format.bitsPerSample

def StereoRawConfig.Supported (config : StereoRawConfig) : Prop :=
  ∃ rate bits, config.rate = some rate ∧ config.bits = some bits ∧ SupportedFormat 2 rate bits

/-- The recognizer's file says the format and holds the samples. -/
def MonoLossless (pcm : List UInt8) (format : MonoWavFormat) : Prop :=
  ∃ wav header, buildMonoWav pcm format = .ok wav ∧ parseWavHeader wav = .ok header ∧
    header.toWavFormat = ⟨1, format.sampleRate, format.bitsPerSample⟩ ∧
    header.dataSize = pcm.length ∧ slice wav header.dataOffset header.dataSize = pcm

/-- The playback file holds the raw bytes, and its two sides are their frames. -/
def StereoLossless (config : StereoRawConfig) (raw : List UInt8) : Prop :=
  ∃ wav header left right frames, createPlaybackVariant config raw = .ok wav ∧
    parseWavHeader wav = .ok header ∧ header.channels = 2 ∧ header.dataSize = raw.length ∧
    slice wav header.dataOffset header.dataSize = raw ∧
    deinterleaveStereoPcm raw header.bitsPerSample = .ok (left, right) ∧
    interleave (header.bitsPerSample / 8) frames left right =
      raw.take (frames * (header.bitsPerSample / 8 * 2)) ∧
    left.length = frames * (header.bitsPerSample / 8) ∧
    right.length = frames * (header.bitsPerSample / 8) ∧
    raw.length < (frames + 1) * (header.bitsPerSample / 8 * 2)

section

variable {channels rate bits dataSize : Nat} {pcm raw : List UInt8}

theorem SupportedFormat.cases (h : SupportedFormat channels rate bits) : bits = 8 ∨ bits = 16 := by
  have hbits := h.supported
  simpa [SUPPORTED_BITS_PER_SAMPLE] using hbits

theorem SupportedFormat.fieldsFit (h : SupportedFormat channels rate bits)
    (hchannels : channels = 1 ∨ channels = 2) (hsize : dataSize < 2 ^ 32 - 36) :
    FieldsFit channels rate bits dataSize := by
  have hrate := h.byteRate
  rcases h.cases with rfl | rfl <;> rcases hchannels with rfl | rfl <;>
    exact ⟨by omega, by omega, by omega, by omega, by omega, by omega⟩

theorem slice_wav : slice (headerBytes channels rate bits pcm.length ++ pcm) 44 pcm.length = pcm := by
  have h := @slice_append _ (headerBytes channels rate bits pcm.length) [] pcm _ _ length_headerBytes rfl
  rwa [List.append_nil] at h

theorem monoLossless {format : MonoWavFormat} (hsize : pcm.length < 2 ^ 32 - 36)
    (hformat : format.Supported) : MonoLossless pcm format := by
  have hfit := hformat.fieldsFit (.inl rfl) hsize
  refine ⟨_, _, ?_, @parseWavHeader_headerBytes _ _ _ _ pcm hfit, rfl, min_self _, ?_⟩
  · rw [buildMonoWav, wavHeader_eq hfit]
    rfl
  · rw [min_self]
    exact slice_wav

theorem stereoLossless {config : StereoRawConfig} (hsize : raw.length < 2 ^ 32 - 36)
    (hconfig : config.Supported) : StereoLossless config raw := by
  obtain ⟨rate, bits, hrate, hbits, hformat⟩ := hconfig
  have hfit := hformat.fieldsFit (.inr rfl) hsize
  have hframes : raw.length / (bits / 8 * 2) * (bits / 8 * 2) ≤ raw.length := Nat.div_mul_le_self _ _
  have hpos : 0 < bits / 8 * 2 := by
    rcases hformat.cases with rfl | rfl <;> decide
  refine ⟨_, _, _, _, raw.length / (bits / 8 * 2), ?_, @parseWavHeader_headerBytes _ _ _ _ raw hfit,
    rfl, min_self _, ?_, deinterleaveStereoPcm_eq hformat.supported, interleave_side hframes,
    length_side (Nat.zero_le _) hframes, length_side (le_refl _) hframes, ?_⟩
  · rw [createPlaybackVariant, buildStereoPcmWavHeader, hrate, hbits, wavHeader_eq hfit]
    rfl
  · rw [min_self]
    exact slice_wav
  · rw [Nat.add_mul, Nat.one_mul]
    exact Nat.lt_div_mul_add hpos

end

/-- Both encoders, the parser and the two sides. -/
theorem wav_handling_lossless :
    (∀ (pcm : List UInt8) (format : MonoWavFormat), pcm.length < 2 ^ 32 - 36 → format.Supported →
      MonoLossless pcm format) ∧
    (∀ (config : StereoRawConfig) (raw : List UInt8), raw.length < 2 ^ 32 - 36 → config.Supported →
      StereoLossless config raw) ∧
    ∀ buffer : List UInt8, (∃ message, parseWavHeader buffer = .error message) ∨
      ∃ header, parseWavHeader buffer = .ok header ∧
        header.dataOffset + header.dataSize ≤ buffer.length := by
  refine ⟨fun _ _ => monoLossless, fun _ _ => stereoLossless, fun buffer => ?_⟩
  cases hparse : parseWavHeader buffer with
  | error message => exact .inl ⟨message, rfl⟩
  | ok header => exact .inr ⟨header, rfl, parseWavHeader_range hparse⟩

theorem wav_handling_lossless_samples :
    MonoLossless [1, 2, 3, 4] ⟨8000, 16⟩ ∧ StereoLossless ⟨none, none⟩ [1, 2, 3, 4, 5] := by
  have hmono : SupportedFormat 1 8000 16 := ⟨by decide, by decide⟩
  have hstereo : SupportedFormat 2 8000 16 := ⟨by decide, by decide⟩
  exact ⟨wav_handling_lossless.1 _ _ (by decide) hmono,
    wav_handling_lossless.2.1 _ _ (by decide) ⟨8000, 16, by decide, by decide, hstereo⟩⟩

/-- Raw bytes from 4 GiB on have no header, and samples of 24 bits no two sides. -/
theorem large_raw_has_no_header :
    buildStereoPcmWavHeader ⟨none, none⟩ (2 ^ 32 - 36) = .error outOfRange ∧
      ¬ StereoLossless ⟨none, none⟩ (List.replicate (2 ^ 32 - 36) 0) ∧
      ¬ StereoLossless ⟨none, some "24"⟩ [] := by
  have hlarge : buildStereoPcmWavHeader ⟨none, none⟩ (2 ^ 32 - 36) = .error outOfRange := by
    decide
  refine ⟨hlarge, ?_, ?_⟩
  · rintro ⟨wav, header, left, right, frames, hvariant, -⟩
    rw [createPlaybackVariant, List.length_replicate, hlarge] at hvariant
    cases hvariant
  · rintro ⟨wav, header, left, right, frames, hvariant, hparse, -, -, -, hsides, -⟩
    have hfit : FieldsFit 2 8000 24 0 :=
      ⟨by decide, by decide, by decide, by decide, by decide, by decide⟩
    have hrate : StereoRawConfig.rate ⟨none, some "24"⟩ = some 8000 := by decide
    have hbits : StereoRawConfig.bits ⟨none, some "24"⟩ = some 24 := by decide
    rw [createPlaybackVariant, buildStereoPcmWavHeader, hrate, hbits, List.length_nil,
      wavHeader_eq hfit] at hvariant
    obtain rfl := Except.ok.inj hvariant
    rw [parseWavHeader_headerBytes hfit] at hparse
    obtain rfl := Except.ok.inj hparse
    cases hsides

end KasterCti.CallAnalysis
