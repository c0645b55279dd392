import Mathlib.Data.List.Basic

/-!
# Authenticated encryption with a trailer

A cipher turns a plaintext into a payload of the same length and a tag. The box that holds
both ends with the IV and the tag, so that it can be written before the tag is known.

Results:
1. `length_sealBox`: a box is longer than its plaintext by the trailer.
2. `openBox_sealBox`: what was sealed is read back.
3. `length_of_openBox`: what a box opens to is shorter by the trailer.
-/

namespace Aead

/-- Keys, IVs and tags of a fixed length. -/
structure Cipher (keyBytes ivBytes tagBytes : Nat) where
  encrypt : List UInt8 → List UInt8 → List UInt8 → List UInt8 × List UInt8
  /-- From the key, the IV, the tag and the payload. -/
  decrypt : List UInt8 → List UInt8 → List UInt8 → List UInt8 → Option (List UInt8)
  length_payload : ∀ key iv plain, (encrypt key iv plain).1.length = plain.length
  length_tag : ∀ key iv plain, (encrypt key iv plain).2.length = tagBytes
  decrypt_encrypt : ∀ key iv plain, key.length = keyBytes → iv.length = ivBytes →
    decrypt key iv (encrypt key iv plain).2 (encrypt key iv plain).1 = some plain
  /-- Nothing else is accepted. -/
  encrypt_of_decrypt : ∀ key iv tag payload plain, decrypt key iv tag payload = some plain →
    encrypt key iv plain = (payload, tag)

namespace Cipher

variable {keyBytes ivBytes tagBytes : Nat} (cipher : Cipher keyBytes ivBytes tagBytes)
  (key iv plain : List UInt8)

/-- Payload, IV, tag. -/
def sealBox : List UInt8 :=
  (cipher.encrypt key iv plain).1 ++ (iv ++ (cipher.encrypt key iv plain).2)

/-- The box is taken apart from its end. -/
def openBox (box : List UInt8) : Option (List UInt8) :=
  let offset := box.length - (ivBytes + tagBytes)
  cipher.decrypt key ((box.drop offset).take ivBytes) (box.drop (offset + ivBytes)) (box.take offset)

theorem length_sealBox (hiv : iv.length = ivBytes) :
    (cipher.sealBox key iv plain).length = plain.length + (ivBytes + tagBytes) := by
  unfold sealBox
  rw [List.length_append, List.length_append, cipher.length_payload, cipher.length_tag, hiv]

theorem openBox_sealBox (hkey : key.length = keyBytes) (hiv : iv.length = ivBytes) :
    cipher.openBox key (cipher.sealBox key iv plain) = some plain := by
  have hoffset : (cipher.sealBox key iv plain).length - (ivBytes + tagBytes) =
      (cipher.encrypt key iv plain).1.length := by
    rw [cipher.length_sealBox key iv plain hiv, cipher.length_payload, Nat.add_sub_cancel]
  unfold openBox
  dsimp only
  rw [hoffset]
  unfold sealBox
  rw [List.drop_left, List.take_left, List.take_left' hiv, ← List.drop_drop, List.drop_left,
    List.drop_left' hiv]
  exact cipher.decrypt_encrypt key iv plain hkey hiv

theorem length_of_openBox {box : List UInt8} (h : cipher.openBox key box = some plain) :
    plain.length = box.length - (ivBytes + tagBytes) := by
  have hpayload := cipher.length_payload key ((box.drop (box.length - (ivBytes + tagBytes))).take ivBytes)
    plain
  rw [cipher.encrypt_of_decrypt _ _ _ _ _ h, List.length_take] at hpayload
  omega

end Cipher

end Aead
