import Mathlib.Data.List.Basic
import Mathlib.Tactic.Linarith

/-!
# Buffers

Numbers as bytes, lowest first; parts of a buffer that are read or written over; a list cut into
pieces of one width.

Results:
1. `combine_split`: a number that fits is read back.
2. `slice_append`, `writeAt_append`: a part between two others.
3. `flatMap_slice`, `slice_flatMap`: pieces of one width, put together and taken apart.
-/

namespace Bytes

/-- `n` in `width` bytes. -/
def split : Nat → Nat → List UInt8
  | 0, _ => []
  | width + 1, n => UInt8.ofNat n :: split width (n / 256)

def combine : List UInt8 → Nat
  | [] => 0
  | b :: bs => b.toNat + 256 * combine bs

@[simp] theorem length_split (width n : Nat) : (split width n).length = width := by
  induction width generalizing n with
  | zero => rfl
  | succ width ih => rw [split, List.length_cons, ih]

theorem combine_split {width n : Nat} (h : n < 256 ^ width) : combine (split width n) = n := by
  induction width generalizing n with
  | zero =>
    rw [Nat.pow_zero, Nat.lt_one_iff] at h
    rw [h]
    rfl
  | succ width ih =>
    have hrest : n / 256 < 256 ^ width := by
      rw [Nat.div_lt_iff_lt_mul (by decide)]
      exact h
    have hlow : (UInt8.ofNat n).toNat = n % 256 := UInt8.toNat_ofNat'
    rw [split, combine, ih hrest, hlow]
    omega

section

variable {α : Type*} {xs pre post : List α} {f : Nat → List α} {width k i : Nat}

/-- `count` elements from `start` on. -/
def slice (xs : List α) (start count : Nat) : List α := (xs.drop start).take count

/-- `bytes` in place of as many elements from `start` on. -/
def writeAt (buffer : List α) (start : Nat) (bytes : List α) : List α :=
  buffer.take start ++ bytes ++ buffer.drop (start + bytes.length)

theorem slice_append {ys : List α} {start count : Nat} (hstart : pre.length = start)
    (hcount : ys.length = count) : slice (pre ++ (ys ++ post)) start count = ys := by
  rw [slice, List.drop_left' hstart, List.take_left' hcount]

theorem writeAt_append {gap bytes : List α} {start : Nat} (hstart : pre.length = start)
    (hgap : gap.length = bytes.length) :
    writeAt (pre ++ (gap ++ post)) start bytes = pre ++ (bytes ++ post) := by
  rw [writeAt, List.take_left' hstart, ← hgap, ← hstart, ← List.length_append, ← List.append_assoc,
    List.drop_left, List.append_assoc]

/-- The pieces stand one behind the other, from `start` on. -/
def Consecutive : Nat → List (Nat × List α) → Prop
  | _, [] => True
  | start, piece :: pieces => piece.1 = start ∧ Consecutive (start + piece.2.length) pieces

/-- Writing them fills the buffer with what they hold. -/
theorem foldl_writeAt {pieces : List (Nat × List α)} (hpieces : Consecutive pre.length pieces)
    (hlength : post.length = (pieces.map fun piece => piece.2.length).sum) :
    pieces.foldl (fun buffer piece => writeAt buffer piece.1 piece.2) (pre ++ post) =
      pre ++ (pieces.map (·.2)).flatten := by
  induction pieces generalizing pre post with
  | nil =>
    rw [List.length_eq_zero_iff.mp hlength]
    rfl
  | cons piece pieces ih =>
    obtain ⟨hstart, hrest⟩ := hpieces
    rw [List.map_cons, List.sum_cons] at hlength
    have hgap : (post.take piece.2.length).length = piece.2.length := by
      rw [List.length_take]
      omega
    have hwrite : writeAt (pre ++ post) piece.1 piece.2 =
        pre ++ piece.2 ++ post.drop piece.2.length := by
      have h := @writeAt_append _ pre (post.drop piece.2.length) _ _ _ hstart.symm hgap
      rwa [List.take_append_drop, ← List.append_assoc] at h
    rw [List.foldl_cons, hwrite, List.map_cons, List.flatten_cons, ← List.append_assoc]
    refine ih ?_ ?_
    · rw [List.length_append]
      exact hrest
    · rw [List.length_drop]
      omega

/-- A piece is read back. -/
theorem slice_of_mem {pieces : List (Nat × List α)} {piece : Nat × List α}
    (hpieces : Consecutive pre.length pieces) (hmem : piece ∈ pieces) :
    slice (pre ++ ((pieces.map (·.2)).flatten ++ post)) piece.1 piece.2.length = piece.2 := by
  induction pieces generalizing pre with
  | nil => cases hmem
  | cons first pieces ih =>
    obtain ⟨hstart, hrest⟩ := hpieces
    rw [List.map_cons, List.flatten_cons, List.append_assoc]
    rcases List.mem_cons.mp hmem with rfl | htail
    · exact slice_append hstart.symm rfl
    · rw [← List.append_assoc]
      refine ih ?_ htail
      rw [List.length_append]
      exact hrest

theorem length_slice {start count : Nat} (h : start + count ≤ xs.length) :
    (slice xs start count).length = count := by
  rw [slice, List.length_take, List.length_drop]
  omega

theorem slice_add (xs : List α) (start count count' : Nat) :
    slice xs start (count + count') = slice xs start count ++ slice xs (start + count) count' := by
  rw [slice, List.take_add, List.drop_drop]
  rfl

theorem length_writeAt {buffer bytes : List α} {start : Nat}
    (h : start + bytes.length ≤ buffer.length) : (writeAt buffer start bytes).length = buffer.length := by
  rw [writeAt, List.length_append, List.length_append, List.length_take, List.length_drop]
  omega

theorem slice_writeAt {buffer bytes : List α} {start : Nat}
    (h : start + bytes.length ≤ buffer.length) :
    slice (writeAt buffer start bytes) start bytes.length = bytes := by
  rw [writeAt, List.append_assoc]
  refine slice_append ?_ rfl
  rw [List.length_take]
  omega

/-- Another part of the buffer stays as it is. -/
theorem slice_writeAt_other {buffer bytes : List α} {start start' count : Nat}
    (h : start + bytes.length ≤ buffer.length)
    (hother : start' + count ≤ start ∨ start + bytes.length ≤ start') :
    slice (writeAt buffer start bytes) start' count = slice buffer start' count := by
  have htake : (buffer.take start).length = start := by
    rw [List.length_take]
    omega
  unfold slice writeAt
  rcases hother with hbefore | hafter
  · rw [List.append_assoc, List.drop_append_of_le_length (by omega),
      List.take_append_of_le_length (by rw [List.length_drop]; omega), List.drop_take, List.take_take,
      min_eq_left (by omega)]
  · have hwritten : (buffer.take start ++ bytes).length = start + bytes.length := by
      rw [List.length_append, htake]
    -- both lists are the same from the end of the written part on
    obtain ⟨k, rfl⟩ := Nat.exists_eq_add_of_le hafter
    rw [← @List.drop_drop _ k, List.drop_left' hwritten, List.drop_drop]

/-- Pieces one after the other are the list up to where they end. -/
theorem flatMap_slice (xs : List α) (width k : Nat) :
    (List.range k).flatMap (fun i => slice xs (i * width) width) = xs.take (k * width) := by
  induction k with
  | zero => rw [Nat.zero_mul, List.take_zero]; rfl
  | succ k ih =>
    rw [List.range_succ, List.flatMap_append, ih, List.flatMap_singleton, Nat.succ_mul, List.take_add]
    rfl

theorem length_flatMap_range (h : ∀ i < k, (f i).length = width) :
    ((List.range k).flatMap f).length = k * width := by
  induction k with
  | zero => rw [Nat.zero_mul]; rfl
  | succ k ih =>
    rw [List.range_succ, List.flatMap_append, List.length_append, ih fun i hi => h i (by omega),
      List.flatMap_singleton, h k (Nat.lt_succ_self k), Nat.succ_mul]

/-- One of pieces of equal width. -/
theorem slice_flatMap (h : ∀ i < k, (f i).length = width) (hi : i < k) :
    slice ((List.range k).flatMap f) (i * width) width = f i := by
  induction k with
  | zero => cases hi
  | succ k ih =>
    have hpre : ∀ j < k, (f j).length = width := fun j hj => h j (by omega)
    have hlength := length_flatMap_range hpre
    rw [List.range_succ, List.flatMap_append, List.flatMap_singleton]
    rcases Nat.lt_succ_iff_lt_or_eq.mp hi with hlt | rfl
    · have hend : i * width + width ≤ ((List.range k).flatMap f).length := by
        rw [hlength, ← Nat.succ_mul]
        exact Nat.mul_le_mul_right width hlt
      rw [← ih hpre hlt, slice, slice, List.drop_append_of_le_length (by omega),
        List.take_append_of_le_length (by rw [List.length_drop]; omega)]
    · have hwhole : slice ((List.range i).flatMap f ++ (f i ++ [])) (i * width) width = f i :=
        slice_append hlength (h i hi)
      rwa [List.append_nil] at hwhole

end

end Bytes
