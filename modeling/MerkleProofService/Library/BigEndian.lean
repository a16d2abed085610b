/-
Module: MerkleProofService.Library.BigEndian
Layer: Library
Purpose: Big-endian byte strings, of a fixed width and without leading zeros.  Fixed-width
  encodings of bounded numbers are injective and compare byte by byte like the numbers, and
  decoding inverts both encodings.
Imports: Mathlib tactics only
Trusted boundary: none
Main exports: Bytes, bigEndian, minimalBigEndian, decodeBigEndian, bigEndian_injective,
  decodeBigEndian_bigEndian, decodeBigEndian_minimalBigEndian, minimalBigEndian_eq_nil,
  append_lt_append_iff, bigEndian_lt_iff
-/
import Mathlib.Tactic.Ring
import Mathlib.Data.List.TakeWhile

namespace MerkleProofService.Library

/-- A byte string. -/
abbrev Bytes := List UInt8

/-- The `width` lowest bytes of `number`, most significant byte first. -/
def bigEndian : Nat → Nat → Bytes
  | 0, _ => []
  | width + 1, number => UInt8.ofNat (number / 256 ^ width) :: bigEndian width number

/-- The bytes of `number` within `width` bytes, without leading zero bytes. -/
def minimalBigEndian (width number : Nat) : Bytes :=
  (bigEndian width number).dropWhile (· == 0)

/-- The number a byte string stands for. -/
def decodeBigEndian (bytes : Bytes) : Nat :=
  bytes.foldl (fun number byte => number * 256 + byte.toNat) 0

@[simp] theorem length_bigEndian (width number : Nat) :
    (bigEndian width number).length = width := by
  induction width with
  | zero => rfl
  | succ width ih => simp [bigEndian, ih]

theorem decodeBigEndian_nil : decodeBigEndian [] = 0 := rfl

/-- Decoding after some bytes already read is shifting them past the rest. -/
theorem foldl_decode_eq (start : Nat) (bytes : Bytes) :
    bytes.foldl (fun number byte => number * 256 + byte.toNat) start =
      start * 256 ^ bytes.length + decodeBigEndian bytes := by
  induction bytes generalizing start with
  | nil => simp [decodeBigEndian]
  | cons byte bytes ih =>
      simp only [List.foldl_cons, List.length_cons, decodeBigEndian]
      rw [ih (start * 256 + byte.toNat), ih (0 * 256 + byte.toNat)]
      ring

theorem decodeBigEndian_cons (byte : UInt8) (bytes : Bytes) :
    decodeBigEndian (byte :: bytes) =
      byte.toNat * 256 ^ bytes.length + decodeBigEndian bytes := by
  rw [decodeBigEndian, List.foldl_cons, foldl_decode_eq]
  simp

theorem decodeBigEndian_bigEndian_mod (width number : Nat) :
    decodeBigEndian (bigEndian width number) = number % 256 ^ width := by
  induction width with
  | zero => simp [bigEndian, decodeBigEndian, Nat.mod_one]
  | succ width ih =>
      rw [bigEndian, decodeBigEndian_cons, length_bigEndian, ih]
      have digit : (UInt8.ofNat (number / 256 ^ width)).toNat =
          number / 256 ^ width % 256 := by simp
      rw [digit, pow_succ, Nat.mod_mul]
      ring

/-- Decoding inverts the fixed-width encoding of a number that fits. -/
theorem decodeBigEndian_bigEndian {width number : Nat} (fits : number < 256 ^ width) :
    decodeBigEndian (bigEndian width number) = number := by
  rw [decodeBigEndian_bigEndian_mod, Nat.mod_eq_of_lt fits]

/-- Two numbers that fit and share their fixed-width encoding are equal. -/
theorem bigEndian_injective {width first second : Nat} (firstFits : first < 256 ^ width)
    (secondFits : second < 256 ^ width)
    (same : bigEndian width first = bigEndian width second) : first = second := by
  rw [← decodeBigEndian_bigEndian firstFits, same, decodeBigEndian_bigEndian secondFits]

theorem decodeBigEndian_dropWhile_zero (bytes : Bytes) :
    decodeBigEndian (bytes.dropWhile (· == 0)) = decodeBigEndian bytes := by
  induction bytes with
  | nil => rfl
  | cons byte bytes ih =>
      by_cases zero : byte = 0
      · subst zero
        simp only [List.dropWhile_cons, beq_self_eq_true, if_true, ih]
        simp [decodeBigEndian_cons]
      · simp [zero]

/-- Decoding inverts the encoding without leading zeros. -/
theorem decodeBigEndian_minimalBigEndian {width number : Nat}
    (fits : number < 256 ^ width) :
    decodeBigEndian (minimalBigEndian width number) = number := by
  rw [minimalBigEndian, decodeBigEndian_dropWhile_zero, decodeBigEndian_bigEndian fits]

/-- Only zero has no bytes left once its leading zeros are dropped. -/
theorem minimalBigEndian_eq_nil {width number : Nat} (fits : number < 256 ^ width) :
    minimalBigEndian width number = [] ↔ number = 0 := by
  constructor
  · intro empty
    have decoded := decodeBigEndian_minimalBigEndian fits
    rw [empty, decodeBigEndian_nil] at decoded
    exact decoded.symm
  · rintro rfl
    rw [minimalBigEndian, List.dropWhile_eq_nil_iff]
    intro byte member
    clear fits
    induction width with
    | zero => simp [bigEndian] at member
    | succ width ih =>
        rcases List.mem_cons.mp member with head | tail
        · simp [head]
        · exact ih tail

/-! ### The order of byte strings -/

/-- Two strings whose first parts are of one length compare by these first. -/
theorem append_lt_append_iff {first second rest other : Bytes}
    (same : first.length = second.length) :
    first ++ rest < second ++ other ↔ first < second ∨ first = second ∧ rest < other := by
  induction first generalizing second with
  | nil =>
      obtain rfl : second = [] := List.length_eq_zero_iff.mp same.symm
      simp
  | cons byte first ih =>
      cases second with
      | nil => cases same
      | cons byte' second =>
          rw [List.cons_append, List.cons_append, List.cons_lt_cons_iff, List.cons_lt_cons_iff,
            ih (Nat.succ.inj same), List.cons.injEq, and_or_left, or_assoc, and_assoc]

theorem decodeBigEndian_lt (bytes : Bytes) : decodeBigEndian bytes < 256 ^ bytes.length := by
  induction bytes with
  | nil => exact Nat.one_pos
  | cons byte bytes ih =>
      have digit := byte.toNat_lt
      rw [decodeBigEndian_cons, List.length_cons, pow_succ]
      calc byte.toNat * 256 ^ bytes.length + decodeBigEndian bytes
          < byte.toNat * 256 ^ bytes.length + 256 ^ bytes.length := Nat.add_lt_add_left ih _
        _ = (byte.toNat + 1) * 256 ^ bytes.length := (Nat.succ_mul _ _).symm
        _ ≤ 256 * 256 ^ bytes.length := Nat.mul_le_mul_right _ digit
        _ = 256 ^ bytes.length * 256 := Nat.mul_comm _ _

/-- Strings of one length compare like the numbers they stand for. -/
theorem decodeBigEndian_lt_iff {first second : Bytes} (same : first.length = second.length) :
    decodeBigEndian first < decodeBigEndian second ↔ first < second := by
  induction first generalizing second with
  | nil =>
      obtain rfl : second = [] := List.length_eq_zero_iff.mp same.symm
      simp
  | cons byte first ih =>
      cases second with
      | nil => cases same
      | cons byte' second =>
          have lengths : first.length = second.length := Nat.succ.inj same
          have low := decodeBigEndian_lt first
          have low' := decodeBigEndian_lt second
          rw [decodeBigEndian_cons, decodeBigEndian_cons, List.cons_lt_cons_iff, ← ih lengths,
            UInt8.lt_iff_toNat_lt, ← UInt8.toNat_inj, lengths]
          rw [lengths] at low
          -- the leading bytes decide, since the rest is below their unit
          rcases Nat.lt_trichotomy byte.toNat byte'.toNat with less | equal | greater
          · have step := Nat.mul_le_mul_right (256 ^ second.length) less
            rw [Nat.succ_mul] at step
            constructor
            · intro _
              exact Or.inl less
            · intro _
              omega
          · rw [equal]
            simp
          · have step := Nat.mul_le_mul_right (256 ^ second.length) greater
            rw [Nat.succ_mul] at step
            omega

/-- Fixed-width encodings compare like the numbers. -/
theorem bigEndian_lt_iff {width first second : Nat} (firstFits : first < 256 ^ width)
    (secondFits : second < 256 ^ width) :
    bigEndian width first < bigEndian width second ↔ first < second := by
  rw [← decodeBigEndian_lt_iff (by simp), decodeBigEndian_bigEndian firstFits,
    decodeBigEndian_bigEndian secondFits]

end MerkleProofService.Library
