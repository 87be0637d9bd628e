import Mathlib.Tactic.Common
import Mathlib.Tactic.Ring
import NamedRelay.Name.Basic

/-!
# Chunk numbers as components

The component of a chunk number holds the shortest bytes that stand for it, the highest one first,
and in one family a zero in front of them. The number is read back from the component either way.
-/

namespace NamedRelay

/-- The number that bytes stand for, the highest one first. -/
def bigEndianValue (bytes : Bytes) : Nat :=
  bytes.foldl (fun value byte => value * 256 + byte.toNat) 0

/-- The component of a chunk number, in a family that has one. -/
def chunkBytes (suite : Suite) (number : UInt32) : Bytes :=
  if suite = .ndntlv then 0 :: Name.bigEndian number else Name.bigEndian number

/-- The shortest bytes that stand for a number: one for zero, and otherwise none that is zero in
front. -/
structure IsBigEndian (number : UInt32) (bytes : Bytes) : Prop where
  value : bigEndianValue bytes = number.toNat
  zero : number = 0 → bytes = [0]
  leading : number ≠ 0 → ∃ first rest, bytes = first :: rest ∧ first ≠ 0
  shortest : ∀ others, others ≠ [] → bigEndianValue others = number.toNat →
    bytes.length ≤ others.length

lemma chunkComponent?_eq (suite : Suite) (number : UInt32) :
    Name.chunkComponent? suite number =
      if suite = .ccnb then none else some (chunkBytes suite number) := by
  cases suite <;> rfl

/-! ## What bytes stand for -/

lemma foldl_value (bytes : Bytes) (start : Nat) :
    bytes.foldl (fun value byte => value * 256 + byte.toNat) start =
      start * 256 ^ bytes.length + bigEndianValue bytes := by
  unfold bigEndianValue
  induction bytes generalizing start with
  | nil => simp
  | cons byte bytes ih =>
    rw [List.foldl_cons, List.foldl_cons, ih, ih (0 * 256 + byte.toNat), List.length_cons,
      Nat.pow_succ']
    ring

lemma bigEndianValue_cons (byte : UInt8) (bytes : Bytes) :
    bigEndianValue (byte :: bytes) = byte.toNat * 256 ^ bytes.length + bigEndianValue bytes := by
  have hfirst := foldl_value bytes byte.toNat
  rw [← hfirst]
  simp [bigEndianValue]

lemma bigEndianValue_lt (bytes : Bytes) : bigEndianValue bytes < 256 ^ bytes.length := by
  induction bytes with
  | nil => exact Nat.one_pos
  | cons byte bytes ih =>
    have hbyte : byte.toNat * 256 ^ bytes.length ≤ 255 * 256 ^ bytes.length :=
      Nat.mul_le_mul_right _ (Nat.le_of_lt_succ byte.toNat_lt)
    rw [bigEndianValue_cons, List.length_cons, Nat.pow_succ]
    omega

/-- Zeros in front do not count. -/
lemma bigEndianValue_dropWhile (bytes others : Bytes) :
    bigEndianValue (bytes.dropWhile (· == 0) ++ others) = bigEndianValue (bytes ++ others) := by
  induction bytes with
  | nil => rfl
  | cons byte bytes ih =>
    rw [List.dropWhile_cons]
    split
    · rename_i hzero
      obtain rfl : byte = 0 := by simpa using hzero
      rw [ih, List.cons_append, bigEndianValue_cons]
      simp
    · rfl

lemma bigEndianValue_bigEndian (number : UInt32) :
    bigEndianValue (Name.bigEndian number) = number.toNat := by
  have hlt := number.toNat_lt
  unfold Name.bigEndian
  rw [bigEndianValue_dropWhile]
  simp only [bigEndianValue, List.cons_append, List.nil_append, List.foldl_cons, List.foldl_nil,
    UInt32.toNat_toUInt8, UInt32.toNat_shiftRight, UInt32.reduceToNat, Nat.reduceMod,
    Nat.shiftRight_eq_div_pow]
  omega

/-- Bytes that begin with another one than zero are the shortest ones. -/
lemma length_le_of_leading {first : UInt8} {rest others : Bytes} (hfirst : first ≠ 0)
    (hvalue : bigEndianValue others = bigEndianValue (first :: rest)) :
    (first :: rest).length ≤ others.length := by
  have hpos : 0 < first.toNat :=
    Nat.pos_of_ne_zero fun hzero => hfirst (UInt8.toNat_inj.mp hzero)
  have hlow : 256 ^ rest.length ≤ bigEndianValue (first :: rest) := by
    rw [bigEndianValue_cons]
    exact Nat.le_add_right_of_le (Nat.le_mul_of_pos_left _ hpos)
  have hlt : 256 ^ rest.length < 256 ^ others.length :=
    Nat.lt_of_le_of_lt (hvalue ▸ hlow) (bigEndianValue_lt others)
  exact (Nat.pow_lt_pow_iff_right (by decide)).mp hlt

/-! ## The component of a chunk number -/

/-- Bytes above the lowest one that are not all zero begin with the first that is not. -/
lemma bigEndian_leading {number : UInt32} (hnumber : number ≠ 0) :
    ∃ first rest, Name.bigEndian number = first :: rest ∧ first ≠ 0 := by
  have hvalue := bigEndianValue_bigEndian number
  unfold Name.bigEndian at hvalue ⊢
  have hhead := List.head?_dropWhile_not (fun byte : UInt8 => byte == 0)
    [(number >>> 24).toUInt8, (number >>> 16).toUInt8, (number >>> 8).toUInt8]
  -- If the three bytes above the lowest one are zero, the number is the lowest one.
  cases hhigh : [(number >>> 24).toUInt8, (number >>> 16).toUInt8,
      (number >>> 8).toUInt8].dropWhile (· == 0) with
  | nil =>
    rw [hhigh] at hvalue
    refine ⟨number.toUInt8, [], rfl, ?_⟩
    intro hzero
    rw [hzero] at hvalue
    exact hnumber (UInt32.toNat_inj.mp hvalue.symm)
  | cons first rest =>
    rw [hhigh] at hhead
    exact ⟨first, rest ++ [number.toUInt8], rfl, by simpa using hhead⟩

lemma isBigEndian_bigEndian (number : UInt32) : IsBigEndian number (Name.bigEndian number) where
  value := bigEndianValue_bigEndian number
  zero := by
    rintro rfl
    decide
  leading := bigEndian_leading
  shortest := by
    intro others hothers hvalue
    by_cases hnumber : number = 0
    · subst hnumber
      exact List.length_pos_iff.mpr hothers
    · obtain ⟨first, rest, hbytes, hfirst⟩ := bigEndian_leading hnumber
      rw [hbytes]
      apply length_le_of_leading hfirst
      rw [hvalue, ← hbytes, bigEndianValue_bigEndian]

/-- The zero in front makes no difference to the number. -/
lemma bigEndianValue_chunkBytes (suite : Suite) (number : UInt32) :
    bigEndianValue (chunkBytes suite number) = number.toNat := by
  unfold chunkBytes
  split
  · rw [bigEndianValue_cons, bigEndianValue_bigEndian]
    simp
  · exact bigEndianValue_bigEndian number

lemma chunkBytes_injective (suite : Suite) : Function.Injective (chunkBytes suite) := by
  intro c d h
  apply UInt32.toNat_inj.mp
  rw [← bigEndianValue_chunkBytes suite c, h, bigEndianValue_chunkBytes]

end NamedRelay
