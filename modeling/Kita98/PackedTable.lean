import Kita98.WordBits
import Mathlib.Data.BitVec

/-!
# Tables of 12-bit and 16-bit entries

A table packs its entries into bytes without gaps, lowest bit first.  The word
at the byte where an entry starts holds all of its bits.
-/

namespace PackedTable

open WordBits

/-- Entry `c` of a table with entries of `width` bits. -/
def EntryAt (bytes : ℕ → BitVec 8) (width c : ℕ) (value : BitVec 16) : Prop :=
  ∀ i < width, (bytes ((width * c + i) / 8)).getLsbD ((width * c + i) % 8) = value.getLsbD i

def wordAt (bytes : ℕ → BitVec 8) (k : ℕ) : BitVec 16 := joinBytes (bytes k) (bytes (k + 1))

theorem wordAt_getLsbD (bytes : ℕ → BitVec 8) (k : ℕ) {i : ℕ} (hi : i < 16) :
    (wordAt bytes k).getLsbD i = (bytes (k + i / 8)).getLsbD (i % 8) := by
  unfold wordAt joinBytes
  by_cases hlow : i < 8
  · have hdiv : i / 8 = 0 := by omega
    have hmod : i % 8 = i := by omega
    simp [hdiv, hmod, hlow, hi]
  · have hdiv : i / 8 = 1 := by omega
    have hmod : i % 8 = i - 8 := by omega
    have hnone : (bytes k).getLsbD i = false := BitVec.getLsbD_of_ge (bytes k) i (by omega)
    simp [hdiv, hmod, hlow, hi, hnone]

theorem wordAt_of_entry16 {bytes : ℕ → BitVec 8} {c : ℕ} {value : BitVec 16}
    (hentry : EntryAt bytes 16 c value) : wordAt bytes (c * 2) = value := by
  apply BitVec.eq_of_getLsbD_eq
  intro i hi
  rw [wordAt_getLsbD bytes _ hi, ← hentry i hi]
  have hdiv : (16 * c + i) / 8 = c * 2 + i / 8 := by omega
  have hmod : (16 * c + i) % 8 = i % 8 := by omega
  rw [hdiv, hmod]

theorem getLsbD_of_lt {value : BitVec 16} (hsmall : value.toNat < 2 ^ 12) {i : ℕ} (hi : 12 ≤ i) :
    value.getLsbD i = false := by
  apply Nat.testBit_lt_two_pow
  calc value.toNat < 2 ^ 12 := hsmall
    _ ≤ 2 ^ i := Nat.pow_le_pow_right (by omega) hi

theorem mask_getLsbD {i : ℕ} (hi : i < 16) :
    (0x0FFF : BitVec 16).getLsbD i = decide (i < 12) := by
  interval_cases i <;> rfl

theorem wordAt_of_entry12_even {bytes : ℕ → BitVec 8} {c : ℕ} {value : BitVec 16}
    (hentry : EntryAt bytes 12 c value) (hsmall : value.toNat < 2 ^ 12) (heven : c % 2 = 0) :
    wordAt bytes (c * 3 / 2) &&& 0x0FFF = value := by
  apply BitVec.eq_of_getLsbD_eq
  intro i hi
  rw [BitVec.getLsbD_and, wordAt_getLsbD bytes _ hi, mask_getLsbD hi]
  by_cases hin : i < 12
  · have hdiv : (12 * c + i) / 8 = c * 3 / 2 + i / 8 := by omega
    have hmod : (12 * c + i) % 8 = i % 8 := by omega
    rw [← hentry i hin, hdiv, hmod, decide_eq_true hin, Bool.and_true]
  · rw [getLsbD_of_lt hsmall (by omega), decide_eq_false hin, Bool.and_false]

theorem wordAt_of_entry12_odd {bytes : ℕ → BitVec 8} {c : ℕ} {value : BitVec 16}
    (hentry : EntryAt bytes 12 c value) (hsmall : value.toNat < 2 ^ 12) (hodd : c % 2 = 1) :
    wordAt bytes (c * 3 / 2) >>> 4 = value := by
  apply BitVec.eq_of_getLsbD_eq
  intro i hi
  rw [BitVec.getLsbD_ushiftRight]
  by_cases hin : i < 12
  · have hdiv : (12 * c + i) / 8 = c * 3 / 2 + (4 + i) / 8 := by omega
    have hmod : (12 * c + i) % 8 = (4 + i) % 8 := by omega
    rw [wordAt_getLsbD bytes _ (by omega), ← hentry i hin, hdiv, hmod]
  · rw [getLsbD_of_lt hsmall (by omega)]
    exact BitVec.getLsbD_of_ge _ _ (by omega)

/-! ## Packing a list -/

/-- Two entries share the byte between them. -/
def pack12 : List (BitVec 12) → List (BitVec 8)
  | [] => []
  | [a] => [a.setWidth 8, (a >>> 8).setWidth 8]
  | a :: b :: rest =>
      a.setWidth 8 :: ((a >>> 8).setWidth 8 ||| (b.setWidth 8 <<< 4)) ::
        (b >>> 4).setWidth 8 :: pack12 rest

def pack16 : List (BitVec 16) → List (BitVec 8)
  | [] => []
  | value :: rest => lowByte value :: highByte value :: pack16 rest

/-- Bit `i` of an entry is where the entries before it leave room for it. -/
theorem pack12_getLsbD (values : List (BitVec 12)) {c i : ℕ} {value : BitVec 12}
    (hvalue : values[c]? = some value) (hi : i < 12) :
    ∃ byte, (pack12 values)[(12 * c + i) / 8]? = some byte ∧
      byte.getLsbD ((12 * c + i) % 8) = value.getLsbD i := by
  induction values using pack12.induct generalizing c with
  | case1 => simp at hvalue
  | case2 a =>
      cases c with
      | zero =>
          cases hvalue
          interval_cases i <;> simp [pack12]
      | succ c => simp at hvalue
  | case3 a b rest ih =>
      match c, hvalue with
      | 0, hvalue =>
          cases hvalue
          interval_cases i <;> simp [pack12]
      | 1, hvalue =>
          cases hvalue
          interval_cases i <;> simp [pack12]
      | c + 2, hvalue =>
          have hbyte : (12 * (c + 2) + i) / 8 = (12 * c + i) / 8 + 3 := by omega
          have hbit : (12 * (c + 2) + i) % 8 = (12 * c + i) % 8 := by omega
          rw [hbyte, hbit]
          exact ih hvalue

theorem pack16_getLsbD (values : List (BitVec 16)) {c i : ℕ} {value : BitVec 16}
    (hvalue : values[c]? = some value) (hi : i < 16) :
    ∃ byte, (pack16 values)[(16 * c + i) / 8]? = some byte ∧
      byte.getLsbD ((16 * c + i) % 8) = value.getLsbD i := by
  induction values generalizing c with
  | nil => simp at hvalue
  | cons first rest ih =>
      cases c with
      | zero =>
          cases hvalue
          interval_cases i <;> simp [pack16, lowByte, highByte]
      | succ c =>
          have hbyte : (16 * (c + 1) + i) / 8 = (16 * c + i) / 8 + 2 := by omega
          have hbit : (16 * (c + 1) + i) % 8 = (16 * c + i) % 8 := by omega
          rw [hbyte, hbit]
          exact ih hvalue

end PackedTable
