import Kita98.WordBits
import Mathlib.Data.BitVec

/-!
# Byte stores with little-endian words

A byte store maps every `n`-bit address to a byte, so that addresses wrap
around at `2 ^ n`.  Words take two neighbouring cells.  Reading after writing
is decided by address arithmetic alone.
-/

namespace ByteStore

open WordBits

variable {n : ℕ}

def write (store : BitVec n → BitVec 8) (a : BitVec n) (v : BitVec 8) : BitVec n → BitVec 8 :=
  Function.update store a v

def readWord (store : BitVec n → BitVec 8) (a : BitVec n) : BitVec 16 :=
  joinBytes (store a) (store (a + 1))

def writeWord (store : BitVec n → BitVec 8) (a : BitVec n) (v : BitVec 16) : BitVec n → BitVec 8 :=
  write (write store a (lowByte v)) (a + 1) (highByte v)

def load (store : BitVec n → BitVec 8) : BitVec n → List (BitVec 8) → BitVec n → BitVec 8
  | _, [] => store
  | a, byte :: bytes => load (write store a byte) (a + 1) bytes

@[simp] theorem write_self (store : BitVec n → BitVec 8) (a : BitVec n) (v : BitVec 8) :
    write store a v a = v := by
  simp [write]

theorem write_of_ne (store : BitVec n → BitVec 8) {a b : BitVec n} (v : BitVec 8) (hne : b ≠ a) :
    write store a v b = store b := by
  simp [write, hne]

theorem writeWord_low
    (store : BitVec n → BitVec 8) {a : BitVec n} (v : BitVec 16) (hstep : a + 1 ≠ a) :
    writeWord store a v a = lowByte v := by
  rw [writeWord, write_of_ne _ _ hstep.symm, write_self]

@[simp] theorem writeWord_high (store : BitVec n → BitVec 8) (a : BitVec n) (v : BitVec 16) :
    writeWord store a v (a + 1) = highByte v := by
  simp [writeWord]

theorem writeWord_of_ne
    (store : BitVec n → BitVec 8) {a b : BitVec n} (v : BitVec 16)
    (hlow : b ≠ a) (hhigh : b ≠ a + 1) :
    writeWord store a v b = store b := by
  rw [writeWord, write_of_ne _ _ hhigh, write_of_ne _ _ hlow]

theorem readWord_writeWord_self
    (store : BitVec n → BitVec 8) {a : BitVec n} (v : BitVec 16) (hstep : a + 1 ≠ a) :
    readWord (writeWord store a v) a = v := by
  rw [readWord, writeWord_low store v hstep, writeWord_high, joinBytes_low_high]

theorem readWord_writeWord_of_disjoint
    (store : BitVec n → BitVec 8) {a b : BitVec n} (v : BitVec 16)
    (h₀₀ : b ≠ a) (h₀₁ : b ≠ a + 1) (h₁₀ : b + 1 ≠ a) (h₁₁ : b + 1 ≠ a + 1) :
    readWord (writeWord store a v) b = readWord store b := by
  rw [readWord, writeWord_of_ne store v h₀₀ h₀₁, writeWord_of_ne store v h₁₀ h₁₁,
    readWord]

/-! ## Lists of bytes -/

theorem load_append
    (store : BitVec n → BitVec 8) (a : BitVec n) (first rest : List (BitVec 8)) :
    load store a (first ++ rest) =
      load (load store a first) (a + BitVec.ofNat n first.length) rest := by
  induction first generalizing store a with
  | nil => simp [load]
  | cons byte first ih =>
      rw [List.cons_append, load, ih, load, List.length_cons, BitVec.ofNat_add, add_right_comm,
        ← add_assoc]
      rfl

theorem toNat_sub_one {x : BitVec n} (hx : x ≠ 0) : (x - 1).toNat + 1 = x.toNat := by
  have hpos : x.toNat ≠ 0 := by
    intro hzero
    apply hx
    exact BitVec.eq_of_toNat_eq (by simpa using hzero)
  have hlt := x.isLt
  have hone : (1 : BitVec n).toNat = 1 := by
    have hbig : 1 < 2 ^ n := by omega
    simp [Nat.mod_eq_of_lt hbig]
  rw [BitVec.toNat_sub, hone]
  have hsum : 2 ^ n - 1 + x.toNat = (x.toNat - 1) + 2 ^ n := by omega
  rw [hsum, Nat.add_mod_right, Nat.mod_eq_of_lt (by omega)]
  omega

theorem toNat_zero_sub_one : (0 - 1 : BitVec n).toNat = 2 ^ n - 1 := by
  rw [zero_sub]
  simp only [BitVec.ofNat_eq_ofNat, BitVec.neg_one_eq_allOnes, BitVec.toNat_allOnes]

/-- Storing a list reads back byte by byte, as long as it does not run into
its own start. -/
theorem load_apply
    (store : BitVec n → BitVec 8) (a c : BitVec n) (bytes : List (BitVec 8))
    (hfits : bytes.length ≤ 2 ^ n) :
    load store a bytes c = bytes[(c - a).toNat]?.getD (store c) := by
  induction bytes generalizing store a with
  | nil => rfl
  | cons byte bytes ih =>
      rw [List.length_cons] at hfits
      rw [load, ih _ _ (by omega), sub_add_eq_sub_sub]
      by_cases heq : c = a
      · subst heq
        have hnone : bytes[(c - c - 1).toNat]? = none := by
          apply List.getElem?_eq_none
          rw [sub_self, toNat_zero_sub_one]
          omega
        rw [hnone, sub_self, write_self]
        rfl
      · rw [← toNat_sub_one (sub_ne_zero.mpr heq), List.getElem?_cons_succ,
          write_of_ne _ _ heq]

end ByteStore
