import Kita98.ByteStore
import Mathlib.Data.Nat.Digits.Defs

/-!
# A flat byte memory and its history

The memory has `size` cells and every address stands for the cell it is
congruent to.  What a cell holds is told by the history of the bytes that were
stored: it is the last one stored under an address of the cell.  Numbers are
stored and read as little-endian runs of bytes.
-/

namespace FlatBytes

open ByteStore WordBits

/-! ## Numbers as runs of bytes -/

def bytesOf : ℕ → ℕ → List (BitVec 8)
  | 0, _ => []
  | k + 1, v => BitVec.ofNat 8 v :: bytesOf k (v / 256)

def numberOf (bytes : List (BitVec 8)) : ℕ := Nat.ofDigits 256 (bytes.map BitVec.toNat)

def number (k : ℕ) (cells : ℕ → BitVec 8) (addr : ℕ) : ℕ :=
  numberOf ((List.range k).map fun i => cells (addr + i))

theorem number_two (cells : ℕ → BitVec 8) (addr : ℕ) :
    number 2 cells addr = (cells addr).toNat + 256 * (cells (addr + 1)).toNat := by
  simp [number, numberOf, List.range_succ, Nat.ofDigits]

theorem number_four (cells : ℕ → BitVec 8) (addr : ℕ) :
    number 4 cells addr = number 2 cells addr + 65536 * number 2 cells (addr + 2) := by
  simp [number, numberOf, List.range_succ, Nat.ofDigits]
  ring

/-! ## Histories -/

/-- The bytes of a run, each with its address. -/
def writesFrom : ℕ → List (BitVec 8) → List (ℕ × BitVec 8)
  | _, [] => []
  | addr, byte :: bytes => (addr, byte) :: writesFrom (addr + 1) bytes

/-- The last byte of a history stored under an address of the cell. -/
def lastWritten (size : ℕ) (history : List (ℕ × BitVec 8)) (cell : ℕ) : Option (BitVec 8) :=
  (history.reverse.find? fun entry => entry.1 % size = cell).map Prod.snd

/-- What the cell of an address holds after a history. -/
def content (size : ℕ) (initial : ℕ → BitVec 8) (history : List (ℕ × BitVec 8)) (addr : ℕ) :
    BitVec 8 :=
  (lastWritten size history (addr % size)).getD (initial (addr % size))

section Content

variable {size : ℕ} (initial : ℕ → BitVec 8)

theorem mem_writesFrom {addr : ℕ} {bytes : List (BitVec 8)} {entry : ℕ × BitVec 8}
    (hentry : entry ∈ writesFrom addr bytes) : ∃ i < bytes.length, entry.1 = addr + i := by
  induction bytes generalizing addr with
  | nil => simp [writesFrom] at hentry
  | cons byte bytes ih =>
      rcases List.mem_cons.mp hentry with rfl | hrest
      · exact ⟨0, by simp, rfl⟩
      · rcases ih hrest with ⟨i, hi, haddr⟩
        refine ⟨i + 1, by simpa using hi, ?_⟩
        omega

theorem lastWritten_append (history later : List (ℕ × BitVec 8)) (cell : ℕ) :
    lastWritten size (history ++ later) cell =
      (lastWritten size later cell).or (lastWritten size history cell) := by
  simp [lastWritten, List.find?_append, Option.map_or]

theorem content_append (history later : List (ℕ × BitVec 8)) :
    content size initial (history ++ later) = content size (content size initial history) later := by
  funext addr
  unfold content
  rw [lastWritten_append, Nat.mod_mod]
  cases lastWritten size later (addr % size) <;> simp

theorem content_single (entry : ℕ × BitVec 8) (addr : ℕ) :
    content size initial [entry] addr =
      if entry.1 % size = addr % size then entry.2 else initial (addr % size) := by
  by_cases hsame : entry.1 % size = addr % size <;> simp [content, lastWritten, hsame]

/-- A cell that no address of the history stands for is as it was. -/
theorem content_of_untouched
    {history : List (ℕ × BitVec 8)} {addr : ℕ}
    (huntouched : ∀ entry ∈ history, entry.1 % size ≠ addr % size) :
    content size initial history addr = initial (addr % size) := by
  have hnone : lastWritten size history (addr % size) = none := by
    simpa [lastWritten] using fun a b hentry => huntouched (a, b) hentry
  simp [content, hnone]

end Content

/-! ## Byte stores -/

variable {n : ℕ}

/-- A byte store holds the cells of a memory of its size. -/
def Holds (store : BitVec n → BitVec 8) (cells : ℕ → BitVec 8) : Prop :=
  ∀ a : BitVec n, store a = cells a.toNat

namespace Holds

variable {store : BitVec n → BitVec 8} {cells : ℕ → BitVec 8}

theorem write (hholds : Holds store cells) (a : BitVec n) (addr : ℕ) (byte : BitVec 8)
    (haddr : a.toNat = addr % 2 ^ n) :
    Holds (ByteStore.write store a byte) (content (2 ^ n) cells [(addr, byte)]) := by
  intro c
  rw [content_single]
  have hsmall : c.toNat % 2 ^ n = c.toNat := Nat.mod_eq_of_lt c.isLt
  by_cases hsame : c = a
  · subst hsame
    simp [haddr]
  · have hne : addr % 2 ^ n ≠ c.toNat := by
      intro heq
      apply hsame
      apply BitVec.eq_of_toNat_eq
      rw [haddr, heq]
    rw [write_of_ne store byte hsame, hsmall, if_neg hne]
    exact hholds c

theorem load (hholds : Holds store cells) (a : BitVec n) (addr : ℕ) (bytes : List (BitVec 8))
    (haddr : a.toNat = addr % 2 ^ n) :
    Holds (ByteStore.load store a bytes) (content (2 ^ n) cells (writesFrom addr bytes)) := by
  induction bytes generalizing store cells a addr with
  | nil =>
      intro c
      simpa [content, lastWritten, writesFrom, ByteStore.load, Nat.mod_eq_of_lt c.isLt]
        using hholds c
  | cons byte bytes ih =>
      have hnext : (a + 1).toNat = (addr + 1) % 2 ^ n := by
        rw [BitVec.toNat_add, haddr]
        simp
      have hrest := ih (hholds.write a addr byte haddr) (a + 1) (addr + 1) hnext
      rw [← content_append] at hrest
      exact hrest


end Holds

end FlatBytes
