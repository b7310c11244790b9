import Kita98.Disk
import Kita98.Interpreter

/-!
# Checked arithmetic and indexing

The source computes with unsigned 32-bit numbers and slices that panic; in a
checked computation an overflow or an index out of range is a fault.
-/

namespace Kita98

open WordBits Disk

abbrev Checked (α : Type) := Except Fault α

namespace Checked

variable {α β : Type} {data : List U8}

theorem ok_bind (a : α) (f : α → Checked β) : ((.ok a : Checked α) >>= f) = f a := rfl

theorem error_bind (fault : Fault) (f : α → Checked β) :
    ((.error fault : Checked α) >>= f) = .error fault := rfl

def index (data : List U8) (i : ℕ) : Checked U8 :=
  match data[i]? with
  | some byte => .ok byte
  | none => .error .bounds

/-- `u16::from_le_bytes` at `i` -/
def word (data : List U8) (i : ℕ) : Checked U16 := do
  let lo ← index data i
  let hi ← index data (i + 1)
  return joinBytes lo hi

/-- `u32::from_le_bytes` at `i` -/
def dword (data : List U8) (i : ℕ) : Checked U32 := do
  let lo ← word data i
  let hi ← word data (i + 2)
  return hi ++ lo

theorem index_ok {i : ℕ} (hinside : i < data.length) :
    index data i = .ok (byteAt data i) := by
  simp [index, byteAt, hinside]

theorem index_error {i : ℕ} (houtside : data.length ≤ i) :
    index data i = .error .bounds := by
  simp [index, houtside]

def leWord (data : List U8) (i : ℕ) : U16 := joinBytes (byteAt data i) (byteAt data (i + 1))

def leDword (data : List U8) (i : ℕ) : U32 := leWord data (i + 2) ++ leWord data i

theorem word_ok {i : ℕ} (hinside : i + 1 < data.length) :
    word data i = .ok (leWord data i) := by
  rw [word, index_ok (by omega), ok_bind, index_ok hinside]
  rfl

theorem word_error {i : ℕ} (houtside : data.length ≤ i + 1) :
    word data i = .error .bounds := by
  unfold word
  by_cases hfirst : i < data.length
  · rw [index_ok hfirst, ok_bind, index_error houtside, error_bind]
  · rw [index_error (by omega), error_bind]

theorem dword_ok {i : ℕ} (hinside : i + 3 < data.length) :
    dword data i = .ok (leDword data i) := by
  rw [dword, word_ok (by omega), ok_bind, word_ok (by omega)]
  rfl

/-- `&data[start..stop]` -/
def range (data : List U8) (start stop : ℕ) : Checked (List U8) :=
  if start ≤ stop ∧ stop ≤ data.length then .ok (slice data start (stop - start))
  else .error .bounds

theorem range_ok {start stop : ℕ} (hle : start ≤ stop) (hinside : stop ≤ data.length) :
    range data start stop = .ok (slice data start (stop - start)) :=
  if_pos ⟨hle, hinside⟩

/-! ## Unsigned 32-bit arithmetic -/

/-- The value of an operation, where it fits into 32 bits. -/
def fit (n : ℕ) : Checked ℕ := if n < 2 ^ 32 then .ok n else .error .overflow

def add (a b : ℕ) : Checked ℕ := fit (a + b)

def mul (a b : ℕ) : Checked ℕ := fit (a * b)

def sub (a b : ℕ) : Checked ℕ := if b ≤ a then .ok (a - b) else .error .overflow

theorem fit_ok {n : ℕ} (hn : n < 2 ^ 32) : fit n = .ok n := if_pos hn

theorem add_ok {a b : ℕ} (hsum : a + b < 2 ^ 32) : add a b = .ok (a + b) := fit_ok hsum

theorem mul_ok {a b : ℕ} (hproduct : a * b < 2 ^ 32) : mul a b = .ok (a * b) := fit_ok hproduct

theorem sub_ok {a b : ℕ} (hle : b ≤ a) : sub a b = .ok (a - b) := if_pos hle

end Checked

end Kita98
