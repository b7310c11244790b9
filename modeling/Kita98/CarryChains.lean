import Mathlib.Data.Nat.Digits.Defs
import Mathlib.Tactic.Ring
import Mathlib.Tactic.Linarith

/-!
# Chains of columns that hand a carry on

Long numbers are added column by column.  A column makes a digit and a carry,
and hands a carry to the next one, which may be less than the carry it made.
The columns together add the numbers exactly when none of them loses carry.
Read backwards, a difference is such a sum.
-/

namespace CarryChains

structure Column (base : ℕ) where
  left : ℕ
  right : ℕ
  carry : ℕ
  sum : ℕ
  made : ℕ
  handed : ℕ
  adds : left + right + carry = sum + base * made
  handed_le : handed ≤ made

variable {base : ℕ}

/-- Every column starts with the carry that the one before it handed on. -/
inductive Linked : ℕ → List (Column base) → ℕ → Prop
  | nil (carry : ℕ) : Linked carry [] carry
  | cons {column : Column base} {columns : List (Column base)} {last : ℕ}
      (hrest : Linked column.handed columns last) : Linked column.carry (column :: columns) last

def value (digit : Column base → ℕ) (columns : List (Column base)) : ℕ :=
  Nat.ofDigits base (columns.map digit)

@[simp] theorem value_nil (digit : Column base → ℕ) : value digit [] = 0 := rfl

@[simp] theorem value_cons
    (digit : Column base → ℕ) (column : Column base) (columns : List (Column base)) :
    value digit (column :: columns) = digit column + base * value digit columns := by
  simp [value, Nat.ofDigits_cons]

/-- What the columns of a chain lose on the way. -/
def lost : List (Column base) → ℕ
  | [] => 0
  | column :: columns => base * (column.made - column.handed + lost columns)

theorem Linked.adds
    {carry last : ℕ} {columns : List (Column base)} (hlinked : Linked carry columns last) :
    value Column.left columns + value Column.right columns + carry =
      value Column.sum columns + base ^ columns.length * last + lost columns := by
  induction hlinked with
  | nil carry => simp [lost]
  | @cons column columns last hrest ih =>
      have hmade : column.made = column.handed + (column.made - column.handed) := by
        have hle := column.handed_le
        omega
      have hcolumn := column.adds
      rw [hmade] at hcolumn
      simp only [value_cons, lost, List.length_cons, pow_succ]
      calc column.left + base * value Column.left columns +
            (column.right + base * value Column.right columns) + column.carry
          = (column.left + column.right + column.carry) +
              base * (value Column.left columns + value Column.right columns) := by ring
        _ = column.sum + base * (column.made - column.handed) +
              base * (value Column.left columns + value Column.right columns +
                column.handed) := by
            rw [hcolumn]
            ring
        _ = _ := by
            rw [ih]
            ring

/-- No column of the chain loses carry. -/
def Lossless (columns : List (Column base)) : Prop :=
  ∀ column ∈ columns, column.handed = column.made

theorem lost_eq_zero_iff (hbase : 0 < base) {columns : List (Column base)} :
    lost columns = 0 ↔ Lossless columns := by
  induction columns with
  | nil => simp [lost, Lossless]
  | cons column columns ih =>
      have hle := column.handed_le
      have hzero : column.made - column.handed = 0 ↔ column.handed = column.made := by omega
      rw [lost, Nat.mul_eq_zero, or_iff_right hbase.ne', Nat.add_eq_zero_iff, ih, hzero]
      simp [Lossless]

theorem Linked.adds_iff
    (hbase : 0 < base) {carry last : ℕ} {columns : List (Column base)}
    (hlinked : Linked carry columns last) :
    value Column.left columns + value Column.right columns + carry =
        value Column.sum columns + base ^ columns.length * last ↔
      Lossless columns := by
  rw [hlinked.adds, ← lost_eq_zero_iff hbase]
  omega

theorem Linked.take
    {carry last : ℕ} {columns : List (Column base)} (hlinked : Linked carry columns last)
    {i : ℕ} (hi : i < columns.length) :
    Linked carry (columns.take i) columns[i].carry := by
  induction hlinked generalizing i with
  | nil carry => simp at hi
  | cons hrest ih =>
      cases i with
      | zero => exact .nil _
      | succ i => exact .cons (ih (by simpa using hi))

/-- Where a column drops its carry in the case `drops` only, the carries that
arrive at such columns decide.  They are told by the columns below them. -/
theorem Linked.lossless_iff
    (hbase : 0 < base) {last : ℕ} {columns : List (Column base)} {drops : Column base → Prop}
    {carried : ℕ → Prop} (hlinked : Linked 0 columns last)
    (hdrops : ∀ column ∈ columns,
      column.handed = column.made ↔ ¬ (drops column ∧ column.carry ≠ 0))
    (hcarried : ∀ i (hi : i < columns.length),
      value Column.left (columns.take i) + value Column.right (columns.take i) =
        value Column.sum (columns.take i) + base ^ i * columns[i].carry →
      (columns[i].carry ≠ 0 ↔ carried i)) :
    Lossless columns ↔ ∀ i (hi : i < columns.length), drops columns[i] → ¬ carried i := by
  have hcarry : ∀ i (hi : i < columns.length), Lossless (columns.take i) →
      (columns[i].carry ≠ 0 ↔ carried i) := by
    intro i hi hlossless
    have hadds := ((hlinked.take hi).adds_iff hbase).mpr hlossless
    rw [List.length_take_of_le hi.le, add_zero] at hadds
    exact hcarried i hi hadds
  constructor
  · intro hlossless i hi hdrop hhere
    have htake : Lossless (columns.take i) := fun column hmem =>
      hlossless column (List.mem_of_mem_take hmem)
    have hmem : columns[i] ∈ columns := List.getElem_mem hi
    exact (hdrops _ hmem).mp (hlossless _ hmem) ⟨hdrop, (hcarry i hi htake).mpr hhere⟩
  · intro hnever
    have htake : ∀ i ≤ columns.length, Lossless (columns.take i) := by
      intro i
      induction i with
      | zero => simp [Lossless]
      | succ i ih =>
          intro hi column hmem
          have hlossless := ih (by omega)
          rw [List.take_add_one, List.getElem?_eq_getElem hi] at hmem
          rcases List.mem_append.mp hmem with hlow | hhere
          · exact hlossless column hlow
          · have hcolumn : column = columns[i] := by simpa using hhere
            subst hcolumn
            refine (hdrops _ (List.getElem_mem hi)).mpr ?_
            rintro ⟨hdrop, hne⟩
            exact hnever i hi hdrop ((hcarry i hi hlossless).mp hne)
    simpa using htake columns.length le_rfl

end CarryChains
