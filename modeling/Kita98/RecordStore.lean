import Mathlib.Data.Set.Lattice
import Mathlib.Order.CompletePartialOrder

/-!
# Runs of records in a store

A record sits at a place and covers some cells of the store.  Records stored
one after the other at places that share no cell are all there at the end, and
the cells that none of them covers are as they were.
-/

namespace RecordStore

variable {A B P V : Type}

/-- A way to read and to write the record at a place, by the cells it covers. -/
structure Records (cells : P → Set A) (read : (A → B) → P → V)
    (write : (A → B) → P → V → A → B) : Prop where
  read_write : ∀ store p v, read (write store p v) p = v
  read_congr : ∀ {store store' : A → B} {p : P},
    (∀ a ∈ cells p, store a = store' a) → read store p = read store' p
  write_outside : ∀ {store : A → B} {p : P} {v : V} {a : A},
    a ∉ cells p → write store p v a = store a

/-- `after` is `before` with the values at their places stored, and nothing else. -/
structure Stored (cells : P → Set A) (read : (A → B) → P → V) (place : ℕ → P) (value : ℕ → V)
    (n : ℕ) (before after : A → B) : Prop where
  reads : ∀ i < n, read after (place i) = value i
  frame : ∀ a, (∀ i < n, a ∉ cells (place i)) → after a = before a

variable {cells : P → Set A} {read : (A → B) → P → V} {write : (A → B) → P → V → A → B}
  {place : ℕ → P} {value : ℕ → V} {n : ℕ} {before after : A → B}

theorem Records.read_write_of_disjoint
    (hrecords : Records cells read write) (store : A → B) {p q : P} (v : V)
    (hdisjoint : Disjoint (cells q) (cells p)) :
    read (write store p v) q = read store q := by
  apply hrecords.read_congr
  intro a ha
  exact hrecords.write_outside (Set.disjoint_left.mp hdisjoint ha)

namespace Stored

theorem zero : Stored cells read place value 0 before before := by
  constructor
  · intro i hi
    exact absurd hi (Nat.not_lt_zero i)
  · intro a ha
    rfl

theorem succ
    (hrecords : Records cells read write)
    (hstored : Stored cells read place value n before after)
    (happart : ∀ i < n, Disjoint (cells (place i)) (cells (place n))) :
    Stored cells read place value (n + 1) before (write after (place n) (value n)) := by
  constructor
  · intro i hi
    rcases Nat.lt_succ_iff_lt_or_eq.mp hi with hlt | rfl
    · rw [hrecords.read_write_of_disjoint after _ (happart i hlt)]
      exact hstored.reads i hlt
    · exact hrecords.read_write after (place i) (value i)
  · intro a ha
    rw [hrecords.write_outside (ha n (Nat.lt_succ_self n))]
    apply hstored.frame
    intro i hi
    exact ha i (Nat.lt_succ_of_lt hi)

/-- A record that shares no cell with the stored ones still reads as before. -/
theorem read_apart
    (hrecords : Records cells read write)
    (hstored : Stored cells read place value n before after) {q : P}
    (happart : ∀ i < n, Disjoint (cells q) (cells (place i))) :
    read after q = read before q := by
  apply hrecords.read_congr
  intro a ha
  apply hstored.frame
  intro i hi
  exact Set.disjoint_left.mp (happart i hi) ha

/-- Records are copied from sources that the places run into `d` records later.
The next one to copy is the one that stood `d` records back. -/
theorem read_shifted {source : ℕ → P} {d : ℕ}
    (hrecords : Records cells read write) (hpos : 0 < d)
    (hstored : Stored cells read place (fun i => read before (source (i % d))) n before after)
    (hshift : ∀ i, source (i + d) = place i)
    (hfresh : ∀ i < d, ∀ j < i, Disjoint (cells (source i)) (cells (place j))) :
    read after (source n) = read before (source (n % d)) := by
  by_cases hlt : n < d
  · rw [Nat.mod_eq_of_lt hlt]
    exact hstored.read_apart hrecords (hfresh n hlt)
  · rcases Nat.exists_eq_add_of_le (Nat.le_of_not_lt hlt) with ⟨m, hm⟩
    have hback : n = m + d := hm.trans (Nat.add_comm d m)
    rw [hback, hshift, Nat.add_mod_right]
    exact hstored.reads m (by omega)

end Stored

end RecordStore
