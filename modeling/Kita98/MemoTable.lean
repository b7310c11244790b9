import Mathlib.Logic.Function.Basic
import Mathlib.Data.Set.Insert

/-!
# Memo tables

A table remembers, under a key, a value computed from a state.  The states
that filled it form its history.  What the table answers in a later state is
what would be computed there exactly when the states of the history with the
same key give the same value.
-/

namespace MemoTable

variable {κ σ ν : Type} {key : σ → κ} {value : σ → Option ν}

/-- The table holds what was computed in the states of its history, and
nothing else. -/
structure Backed (key : σ → κ) (value : σ → Option ν) (history : Set σ)
    (table : κ → Option ν) : Prop where
  entries : ∀ k v, table k = some v → ∃ s ∈ history, key s = k ∧ value s = some v
  recorded : ∀ s ∈ history, ∃ v, value s = some v ∧ table (key s) = some v

theorem backed_empty : Backed key value ∅ fun _ => none := by
  constructor
  · intro k v hentry
    cases hentry
  · intro s hs
    cases hs

theorem Backed.insert [DecidableEq κ]
    {history : Set σ} {table : κ → Option ν} (hback : Backed key value history table)
    {s : σ} {v : ν} (hfree : table (key s) = none) (hvalue : value s = some v) :
    Backed key value (insert s history) (Function.update table (key s) (some v)) := by
  constructor
  · intro k w hentry
    by_cases hk : k = key s
    · subst hk
      rw [Function.update_self] at hentry
      exact ⟨s, Set.mem_insert _ _, rfl, hvalue.trans hentry⟩
    · rw [Function.update_of_ne hk] at hentry
      obtain ⟨old, hold, hkey, holdValue⟩ := hback.entries k w hentry
      exact ⟨old, Set.mem_insert_of_mem _ hold, hkey, holdValue⟩
  · intro old hold
    rcases hold with rfl | hold
    · exact ⟨v, hvalue, Function.update_self _ _ _⟩
    · obtain ⟨w, holdValue, hentry⟩ := hback.recorded old hold
      have hne : key old ≠ key s := by
        intro hkey
        rw [hkey, hfree] at hentry
        cases hentry
      exact ⟨w, holdValue, (Function.update_of_ne hne _ _).trans hentry⟩

/-- The table answers as computation would, if and only if the history does. -/
theorem Backed.fresh_iff
    {history : Set σ} {table : κ → Option ν} (hback : Backed key value history table)
    (s : σ) :
    (∀ v, table (key s) = some v → value s = some v) ↔
      ∀ old ∈ history, key old = key s → value old = value s := by
  constructor
  · intro hfresh old hold hkey
    obtain ⟨v, hvalue, hentry⟩ := hback.recorded old hold
    rw [hvalue, hfresh v (hkey ▸ hentry)]
  · intro hsame v hentry
    obtain ⟨old, hold, hkey, hvalue⟩ := hback.entries _ v hentry
    rw [← hsame old hold hkey, hvalue]

end MemoTable
