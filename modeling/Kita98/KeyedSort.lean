import Mathlib.Data.List.Sort

/-!
# The last element of a list sorted by a key

A stable sort puts behind everything else the last of the elements that have the
largest key.
-/

namespace KeyedSort

variable {α β : Type*} [LinearOrder β] (key : α → β)

/-- The stable sort by a key. -/
def sortByKey (l : List α) : List α := l.insertionSort fun a b => key a ≤ key b

instance key_trans : IsTrans α fun a b => key a ≤ key b := ⟨fun _ _ _ => le_trans⟩

instance key_total : Std.Total fun a b : α => key a ≤ key b := ⟨fun a b => le_total (key a) (key b)⟩

theorem mem_sortByKey {l : List α} {a : α} : a ∈ sortByKey key l ↔ a ∈ l :=
  List.mem_insertionSort _

theorem sortByKey_pairwise (l : List α) : (sortByKey key l).Pairwise fun a b => key a ≤ key b :=
  List.pairwise_insertionSort _ l

/-- The elements of one key keep their order. -/
theorem filter_sortByKey (l : List α) (k : β) :
    (sortByKey key l).filter (fun a => key a = k) = l.filter fun a => key a = k := by
  have hclass : (l.filter fun a => key a = k).Pairwise fun a b => key a ≤ key b := by
    rw [List.pairwise_filter]
    apply List.pairwise_of_forall
    intro a b ha hb
    rw [of_decide_eq_true ha, of_decide_eq_true hb]
  have hsub : (l.filter fun a => key a = k).Sublist (sortByKey key l) :=
    List.sublist_insertionSort hclass List.filter_sublist
  have hfiltered := hsub.filter fun a => decide (key a = k)
  simp only [List.filter_filter, Bool.and_self] at hfiltered
  have hperm := (List.perm_insertionSort (fun a b => key a ≤ key b) l).filter
    fun a => decide (key a = k)
  exact (hfiltered.eq_of_length hperm.length_eq.symm).symm

/-- No key is larger than the last one. -/
theorem key_le_of_getLast {l : List α} {a : α} (hlast : (sortByKey key l).getLast? = some a) :
    ∀ b ∈ l, key b ≤ key a := by
  obtain ⟨init, hinit⟩ := List.getLast?_eq_some_iff.mp hlast
  have hsorted := sortByKey_pairwise key l
  rw [hinit, List.pairwise_append] at hsorted
  intro b hb
  rw [← mem_sortByKey key, hinit, List.mem_append, List.mem_singleton] at hb
  rcases hb with hb | rfl
  · exact hsorted.2.2 b hb a List.mem_cons_self
  · exact le_refl _

theorem getLast_filter_of_getLast {l : List α} {a : α}
    (hlast : (sortByKey key l).getLast? = some a) :
    (l.filter fun b => key b = key a).getLast? = some a := by
  obtain ⟨init, hinit⟩ := List.getLast?_eq_some_iff.mp hlast
  have hself : [a].filter (fun b => decide (key b = key a)) = [a] := by simp
  rw [← filter_sortByKey, hinit, List.filter_append, hself, List.getLast?_append_of_ne_nil]
  · rfl
  · exact List.cons_ne_nil a []

theorem getLast_sortByKey_iff {l : List α} {a : α} :
    (sortByKey key l).getLast? = some a ↔
      (∀ b ∈ l, key b ≤ key a) ∧ (l.filter fun b => key b = key a).getLast? = some a := by
  constructor
  · intro hlast
    exact ⟨key_le_of_getLast key hlast, getLast_filter_of_getLast key hlast⟩
  · rintro ⟨hmax, hclass⟩
    have hmem : a ∈ l := (List.mem_filter.mp (List.mem_of_getLast? hclass)).1
    cases hlast : (sortByKey key l).getLast? with
    | none =>
        have hnil := List.getLast?_eq_none_iff.mp hlast
        have ha := (mem_sortByKey key).mpr hmem
        rw [hnil] at ha
        cases ha
    | some z =>
        have hz : z ∈ l := (mem_sortByKey key).mp (List.mem_of_getLast? hlast)
        have hkey : key z = key a :=
          le_antisymm (hmax z hz) (key_le_of_getLast key hlast a hmem)
        have hlastClass := getLast_filter_of_getLast key hlast
        rw [hkey, hclass] at hlastClass
        exact hlastClass.symm

theorem getLast_sortByKey_eq_none_iff {l : List α} :
    (sortByKey key l).getLast? = none ↔ l = [] := by
  rw [List.getLast?_eq_none_iff, ← List.length_eq_zero_iff, ← List.length_eq_zero_iff, sortByKey,
    List.length_insertionSort]

end KeyedSort
