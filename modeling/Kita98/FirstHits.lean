import Mathlib.Data.List.Find
import Mathlib.Data.List.Perm.Basic

/-!
# First hits and the order of a list

What a search finds does not depend on the order of the list exactly when it has
one thing to find.  The same holds of several searches whose finds are collected.
-/

namespace FirstHits

variable {α : Type*}

/-- Any two hits are the same. -/
def OneHit (p : α → Bool) (l : List α) : Prop :=
  ∀ a ∈ l, ∀ b ∈ l, p a = true → p b = true → a = b

theorem find_of_oneHit {p : α → Bool} {l : List α} (hone : OneHit p l) {a : α} (ha : a ∈ l)
    (hp : p a = true) : l.find? p = some a := by
  cases hfind : l.find? p with
  | none => exact absurd hp (List.find?_eq_none.mp hfind a ha)
  | some b => rw [hone b (List.mem_of_find?_eq_some hfind) a ha (List.find?_some hfind) hp]

theorem find_perm {p : α → Bool} {l l' : List α} (hone : OneHit p l) (hperm : l'.Perm l) :
    l'.find? p = l.find? p := by
  cases hfind : l'.find? p with
  | none =>
      symm
      rw [List.find?_eq_none] at hfind ⊢
      intro a ha
      exact hfind a (hperm.mem_iff.mpr ha)
  | some a =>
      exact (find_of_oneHit hone (hperm.mem_iff.mp (List.mem_of_find?_eq_some hfind))
        (List.find?_some hfind)).symm

/-- Some order of the list has any given hit in front. -/
theorem exists_perm_find {p : α → Bool} {l : List α} {a : α} (ha : a ∈ l) (hp : p a = true) :
    ∃ l' : List α, l'.Perm l ∧ l'.find? p = some a := by
  obtain ⟨s, t, rfl⟩ := List.append_of_mem ha
  exact ⟨a :: (s ++ t), List.perm_middle.symm, List.find?_cons_of_pos hp⟩

theorem find_isSome_perm {p : α → Bool} {l l' : List α} (hperm : l'.Perm l) :
    (l'.find? p).isSome = (l.find? p).isSome := by
  rw [Bool.eq_iff_iff, List.find?_isSome, List.find?_isSome]
  simp only [hperm.mem_iff]

/-- The order never matters exactly where there is one hit. -/
theorem find_stable_iff {p : α → Bool} {l : List α} :
    (∀ l' : List α, l'.Perm l → l'.find? p = l.find? p) ↔ OneHit p l := by
  constructor
  · intro hstable a ha b hb hpa hpb
    obtain ⟨first, hfirst, hfinda⟩ := exists_perm_find ha hpa
    obtain ⟨second, hsecond, hfindb⟩ := exists_perm_find hb hpb
    have hsame : some a = some b := by
      rw [← hfinda, ← hfindb, hstable first hfirst, hstable second hsecond]
    exact Option.some.inj hsame
  · intro hone l' hperm
    exact find_perm hone hperm

/-! ## Searches in order of preference -/

section Levels

/-- The place of the first search that accepts an element. -/
def level (ps : List (α → Bool)) (a : α) : ℕ := ps.findIdx fun p => p a

variable {p : α → Bool} {ps : List (α → Bool)} {l : List α} {a : α}

theorem level_cons_eq_zero_iff : level (p :: ps) a = 0 ↔ p a = true := by
  unfold level
  rw [List.findIdx_cons]
  cases p a <;> simp

theorem level_cons_of_neg (hp : p a = false) : level (p :: ps) a = level ps a + 1 := by
  simp [level, List.findIdx_cons, hp]

/-- The searches find the first element of the lowest level. -/
theorem findSome_find_iff :
    (ps.findSome? fun p => l.find? p) = some a ↔
      level ps a < ps.length ∧ (∀ b ∈ l, level ps a ≤ level ps b) ∧
        l.find? (fun b => level ps b = level ps a) = some a := by
  induction ps with
  | nil => simp
  | cons p ps ih =>
      cases hfind : l.find? p with
      | none =>
          have hmiss : ∀ b ∈ l, p b = false := fun b hb =>
            Bool.eq_false_iff.mpr (List.find?_eq_none.mp hfind b hb)
          have hshift : ∀ a, p a = false →
              l.find? (fun b => level (p :: ps) b = level (p :: ps) a) =
                l.find? fun b => level ps b = level ps a := by
            intro a ha
            apply List.find?_congr
            intro b hb
            simp only [level_cons_of_neg ha, level_cons_of_neg (hmiss b hb),
              Nat.add_right_cancel_iff]
          rw [List.findSome?_cons, hfind]
          simp only [ih, List.length_cons]
          constructor
          · rintro ⟨hlt, hbest, hfirst⟩
            have ha := hmiss a (List.mem_of_find?_eq_some hfirst)
            refine ⟨?_, ?_, (hshift a ha).trans hfirst⟩
            · rw [level_cons_of_neg ha]
              exact Nat.succ_lt_succ hlt
            · intro b hb
              rw [level_cons_of_neg ha, level_cons_of_neg (hmiss b hb)]
              exact Nat.succ_le_succ (hbest b hb)
          · rintro ⟨hlt, hbest, hfirst⟩
            have ha := hmiss a (List.mem_of_find?_eq_some hfirst)
            rw [level_cons_of_neg ha] at hlt
            refine ⟨Nat.lt_of_succ_lt_succ hlt, ?_, (hshift a ha).symm.trans hfirst⟩
            intro b hb
            have hb' := hbest b hb
            rw [level_cons_of_neg ha, level_cons_of_neg (hmiss b hb)] at hb'
            exact Nat.le_of_succ_le_succ hb'
      | some x =>
          have hx : level (p :: ps) x = 0 := level_cons_eq_zero_iff.mpr (List.find?_some hfind)
          have hzero : l.find? (fun b => level (p :: ps) b = 0) = some x := by
            rw [← hfind]
            congr 1
            funext b
            rw [Bool.eq_iff_iff, decide_eq_true_iff, level_cons_eq_zero_iff]
          rw [List.findSome?_cons, hfind]
          constructor
          · intro hsome
            cases hsome
            rw [hx]
            exact ⟨Nat.succ_pos _, fun _ _ => Nat.zero_le _, hzero⟩
          · rintro ⟨-, hbest, hfirst⟩
            have ha := hbest x (List.mem_of_find?_eq_some hfind)
            rw [hx, Nat.le_zero] at ha
            rw [ha, hzero] at hfirst
            exact hfirst

theorem findSome_find_eq_none_iff :
    (ps.findSome? fun p => l.find? p) = none ↔ ∀ b ∈ l, ps.length ≤ level ps b := by
  simp only [List.findSome?_eq_none_iff, List.find?_eq_none, level]
  constructor
  · intro hnone b hb
    exact (List.findIdx_eq_length_of_false fun p hp =>
      Bool.eq_false_iff.mpr (hnone p hp b hb)).ge
  · intro hlevel p hp b hb hpb
    have hlt := List.findIdx_lt_length_of_exists (p := fun p => p b) ⟨p, hp, hpb⟩
    have hle := hlevel b hb
    omega

end Levels

/-- Two collections that skip the same requests agree request by request. -/
theorem filterMap_eq_iff {β γ : Type*} {f g : γ → Option β} {requests : List γ}
    (hsome : ∀ r ∈ requests, (f r).isSome = (g r).isSome) :
    requests.filterMap f = requests.filterMap g ↔ ∀ r ∈ requests, f r = g r := by
  constructor
  · induction requests with
    | nil => exact fun _ r hr => absurd hr List.not_mem_nil
    | cons request requests ih =>
        intro heq
        have hhead := hsome request List.mem_cons_self
        have htail := ih fun r hr => hsome r (List.mem_cons_of_mem request hr)
        cases hf : f request with
        | none =>
            have hg : g request = none := by
              rw [← Option.isNone_iff_eq_none, ← Option.not_isSome, ← hhead, hf]
              rfl
            rw [List.filterMap_cons_none hf, List.filterMap_cons_none hg] at heq
            exact List.forall_mem_cons.mpr ⟨hf.trans hg.symm, htail heq⟩
        | some a =>
            rw [hf] at hhead
            obtain ⟨b, hg⟩ := Option.isSome_iff_exists.mp hhead.symm
            rw [List.filterMap_cons_some hf, List.filterMap_cons_some hg] at heq
            obtain ⟨hab, hrest⟩ := List.cons.inj heq
            exact List.forall_mem_cons.mpr ⟨by rw [hf, hg, hab], htail hrest⟩
  · intro heq
    exact List.filterMap_congr heq

end FirstHits
