import Kita98.ByteStore

/-!
# Patching words of a byte store

A patch replaces the word at an address by a function of it.  Words without a
common byte do not see each other's patches, so a list of patches gives every
word its own value, in whatever order the list names them.
-/

namespace ByteStore

open WordBits

variable {n : ℕ} (f : BitVec 16 → BitVec 16)

def patch (store : BitVec n → BitVec 8) (a : BitVec n) : BitVec n → BitVec 8 :=
  writeWord store a (f (readWord store a))

def patchAll (store : BitVec n → BitVec 8) (addrs : List (BitVec n)) : BitVec n → BitVec 8 :=
  addrs.foldl (patch f) store

/-- The byte belongs to the word at `a`. -/
def InWord (a c : BitVec n) : Prop := c = a ∨ c = a + 1

/-- The words at the two addresses have no byte in common. -/
def Apart (a b : BitVec n) : Prop := ¬ InWord a b ∧ ¬ InWord a (b + 1)

theorem patch_of_outside
    (store : BitVec n → BitVec 8) {a c : BitVec n} (houtside : ¬ InWord a c) :
    patch f store a c = store c := by
  rcases not_or.mp houtside with ⟨hlow, hhigh⟩
  exact writeWord_of_ne store _ hlow hhigh

theorem readWord_patch_self
    (store : BitVec n → BitVec 8) {a : BitVec n} (hstep : a + 1 ≠ a) :
    readWord (patch f store a) a = f (readWord store a) :=
  readWord_writeWord_self store _ hstep

theorem readWord_patch_of_apart
    (store : BitVec n → BitVec 8) {a b : BitVec n} (hapart : Apart a b) :
    readWord (patch f store a) b = readWord store b := by
  rw [readWord, patch_of_outside f store hapart.1, patch_of_outside f store hapart.2, readWord]

theorem patchAll_of_outside
    (store : BitVec n → BitVec 8) {addrs : List (BitVec n)} {c : BitVec n}
    (houtside : ∀ a ∈ addrs, ¬ InWord a c) :
    patchAll f store addrs c = store c := by
  induction addrs generalizing store with
  | nil => rfl
  | cons a addrs ih =>
      rw [List.forall_mem_cons] at houtside
      rw [patchAll, List.foldl_cons, ← patchAll, ih _ houtside.2,
        patch_of_outside f store houtside.1]

theorem readWord_patchAll_of_apart
    (store : BitVec n → BitVec 8) {addrs : List (BitVec n)} {b : BitVec n}
    (hapart : ∀ a ∈ addrs, Apart a b) :
    readWord (patchAll f store addrs) b = readWord store b := by
  have hlow : ∀ a ∈ addrs, ¬ InWord a b := fun a ha => (hapart a ha).1
  have hhigh : ∀ a ∈ addrs, ¬ InWord a (b + 1) := fun a ha => (hapart a ha).2
  rw [readWord, patchAll_of_outside f store hlow, patchAll_of_outside f store hhigh, readWord]

theorem Apart.symm {a b : BitVec n} (hapart : Apart a b) : Apart b a := by
  rcases hapart with ⟨hlow, hhigh⟩
  rcases not_or.mp hlow with ⟨hne, hne'⟩
  have hnext : b + 1 ≠ a := fun heq => hhigh (.inl heq)
  constructor
  · rintro (heq | heq)
    · exact hne heq.symm
    · exact hnext heq.symm
  · rintro (heq | heq)
    · exact hne' heq.symm
    · exact hne (add_right_cancel heq).symm

/-- Every word of the list is patched once. -/
theorem readWord_patchAll
    (store : BitVec n → BitVec 8) {addrs : List (BitVec n)} {b : BitVec n}
    (hstep : b + 1 ≠ b) (hapart : addrs.Pairwise Apart) (hmem : b ∈ addrs) :
    readWord (patchAll f store addrs) b = f (readWord store b) := by
  induction addrs generalizing store with
  | nil => exact absurd hmem List.not_mem_nil
  | cons a addrs ih =>
      rcases List.pairwise_cons.mp hapart with ⟨hhead, htail⟩
      rw [patchAll, List.foldl_cons, ← patchAll]
      rcases List.mem_cons.mp hmem with heq | hmem
      · subst heq
        have hrest : ∀ a ∈ addrs, Apart a b := fun a ha => (hhead a ha).symm
        rw [readWord_patchAll_of_apart f _ hrest, readWord_patch_self f store hstep]
      · rw [ih _ htail hmem, readWord_patch_of_apart f store (hhead b hmem)]

end ByteStore
