import Kita98.GuestBlock

/-!
# The register image by words

The sixteen words of the general registers in the image that emitted code
works on.  The low word of a register is the even word of twice its index;
the high words belong to no 16-bit register.
-/

namespace Kita98

open WordBits

/-! ## Halves of a double word -/

theorem setHalfWord_low_getLsbD (x : U32) (v : U16) {i : ℕ} (hi : i < 32) :
    (setHalfWord x false v).getLsbD i = if i < 16 then v.getLsbD i else x.getLsbD i := by
  have hmask : (0xFFFF0000#32).getLsbD i = decide (16 ≤ i) := by
    rw [BitVec.getLsbD_eq_getElem hi, highHalf_getElem hi]
  unfold setHalfWord
  rw [if_neg (by decide), BitVec.getLsbD_or, BitVec.getLsbD_and, hmask, BitVec.getLsbD_setWidth]
  by_cases hlow : i < 16
  · have hnot : ¬ 16 ≤ i := by omega
    simp [hlow, hnot, hi]
  · have hge : 16 ≤ i := by omega
    simp [hlow, hge]

theorem setHalfWord_high_getLsbD (x : U32) (v : U16) {i : ℕ} (hi : i < 32) :
    (setHalfWord x true v).getLsbD i = if i < 16 then x.getLsbD i else v.getLsbD (i - 16) := by
  have hmask : (0x0000FFFF#32).getLsbD i = decide (i < 16) := by
    revert i
    decide
  unfold setHalfWord
  rw [if_pos rfl, BitVec.getLsbD_or, BitVec.getLsbD_and, hmask, BitVec.getLsbD_shiftLeft,
    BitVec.getLsbD_setWidth]
  by_cases hlow : i < 16
  · simp [hlow, hi]
  · have hsmall : i - 16 < 32 := by omega
    simp [hlow, hi, hsmall]

theorem getLsbD_halfWord (x : U32) (high : Bool) {i : ℕ} (hi : i < 16) :
    (halfWord x high).getLsbD i = x.getLsbD (if high then 16 + i else i) := by
  cases high <;> simp [halfWord, hi]

theorem halfWord_setHalfWord_self (x : U32) (high : Bool) (v : U16) :
    halfWord (setHalfWord x high v) high = v := by
  apply BitVec.eq_of_getLsbD_eq
  intro i hi
  rw [getLsbD_halfWord _ _ hi]
  cases high with
  | false =>
      rw [if_neg (by decide), setHalfWord_low_getLsbD _ _ (by omega), if_pos hi]
  | true =>
      rw [if_pos rfl, setHalfWord_high_getLsbD _ _ (by omega), if_neg (by omega),
        Nat.add_sub_cancel_left]

theorem halfWord_setHalfWord_of_ne (x : U32) {high high' : Bool} (v : U16)
    (hne : high' ≠ high) : halfWord (setHalfWord x high v) high' = halfWord x high' := by
  apply BitVec.eq_of_getLsbD_eq
  intro i hi
  rw [getLsbD_halfWord _ _ hi, getLsbD_halfWord _ _ hi]
  cases high with
  | false =>
      have htrue : high' = true := by simpa using hne
      rw [htrue, if_pos rfl, setHalfWord_low_getLsbD _ _ (by omega), if_neg (by omega)]
  | true =>
      have hfalse : high' = false := by simpa using hne
      rw [hfalse, if_neg (by decide), setHalfWord_high_getLsbD _ _ (by omega), if_pos hi]

theorem eq_of_halfWords {x y : U32} (hlow : halfWord x false = halfWord y false)
    (hhigh : halfWord x true = halfWord y true) : x = y := by
  apply BitVec.eq_of_getLsbD_eq
  intro i hi
  by_cases hsmall : i < 16
  · have hbit := congrArg (fun v : U16 => v.getLsbD i) hlow
    simpa only [getLsbD_halfWord _ _ hsmall, Bool.false_eq_true, if_false] using hbit
  · have hrest : i - 16 < 16 := by omega
    have hbit := congrArg (fun v : U16 => v.getLsbD (i - 16)) hhigh
    have hsum : 16 + (i - 16) = i := by omega
    simpa only [getLsbD_halfWord _ _ hrest, if_true, hsum] using hbit

/-! ## Words -/

namespace Regs

/-- Word `w` of the image. -/
def word (regs : Regs) (w : ℕ) : U16 := regs.loadWord (2 * w)

theorem gpAt_index (r : Reg16) : gpAt r.index = r := by
  cases r <;> rfl

theorem index_gpAt {i : ℕ} (hi : i < 8) : (gpAt i).index = i := by
  interval_cases i <;> rfl

theorem word_eq_halfWord (regs : Regs) {w : ℕ} (hw : w < 16) :
    regs.word w = halfWord (regs.gp (gpAt (w / 2))) (w % 2 = 1) := by
  have hoff : 2 * w < 32 := by omega
  have hdiv : 2 * w / 4 = w / 2 := by omega
  have hmod : (2 * w % 4 = 2) = (w % 2 = 1) := by
    apply propext
    omega
  unfold word loadWord
  simp only [hoff, if_true, hdiv, hmod]

theorem word_low (regs : Regs) (r : Reg16) : regs.word (2 * r.index) = regs.get16 r := by
  have hindex : r.index < 8 := by
    cases r <;> decide
  rw [word_eq_halfWord _ (by omega), show 2 * r.index / 2 = r.index by omega, gpAt_index]
  simp [halfWord, get16]

theorem gp_eq_iff_words (regs regs' : Regs) :
    regs.gp = regs'.gp ↔ ∀ w, w < 16 → regs.word w = regs'.word w := by
  constructor
  · intro hgp w hw
    rw [word_eq_halfWord _ hw, word_eq_halfWord _ hw, hgp]
  · intro hwords
    funext r
    have hindex : r.index < 8 := by
      cases r <;> decide
    have hlow := hwords (2 * r.index) (by omega)
    have hhigh := hwords (2 * r.index + 1) (by omega)
    rw [word_eq_halfWord _ (by omega), word_eq_halfWord _ (by omega)] at hlow hhigh
    rw [show 2 * r.index / 2 = r.index by omega, gpAt_index] at hlow
    rw [show (2 * r.index + 1) / 2 = r.index by omega, gpAt_index] at hhigh
    apply eq_of_halfWords
    · simpa using hlow
    · simpa [Nat.add_mod] using hhigh

theorem word_storeWord (regs : Regs) {w w' : ℕ} (v : U16) (hw : w < 16) (hw' : w' < 16) :
    (regs.storeWord (2 * w) v).word w' = if w' = w then v else regs.word w' := by
  have hoff : 2 * w < 32 := by omega
  have hdiv : 2 * w / 4 = w / 2 := by omega
  have hmod : (2 * w % 4 = 2) = (w % 2 = 1) := by
    apply propext
    omega
  rw [word_eq_halfWord _ hw', word_eq_halfWord _ hw']
  unfold storeWord
  simp only [hoff, if_true, hdiv, hmod]
  by_cases hreg : w' / 2 = w / 2
  · rw [hreg, Function.update_self]
    by_cases hsame : w' = w
    · subst hsame
      rw [if_pos rfl, halfWord_setHalfWord_self]
    · rw [if_neg hsame]
      apply halfWord_setHalfWord_of_ne
      intro hparity
      have hparity' : (w' % 2 = 1) = (w % 2 = 1) := by simpa using hparity
      have hiff : w' % 2 = 1 ↔ w % 2 = 1 := by rw [hparity']
      omega
  · have hother : gpAt (w' / 2) ≠ gpAt (w / 2) := by
      intro hgp
      apply hreg
      have hindex := congrArg Reg16.index hgp
      rwa [index_gpAt (by omega), index_gpAt (by omega)] at hindex
    have hne : w' ≠ w := by
      rintro rfl
      exact hreg rfl
    rw [if_neg hne, Function.update_of_ne hother]

/-- A store at four times the index would be the store to the register. -/
theorem storeWord_eq_set16 (regs : Regs) (r : Reg16) (v : U16) :
    regs.storeWord (2 * (2 * r.index)) v = regs.set16 r v := by
  have hindex : r.index < 8 := by
    cases r <;> decide
  have hoff : 2 * (2 * r.index) < 32 := by omega
  have hdiv : 2 * (2 * r.index) / 4 = r.index := by omega
  have hmod : ¬ 2 * (2 * r.index) % 4 = 2 := by omega
  unfold storeWord
  simp only [hoff, if_true, hdiv, hmod, gpAt_index]
  rfl

theorem word_set16 (regs : Regs) (r : Reg16) {w : ℕ} (v : U16) (hw : w < 16) :
    (regs.set16 r v).word w = if w = 2 * r.index then v else regs.word w := by
  have hindex : r.index < 8 := by
    cases r <;> decide
  rw [← storeWord_eq_set16, word_storeWord _ _ (by omega) hw]

@[simp] theorem storeWord_seg (regs : Regs) {w : ℕ} (v : U16) (hw : w < 16) :
    (regs.storeWord (2 * w) v).seg = regs.seg := by
  have hoff : 2 * w < 32 := by omega
  unfold storeWord
  simp only [hoff, if_true]

@[simp] theorem storeWord_ip (regs : Regs) {w : ℕ} (v : U16) (hw : w < 16) :
    (regs.storeWord (2 * w) v).ip = regs.ip := by
  have hoff : 2 * w < 32 := by omega
  unfold storeWord
  simp only [hoff, if_true]

@[simp] theorem storeWord_flags (regs : Regs) {w : ℕ} (v : U16) (hw : w < 16) :
    (regs.storeWord (2 * w) v).flags = regs.flags := by
  have hoff : 2 * w < 32 := by omega
  unfold storeWord
  simp only [hoff, if_true]

end Regs

end Kita98
