import Kita98.BitFields

/-!
# Fields of fixed-width words

Words as pairs of bytes, and words part of which is replaced under a mask.
A flag word is a mask word: a one-bit mask reads back what was stored under
it, and masks without a common bit do not see each other.
-/

namespace WordBits

def joinBytes (lo hi : BitVec 8) : BitVec 16 :=
  lo.setWidth 16 ||| (hi.setWidth 16 <<< 8)

def lowByte (v : BitVec 16) : BitVec 8 := v.setWidth 8

def highByte (v : BitVec 16) : BitVec 8 := (v >>> 8).setWidth 8

@[simp] theorem joinBytes_low_high (v : BitVec 16) :
    joinBytes (lowByte v) (highByte v) = v := by
  ext i hi
  simp only [joinBytes, lowByte, highByte, BitVec.getElem_or,
    BitVec.getElem_setWidth, BitVec.getElem_shiftLeft,
    BitVec.getLsbD_setWidth, BitVec.getLsbD_ushiftRight]
  by_cases hlow : i < 8
  · simp [hlow, BitVec.getLsbD_eq_getElem hi]
  · have hsum : 8 + (i - 8) = i := by omega
    have hrest : i - 8 < 8 := by omega
    simp [hlow, hsum, hrest, BitVec.getLsbD_eq_getElem hi]

@[simp] theorem lowByte_joinBytes (lo hi : BitVec 8) :
    lowByte (joinBytes lo hi) = lo := by
  ext i hi
  simp [joinBytes, lowByte]

@[simp] theorem highByte_joinBytes (lo hi : BitVec 8) :
    highByte (joinBytes lo hi) = hi := by
  ext i hi
  have hbound : 8 + i < 16 := by omega
  have hsmall : i < 16 := by omega
  simp [joinBytes, highByte, hbound, hsmall, BitVec.getLsbD_eq_getElem hi]

theorem joinBytes_inj {lo lo' hi hi' : BitVec 8} :
    joinBytes lo hi = joinBytes lo' hi' ↔ lo = lo' ∧ hi = hi' := by
  constructor
  · intro heq
    exact ⟨by simpa using congrArg lowByte heq,
      by simpa using congrArg highByte heq⟩
  · rintro ⟨rfl, rfl⟩
    rfl

theorem toNat_join {w w' m : ℕ} (lo : BitVec w) (hi : BitVec w') (hfits : w + w' ≤ m) :
    (lo.setWidth m ||| (hi.setWidth m <<< w)).toNat = lo.toNat + 2 ^ w * hi.toNat := by
  have hlo : lo.toNat < 2 ^ w := lo.isLt
  have hhi : hi.toNat < 2 ^ w' := hi.isLt
  have hshift : hi.toNat <<< w < 2 ^ m := by
    rw [Nat.shiftLeft_eq]
    calc
      hi.toNat * 2 ^ w < 2 ^ w' * 2 ^ w := Nat.mul_lt_mul_of_pos_right hhi (Nat.two_pow_pos w)
      _ = 2 ^ (w + w') := by rw [← pow_add, Nat.add_comm]
      _ ≤ 2 ^ m := Nat.pow_le_pow_right (by decide) hfits
  have hlow : lo.toNat % 2 ^ m = lo.toNat :=
    Nat.mod_eq_of_lt (lt_of_lt_of_le hlo (Nat.pow_le_pow_right (by decide) (by omega)))
  have hhigh : hi.toNat % 2 ^ m = hi.toNat :=
    Nat.mod_eq_of_lt (lt_of_lt_of_le hhi (Nat.pow_le_pow_right (by decide) (by omega)))
  rw [BitVec.toNat_or, BitVec.toNat_shiftLeft, BitVec.toNat_setWidth, BitVec.toNat_setWidth, hlow,
    hhigh, Nat.mod_eq_of_lt hshift, Nat.or_comm, ← Nat.shiftLeft_add_eq_or_of_lt hlo,
    Nat.shiftLeft_eq]
  ring

theorem joinBytes_toNat (lo hi : BitVec 8) :
    (joinBytes lo hi).toNat = lo.toNat + 256 * hi.toNat :=
  toNat_join lo hi (by decide)

/-! ## Fields inside a double word -/

section DoubleWord

open BitFields

variable (x : BitVec 32)

theorem setLow_eq (v : BitVec 8) : (x &&& 0xFFFFFF00#32) ||| v.setWidth 32 = setField x 0 v := by
  have hmask : 0xFFFFFF00#32 = ~~~fieldMask 32 0 8 := by decide
  rw [setField, hmask, BitVec.shiftLeft_zero]

theorem setHigh_eq (v : BitVec 8) :
    (x &&& 0xFFFF00FF#32) ||| (v.setWidth 32 <<< 8) = setField x 8 v := by
  have hmask : 0xFFFF00FF#32 = ~~~fieldMask 32 8 8 := by decide
  rw [setField, hmask]

theorem setHalf_eq (v : BitVec 16) :
    (x &&& 0xFFFF0000#32) ||| v.setWidth 32 = setField x 0 v := by
  have hmask : 0xFFFF0000#32 = ~~~fieldMask 32 0 16 := by decide
  rw [setField, hmask, BitVec.shiftLeft_zero]

theorem half_eq : x.setWidth 16 = field x 0 16 :=
  BitVec.setWidth_eq_extractLsb' (by decide)

theorem masked_eq : (x &&& 0xFF).setWidth 8 = x.setWidth 8 := by
  have hones : (0xFF#32).setWidth 8 = BitVec.allOnes 8 := by decide
  show (x &&& 0xFF#32).setWidth 8 = _
  rw [BitVec.setWidth_and, hones, BitVec.and_allOnes]

theorem low_eq : (x &&& 0xFF).setWidth 8 = field x 0 8 := by
  rw [masked_eq]
  exact BitVec.setWidth_eq_extractLsb' (by decide)

theorem high_eq : ((x >>> 8) &&& 0xFF).setWidth 8 = field x 8 8 := by
  rw [masked_eq]
  exact BitVec.setWidth_ushiftRight_eq_extractLsb

theorem highHalf_getElem {i : ℕ} (hi : i < 32) :
    (0xFFFF0000#32)[i] = decide (16 ≤ i) := by
  revert i
  decide

theorem highHalf_of_low (v : BitVec 16) :
    ((x &&& 0xFFFF0000#32) ||| v.setWidth 32) &&& 0xFFFF0000#32 = x &&& 0xFFFF0000#32 := by
  have hnone : v.setWidth 32 &&& 0xFFFF0000#32 = 0#32 := by
    ext i hi
    by_cases hlow : i < 16
    · have hnot : ¬ 16 ≤ i := by omega
      simp [highHalf_getElem hi, hnot]
    · simp [BitVec.getLsbD_of_ge v i (by omega)]
  rw [BitVec.and_or_distrib_right, hnone, BitVec.or_zero, BitVec.and_assoc, BitVec.and_self]

theorem low_of_setLow (v : BitVec 8) :
    (((x &&& 0xFFFFFF00#32) ||| v.setWidth 32) &&& 0xFF).setWidth 8 = v := by
  rw [low_eq, setLow_eq, field_setField_self v (by decide)]

theorem setLow_low :
    (x &&& 0xFFFFFF00#32) ||| ((x &&& 0xFF).setWidth 8).setWidth 32 = x := by
  rw [low_eq, setLow_eq, setField_field]

theorem high_of_setHigh (v : BitVec 8) :
    ((((x &&& 0xFFFF00FF#32) ||| (v.setWidth 32 <<< 8)) >>> 8) &&& 0xFF).setWidth 8 = v := by
  rw [high_eq, setHigh_eq, field_setField_self v (by decide)]

theorem setHigh_high :
    (x &&& 0xFFFF00FF#32) ||| ((((x >>> 8) &&& 0xFF).setWidth 8).setWidth 32 <<< 8) = x := by
  rw [high_eq, setHigh_eq, setField_field]

theorem low_of_setHigh (v : BitVec 8) :
    (((x &&& 0xFFFF00FF#32) ||| (v.setWidth 32 <<< 8)) &&& 0xFF).setWidth 8 =
      (x &&& 0xFF).setWidth 8 := by
  rw [low_eq, low_eq, setHigh_eq, field_setField_apart v (.inl (by decide)) (by decide)]

theorem high_of_setLow (v : BitVec 8) :
    ((((x &&& 0xFFFFFF00#32) ||| v.setWidth 32) >>> 8) &&& 0xFF).setWidth 8 =
      ((x >>> 8) &&& 0xFF).setWidth 8 := by
  rw [high_eq, high_eq, setLow_eq, field_setField_apart v (.inr (by decide)) (by decide)]

theorem setHalf_half : (x &&& 0xFFFF0000#32) ||| (x.setWidth 16).setWidth 32 = x := by
  rw [half_eq, setHalf_eq, setField_field]

end DoubleWord

/-! ## Two words as a double word -/

section Joined

variable (high low : BitVec 16)

theorem append_getLsbD (i : ℕ) :
    (high ++ low : BitVec 32).getLsbD i =
      if i < 16 then low.getLsbD i else high.getLsbD (i - 16) :=
  BitVec.getLsbD_append

theorem append_eq_or :
    ((high.setWidth 32 <<< 16) ||| low.setWidth 32 : BitVec 32) = (high ++ low : BitVec 32) := by
  apply BitVec.eq_of_getLsbD_eq
  intro i hi
  rw [append_getLsbD]
  by_cases hlow : i < 16
  · simp [hlow, hi]
  · have hnone : low.getLsbD i = false := BitVec.getLsbD_of_ge low i (by omega)
    simp [hlow, hi, hnone]

theorem shiftLeft_half : (high.signExtend 32 <<< 16 : BitVec 32) = high.setWidth 32 <<< 16 := by
  apply BitVec.eq_of_getElem_eq
  intro i hi
  by_cases hlow : i < 16
  · simp [hlow]
  · have hless : i - 16 < 16 := by omega
    simp [hlow, BitVec.getElem_signExtend, hless]

theorem signed_or_small (hsmall : low.msb = false) :
    ((high.signExtend 32 <<< 16) ||| low.signExtend 32 : BitVec 32) = (high ++ low : BitVec 32) := by
  rw [shiftLeft_half, BitVec.signExtend_eq_setWidth_of_msb_false hsmall, append_eq_or]

/-- The sign of the low half covers the high one. -/
theorem signed_or_large (hlarge : low.msb = true) :
    ((high.signExtend 32 <<< 16) ||| low.signExtend 32 : BitVec 32) = low.signExtend 32 := by
  apply BitVec.eq_of_getElem_eq
  intro i hi
  by_cases hlow : i < 16
  · simp [hlow]
  · simp [hlow, BitVec.getElem_signExtend, hlarge]

end Joined

/-! ## Flags under a mask -/

variable {w : ℕ}

/-- Set or clear every bit of `mask`. -/
def setMask (word mask : BitVec w) (v : Bool) : BitVec w :=
  if v then word ||| mask else word &&& ~~~mask

def testMask (word mask : BitVec w) : Bool := word &&& mask != 0

theorem getElem_setMask (word mask : BitVec w) (v : Bool) {i : ℕ} (hi : i < w) :
    (setMask word mask v)[i] = if mask[i] then v else word[i] := by
  cases v <;> cases hm : mask[i] <;> simp [setMask, hm]

theorem and_setMask_of_disjoint
    {word mask other : BitVec w} (v : Bool) (hdisjoint : mask &&& other = 0) :
    setMask word mask v &&& other = word &&& other := by
  have hbit : ∀ i, (hi : i < w) → (mask[i] && other[i]) = false := by
    intro i hi
    have h := congrArg (fun x : BitVec w => x[i]) hdisjoint
    simpa using h
  ext i hi
  have hi' := hbit i hi
  cases v <;> cases hm : mask[i] <;> cases ho : other[i] <;>
    simp_all [setMask]

@[simp] theorem testMask_setMask_of_disjoint
    {word mask other : BitVec w} (v : Bool) (hdisjoint : mask &&& other = 0) :
    testMask (setMask word mask v) other = testMask word other := by
  rw [testMask, and_setMask_of_disjoint v hdisjoint, testMask]

theorem testMask_setMask
    {word mask : BitVec w} (v : Bool) (hmask : mask ≠ 0) :
    testMask (setMask word mask v) mask = v := by
  cases v with
  | false =>
      have hclear : word &&& ~~~mask &&& mask = 0 := by
        ext i hi
        simp
      simp [testMask, setMask, hclear]
  | true =>
      have hset : (word ||| mask) &&& mask = mask := by
        ext i hi
        cases hm : mask[i] <;> simp [hm]
      simpa [testMask, setMask, hset] using hmask

theorem testMask_twoPow (word : BitVec w) (k : ℕ) :
    testMask word (BitVec.twoPow w k) = word.getLsbD k := by
  rw [testMask, BitVec.and_twoPow]
  cases hbit : word.getLsbD k with
  | false => simp
  | true =>
      have hk : k < w := BitVec.lt_of_getLsbD hbit
      have hne : BitVec.twoPow w k ≠ 0 := by
        intro hzero
        have hset := congrArg (fun mask => mask.getLsbD k) hzero
        simp [hk] at hset
      simpa using hne

theorem setMask_testMask (word : BitVec w) (k : ℕ) :
    setMask word (BitVec.twoPow w k) (testMask word (BitVec.twoPow w k)) = word := by
  apply BitVec.eq_of_getElem_eq
  intro i hi
  rw [testMask_twoPow, getElem_setMask _ _ _ hi, BitVec.getElem_twoPow]
  by_cases heq : i = k
  · subst heq
    simp [BitVec.getLsbD_eq_getElem hi]
  · simp [heq]

theorem setMask_setMask (word mask : BitVec w) (v v' : Bool) :
    setMask (setMask word mask v) mask v' = setMask word mask v' := by
  apply BitVec.eq_of_getElem_eq
  intro i hi
  rw [getElem_setMask _ _ _ hi, getElem_setMask _ _ _ hi, getElem_setMask _ _ _ hi]
  split <;> rfl

/-- Several masks set or cleared one after the other. -/
def setMasks (word : BitVec w) (fields : List (BitVec w × Bool)) : BitVec w :=
  fields.foldl (fun word field => setMask word field.1 field.2) word

theorem setMasks_outside
    {word : BitVec w} {fields : List (BitVec w × Bool)} {i : ℕ} (hi : i < w)
    (hout : ∀ field ∈ fields, field.1[i] = false) : (setMasks word fields)[i] = word[i] := by
  induction fields generalizing word with
  | nil => rfl
  | cons field fields ih =>
      have hfirst := hout field List.mem_cons_self
      have hrest := @ih (setMask word field.1 field.2) fun f hf =>
        hout f (List.mem_cons_of_mem field hf)
      rw [getElem_setMask, hfirst] at hrest
      exact hrest

/-- Only the bits outside the masks matter. -/
theorem setMasks_congr
    {word word' : BitVec w} {fields : List (BitVec w × Bool)}
    (hsame : ∀ i, (hi : i < w) → (∀ field ∈ fields, field.1[i] = false) → word[i] = word'[i]) :
    setMasks word fields = setMasks word' fields := by
  induction fields generalizing word word' with
  | nil =>
      ext i hi
      exact hsame i hi fun field hfield => absurd hfield List.not_mem_nil
  | cons field fields ih =>
      apply ih
      intro i hi hout
      rw [getElem_setMask, getElem_setMask]
      cases hfirst : field.1[i] with
      | true => rfl
      | false =>
          apply hsame i hi
          intro f hf
          rcases List.mem_cons.mp hf with rfl | hf
          · exact hfirst
          · exact hout f hf

/-- Masks that are all set again leave nothing behind. -/
theorem setMasks_setMasks
    (word : BitVec w) {fields fields' : List (BitVec w × Bool)}
    (hcovered : ∀ field ∈ fields, ∃ field' ∈ fields', field'.1 = field.1) :
    setMasks (setMasks word fields) fields' = setMasks word fields' := by
  apply setMasks_congr
  intro i hi hout
  apply setMasks_outside hi
  intro field hfield
  rcases hcovered field hfield with ⟨field', hfield', heq⟩
  rw [← heq]
  exact hout field' hfield'

theorem and_signBit (x : BitVec (w + 1)) :
    (x &&& BitVec.twoPow (w + 1) w != 0) = x.msb := by
  have hlast : x.msb = x.getLsbD w := BitVec.msb_eq_getLsbD_last x
  rw [BitVec.and_twoPow, hlast]
  cases x.getLsbD w <;> simp

theorem xor_signBit (x y : BitVec (w + 1)) :
    ((x ^^^ y) &&& BitVec.twoPow (w + 1) w != 0) = (x.msb != y.msb) := by
  rw [and_signBit, BitVec.msb_xor]

theorem xor_signBit_clear (x y : BitVec (w + 1)) :
    ((x ^^^ y) &&& BitVec.twoPow (w + 1) w == 0) = (x.msb == y.msb) := by
  have hset := congrArg not (xor_signBit x y)
  simpa [bne] using hset

/-! ## Overflow by signs -/

theorem saddOverflow_signs (x y : BitVec w) :
    x.saddOverflow y = (x.msb == y.msb && x.msb != (x + y).msb) := by
  rw [BitVec.saddOverflow_eq]
  cases x.msb <;> cases y.msb <;> cases (x + y).msb <;> rfl

theorem ssubOverflow_signs (x y : BitVec w) :
    x.ssubOverflow y = (x.msb != y.msb && x.msb != (x - y).msb) := by
  rw [BitVec.ssubOverflow_eq]
  cases x.msb <;> cases y.msb <;> cases (x - y).msb <;> rfl

/-- The sign of a difference tells the order, unless the difference overflows. -/
theorem sub_msb_ne_ssubOverflow (x y : BitVec w) :
    ((x - y).msb != x.ssubOverflow y) = decide (x.toInt < y.toInt) := by
  cases hover : x.ssubOverflow y with
  | false =>
      have hexact : (x - y).toInt = x.toInt - y.toInt :=
        BitVec.toInt_sub_of_not_ssubOverflow (by simp [hover])
      simp [BitVec.msb_eq_toInt, hexact]
  | true =>
      rw [ssubOverflow_signs, Bool.and_eq_true, bne_iff_ne, bne_iff_ne] at hover
      rcases hover with ⟨hsigns, hresult⟩
      have hflip : (x - y).msb = !x.msb := (Bool.eq_not_of_ne hresult.symm)
      have hx : x.msb = decide (x.toInt < 0) := BitVec.msb_eq_toInt
      have hy : y.msb = decide (y.toInt < 0) := BitVec.msb_eq_toInt
      rw [hx, hy, Ne, decide_eq_decide] at hsigns
      rw [hflip, hx, Bool.bne_true, Bool.not_not, decide_eq_decide]
      omega

end WordBits
