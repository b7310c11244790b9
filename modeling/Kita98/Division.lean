import Kita98.CarryArithmetic
import Kita98.OperandOrder

/-!
# Division

The arms of DIV and IDIV divide a dividend of twice the width by their operand
and cut the quotient to the width, without asking whether it fits.  IDIV of a
word also puts its dividend together from a sign-extended AX, which hides DX
behind the sign.
-/

namespace Kita98

open WordBits Kita98.Core Exec

/-! ## Words as truncated integers -/

section Truncation

variable {w v : ℕ}

theorem setWidth_ofInt (hle : v ≤ w) (z : ℤ) :
    (BitVec.ofInt w z).setWidth v = BitVec.ofInt v z := by
  have hdvd : ((2 ^ v : ℕ) : ℤ) ∣ (2 ^ w : ℕ) := by exact_mod_cast pow_dvd_pow 2 hle
  have hpos : (0 : ℤ) < (2 ^ w : ℕ) := by exact_mod_cast Nat.two_pow_pos w
  apply BitVec.eq_of_toNat_eq
  zify
  rw [BitVec.toNat_setWidth, BitVec.toNat_ofInt, BitVec.toNat_ofInt, Int.natCast_mod,
    Int.toNat_of_nonneg (Int.emod_nonneg _ hpos.ne'), Int.emod_emod_of_dvd _ hdvd,
    Int.toNat_of_nonneg (Int.emod_nonneg _ (by positivity))]

theorem udiv_eq (a b : BitVec w) : a / b = BitVec.ofInt w ((a.toNat : ℤ).tdiv b.toNat) := by
  rw [← Int.ofNat_tdiv, BitVec.ofInt_natCast, ← BitVec.toNat_udiv, BitVec.ofNat_toNat,
    BitVec.setWidth_eq]

theorem umod_eq (a b : BitVec w) : a % b = BitVec.ofInt w ((a.toNat : ℤ).tmod b.toNat) := by
  rw [← Int.ofNat_tmod, BitVec.ofInt_natCast, ← BitVec.toNat_umod, BitVec.ofNat_toNat,
    BitVec.setWidth_eq]

theorem sdiv_eq (a b : BitVec w) : a.sdiv b = BitVec.ofInt w (a.toInt.tdiv b.toInt) := by
  apply BitVec.eq_of_toInt_eq
  rw [BitVec.toInt_sdiv, BitVec.toInt_ofInt]

theorem srem_eq (a b : BitVec w) : a.srem b = BitVec.ofInt w (a.toInt.tmod b.toInt) := by
  rw [← BitVec.toInt_srem, BitVec.ofInt_toInt]

theorem udiv_truncated (hle : v ≤ w) (a : BitVec w) (b : BitVec v) :
    (a / b.setWidth w).setWidth v = BitVec.ofInt v ((a.toNat : ℤ).tdiv b.toNat) := by
  rw [udiv_eq, setWidth_ofInt hle, BitVec.toNat_setWidth_of_le hle]

theorem umod_truncated (hle : v ≤ w) (a : BitVec w) (b : BitVec v) :
    (a % b.setWidth w).setWidth v = BitVec.ofInt v ((a.toNat : ℤ).tmod b.toNat) := by
  rw [umod_eq, setWidth_ofInt hle, BitVec.toNat_setWidth_of_le hle]

theorem sdiv_truncated (hle : v ≤ w) (a : BitVec w) (b : BitVec v) :
    (a.sdiv (b.signExtend w)).setWidth v = BitVec.ofInt v (a.toInt.tdiv b.toInt) := by
  rw [sdiv_eq, setWidth_ofInt hle, BitVec.toInt_signExtend_of_le hle]

theorem srem_truncated (hle : v ≤ w) (a : BitVec w) (b : BitVec v) :
    (a.srem (b.signExtend w)).setWidth v = BitVec.ofInt v (a.toInt.tmod b.toInt) := by
  rw [srem_eq, setWidth_ofInt hle, BitVec.toInt_signExtend_of_le hle]

theorem signExtend_eq_iff (hle : v ≤ w) (x : BitVec v) (y : BitVec w) :
    x.signExtend w = y ↔ x.toInt = y.toInt := by
  rw [← BitVec.toInt_inj, BitVec.toInt_signExtend_of_le hle]

theorem setWidth_eq_zero_iff (hle : v ≤ w) (x : BitVec v) :
    x.setWidth w = 0 ↔ (x.toNat : ℤ) = 0 := by
  rw [← BitVec.toNat_inj, BitVec.toNat_setWidth_of_le hle]
  simp

end Truncation

/-- A dividend of which only the low half is divided comes out right in one case. -/
theorem low_half_collision
    {high low s : ℤ} (hlow : 32768 ≤ low) (hlow' : low < 65536) (hs : s ≠ 0)
    (hsmin : -32768 ≤ s) (hsmax : s < 32768) (hhigh : high ≠ -1)
    (hfits : -32768 ≤ (65536 * high + low).tdiv s ∧ (65536 * high + low).tdiv s < 32768)
    (hquot : ((65536 * high + low).tdiv s - (low - 65536).tdiv s) % 65536 = 0)
    (hrem : ((65536 * high + low).tmod s - (low - 65536).tmod s) % 65536 = 0) :
    high = 0 ∧ low = 32768 ∧ s = -1 := by
  have hsum := Int.mul_tdiv_add_tmod (65536 * high + low) s
  have hsum' := Int.mul_tdiv_add_tmod (low - 65536) s
  have hless : ((65536 * high + low).tmod s).natAbs < s.natAbs := by
    rw [Int.natAbs_tmod]
    exact Nat.mod_lt _ (by omega)
  have hless' : ((low - 65536).tmod s).natAbs < s.natAbs := by
    rw [Int.natAbs_tmod]
    exact Nat.mod_lt _ (by omega)
  have hquot' := Int.natAbs_tdiv_le_natAbs (low - 65536) s
  generalize (65536 * high + low).tdiv s = q at *
  generalize (low - 65536).tdiv s = q' at *
  generalize (65536 * high + low).tmod s = r at *
  generalize (low - 65536).tmod s = r' at *
  have hr : r = r' := by omega
  have hq : q = q' ∨ (q = -32768 ∧ q' = 32768) := by omega
  rcases hq with hq | ⟨hq, hq'⟩
  · subst hq hr
    omega
  · subst hq hq'
    omega

/-! ## The instructions -/

inductive DivInstr where
  | div8 | idiv8 | div16 | idiv16
  deriving DecidableEq, Repr

namespace DivInstr

def opcode : DivInstr → U8
  | div8 | idiv8 => 0xF6
  | div16 | idiv16 => 0xF7

def field : DivInstr → BitVec 3
  | div8 | div16 => 6
  | idiv8 | idiv16 => 7

def signed : DivInstr → Bool
  | div8 | div16 => false
  | idiv8 | idiv16 => true

def bits : DivInstr → ℕ
  | div8 | idiv8 => 8
  | div16 | idiv16 => 16

def size : (instr : DivInstr) → AluSize instr.bits
  | div8 | idiv8 => byteAlu
  | div16 | idiv16 => wordAlu

def value {w : ℕ} (instr : DivInstr) (v : BitVec w) : ℤ :=
  if instr.signed then v.toInt else v.toNat

/-- AX, or DX and AX as one number. -/
def dividend (instr : DivInstr) (regs : Regs) : ℤ :=
  match instr with
  | div8 | idiv8 => instr.value (regs.get16 .AX)
  | div16 | idiv16 => instr.value (regs.get16 .DX ++ regs.get16 .AX : BitVec 32)

def Fits (instr : DivInstr) (quotient : ℤ) : Prop :=
  if instr.signed then FitsSigned instr.bits quotient else FitsUnsigned (2 ^ instr.bits) quotient

instance (instr : DivInstr) (quotient : ℤ) : Decidable (instr.Fits quotient) := by
  unfold Fits FitsSigned FitsUnsigned
  infer_instance

def store (instr : DivInstr) (regs : Regs) (quotient remainder : ℤ) : Regs :=
  match instr with
  | div8 | idiv8 =>
      (regs.set8 .AL (BitVec.ofInt 8 quotient)).set8 .AH (BitVec.ofInt 8 remainder)
  | div16 | idiv16 =>
      (regs.set16 .AX (BitVec.ofInt 16 quotient)).set16 .DX (BitVec.ofInt 16 remainder)

/-- The divisor, behind the ModRM byte. -/
def operand (instr : DivInstr) (core : Core) : BitVec instr.bits :=
  if core.modrm.mode = 3 then instr.size.get core.modrm.rm core.cpu.regs
  else instr.size.load core.bus.mem
    (effectiveAddress core.cpu.prefixes core.modrm core.cpu.regs (core.addressAt core.modrm 1))

/-- The machine behind the instruction. -/
def behind (core : Core) : Core :=
  core.skip (1 + if core.modrm.mode = 3 then 0 else (core.addressAt core.modrm 1).length)

/-- A division by the operand, on the machine behind the instruction. -/
def expected (instr : DivInstr) (src : BitVec instr.bits) (core : Core) :
    Except Fault (StepResult × Core) :=
  let a := instr.dividend core.cpu.regs
  let b := instr.value src
  if b = 0 ∨ ¬ instr.Fits (a.tdiv b) then .ok (.interrupt 0, core)
  else .ok (.proceed, core.setRegs (instr.store core.cpu.regs (a.tdiv b) (a.tmod b)))

/-- The dividend as the arms put it together. -/
def assembled (instr : DivInstr) (regs : Regs) : ℤ :=
  match instr with
  | idiv16 =>
      (((regs.get16 .DX).signExtend 32 <<< 16) ||| (regs.get16 .AX).signExtend 32 : U32).toInt
  | _ => instr.dividend regs

/-- The division of the host overflows. -/
def Overflows (instr : DivInstr) (regs : Regs) (src : BitVec instr.bits) : Prop :=
  instr.signed = true ∧ instr.assembled regs = -2 ^ (2 * instr.bits - 1) ∧ instr.value src = -1

instance (instr : DivInstr) (regs : Regs) (src : BitVec instr.bits) :
    Decidable (instr.Overflows regs src) := by
  unfold Overflows
  infer_instance

theorem read_operand (instr : DivInstr) (core : Core) :
    instr.size.read core.modrm (core.skip 1) = .ok (instr.operand core, behind core) := by
  unfold operand behind
  by_cases hmode : core.modrm.mode = 3
  · rw [instr.size.read_reg _ hmode, if_pos hmode, if_pos hmode]
    cases instr <;> rfl
  · rw [instr.size.read_mem _ hmode, bind_ok (eaFromModrm_at hmode core 1), if_neg hmode,
      if_neg hmode]
    rfl

variable {core mid : Core}

theorem dispatch_arm {instr : DivInstr} (hfield : core.modrm.reg = instr.field) :
    dispatch instr.opcode core =
      (match instr with
        | div8 => divRm8 core.modrm
        | idiv8 => idivRm8 core.modrm
        | div16 => divRm16 core.modrm
        | idiv16 => idivRm16 core.modrm) (core.skip 1) := by
  cases instr with
  | div8 | idiv8 =>
      show group3Rm8 core = _
      rw [group3Rm8_apply, hfield]
      rfl
  | div16 | idiv16 =>
      show group3Rm16 core = _
      rw [group3Rm16_apply, hfield]
      rfl

section Arms

variable {modrm : ModRm}

theorem divRm8_apply {src : U8} (hread : readModrmU8 modrm core = .ok (src, mid)) :
    divRm8 modrm core =
      let ax : ℤ := (mid.cpu.regs.get16 .AX).toNat
      if (src.toNat : ℤ) = 0 then .ok (.interrupt 0, mid)
      else
        .ok (.proceed, mid.setRegs (div8.store mid.cpu.regs (ax.tdiv src.toNat)
          (ax.tmod src.toNat))) := by
  have hzero : src = 0 ↔ (src.toNat : ℤ) = 0 := by
    rw [← setWidth_eq_zero_iff le_rfl, BitVec.setWidth_eq]
  rw [divRm8, bind_ok hread]
  by_cases hz : src = 0
  · simp only [if_pos hz, if_pos (hzero.mp hz)]
    rfl
  · simp only [if_neg hz, if_neg (mt hzero.mpr hz), store,
      ← udiv_truncated (show 8 ≤ 16 by decide), ← umod_truncated (show 8 ≤ 16 by decide)]
    rfl

theorem idivRm8_apply {src : U8} (hread : readModrmU8 modrm core = .ok (src, mid)) :
    idivRm8 modrm core =
      let ax : ℤ := (mid.cpu.regs.get16 .AX).toInt
      if src.toInt = 0 then .ok (.interrupt 0, mid)
      else if ax = -2 ^ 15 ∧ src.toInt = -1 then .error .overflow
      else
        .ok (.proceed, mid.setRegs (idiv8.store mid.cpu.regs (ax.tdiv src.toInt)
          (ax.tmod src.toInt))) := by
  have hzero : src.signExtend 16 = (0 : U16) ↔ src.toInt = 0 := signExtend_eq_iff (by decide) src 0
  have hover : (mid.cpu.regs.get16 .AX = 0x8000 ∧ src.signExtend 16 = (-1 : U16)) ↔
      (mid.cpu.regs.get16 .AX).toInt = -2 ^ 15 ∧ src.toInt = -1 := by
    rw [signExtend_eq_iff (by decide), ← BitVec.toInt_inj]
    rfl
  rw [idivRm8, bind_ok hread]
  by_cases hz : src.toInt = 0
  · simp only [if_pos hz, if_pos (hzero.mpr hz)]
    rfl
  · simp only [if_neg hz, if_neg (mt hzero.mp hz)]
    rw [bind_ok (getRegs_apply _ _)]
    by_cases ho : (mid.cpu.regs.get16 .AX).toInt = -2 ^ 15 ∧ src.toInt = -1
    · rw [if_pos ho, if_pos (hover.mpr ho)]
      rfl
    · rw [if_neg ho, if_neg (mt hover.mp ho)]
      simp only [store, ← sdiv_truncated (show 8 ≤ 16 by decide),
        ← srem_truncated (show 8 ≤ 16 by decide)]
      rfl

theorem divRm16_apply {src : U16} (hread : readModrmU16 modrm core = .ok (src, mid)) :
    divRm16 modrm core =
      let dxax : ℤ := (((mid.cpu.regs.get16 .DX).setWidth 32 <<< 16) |||
        (mid.cpu.regs.get16 .AX).setWidth 32 : U32).toNat
      if (src.toNat : ℤ) = 0 then .ok (.interrupt 0, mid)
      else
        .ok (.proceed, mid.setRegs (div16.store mid.cpu.regs (dxax.tdiv src.toNat)
          (dxax.tmod src.toNat))) := by
  have hzero : src.setWidth 32 = (0 : U32) ↔ (src.toNat : ℤ) = 0 :=
    setWidth_eq_zero_iff (by decide) src
  rw [divRm16, bind_ok hread]
  by_cases hz : (src.toNat : ℤ) = 0
  · simp only [if_pos hz, if_pos (hzero.mpr hz)]
    rfl
  · simp only [if_neg hz, if_neg (mt hzero.mp hz), store,
      ← udiv_truncated (show 16 ≤ 32 by decide), ← umod_truncated (show 16 ≤ 32 by decide)]
    rfl

theorem idivRm16_apply {src : U16} (hread : readModrmU16 modrm core = .ok (src, mid)) :
    idivRm16 modrm core =
      let dxax : ℤ := idiv16.assembled mid.cpu.regs
      if src.toInt = 0 then .ok (.interrupt 0, mid)
      else if dxax = -2 ^ 31 ∧ src.toInt = -1 then .error .overflow
      else
        .ok (.proceed, mid.setRegs (idiv16.store mid.cpu.regs (dxax.tdiv src.toInt)
          (dxax.tmod src.toInt))) := by
  have hzero : src.signExtend 32 = (0 : U32) ↔ src.toInt = 0 := signExtend_eq_iff (by decide) src 0
  have hover : ((((mid.cpu.regs.get16 .DX).signExtend 32 <<< 16) |||
        (mid.cpu.regs.get16 .AX).signExtend 32 : U32) = 0x80000000 ∧
        src.signExtend 32 = (-1 : U32)) ↔
      idiv16.assembled mid.cpu.regs = -2 ^ 31 ∧ src.toInt = -1 := by
    rw [signExtend_eq_iff (by decide), ← BitVec.toInt_inj]
    rfl
  rw [idivRm16, bind_ok hread]
  by_cases hz : src.toInt = 0
  · simp only [if_pos hz, if_pos (hzero.mpr hz)]
    rfl
  · simp only [if_neg hz, if_neg (mt hzero.mp hz)]
    rw [bind_ok (getRegs_apply _ _)]
    by_cases ho : idiv16.assembled mid.cpu.regs = -2 ^ 31 ∧ src.toInt = -1
    · rw [if_pos ho, if_pos (hover.mpr ho)]
      rfl
    · rw [if_neg ho, if_neg (mt hover.mp ho)]
      simp only [store, assembled, ← sdiv_truncated (show 16 ≤ 32 by decide),
        ← srem_truncated (show 16 ≤ 32 by decide)]
      rfl

end Arms

theorem dispatch_div {instr : DivInstr} {src : BitVec instr.bits}
    (hfield : core.modrm.reg = instr.field)
    (hread : instr.size.read core.modrm (core.skip 1) = .ok (src, mid)) :
    dispatch instr.opcode core =
      if instr.value src = 0 then .ok (.interrupt 0, mid)
      else if instr.Overflows mid.cpu.regs src then .error .overflow
      else
        .ok (.proceed, mid.setRegs (instr.store mid.cpu.regs
          ((instr.assembled mid.cpu.regs).tdiv (instr.value src))
          ((instr.assembled mid.cpu.regs).tmod (instr.value src)))) := by
  rw [dispatch_arm hfield]
  cases instr with
  | div8 =>
      have hnone : ¬ div8.Overflows mid.cpu.regs src := fun h => Bool.false_ne_true h.1
      rw [if_neg hnone]
      exact divRm8_apply hread
  | idiv8 =>
      refine (idivRm8_apply hread).trans (if_congr Iff.rfl rfl (if_congr ?_ rfl rfl))
      exact (and_iff_right rfl).symm
  | div16 =>
      have hnone : ¬ div16.Overflows mid.cpu.regs src := fun h => Bool.false_ne_true h.1
      rw [if_neg hnone]
      have hrun := divRm16_apply hread
      rw [append_eq_or] at hrun
      exact hrun
  | idiv16 =>
      refine (idivRm16_apply hread).trans (if_congr Iff.rfl rfl (if_congr ?_ rfl rfl))
      exact (and_iff_right rfl).symm

/-! ## When the quotient comes out right -/

/-- The quotient fits; IDIV of a word has put its dividend together, or one whose
quotient looks the same. -/
def DividesRight (instr : DivInstr) (regs : Regs) (src : BitVec instr.bits) : Prop :=
  instr.value src = 0 ∨
    instr.Fits ((instr.dividend regs).tdiv (instr.value src)) ∧
      (instr = idiv16 → (regs.get16 .AX).toNat < 2 ^ 15 ∨ regs.get16 .DX = 0xFFFF ∨
        regs.get16 .DX = 0 ∧ regs.get16 .AX = 0x8000 ∧ instr.value src = -1)

instance (instr : DivInstr) (regs : Regs) (src : BitVec instr.bits) :
    Decidable (instr.DividesRight regs src) := by
  unfold DividesRight
  infer_instance

section Right

variable {instr : DivInstr} {src : BitVec instr.bits}

/-- The quotient at which the host overflows does not fit. -/
theorem not_fits_of_overflows
    (hover : instr.Overflows core.cpu.regs src)
    (hsame : instr.assembled core.cpu.regs = instr.dividend core.cpu.regs) :
    ¬ instr.Fits ((instr.dividend core.cpu.regs).tdiv (instr.value src)) := by
  rcases hover with ⟨hsigned, hdividend, hdivisor⟩
  rw [← hsame, hdividend, hdivisor, Fits, if_pos hsigned, FitsSigned]
  cases instr <;> decide

theorem expected_fits
    (hne : instr.value src ≠ 0)
    (hfits : instr.Fits ((instr.dividend mid.cpu.regs).tdiv (instr.value src))) :
    instr.expected src mid =
      .ok (.proceed, mid.setRegs (instr.store mid.cpu.regs
        ((instr.dividend mid.cpu.regs).tdiv (instr.value src))
        ((instr.dividend mid.cpu.regs).tmod (instr.value src)))) := by
  rw [expected, if_neg (by simp [hne, hfits])]

theorem expected_interrupt
    (hinterrupt : instr.value src = 0 ∨
      ¬ instr.Fits ((instr.dividend mid.cpu.regs).tdiv (instr.value src))) :
    instr.expected src mid = .ok (.interrupt 0, mid) := by
  rw [expected, if_pos hinterrupt]

/-- With the right dividend only the missing check of the quotient is left. -/
theorem divides_iff_of_assembled
    (hfield : core.modrm.reg = instr.field)
    (hread : instr.size.read core.modrm (core.skip 1) = .ok (src, mid))
    (hsame : instr.assembled mid.cpu.regs = instr.dividend mid.cpu.regs) :
    dispatch instr.opcode core = instr.expected src mid ↔
      instr.value src = 0 ∨
        instr.Fits ((instr.dividend mid.cpu.regs).tdiv (instr.value src)) := by
  rw [dispatch_div hfield hread, hsame]
  by_cases hzero : instr.value src = 0
  · rw [if_pos hzero, expected_interrupt (.inl hzero)]
    exact iff_of_true rfl (.inl hzero)
  · rw [if_neg hzero, or_iff_right hzero]
    by_cases hover : instr.Overflows mid.cpu.regs src
    · have hnot := not_fits_of_overflows hover hsame
      rw [if_pos hover, expected_interrupt (.inr hnot)]
      exact iff_of_false (fun h => nomatch h) hnot
    · rw [if_neg hover]
      by_cases hfits : instr.Fits ((instr.dividend mid.cpu.regs).tdiv (instr.value src))
      · rw [expected_fits hzero hfits]
        exact iff_of_true rfl hfits
      · rw [expected_interrupt (.inr hfits)]
        exact iff_of_false (fun h => nomatch h) hfits

end Right

theorem idiv16_dividend (regs : Regs) :
    idiv16.dividend regs = 65536 * (regs.get16 .DX).toInt + (regs.get16 .AX).toNat :=
  BitVec.toInt_append

theorem assembled_eq_of_small {regs : Regs} (hsmall : (regs.get16 .AX).toNat < 2 ^ 15) :
    idiv16.assembled regs = idiv16.dividend regs := by
  have hmsb : (regs.get16 .AX).msb = false := by
    rw [BitVec.msb_eq_decide]
    simp
    omega
  rw [assembled, signed_or_small _ _ hmsb]
  rfl

theorem assembled_of_large {regs : Regs} (hlarge : ¬ (regs.get16 .AX).toNat < 2 ^ 15) :
    idiv16.assembled regs = (regs.get16 .AX).toNat - 65536 := by
  have hmsb : (regs.get16 .AX).msb = true := by
    rw [BitVec.msb_eq_decide]
    simp
    omega
  rw [assembled, signed_or_large _ _ hmsb, BitVec.toInt_signExtend_of_le (by decide),
    BitVec.toInt_eq_msb_cond, if_pos hmsb]
  rfl

theorem assembled_eq_iff (regs : Regs) :
    idiv16.assembled regs = idiv16.dividend regs ↔
      (regs.get16 .AX).toNat < 2 ^ 15 ∨ regs.get16 .DX = 0xFFFF := by
  by_cases hsmall : (regs.get16 .AX).toNat < 2 ^ 15
  · exact iff_of_true (assembled_eq_of_small hsmall) (.inl hsmall)
  · have hhigh : regs.get16 .DX = 0xFFFF ↔ (regs.get16 .DX).toInt = -1 := BitVec.toInt_inj.symm
    rw [assembled_of_large hsmall, idiv16_dividend, or_iff_right hsmall, hhigh]
    omega

theorem store16_inj {regs : Regs} {q q' r r' : ℤ}
    (hsame : idiv16.store regs q r = idiv16.store regs q' r') :
    (q - q') % 65536 = 0 ∧ (r - r') % 65536 = 0 := by
  have hax := congrArg (fun regs => regs.get16 .AX) hsame
  have hdx := congrArg (fun regs => regs.get16 .DX) hsame
  have hne : Reg16.AX ≠ Reg16.DX := by decide
  simp only [store, Regs.get16_set16_self, Regs.get16_set16_of_ne _ _ hne] at hax hdx
  have hquot := congrArg BitVec.toNat hax
  have hrem := congrArg BitVec.toNat hdx
  rw [BitVec.toNat_ofInt, BitVec.toNat_ofInt] at hquot hrem
  omega

section Word

variable {src : BitVec idiv16.bits}

theorem idiv16_value_bounds (src : BitVec idiv16.bits) :
    -32768 ≤ idiv16.value src ∧ idiv16.value src < 32768 :=
  ⟨BitVec.le_toInt src, BitVec.toInt_lt⟩

theorem not_overflows_of_large {regs : Regs} (hlarge : ¬ (regs.get16 .AX).toNat < 2 ^ 15) :
    ¬ idiv16.Overflows regs src := by
  rintro ⟨-, hdividend, -⟩
  rw [assembled_of_large hlarge] at hdividend
  simp only [bits] at hdividend
  omega

/-- With the sign of AX in the way the quotient of DX and AX comes out in one case. -/
theorem divides_iff_of_hidden
    (hfield : core.modrm.reg = idiv16.field)
    (hread : idiv16.size.read core.modrm (core.skip 1) = .ok (src, mid))
    (hlarge : ¬ (mid.cpu.regs.get16 .AX).toNat < 2 ^ 15)
    (hhigh : mid.cpu.regs.get16 .DX ≠ 0xFFFF)
    (hne : idiv16.value src ≠ 0) :
    dispatch idiv16.opcode core = idiv16.expected src mid ↔
      idiv16.Fits ((idiv16.dividend mid.cpu.regs).tdiv (idiv16.value src)) ∧
        mid.cpu.regs.get16 .DX = 0 ∧ mid.cpu.regs.get16 .AX = 0x8000 ∧
          idiv16.value src = -1 := by
  rw [dispatch_div hfield hread, if_neg hne, if_neg (not_overflows_of_large hlarge),
    assembled_of_large hlarge]
  by_cases hfits : idiv16.Fits ((idiv16.dividend mid.cpu.regs).tdiv (idiv16.value src))
  · rw [expected_fits hne hfits, and_iff_right hfits]
    have hvalue := idiv16_value_bounds src
    have hlow := (mid.cpu.regs.get16 .AX).isLt
    have hhigh' : (mid.cpu.regs.get16 .DX).toInt ≠ -1 := by
      intro h
      exact hhigh (BitVec.eq_of_toInt_eq h)
    constructor
    · intro hsame
      have hregs := congrArg (fun core : Core => core.cpu.regs)
        (Prod.mk.inj (Except.ok.inj hsame)).2.symm
      rcases store16_inj hregs with ⟨hquot, hrem⟩
      rw [idiv16_dividend] at hquot hrem hfits
      rcases low_half_collision (by omega) (by omega) hne hvalue.1 hvalue.2 hhigh' hfits hquot hrem
        with ⟨hdx, hax, hsrc⟩
      exact ⟨BitVec.eq_of_toInt_eq hdx, BitVec.eq_of_toNat_eq (by exact_mod_cast hax), hsrc⟩
    · rintro ⟨hdx, hax, hsrc⟩
      rw [idiv16_dividend, hdx, hax, hsrc]
      rfl
  · rw [expected_interrupt (.inr hfits)]
    exact iff_of_false (fun h => nomatch h) (fun h => hfits h.1)

end Word

theorem divides_iff_of_read {instr : DivInstr} {src : BitVec instr.bits}
    (hfield : core.modrm.reg = instr.field)
    (hread : instr.size.read core.modrm (core.skip 1) = .ok (src, mid)) :
    dispatch instr.opcode core = instr.expected src mid ↔
      instr.DividesRight mid.cpu.regs src := by
  by_cases hsame : instr.assembled mid.cpu.regs = instr.dividend mid.cpu.regs
  · rw [divides_iff_of_assembled hfield hread hsame, DividesRight]
    refine or_congr_right (iff_self_and.mpr fun _ hword => ?_)
    subst hword
    rcases (assembled_eq_iff _).mp hsame with hsmall | hhigh
    · exact .inl hsmall
    · exact .inr (.inl hhigh)
  · have hword : instr = idiv16 := by
      cases instr with
      | idiv16 => rfl
      | _ => exact absurd rfl hsame
    subst hword
    rw [assembled_eq_iff, not_or] at hsame
    by_cases hne : idiv16.value src = 0
    · rw [dispatch_div hfield hread, if_pos hne, expected_interrupt (.inl hne)]
      exact iff_of_true rfl (.inl hne)
    · rw [divides_iff_of_hidden hfield hread hsame.1 hsame.2 hne, DividesRight,
        or_iff_right hne, forall_prop_of_true rfl, or_iff_right hsame.1, or_iff_right hsame.2]

theorem divides_iff {instr : DivInstr} {core : Core} (hfield : core.modrm.reg = instr.field) :
    dispatch instr.opcode core = instr.expected (instr.operand core) (behind core) ↔
      instr.DividesRight core.cpu.regs (instr.operand core) :=
  divides_iff_of_read hfield (instr.read_operand core)

def divCore (modrm : U8) (ax : U16) (cl : U8) : Core :=
  (operandCore [modrm]).setRegs (((operandCore [modrm]).cpu.regs.set16 .AX ax).set8 .CL cl)

theorem divides_div_cl :
    dispatch div8.opcode (divCore 0xF1 7 2) =
        div8.expected (div8.operand (divCore 0xF1 7 2)) (behind (divCore 0xF1 7 2)) ↔
      div8.DividesRight (divCore 0xF1 7 2).cpu.regs (div8.operand (divCore 0xF1 7 2)) :=
  divides_iff rfl

/-- 1000h divided by 1 has no quotient of a byte; −8000h divided by −1 overflows in the host. -/
theorem div_truncates_quotient :
    dispatch div8.opcode (divCore 0xF1 0x1000 1) ≠
        div8.expected (div8.operand (divCore 0xF1 0x1000 1)) (behind (divCore 0xF1 0x1000 1)) ∧
      dispatch idiv8.opcode (divCore 0xF9 0x8000 0xFF) = .error .overflow := by
  constructor
  · rw [ne_eq, divides_iff_of_read rfl (div8.read_operand _)]
    decide +kernel
  · rw [dispatch_div rfl (idiv8.read_operand (divCore 0xF9 0x8000 0xFF)),
      if_neg (by decide +kernel), if_pos (by decide +kernel)]

end DivInstr

end Kita98
