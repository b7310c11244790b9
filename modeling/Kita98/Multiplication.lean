import Kita98.Division
import Kita98.RegisterBytes

/-!
# Multiplication

MUL and IMUL multiply in a type of twice the width, in which no product
overflows, and store both halves.  IMUL with two operands keeps the low half.
CF and OF say whether the low half is the product.
-/

namespace Kita98

open WordBits BitFields Kita98.Core Exec

/-! ## Products of extended operands -/

instance (w : ℕ) (t : ℤ) : Decidable (FitsSigned w t) := by
  unfold FitsSigned
  infer_instance

instance (bound : ℕ) (t : ℤ) : Decidable (FitsUnsigned bound t) := by
  unfold FitsUnsigned
  infer_instance

section Products

variable {v w : ℕ} (a b : BitVec v)

theorem umul_extended (hle : v ≤ w) :
    a.setWidth w * b.setWidth w = BitVec.ofInt w ((a.toNat : ℤ) * b.toNat) := by
  apply BitVec.eq_of_toNat_eq
  rw [BitVec.toNat_mul, BitVec.toNat_setWidth_of_le hle, BitVec.toNat_setWidth_of_le hle,
    ← Int.natCast_mul, BitVec.ofInt_natCast, BitVec.toNat_ofNat]

theorem smul_extended (hle : v ≤ w) :
    a.signExtend w * b.signExtend w = BitVec.ofInt w (a.toInt * b.toInt) := by
  apply BitVec.eq_of_toInt_eq
  rw [BitVec.toInt_mul, BitVec.toInt_signExtend_of_le hle, BitVec.toInt_signExtend_of_le hle,
    BitVec.toInt_ofInt]

theorem smul_wraps : a * b = BitVec.ofInt v (a.toInt * b.toInt) := by
  have hproduct := smul_extended a b le_rfl
  rw [BitVec.signExtend_eq, BitVec.signExtend_eq] at hproduct
  exact hproduct

theorem umul_range : 0 ≤ (a.toNat : ℤ) * b.toNat ∧ (a.toNat : ℤ) * b.toNat < 2 ^ (2 * v) := by
  have ha : (a.toNat : ℤ) < 2 ^ v := by exact_mod_cast a.isLt
  have hb : (b.toNat : ℤ) < 2 ^ v := by exact_mod_cast b.isLt
  constructor
  · positivity
  · calc (a.toNat : ℤ) * b.toNat < 2 ^ v * 2 ^ v := by
          apply mul_lt_mul'' ha hb <;> positivity
      _ = 2 ^ (2 * v) := by rw [← pow_add, two_mul]

theorem smul_range (hv : 0 < v) :
    -2 ^ (2 * v - 1) ≤ a.toInt * b.toInt ∧ a.toInt * b.toInt < 2 ^ (2 * v - 1) := by
  have ha := BitVec.le_toInt a
  have ha' := @BitVec.toInt_lt v a
  have hb := BitVec.le_toInt b
  have hb' := @BitVec.toInt_lt v b
  have habs : |a.toInt * b.toInt| ≤ 2 ^ (v - 1) * 2 ^ (v - 1) := by
    rw [abs_mul]
    apply mul_le_mul (abs_le.mpr ⟨ha, ha'.le⟩) (abs_le.mpr ⟨hb, hb'.le⟩) <;> positivity
  have hless : (2 : ℤ) ^ (v - 1) * 2 ^ (v - 1) < 2 ^ (2 * v - 1) := by
    rw [← pow_add]
    exact pow_lt_pow_right₀ (by decide) (by omega)
  have hbounds := abs_le.mp habs
  exact ⟨by linarith [hbounds.1], by linarith [hbounds.2]⟩

theorem umulOverflow_extended :
    (a.setWidth (2 * v)).umulOverflow (b.setWidth (2 * v)) = false := by
  have hrange := (umul_range a b).2
  have hle : v ≤ 2 * v := by omega
  have hless : a.toNat * b.toNat < 2 ^ (2 * v) := by exact_mod_cast hrange
  rw [BitVec.umulOverflow, BitVec.toNat_setWidth_of_le hle, BitVec.toNat_setWidth_of_le hle]
  exact decide_eq_false (Nat.not_le.mpr hless)

theorem smulOverflow_eq {w : ℕ} (x y : BitVec w) :
    x.smulOverflow y = decide (¬ FitsSigned w (x.toInt * y.toInt)) := by
  rw [BitVec.smulOverflow, ← Bool.decide_or, decide_eq_decide, FitsSigned]
  omega

theorem smulOverflow_extended (hv : 0 < v) :
    (a.signExtend (2 * v)).smulOverflow (b.signExtend (2 * v)) = false := by
  have hle : v ≤ 2 * v := by omega
  rw [smulOverflow_eq, BitVec.toInt_signExtend_of_le hle, BitVec.toInt_signExtend_of_le hle]
  exact decide_eq_false (not_not.mpr (smul_range a b hv))

theorem ofInt_toNat {w : ℕ} {p : ℤ} (hpos : 0 ≤ p) (hless : p < 2 ^ w) :
    ((BitVec.ofInt w p).toNat : ℤ) = p := by
  have hless' : p < ((2 ^ w : ℕ) : ℤ) := by exact_mod_cast hless
  rw [BitVec.toNat_ofInt, Int.emod_eq_of_lt hpos hless', Int.toNat_of_nonneg hpos]

theorem lt_ofInt_iff {w : ℕ} {p : ℤ} (hpos : 0 ≤ p) (hless : p < 2 ^ w) (bound : BitVec w) :
    bound < BitVec.ofInt w p ↔ (bound.toNat : ℤ) < p := by
  rw [BitVec.lt_def, ← Int.ofNat_lt, ofInt_toNat hpos hless]

theorem slt_or_slt_ofInt
    {w : ℕ} {p : ℤ} (hw : 0 < w) (hlow : -2 ^ (w - 1) ≤ p) (hhigh : p < 2 ^ (w - 1))
    (high low : BitVec w) :
    (high.slt (BitVec.ofInt w p) || (BitVec.ofInt w p).slt low) =
      decide (high.toInt < p ∨ p < low.toInt) := by
  rw [BitVec.slt, BitVec.slt, BitVec.toInt_ofInt_eq_self hw hlow hhigh, ← Bool.decide_or]

end Products

/-! ## Halves of a double word -/

section Halves

variable (x : U32)

theorem lowHalf_eq : (x &&& 0xFFFF).setWidth 16 = field x 0 16 := by
  have hones : (0xFFFF#32).setWidth 16 = BitVec.allOnes 16 := by decide
  show (x &&& 0xFFFF#32).setWidth 16 = _
  rw [BitVec.setWidth_and, hones, BitVec.and_allOnes, half_eq]

theorem highHalf_eq : (x >>> 16).setWidth 16 = field x 16 16 :=
  BitVec.setWidth_ushiftRight_eq_extractLsb

theorem signedHighHalf_eq : (x.sshiftRight 16).setWidth 16 = field x 16 16 := by
  rw [← highHalf_eq]
  apply BitVec.eq_of_getLsbD_eq
  intro i hi
  have hless : 16 + i < 32 := by omega
  have hless' : i < 32 := by omega
  rw [BitVec.getLsbD_setWidth, BitVec.getLsbD_setWidth, BitVec.getLsbD_sshiftRight,
    BitVec.getLsbD_ushiftRight]
  simp [hi, hless, hless']

theorem halves_append : field x 16 16 ++ field x 0 16 = x :=
  (field_append x 0 16 16).trans BitVec.extractLsb'_eq_self

end Halves

/-! ## The instructions -/

inductive MulInstr where
  | mul8 | imul8 | mul16 | imul16
  /-- `0F AF` with 16-bit operands -/
  | imulReg16
  /-- `0F AF` with 32-bit operands -/
  | imulReg32
  deriving DecidableEq, Repr

namespace MulInstr

def signed : MulInstr → Bool
  | mul8 | mul16 => false
  | imul8 | imul16 | imulReg16 | imulReg32 => true

def bits : MulInstr → ℕ
  | mul8 | imul8 => 8
  | mul16 | imul16 | imulReg16 => 16
  | imulReg32 => 32

def size : (instr : MulInstr) → AluSize instr.bits
  | mul8 | imul8 => byteAlu
  | mul16 | imul16 | imulReg16 => wordAlu
  | imulReg32 => doubleAlu

/-- The instruction at its ModRM byte: group 3, or IMUL at the operand size in force. -/
def Selected (core : Core) : MulInstr → Prop
  | mul8 | mul16 => core.modrm.reg = 4
  | imul8 | imul16 => core.modrm.reg = 5
  | imulReg16 => core.cpu.prefixes.operand32 = false
  | imulReg32 => core.cpu.prefixes.operand32 = true

def run : MulInstr → Routine StepResult
  | mul8 | imul8 => dispatch 0xF6
  | mul16 | imul16 => dispatch 0xF7
  | imulReg16 | imulReg32 => extendedArm 0xAF

def value {w : ℕ} (instr : MulInstr) (v : BitVec w) : ℤ :=
  if instr.signed then v.toInt else v.toNat

variable (instr : MulInstr) (core : Core)

/-- The factor in a register of its own. -/
def factor : BitVec instr.bits :=
  match instr with
  | mul8 | imul8 => core.cpu.regs.get8 .AL
  | mul16 | imul16 => core.cpu.regs.get16 .AX
  | imulReg16 => core.cpu.regs.get16 (reg16FromField core.modrm.reg)
  | imulReg32 => core.cpu.regs.get32 (reg16FromField core.modrm.reg)

/-- The factor behind the ModRM byte. -/
def operand : BitVec instr.bits :=
  if core.modrm.mode = 3 then instr.size.get core.modrm.rm core.cpu.regs
  else instr.size.load core.bus.mem
    (effectiveAddress core.cpu.prefixes core.modrm core.cpu.regs (core.addressAt core.modrm 1))

def product : ℤ := instr.value (instr.factor core) * instr.value (instr.operand core)

def Fits (p : ℤ) : Prop :=
  if instr.signed then FitsSigned instr.bits p else FitsUnsigned (2 ^ instr.bits) p

instance (p : ℤ) : Decidable (instr.Fits p) := by
  unfold Fits
  infer_instance

/-- The registers with a product stored. -/
def store (regs : Regs) (p : ℤ) : Regs :=
  match instr with
  | mul8 | imul8 => regs.set16 .AX (BitVec.ofInt 16 p)
  | mul16 | imul16 =>
      (regs.set16 .AX (field (BitVec.ofInt 32 p) 0 16)).set16 .DX (field (BitVec.ofInt 32 p) 16 16)
  | imulReg16 => regs.set16 (reg16FromField core.modrm.reg) (BitVec.ofInt 16 p)
  | imulReg32 => regs.set32 (reg16FromField core.modrm.reg) (BitVec.ofInt 32 p)

/-- What the destination holds: AX, DX and AX as one number, or a register. -/
def stored (regs : Regs) : ℤ :=
  match instr with
  | mul8 | imul8 => instr.value (regs.get16 .AX)
  | mul16 | imul16 => instr.value (regs.get16 .DX ++ regs.get16 .AX : BitVec 32)
  | imulReg16 => (regs.get16 (reg16FromField core.modrm.reg)).toInt
  | imulReg32 => (regs.get32 (reg16FromField core.modrm.reg)).toInt

/-- The multiplication of the host overflows; the two-operand forms wrap. -/
def HostOverflows : Prop :=
  match instr with
  | mul8 | mul16 =>
      ((instr.factor core).setWidth (2 * instr.bits)).umulOverflow
        ((instr.operand core).setWidth (2 * instr.bits)) = true
  | imul8 | imul16 =>
      ((instr.factor core).signExtend (2 * instr.bits)).smulOverflow
        ((instr.operand core).signExtend (2 * instr.bits)) = true
  | imulReg16 | imulReg32 => False

theorem read_operand :
    instr.size.read core.modrm (core.skip 1) =
      .ok (instr.operand core, DivInstr.behind core) := by
  unfold operand DivInstr.behind
  by_cases hmode : core.modrm.mode = 3
  · rw [instr.size.read_reg _ hmode, if_pos hmode, if_pos hmode]
    cases instr <;> rfl
  · rw [instr.size.read_mem _ hmode, bind_ok (eaFromModrm_at hmode core 1), if_neg hmode,
      if_neg hmode]
    rfl

theorem not_hostOverflows : ¬ instr.HostOverflows core := by
  cases instr with
  | mul8 | mul16 => simp [HostOverflows, umulOverflow_extended]
  | imul8 | imul16 =>
      rw [HostOverflows, smulOverflow_extended _ _ (by decide)]
      exact Bool.false_ne_true
  | imulReg16 | imulReg32 => exact not_false

/-! ## The arms -/

/-- The product stored, and CF and OF set where its low half is not all of it. -/
def expected (regs : Regs) : Regs :=
  let wide : Bool := ¬ instr.Fits (instr.product core)
  ((instr.store core regs (instr.product core)).setCf wide).setOf wide

section Arms

variable {modrm : ModRm} {mid : Core} {core : Core}

theorem mulRm8_apply {src : U8} (hread : readModrmU8 modrm core = .ok (src, mid)) :
    mulRm8 modrm core =
      let p : ℤ := (core.cpu.regs.get8 .AL).toNat * src.toNat
      let wide : Bool := ¬ mul8.Fits p
      .ok (.proceed, mid.setRegs (((mid.cpu.regs.set16 .AX (BitVec.ofInt 16 p)).setCf wide).setOf
        wide)) := by
  have hproduct := umul_extended (core.cpu.regs.get8 .AL) src (show 8 ≤ 16 by decide)
  have hrange := umul_range (core.cpu.regs.get8 .AL) src
  rw [mulRm8, bind_ok (getRegs_apply _ _), bind_ok hread]
  dsimp only
  rw [hproduct]
  generalize ((core.cpu.regs.get8 .AL).toNat : ℤ) * src.toNat = p at hrange ⊢
  have hwide : decide (BitVec.ofInt 16 p > 0xFF) = decide (¬ mul8.Fits p) := by
    rw [decide_eq_decide, gt_iff_lt, lt_ofInt_iff hrange.1 hrange.2]
    show _ ↔ ¬ FitsUnsigned (2 ^ 8) p
    rw [FitsUnsigned]
    simp
    omega
  rw [hwide]
  rfl

theorem imulRm8_apply {src : U8} (hread : readModrmU8 modrm core = .ok (src, mid)) :
    imulRm8 modrm core =
      let p : ℤ := (core.cpu.regs.get8 .AL).toInt * src.toInt
      let wide : Bool := ¬ imul8.Fits p
      .ok (.proceed, mid.setRegs (((mid.cpu.regs.set16 .AX (BitVec.ofInt 16 p)).setCf wide).setOf
        wide)) := by
  have hproduct := smul_extended (core.cpu.regs.get8 .AL) src (show 8 ≤ 16 by decide)
  have hrange := smul_range (core.cpu.regs.get8 .AL) src (by decide)
  rw [imulRm8, bind_ok (getRegs_apply _ _), bind_ok hread]
  dsimp only
  rw [hproduct]
  generalize (core.cpu.regs.get8 .AL).toInt * src.toInt = p at hrange ⊢
  have hwide : (BitVec.slt 0x7F (BitVec.ofInt 16 p) || (BitVec.ofInt 16 p).slt (-0x80)) =
      decide (¬ imul8.Fits p) := by
    have hhigh : (0x7F : U16).toInt = 127 := by decide
    have hlow : (-0x80 : U16).toInt = -128 := by decide
    rw [slt_or_slt_ofInt (by decide) hrange.1 hrange.2, hhigh, hlow, decide_eq_decide]
    show _ ↔ ¬ FitsSigned 8 p
    rw [FitsSigned]
    omega
  rw [hwide]
  rfl

theorem mulRm16_apply {src : U16} (hread : readModrmU16 modrm core = .ok (src, mid)) :
    mulRm16 modrm core =
      let p : ℤ := (core.cpu.regs.get16 .AX).toNat * src.toNat
      let wide : Bool := ¬ mul16.Fits p
      .ok (.proceed, mid.setRegs ((((mid.cpu.regs.set16 .AX (field (BitVec.ofInt 32 p) 0 16)).set16
        .DX (field (BitVec.ofInt 32 p) 16 16)).setCf wide).setOf wide)) := by
  have hproduct := umul_extended (core.cpu.regs.get16 .AX) src (show 16 ≤ 32 by decide)
  have hrange := umul_range (core.cpu.regs.get16 .AX) src
  rw [mulRm16, bind_ok (getRegs_apply _ _), bind_ok hread]
  dsimp only
  rw [hproduct, lowHalf_eq, highHalf_eq]
  generalize ((core.cpu.regs.get16 .AX).toNat : ℤ) * src.toNat = p at hrange ⊢
  have hwide : decide (BitVec.ofInt 32 p > 0xFFFF) = decide (¬ mul16.Fits p) := by
    rw [decide_eq_decide, gt_iff_lt, lt_ofInt_iff hrange.1 hrange.2]
    show _ ↔ ¬ FitsUnsigned (2 ^ 16) p
    rw [FitsUnsigned]
    simp
    omega
  rw [hwide]
  rfl

theorem imulRm16_apply {src : U16} (hread : readModrmU16 modrm core = .ok (src, mid)) :
    imulRm16 modrm core =
      let p : ℤ := (core.cpu.regs.get16 .AX).toInt * src.toInt
      let wide : Bool := ¬ imul16.Fits p
      .ok (.proceed, mid.setRegs ((((mid.cpu.regs.set16 .AX (field (BitVec.ofInt 32 p) 0 16)).set16
        .DX (field (BitVec.ofInt 32 p) 16 16)).setCf wide).setOf wide)) := by
  have hproduct := smul_extended (core.cpu.regs.get16 .AX) src (show 16 ≤ 32 by decide)
  have hrange := smul_range (core.cpu.regs.get16 .AX) src (by decide)
  rw [imulRm16, bind_ok (getRegs_apply _ _), bind_ok hread]
  dsimp only
  rw [hproduct, lowHalf_eq, signedHighHalf_eq]
  generalize (core.cpu.regs.get16 .AX).toInt * src.toInt = p at hrange ⊢
  have hwide : (BitVec.slt 32767 (BitVec.ofInt 32 p) || (BitVec.ofInt 32 p).slt (-32768)) =
      decide (¬ imul16.Fits p) := by
    have hhigh : (32767 : U32).toInt = 32767 := by decide
    have hlow : (-32768 : U32).toInt = -32768 := by decide
    rw [slt_or_slt_ofInt (by decide) hrange.1 hrange.2, hhigh, hlow, decide_eq_decide]
    show _ ↔ ¬ FitsSigned 16 p
    rw [FitsSigned]
    omega
  rw [hwide]
  rfl

theorem imulRegRm_word {src : U16} (hsize : core.cpu.prefixes.operand32 = false)
    (hread : readModrmU16 core.modrm (core.skip 1) = .ok (src, mid)) :
    imulRegRm core =
      let r := reg16FromField core.modrm.reg
      let p : ℤ := (mid.cpu.regs.get16 r).toInt * src.toInt
      let wide : Bool := ¬ imulReg16.Fits p
      .ok (.proceed, mid.setRegs (((mid.cpu.regs.set16 r (BitVec.ofInt 16 p)).setCf wide).setOf
        wide)) := by
  have hnot : ¬ (core.skip 1).cpu.prefixes.operand32 = true := by
    rw [Core.skip_prefixes, hsize]
    exact Bool.false_ne_true
  rw [imulRegRm, bind_ok (fetchModrm_apply core)]
  dsimp only
  rw [bind_ok (getPrefixes_apply _), if_neg hnot, bind_ok hread, bind_ok (getRegs_apply _ _),
    smul_wraps, smulOverflow_eq]
  rfl

theorem imulRegRm_double {src : U32} (hsize : core.cpu.prefixes.operand32 = true)
    (hread : readModrmU32 core.modrm (core.skip 1) = .ok (src, mid)) :
    imulRegRm core =
      let r := reg16FromField core.modrm.reg
      let p : ℤ := (mid.cpu.regs.get32 r).toInt * src.toInt
      let wide : Bool := ¬ imulReg32.Fits p
      .ok (.proceed, mid.setRegs (((mid.cpu.regs.set32 r (BitVec.ofInt 32 p)).setCf wide).setOf
        wide)) := by
  have hsize' : (core.skip 1).cpu.prefixes.operand32 = true := hsize
  rw [imulRegRm, bind_ok (fetchModrm_apply core)]
  dsimp only
  rw [bind_ok (getPrefixes_apply _), if_pos hsize', bind_ok hread, bind_ok (getRegs_apply _ _),
    smul_wraps, smulOverflow_eq]
  rfl

end Arms

/-! ## What an instruction does -/

variable {instr core}

theorem run_apply (hselected : instr.Selected core) :
    instr.run core =
      .ok (.proceed, (DivInstr.behind core).setRegs
        (instr.expected core (DivInstr.behind core).cpu.regs)) := by
  have hread := instr.read_operand core
  cases instr with
  | mul8 =>
      show group3Rm8 core = _
      rw [group3Rm8_apply, hselected]
      exact mulRm8_apply hread
  | imul8 =>
      show group3Rm8 core = _
      rw [group3Rm8_apply, hselected]
      exact imulRm8_apply hread
  | mul16 =>
      show group3Rm16 core = _
      rw [group3Rm16_apply, hselected]
      exact mulRm16_apply hread
  | imul16 =>
      show group3Rm16 core = _
      rw [group3Rm16_apply, hselected]
      exact imulRm16_apply hread
  | imulReg16 => exact imulRegRm_word hselected hread
  | imulReg32 => exact imulRegRm_double hselected hread

/-! ## Exactness -/

def oneOperand : MulInstr → Bool
  | mul8 | imul8 | mul16 | imul16 => true
  | imulReg16 | imulReg32 => false

/-- The instruction leaves `after`: the whole product, or its remainder modulo
the width, in the destination, and in CF and OF whether the width holds it. -/
structure Multiplies (instr : MulInstr) (core : Core) (after : Regs) : Prop where
  run : instr.run core = .ok (.proceed, (DivInstr.behind core).setRegs after)
  host : ¬ instr.HostOverflows core
  frame : after = instr.expected core (DivInstr.behind core).cpu.regs
  full : instr.oneOperand = true → instr.stored core after = instr.product core
  low : instr.stored core after ≡ instr.product core [ZMOD 2 ^ instr.bits]
  carry : after.getCf = true ↔ ¬ instr.Fits (instr.product core)
  overflow : after.getOf = true ↔ ¬ instr.Fits (instr.product core)
  high : instr ≠ imulReg32 → ∀ r, field (after.gp r) 16 16 = field (core.cpu.regs.gp r) 16 16

section Exact

variable (instr core) (regs : Regs)

theorem stored_flagged (cf of : Bool) :
    instr.stored core ((regs.setCf cf).setOf of) = instr.stored core regs := by
  cases instr <;> rfl

/-- A product of two operands fits twice their width. -/
theorem product_range :
    if instr.signed then FitsSigned (2 * instr.bits) (instr.product core)
    else FitsUnsigned (2 ^ (2 * instr.bits)) (instr.product core) := by
  have hunsigned := umul_range (instr.factor core) (instr.operand core)
  have hbits : 0 < instr.bits := by cases instr <;> decide
  have hsigned := smul_range (instr.factor core) (instr.operand core) hbits
  split
  · next hs =>
      rw [product, value, if_pos hs, value, if_pos hs]
      exact hsigned
  · next hs =>
      rw [product, value, if_neg hs, value, if_neg hs, FitsUnsigned]
      push_cast
      exact hunsigned

/-- A number that fits is its own value. -/
theorem value_ofInt {w : ℕ} (hw : 0 < w) {p : ℤ}
    (hp : if instr.signed then FitsSigned w p else FitsUnsigned (2 ^ w) p) :
    instr.value (BitVec.ofInt w p) = p := by
  unfold value
  split at hp
  · next hs =>
      rw [if_pos hs, BitVec.toInt_ofInt_eq_self hw hp.1 hp.2]
  · next hs =>
      have hless := hp.2
      push_cast at hless
      rw [if_neg hs, ofInt_toNat hp.1 hless]

theorem stored_full (hone : instr.oneOperand = true) :
    instr.stored core (instr.store core regs (instr.product core)) = instr.product core := by
  have hrange := instr.product_range core
  cases instr with
  | mul8 | imul8 =>
      unfold stored store
      rw [Regs.get16_set16_self]
      exact value_ofInt _ (by decide) hrange
  | mul16 | imul16 =>
      unfold stored store
      rw [Regs.get16_set16_self, Regs.get16_set16_of_ne _ _ (show Reg16.AX ≠ .DX by decide),
        Regs.get16_set16_self, halves_append]
      exact value_ofInt _ (by decide) hrange
  | imulReg16 | imulReg32 => exact absurd hone Bool.false_ne_true

theorem toInt_ofInt_modEq (w : ℕ) (p : ℤ) : (BitVec.ofInt w p).toInt ≡ p [ZMOD 2 ^ w] := by
  rw [BitVec.toInt_ofInt]
  have hmod := @Int.bmod_emod p (2 ^ w)
  push_cast at hmod
  exact hmod

theorem stored_low :
    instr.stored core (instr.store core regs (instr.product core)) ≡
      instr.product core [ZMOD 2 ^ instr.bits] := by
  cases instr with
  | mul8 | imul8 | mul16 | imul16 => rw [stored_full _ _ _ rfl]
  | imulReg16 =>
      unfold stored store
      rw [Regs.get16_set16_self]
      exact toInt_ofInt_modEq 16 _
  | imulReg32 =>
      unfold stored store
      have hread : ∀ (r : Reg16) (v : U32), (regs.set32 r v).get32 r = v := by
        intro r v
        simp only [Regs.get32, Regs.set32, Function.update_self]
      rw [hread]
      exact toInt_ofInt_modEq 32 _

theorem store_high (p : ℤ) (hne : instr ≠ imulReg32) (r : Reg16) :
    field ((instr.store core regs p).gp r) 16 16 = field (regs.gp r) 16 16 := by
  cases instr with
  | imulReg32 => exact absurd rfl hne
  | _ => simp only [store, Regs.high_set16]

end Exact

theorem multiplies (hselected : instr.Selected core) :
    ∃ after, instr.Multiplies core after := by
  have hstatus : ∀ (regs : Regs) (wide : Bool), ((regs.setCf wide).setOf wide).status =
      { regs.status with cf := wide, of := wide } := by
    intro regs wide
    rw [status_setOf, status_setCf]
  set before := (DivInstr.behind core).cpu.regs with hbefore
  set wide : Bool := decide (¬ instr.Fits (instr.product core)) with hwide
  have hflags := hstatus (instr.store core before (instr.product core)) wide
  have hcarry : wide = true ↔ ¬ instr.Fits (instr.product core) := decide_eq_true_iff
  refine ⟨instr.expected core before, ?_⟩
  constructor
  · exact run_apply hselected
  · exact instr.not_hostOverflows core
  · rfl
  · intro hone
    exact (stored_flagged _ _ _ _ _).trans (stored_full _ _ _ hone)
  · exact (stored_flagged instr core _ wide wide).symm ▸ stored_low instr core before
  · rw [← hcarry]
    exact iff_of_eq (congrArg (· = true) (congrArg Status.cf hflags))
  · rw [← hcarry]
    exact iff_of_eq (congrArg (· = true) (congrArg Status.of hflags))
  · intro hne r
    exact store_high instr core before _ hne r

/-! ## Dividing again -/

/-- MUL by a register, and DIV by the same register on what it left. -/
def DivUndoes (core : Core) : Prop :=
  ∃ mid, mul16.run core = .ok (.proceed, mid) ∧
    ∀ next : Core, next.cpu.regs.gp = mid.cpu.regs.gp →
      next.modrm = { core.modrm with reg := DivInstr.div16.field } →
        ∃ after, dispatch 0xF7 next = .ok (.proceed, after) ∧
          after.cpu.regs.get16 .AX = core.cpu.regs.get16 .AX ∧ after.cpu.regs.get16 .DX = 0

/-- MUL by a register that is not zero and that the product leaves alone. -/
structure ByRegister (core : Core) : Prop where
  field : core.modrm.reg = 4
  mode : core.modrm.mode = 3
  ne_ax : reg16FromField core.modrm.rm ≠ .AX
  ne_dx : reg16FromField core.modrm.rm ≠ .DX
  ne_zero : core.cpu.regs.get16 (reg16FromField core.modrm.rm) ≠ 0

theorem get16_of_gp {regs regs' : Regs} (hgp : regs.gp = regs'.gp) (r : Reg16) :
    regs.get16 r = regs'.get16 r := by
  rw [Regs.get16, Regs.get16, hgp]

theorem dividend_of_gp {regs regs' : Regs} (hgp : regs.gp = regs'.gp) :
    DivInstr.div16.dividend regs = DivInstr.div16.dividend regs' := by
  unfold DivInstr.dividend
  rw [get16_of_gp hgp, get16_of_gp hgp]

/-- DIV of a multiple of the divisor. -/
theorem div16_exact {next : Core} {a b : ℤ} (hfield : next.modrm.reg = DivInstr.div16.field)
    (hdivisor : DivInstr.div16.value (DivInstr.div16.operand next) = b) (hb : b ≠ 0)
    (hdividend : DivInstr.div16.dividend (DivInstr.behind next).cpu.regs = a * b) :
    dispatch 0xF7 next =
      .ok (.proceed, (DivInstr.behind next).setRegs
        (DivInstr.div16.store (DivInstr.behind next).cpu.regs a 0)) := by
  have hrun : dispatch 0xF7 next = _ :=
    DivInstr.dispatch_div hfield (DivInstr.div16.read_operand next)
  have hnone : ¬ DivInstr.div16.Overflows (DivInstr.behind next).cpu.regs
      (DivInstr.div16.operand next) := fun h => Bool.false_ne_true h.1
  have hassembled : DivInstr.div16.assembled (DivInstr.behind next).cpu.regs = a * b := hdividend
  rw [hdivisor, if_neg hb, if_neg hnone, hassembled, Int.mul_tdiv_cancel _ hb,
    Int.mul_tmod_left] at hrun
  exact hrun

theorem setOf_setCf_gp (regs : Regs) (cf of : Bool) : ((regs.setCf cf).setOf of).gp = regs.gp :=
  rfl

/-- The product in DX and AX, and the other registers as they were. -/
theorem mul16_expected (core : Core) :
    let after := mul16.expected core (DivInstr.behind core).cpu.regs
    DivInstr.div16.dividend after = mul16.product core ∧
      ∀ r, r ≠ Reg16.AX → r ≠ Reg16.DX → after.get16 r = core.cpu.regs.get16 r := by
  constructor
  · exact (stored_flagged mul16 core _ _ _).trans (stored_full mul16 core _ rfl)
  · intro r hax hdx
    rw [expected, get16_of_gp (setOf_setCf_gp _ _ _), store, Regs.get16_set16_of_ne _ _ hdx,
      Regs.get16_set16_of_ne _ _ hax]
    rfl

theorem div_undoes (hreg : ByRegister core) : DivUndoes core := by
  obtain ⟨hdividend, hkept⟩ := mul16_expected core
  set src := core.cpu.regs.get16 (reg16FromField core.modrm.rm) with hsrc
  have hoperand : mul16.operand core = src := if_pos hreg.mode
  have hproduct : mul16.product core = ((core.cpu.regs.get16 .AX).toNat : ℤ) * src.toNat := by
    rw [product, hoperand]
    rfl
  have hne : (src.toNat : ℤ) ≠ 0 := by
    intro hzero
    exact hreg.ne_zero (BitVec.eq_of_toNat_eq (by exact_mod_cast hzero))
  have hsame := hkept _ hreg.ne_ax hreg.ne_dx
  refine ⟨_, run_apply hreg.field, ?_⟩
  generalize mul16.expected core (DivInstr.behind core).cpu.regs = left at hdividend hsame ⊢
  intro next hgp hmodrm
  have hdivisor : DivInstr.div16.value (DivInstr.div16.operand next) = src.toNat := by
    have hmode : next.modrm.mode = 3 := by rw [hmodrm, hreg.mode]
    have hget : next.cpu.regs.get16 (reg16FromField core.modrm.rm) = src :=
      (get16_of_gp hgp _).trans hsame
    have hdivisor' : DivInstr.div16.operand next = src := by
      rw [DivInstr.operand, if_pos hmode, hmodrm]
      exact hget
    rw [hdivisor']
    rfl
  have hexact : DivInstr.div16.dividend (DivInstr.behind next).cpu.regs = _ * _ :=
    ((dividend_of_gp hgp).trans hdividend).trans hproduct
  refine ⟨_, div16_exact (by rw [hmodrm]) hdivisor hne hexact, ?_, ?_⟩
  · show ((Regs.set16 _ .AX _).set16 .DX _).get16 .AX = _
    rw [Regs.get16_set16_of_ne _ _ (show Reg16.AX ≠ .DX by decide), Regs.get16_set16_self,
      BitVec.ofInt_natCast, BitVec.ofNat_toNat, BitVec.setWidth_eq]
  · show (Regs.set16 _ .DX _).get16 .DX = _
    rw [Regs.get16_set16_self]
    rfl

end MulInstr

theorem multiplication (core : Core) :
    (∀ instr : MulInstr, instr.Selected core → ∃ after, instr.Multiplies core after) ∧
      (MulInstr.ByRegister core → MulInstr.DivUndoes core) := by
  constructor
  · intro instr hselected
    exact MulInstr.multiplies hselected
  · intro hreg
    exact MulInstr.div_undoes hreg

/-- MUL BX with AX = FFFF and BX = 1234. -/
def mulCore : Core :=
  let core := operandCore [0xE3]
  core.setRegs ((core.cpu.regs.set16 .AX 0xFFFF).set16 .BX 0x1234)

theorem multiplication_mul_bx :
    (∃ after, MulInstr.mul16.Multiplies mulCore after) ∧ MulInstr.DivUndoes mulCore :=
  have hfield : mulCore.modrm.reg = 4 := by decide
  ⟨(multiplication mulCore).1 .mul16 hfield,
    (multiplication mulCore).2 ⟨hfield, by decide, by decide, by decide, by decide⟩⟩

end Kita98
