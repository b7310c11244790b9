import Kita98.ReadModifyWrite

/-!
# Group 1 at every width

The three functions of group 1 differ in the width of the operand and in the
helpers that set the flags.  What they return and what they leave in the flags
is the same at every width: the flags are those of the sum or the difference of
the destination and of one second operand, into which ADC and SBB have already
added the carry.
-/

namespace Kita98

open WordBits Kita98.Core Exec

/-! ## The arithmetic flags -/

@[ext] structure Status where
  cf : Bool
  zf : Bool
  sf : Bool
  of : Bool
  pf : Bool
  deriving DecidableEq, Repr

def Regs.status (regs : Regs) : Status :=
  ⟨regs.getCf, regs.getZf, regs.getSf, regs.getOf, regs.getPf⟩

/-- The flags of a result with the given carry and overflow. -/
def resultStatus {w : ℕ} (cf of : Bool) (r : BitVec w) : Status :=
  ⟨cf, r == 0, r.msb, of, Regs.evenParity (r.setWidth 8)⟩

def addStatus {w : ℕ} (a b : BitVec w) : Status :=
  resultStatus (a.uaddOverflow b) (a.saddOverflow b) (a + b)

def subStatus {w : ℕ} (a b : BitVec w) : Status :=
  resultStatus (a.usubOverflow b) (a.ssubOverflow b) (a - b)

section Status

variable (regs : Regs)

@[simp] theorem status_setCf (v : Bool) :
    (regs.setCf v).status = { regs.status with cf := v } := by
  simp (disch := decide) [Regs.status, Regs.getCf, Regs.getZf, Regs.getSf, Regs.getOf, Regs.getPf,
    Regs.setCf, Regs.flag_setFlag_of_disjoint]

@[simp] theorem status_setOf (v : Bool) :
    (regs.setOf v).status = { regs.status with of := v } := by
  simp (disch := decide) [Regs.status, Regs.getCf, Regs.getZf, Regs.getSf, Regs.getOf, Regs.getPf,
    Regs.setOf, Regs.flag_setFlag_of_disjoint]

@[simp] theorem status_setAf (v : Bool) : (regs.setAf v).status = regs.status := by
  simp (disch := decide) [Regs.status, Regs.getCf, Regs.getZf, Regs.getSf, Regs.getOf, Regs.getPf,
    Regs.setAf, Regs.flag_setFlag_of_disjoint]

theorem status_setResult (z s p : Bool) :
    (((regs.setZf z).setSf s).setPf p).status = ⟨regs.getCf, z, s, regs.getOf, p⟩ := by
  simp (disch := decide) [Regs.status, Regs.getCf, Regs.getZf, Regs.getSf, Regs.getOf, Regs.getPf,
    Regs.setZf, Regs.setSf, Regs.setPf, Regs.flag_setFlag_of_disjoint]

@[simp] theorem status_updateFlagsU8 (r : U8) :
    (regs.updateFlagsU8 r).status = resultStatus regs.getCf regs.getOf r := by
  have hsign : (r &&& 0x80 != 0) = r.msb := and_signBit r
  rw [Regs.updateFlagsU8, status_setResult, hsign]
  simp [resultStatus]

@[simp] theorem status_updateFlagsU16 (r : U16) :
    (regs.updateFlagsU16 r).status = resultStatus regs.getCf regs.getOf r := by
  have hsign : (r &&& 0x8000 != 0) = r.msb := and_signBit r
  rw [Regs.updateFlagsU16, status_setResult, hsign]
  rfl

@[simp] theorem status_updateFlagsU32 (r : U32) :
    (regs.updateFlagsU32 r).status = resultStatus regs.getCf regs.getOf r := by
  have hsign : (r &&& 0x80000000 != 0) = r.msb := and_signBit r
  rw [Regs.updateFlagsU32, status_setResult, hsign]
  rfl

theorem status_updateAdd8 (a b : U8) : (regs.updateAdd8 a b (a + b)).status = addStatus a b := by
  have hcarry : decide (a.setWidth 16 + b.setWidth 16 > (0xFF : U16)) = a.uaddOverflow b := by
    rw [BitVec.uaddOverflow, decide_eq_decide, gt_iff_lt, BitVec.lt_def]
    simp
    omega
  have hsame : ((a ^^^ b) &&& 0x80 == 0) = (a.msb == b.msb) := xor_signBit_clear a b
  have hdiff : ((a ^^^ (a + b)) &&& 0x80 != 0) = (a.msb != (a + b).msb) := xor_signBit a (a + b)
  rw [Regs.updateAdd8, addStatus, saddOverflow_signs, ← hcarry, ← hsame, ← hdiff]
  simp [resultStatus]

theorem status_updateAdd16 (a b : U16) :
    (regs.updateAdd16 a b (a + b)).status = addStatus a b := by
  have hcarry : decide (a.setWidth 32 + b.setWidth 32 > (0xFFFF : U32)) = a.uaddOverflow b := by
    rw [BitVec.uaddOverflow, decide_eq_decide, gt_iff_lt, BitVec.lt_def]
    simp
    omega
  have hsame : ((a ^^^ b) &&& 0x8000 == 0) = (a.msb == b.msb) := xor_signBit_clear a b
  have hdiff : ((a ^^^ (a + b)) &&& 0x8000 != 0) = (a.msb != (a + b).msb) := xor_signBit a (a + b)
  rw [Regs.updateAdd16, addStatus, saddOverflow_signs, ← hcarry, ← hsame, ← hdiff]
  simp [resultStatus]

theorem status_updateAdd32 (a b : U32) :
    (regs.updateAdd32 a b (a + b)).status = addStatus a b := by
  have hcarry : decide (a + b < a) = a.uaddOverflow b := by
    rw [BitVec.uaddOverflow, decide_eq_decide, BitVec.lt_def]
    simp
    omega
  have hsigns : ((a ^^^ (a + b)) &&& (b ^^^ (a + b)) &&& 0x80000000 != 0) =
      ((a ^^^ (a + b)) &&& (b ^^^ (a + b))).msb := and_signBit _
  have hover : ((a ^^^ (a + b)) &&& (b ^^^ (a + b))).msb = a.saddOverflow b := by
    rw [saddOverflow_signs, BitVec.msb_and, BitVec.msb_xor, BitVec.msb_xor]
    cases a.msb <;> cases b.msb <;> cases (a + b).msb <;> rfl
  rw [Regs.updateAdd32, addStatus, ← hcarry, ← hover, ← hsigns]
  simp [resultStatus]

theorem status_updateSub8 (a b : U8) : (regs.updateSub8 a b (a - b)).status = subStatus a b := by
  have hdiff : ((a ^^^ b) &&& 0x80 != 0) = (a.msb != b.msb) := xor_signBit a b
  have hsign : ((a ^^^ (a - b)) &&& 0x80 != 0) = (a.msb != (a - b).msb) := xor_signBit a (a - b)
  rw [Regs.updateSub8, subStatus, ssubOverflow_signs, BitVec.usubOverflow_eq, ← hdiff, ← hsign]
  simp [resultStatus]

theorem status_updateSub16 (a b : U16) :
    (regs.updateSub16 a b (a - b)).status = subStatus a b := by
  have hdiff : ((a ^^^ b) &&& 0x8000 != 0) = (a.msb != b.msb) := xor_signBit a b
  have hsign : ((a ^^^ (a - b)) &&& 0x8000 != 0) = (a.msb != (a - b).msb) := xor_signBit a (a - b)
  rw [Regs.updateSub16, subStatus, ssubOverflow_signs, BitVec.usubOverflow_eq, ← hdiff, ← hsign]
  simp [resultStatus]

theorem status_updateSub32 (a b : U32) :
    (regs.updateSub32 a b (a - b)).status = subStatus a b := by
  have hsigns : ((a ^^^ b) &&& (a ^^^ (a - b)) &&& 0x80000000 != 0) =
      ((a ^^^ b) &&& (a ^^^ (a - b))).msb := and_signBit _
  have hover : ((a ^^^ b) &&& (a ^^^ (a - b))).msb = a.ssubOverflow b := by
    rw [ssubOverflow_signs, BitVec.msb_and, BitVec.msb_xor, BitVec.msb_xor]
  rw [Regs.updateSub32, subStatus, BitVec.usubOverflow_eq, ← hover, ← hsigns]
  simp [resultStatus]

end Status

/-! ## The three functions as one -/

section Generic

variable {w : ℕ}

/-- What group 1 returns; CMP returns the destination. -/
def group1Value (field : BitVec 3) (dst imm cf : BitVec w) : BitVec w :=
  match field with
  | 0 => dst + imm
  | 1 => dst ||| imm
  | 2 => dst + imm + cf
  | 3 => dst - imm - cf
  | 4 => dst &&& imm
  | 5 => dst - imm
  | 6 => dst ^^^ imm
  | _ => dst

/-- The flags that group 1 leaves: those of the second operand with the carry
already in it. -/
def group1Status (field : BitVec 3) (dst imm cf : BitVec w) : Status :=
  match field with
  | 0 => addStatus dst imm
  | 1 => resultStatus false false (dst ||| imm)
  | 2 => addStatus dst (imm + cf)
  | 3 => subStatus dst (imm + cf)
  | 4 => resultStatus false false (dst &&& imm)
  | 6 => resultStatus false false (dst ^^^ imm)
  | _ => subStatus dst imm

/-- The text of `group1_u8`, `group1_u16` and `group1_u32`. -/
def group1With (read : ModRm → Routine (BitVec w))
    (updateAdd updateSub : Regs → BitVec w → BitVec w → BitVec w → Regs)
    (logicFlags : Regs → BitVec w → Regs) (modrm : ModRm) (imm : BitVec w) :
    Routine (BitVec w) := do
  let dst ← read modrm
  match modrm.reg with
  | 0 => do
      let r := dst + imm
      modRegs fun regs => updateAdd regs dst imm r
      return r
  | 1 => do
      let r := dst ||| imm
      modRegs fun regs => logicFlags regs r
      return r
  | 2 => do
      let cf ← getRegs (carry w)
      let r := dst + imm + cf
      modRegs fun regs => updateAdd regs dst (imm + cf) r
      return r
  | 3 => do
      let cf ← getRegs (carry w)
      let r := dst - imm - cf
      modRegs fun regs => updateSub regs dst (imm + cf) r
      return r
  | 4 => do
      let r := dst &&& imm
      modRegs fun regs => logicFlags regs r
      return r
  | 5 => do
      let r := dst - imm
      modRegs fun regs => updateSub regs dst imm r
      return r
  | 6 => do
      let r := dst ^^^ imm
      modRegs fun regs => logicFlags regs r
      return r
  | _ => do
      let r := dst - imm
      modRegs fun regs => updateSub regs dst imm r
      return dst

end Generic

/-- Operands of one width and what group 1 does with them. -/
structure AluSize (w : ℕ) extends OperandSize (BitVec w) where
  group1 : ModRm → BitVec w → Routine (BitVec w)
  get : BitVec 3 → Regs → BitVec w
  updateAdd : Regs → BitVec w → BitVec w → BitVec w → Regs
  updateSub : Regs → BitVec w → BitVec w → BitVec w → Regs
  logicFlags : Regs → BitVec w → Regs
  read_reg : ∀ modrm, modrm.mode = 3 → read modrm = getRegs (get modrm.rm)
  group1_eq : group1 = group1With read updateAdd updateSub logicFlags
  add_same : ∀ regs a b r, SameButFlags regs (updateAdd regs a b r)
  sub_same : ∀ regs a b r, SameButFlags regs (updateSub regs a b r)
  logic_same : ∀ regs r, SameButFlags regs (logicFlags regs r)
  add_status : ∀ regs a b, (updateAdd regs a b (a + b)).status = addStatus a b
  sub_status : ∀ regs a b, (updateSub regs a b (a - b)).status = subStatus a b
  logic_status : ∀ regs r, (logicFlags regs r).status = resultStatus false false r

def byteAlu : AluSize 8 where
  toOperandSize := byteOperand
  group1 := group1U8
  get := fun rm regs => regs.get8 (reg8FromField rm)
  updateAdd := Regs.updateAdd8
  updateSub := Regs.updateSub8
  logicFlags := Regs.logicFlags8
  read_reg := fun _ hmode => if_pos hmode
  group1_eq := rfl
  add_same := SameButFlags.updateAdd8
  sub_same := SameButFlags.updateSub8
  logic_same := fun _ _ => ⟨rfl, rfl, rfl⟩
  add_status := status_updateAdd8
  sub_status := status_updateSub8
  logic_status := by
    intro regs r
    simp [Regs.logicFlags8, resultStatus]

def wordAlu : AluSize 16 where
  toOperandSize := wordOperand
  group1 := group1U16
  get := fun rm regs => regs.get16 (reg16FromField rm)
  updateAdd := Regs.updateAdd16
  updateSub := Regs.updateSub16
  logicFlags := Regs.logicFlags16
  read_reg := fun _ hmode => if_pos hmode
  group1_eq := rfl
  add_same := SameButFlags.updateAdd16
  sub_same := SameButFlags.updateSub16
  logic_same := fun _ _ => ⟨rfl, rfl, rfl⟩
  add_status := status_updateAdd16
  sub_status := status_updateSub16
  logic_status := by
    intro regs r
    simp [Regs.logicFlags16, resultStatus]

def doubleOperand : OperandSize U32 where
  load := Memory.readU32
  store := Memory.writeU32
  read := readModrmU32
  write := writeModrmU32
  read_mem := fun _ hmode => if_neg hmode
  write_mem := fun _ _ hmode => if_neg hmode

def doubleAlu : AluSize 32 where
  toOperandSize := doubleOperand
  group1 := group1U32
  get := fun rm regs => regs.get32 (reg16FromField rm)
  updateAdd := Regs.updateAdd32
  updateSub := Regs.updateSub32
  logicFlags := Regs.logicFlags32
  read_reg := fun _ hmode => if_pos hmode
  group1_eq := rfl
  add_same := fun _ _ _ _ => ⟨rfl, rfl, rfl⟩
  sub_same := fun _ _ _ _ => ⟨rfl, rfl, rfl⟩
  logic_same := fun _ _ => ⟨rfl, rfl, rfl⟩
  add_status := status_updateAdd32
  sub_status := status_updateSub32
  logic_status := by
    intro regs r
    simp [Regs.logicFlags32, resultStatus]

/-- The width of an operand of group 1. -/
inductive Width where
  | byte | word | double
  deriving DecidableEq, Repr

def Width.bits : Width → ℕ
  | byte => 8
  | word => 16
  | double => 32

def Width.alu : (width : Width) → AluSize width.bits
  | byte => byteAlu
  | word => wordAlu
  | double => doubleAlu

/-! ## What group 1 returns and leaves -/

namespace AluSize

variable {w : ℕ} (size : AluSize w) {modrm : ModRm} {core mid : Core} {dst : BitVec w}

/-- Reading an operand fetches its address bytes and changes nothing else. -/
theorem read_returns (modrm : ModRm) (core : Core) :
    ∃ dst n, size.read modrm core = .ok (dst, core.skip n) := by
  by_cases hmode : modrm.mode = 3
  · rw [size.read_reg modrm hmode]
    exact ⟨_, 0, rfl⟩
  · rcases eaFromModrm_fetches hmode core with ⟨n, -, ea, hea⟩
    rw [size.read_mem modrm hmode, bind_ok hea]
    exact ⟨_, n, rfl⟩

theorem group1_run (imm : BitVec w) (hread : size.read modrm core = .ok (dst, mid)) :
    ∃ regs, SameButFlags mid.cpu.regs regs ∧
      regs.status = group1Status modrm.reg dst imm (carry w mid.cpu.regs) ∧
      size.group1 modrm imm core =
        .ok (group1Value modrm.reg dst imm (carry w mid.cpu.regs), mid.setRegs regs) := by
  rw [size.group1_eq, group1With, bind_ok hread]
  rcases field_cases modrm.reg with
    hreg | hreg | hreg | hreg | hreg | hreg | hreg | hreg <;> rw [hreg]
  · exact ⟨_, size.add_same _ _ _ _, size.add_status _ _ _, rfl⟩
  · exact ⟨_, size.logic_same _ _, size.logic_status _ _, rfl⟩
  · refine ⟨_, size.add_same _ _ _ _, ?_, rfl⟩
    rw [add_assoc]
    exact size.add_status _ _ _
  · refine ⟨_, size.sub_same _ _ _ _, ?_, rfl⟩
    rw [sub_sub]
    exact size.sub_status _ _ _
  · exact ⟨_, size.logic_same _ _, size.logic_status _ _, rfl⟩
  · exact ⟨_, size.sub_same _ _ _ _, size.sub_status _ _ _, rfl⟩
  · exact ⟨_, size.logic_same _ _, size.logic_status _ _, rfl⟩
  · exact ⟨_, size.sub_same _ _ _ _, size.sub_status _ _ _, rfl⟩

end AluSize

end Kita98
