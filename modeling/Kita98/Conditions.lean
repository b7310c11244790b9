import Kita98.ArmEffects
import Kita98.Group1

/-!
# What the condition codes decide

A comparison leaves the flags of the difference of its operands, whichever of
the helpers set them.  The short jumps have a table of conditions of their own
beside the one of the near jumps and of SETcc; read on those flags, both tables
decide the orders of the operands as unsigned and as signed numbers.
-/

namespace Kita98

open WordBits Kita98.Core Exec

/-! ## The two tables -/

/-- The table in the arms of the short jumps. -/
def Regs.shortCond (regs : Regs) (cond : BitVec 4) : Bool :=
  match cond with
  | 0x0 => regs.getOf
  | 0x1 => !regs.getOf
  | 0x2 => regs.getCf
  | 0x3 => !regs.getCf
  | 0x4 => regs.getZf
  | 0x5 => !regs.getZf
  | 0x6 => regs.getCf || regs.getZf
  | 0x7 => !regs.getCf && !regs.getZf
  | 0x8 => regs.getSf
  | 0x9 => !regs.getSf
  | 0xA => regs.getPf
  | 0xB => !regs.getPf
  | 0xC => regs.getSf != regs.getOf
  | 0xD => regs.getSf == regs.getOf
  | 0xE => regs.getZf || (regs.getSf != regs.getOf)
  | _ => !regs.getZf && (regs.getSf == regs.getOf)

/-- The arms of the short jumps with their own table. -/
def jccShortArm (opcode : U8) : Routine StepResult := do
  let rel ← fetchU8
  let cond ← getRegs fun regs => regs.shortCond (opcode.setWidth 4)
  if cond then
    modRegs fun regs => regs.jumpRel (rel.signExtend 32)
    return .proceed
  else return .proceed

theorem jccShortArm_eq : jccShortArm = jccShort := rfl

/-! ## Relations -/

/-- An even number of ones in the low byte. -/
def EvenOnes {w : ℕ} (v : BitVec w) : Prop :=
  Even ((List.range 8).filter fun i => v.getLsbD i).length

instance {w : ℕ} (v : BitVec w) : Decidable (EvenOnes v) := by
  unfold EvenOnes
  infer_instance

/-- What each condition code asks of the operands of a comparison. -/
def Relates {w : ℕ} (cc : BitVec 4) (a b : BitVec w) : Prop :=
  match cc with
  | 0x0 => ¬ (-2 ^ (w - 1) ≤ a.toInt - b.toInt ∧ a.toInt - b.toInt < 2 ^ (w - 1))
  | 0x1 => -2 ^ (w - 1) ≤ a.toInt - b.toInt ∧ a.toInt - b.toInt < 2 ^ (w - 1)
  | 0x2 => a.toNat < b.toNat
  | 0x3 => b.toNat ≤ a.toNat
  | 0x4 => a = b
  | 0x5 => a ≠ b
  | 0x6 => a.toNat ≤ b.toNat
  | 0x7 => b.toNat < a.toNat
  | 0x8 => (a - b).toInt < 0
  | 0x9 => 0 ≤ (a - b).toInt
  | 0xA => EvenOnes (a - b)
  | 0xB => ¬ EvenOnes (a - b)
  | 0xC => a.toInt < b.toInt
  | 0xD => b.toInt ≤ a.toInt
  | 0xE => a.toInt ≤ b.toInt
  | _ => b.toInt < a.toInt

theorem cond_cases : ∀ cc : BitVec 4, cc = 0 ∨ cc = 1 ∨ cc = 2 ∨ cc = 3 ∨ cc = 4 ∨ cc = 5 ∨
    cc = 6 ∨ cc = 7 ∨ cc = 8 ∨ cc = 9 ∨ cc = 10 ∨ cc = 11 ∨ cc = 12 ∨ cc = 13 ∨ cc = 14 ∨
      cc = 15 := by
  decide

section Status

variable {w : ℕ} (a b : BitVec w)

theorem subStatus_zf : (subStatus a b).zf = decide (a = b) := by
  have hzero : a - b = 0 ↔ a = b := sub_eq_zero
  rw [subStatus, resultStatus, beq_eq_decide, decide_eq_decide]
  exact hzero

theorem subStatus_sf : (subStatus a b).sf = decide ((a - b).toInt < 0) := BitVec.msb_eq_toInt

theorem subStatus_of :
    (subStatus a b).of =
      !decide (-2 ^ (w - 1) ≤ a.toInt - b.toInt ∧ a.toInt - b.toInt < 2 ^ (w - 1)) := by
  rw [subStatus, resultStatus, BitVec.ssubOverflow]
  by_cases hlow : -2 ^ (w - 1) ≤ a.toInt - b.toInt <;>
    by_cases hhigh : a.toInt - b.toInt < 2 ^ (w - 1) <;> simp [hlow, hhigh] <;> omega

theorem subStatus_less :
    ((subStatus a b).sf != (subStatus a b).of) = decide (a.toInt < b.toInt) :=
  sub_msb_ne_ssubOverflow a b

theorem subStatus_pf : (subStatus a b).pf = decide (EvenOnes (a - b)) := by
  have hlow : ((List.range 8).filter fun i => ((a - b).setWidth 8).getLsbD i) =
      (List.range 8).filter fun i => (a - b).getLsbD i := by
    apply List.filter_congr
    intro i hi
    have hsmall : i < 8 := List.mem_range.mp hi
    simp [hsmall]
  rw [subStatus, resultStatus, Regs.evenParity, hlow, decide_eq_decide, EvenOnes, Nat.even_iff]

end Status

/-- On the flags of a difference the table decides the relations. -/
theorem checkCond_iff
    {w : ℕ} {a b : BitVec w} {regs : Regs} (hstatus : regs.status = subStatus a b)
    (cc : BitVec 4) : regs.checkCond cc = true ↔ Relates cc a b := by
  have hcf : regs.getCf = decide (a.toNat < b.toNat) := congrArg Status.cf hstatus
  have hzf : regs.getZf = decide (a = b) := (congrArg Status.zf hstatus).trans (subStatus_zf a b)
  have hsf : regs.getSf = decide ((a - b).toInt < 0) :=
    (congrArg Status.sf hstatus).trans (subStatus_sf a b)
  have hof : regs.getOf =
      !decide (-2 ^ (w - 1) ≤ a.toInt - b.toInt ∧ a.toInt - b.toInt < 2 ^ (w - 1)) :=
    (congrArg Status.of hstatus).trans (subStatus_of a b)
  have hpf : regs.getPf = decide (EvenOnes (a - b)) :=
    (congrArg Status.pf hstatus).trans (subStatus_pf a b)
  have hless : (regs.getSf != regs.getOf) = decide (a.toInt < b.toInt) := by
    rw [← subStatus_less, ← hstatus]
    rfl
  have hsame : (regs.getSf == regs.getOf) = decide (b.toInt ≤ a.toInt) := by
    have hflip : (regs.getSf == regs.getOf) = !(regs.getSf != regs.getOf) := by
      cases regs.getSf <;> cases regs.getOf <;> rfl
    simp only [hflip, hless, ← decide_not, not_lt]
  have hnat : a = b ↔ a.toNat = b.toNat := BitVec.toNat_inj.symm
  have hint : a = b ↔ a.toInt = b.toInt := BitVec.toInt_inj.symm
  rcases cond_cases cc with
    h | h | h | h | h | h | h | h | h | h | h | h | h | h | h | h <;> subst h
  all_goals simp only [Regs.checkCond, Relates, hless, hsame]
  all_goals simp [hof, hcf, hzf, hsf, hpf]
  · omega
  · rw [hnat]
    omega
  · rw [hnat]
    omega
  · rw [hint]
    omega
  · rw [hint]
    omega

/-! ## Comparisons -/

theorem Regs.status_of_flags {regs regs' : Regs} (hflags : regs.flags = regs'.flags) :
    regs.status = regs'.status := by
  unfold Regs.status Regs.getCf Regs.getZf Regs.getSf Regs.getOf Regs.getPf Regs.flag
  rw [hflags]

@[simp] theorem status_strAdvance (regs : Regs) (r : Reg16) (delta : U16) :
    (regs.strAdvance r delta).status = regs.status := by
  apply Regs.status_of_flags
  unfold Regs.strAdvance
  split <;> cases r <;> rfl

/-- A comparison of two values and the machine behind it. -/
inductive Compares : {w : ℕ} → BitVec w → BitVec w → Core → Core → Prop
  | group1 {width : Width} {modrm : ModRm} {dst imm value : BitVec width.bits}
      {core mid after : Core} (hfield : modrm.reg = 7)
      (hread : width.alu.read modrm core = .ok (dst, mid))
      (hrun : width.alu.group1 modrm imm core = .ok (value, after)) :
      Compares dst imm core after
  | cmpsb {src dst : U8} {core after : Core}
      (hsrc : readSource Memory.segReadU8 core = .ok (src, core))
      (hdst : readDest Memory.segReadU8 core = .ok (dst, core))
      (hrun : dispatchString 0xA6 core = .ok (.proceed, after)) : Compares src dst core after
  | cmpsw {src dst : U16} {core after : Core}
      (hsrc : readSource Memory.segReadU16 core = .ok (src, core))
      (hdst : readDest Memory.segReadU16 core = .ok (dst, core))
      (hrun : dispatchString 0xA7 core = .ok (.proceed, after)) : Compares src dst core after
  | scasb {dst : U8} {core after : Core}
      (hdst : readDest Memory.segReadU8 core = .ok (dst, core))
      (hrun : dispatchString 0xAE core = .ok (.proceed, after)) :
      Compares (core.cpu.regs.get8 .AL) dst core after
  | scasw {dst : U16} {core after : Core}
      (hdst : readDest Memory.segReadU16 core = .ok (dst, core))
      (hrun : dispatchString 0xAF core = .ok (.proceed, after)) :
      Compares (core.cpu.regs.get16 .AX) dst core after

section Strings

variable {core : Core}

theorem cmpsb_apply {a b : U8} (hsrc : readSource Memory.segReadU8 core = .ok (a, core))
    (hdst : readDest Memory.segReadU8 core = .ok (b, core)) :
    cmpsb core = .ok ((), core.setRegs
      (((core.cpu.regs.updateSub8 a b (a - b)).strAdvance .SI 1).strAdvance .DI 1)) := by
  rw [cmpsb, bind_ok hsrc, bind_ok hdst]
  simp [modRegs, strSiAdvance, strDiAdvance, bind_apply]

theorem cmpsw_apply {a b : U16} (hsrc : readSource Memory.segReadU16 core = .ok (a, core))
    (hdst : readDest Memory.segReadU16 core = .ok (b, core)) :
    cmpsw core = .ok ((), core.setRegs
      (((core.cpu.regs.updateSub16 a b (a - b)).strAdvance .SI 2).strAdvance .DI 2)) := by
  rw [cmpsw, bind_ok hsrc, bind_ok hdst]
  simp [modRegs, strSiAdvance, strDiAdvance, bind_apply]

theorem scasb_apply {v : U8} (hdst : readDest Memory.segReadU8 core = .ok (v, core)) :
    scasb core = .ok ((), core.setRegs
      ((core.cpu.regs.updateSub8 (core.cpu.regs.get8 .AL) v
        (core.cpu.regs.get8 .AL - v)).strAdvance .DI 1)) := by
  rw [scasb, bind_ok hdst]
  simp [modRegs, strDiAdvance, bind_apply]

theorem scasw_apply {v : U16} (hdst : readDest Memory.segReadU16 core = .ok (v, core)) :
    scasw core = .ok ((), core.setRegs
      ((core.cpu.regs.updateSub16 (core.cpu.regs.get16 .AX) v
        (core.cpu.regs.get16 .AX - v)).strAdvance .DI 2)) := by
  rw [scasw, bind_ok hdst]
  simp [modRegs, strDiAdvance, bind_apply]

theorem dispatchString_after
    {opcode : U8} {body : Routine Unit} {flag : Bool} {mid after : Core}
    (hop : stringOp opcode = some (body, flag)) (hbody : body core = .ok ((), mid))
    (hrun : dispatchString opcode core = .ok (.proceed, after)) : after = mid := by
  have harm : stringArm opcode = some (do body; return .proceed) := by
    unfold stringArm
    rw [hop]
  rw [dispatchString, harm, Option.getD_some, bind_ok hbody] at hrun
  cases hrun
  rfl

end Strings

theorem Compares.status
    {w : ℕ} {a b : BitVec w} {core after : Core} (h : Compares a b core after) :
    after.cpu.regs.status = subStatus a b := by
  cases h with
  | group1 hfield hread hrun =>
      rcases AluSize.group1_run _ _ hread with ⟨regs, -, hstatus, hvalue⟩
      cases hvalue.symm.trans hrun
      rw [hfield] at hstatus
      exact hstatus
  | cmpsb hsrc hdst hrun =>
      rw [dispatchString_after rfl (cmpsb_apply hsrc hdst) hrun]
      simp [status_updateSub8]
  | cmpsw hsrc hdst hrun =>
      rw [dispatchString_after rfl (cmpsw_apply hsrc hdst) hrun]
      simp [status_updateSub16]
  | scasb hdst hrun =>
      rw [dispatchString_after rfl (scasb_apply hdst) hrun]
      simp [status_updateSub8]
  | scasw hdst hrun =>
      rw [dispatchString_after rfl (scasw_apply hdst) hrun]
      simp [status_updateSub16]

/-! ## The arms -/

instance {w : ℕ} (cc : BitVec 4) (a b : BitVec w) : Decidable (Relates cc a b) := by
  unfold Relates
  split <;> infer_instance

def shortJump (taken : Prop) [Decidable taken] : Routine StepResult := do
  let rel ← fetchU8
  if taken then
    modRegs fun regs => regs.jumpRel (rel.signExtend 32)
    return .proceed
  else return .proceed

def nearJump (taken : Prop) [Decidable taken] : Routine StepResult := do
  let prefixes ← getPrefixes
  let rel ←
    if prefixes.operand32 then fetchU32
    else do
      let rel ← fetchU16
      pure (rel.signExtend 32)
  if taken then
    modRegs fun regs => { regs with ip := regs.ip + rel }
    return .proceed
  else return .proceed

def setByte (taken : Prop) [Decidable taken] : Routine StepResult := do
  let modrm ← fetchModrm
  writeModrmU8 modrm (if taken then 1 else 0)
  return .proceed

section Arms

variable {core : Core} {taken : Prop} [Decidable taken]

theorem dispatch_short (cc : BitVec 4) :
    dispatch (0x70 + cc.setWidth 8) = jccShortArm (0x70 + cc.setWidth 8) := by
  rw [jccShortArm_eq]
  rcases cond_cases cc with
    h | h | h | h | h | h | h | h | h | h | h | h | h | h | h | h <;> subst h <;> rfl

theorem extendedArm_near (cc : BitVec 4) :
    extendedArm (0x80 + cc.setWidth 8) = jccNear (0x80 + cc.setWidth 8) := by
  rcases cond_cases cc with
    h | h | h | h | h | h | h | h | h | h | h | h | h | h | h | h <;> subst h <;> rfl

theorem extendedArm_setcc (cc : BitVec 4) :
    extendedArm (0x90 + cc.setWidth 8) = setcc (0x90 + cc.setWidth 8) := by
  rcases cond_cases cc with
    h | h | h | h | h | h | h | h | h | h | h | h | h | h | h | h <;> subst h <;> rfl

theorem cond_of_opcode (cc : BitVec 4) :
    (0x70 + cc.setWidth 8 : U8).setWidth 4 = cc ∧ (0x80 + cc.setWidth 8 : U8).setWidth 4 = cc ∧
      (0x90 + cc.setWidth 8 : U8).setWidth 4 = cc := by
  rcases cond_cases cc with
    h | h | h | h | h | h | h | h | h | h | h | h | h | h | h | h <;> subst h <;> decide

theorem jccShortArm_apply {opcode : U8}
    (htaken : core.cpu.regs.shortCond (opcode.setWidth 4) = true ↔ taken) :
    jccShortArm opcode core = shortJump taken core := by
  rw [jccShortArm, shortJump, bind_ok (fetchU8_apply core), bind_ok (fetchU8_apply core),
    bind_ok (getRegs_apply _ _)]
  exact congrFun (if_congr htaken rfl rfl) _

theorem jccNear_jump {opcode : U8}
    (htaken : core.cpu.regs.checkCond (opcode.setWidth 4) = true ↔ taken) :
    jccNear opcode core = nearJump taken core := by
  unfold jccNear nearJump
  rw [bind_ok (getPrefixes_apply core), bind_ok (getPrefixes_apply core)]
  cases core.cpu.prefixes.operand32 with
  | true =>
      simp only [if_true]
      rw [bind_ok (fetchU32_apply core), bind_ok (fetchU32_apply core), bind_ok (getRegs_apply _ _)]
      exact congrFun (if_congr htaken rfl rfl) _
  | false =>
      simp only [Bool.false_eq_true, if_false]
      rw [bind_ok (fetchU16_apply core), bind_ok (pure_apply _ _), bind_ok (fetchU16_apply core),
        bind_ok (pure_apply _ _), bind_ok (getRegs_apply _ _)]
      exact congrFun (if_congr htaken rfl rfl) _

theorem setcc_byte {opcode : U8}
    (htaken : core.cpu.regs.checkCond (opcode.setWidth 4) = true ↔ taken) :
    setcc opcode core = setByte taken core := by
  rw [setcc, setByte, bind_ok (fetchModrm_apply core), bind_ok (fetchModrm_apply core),
    bind_ok (getRegs_apply _ _)]
  have hvalue : (if (core.skip 1).cpu.regs.checkCond (opcode.setWidth 4) then 1 else 0 : U8) =
      if taken then 1 else 0 := if_congr htaken rfl rfl
  rw [hvalue]

end Arms

/-- Every arm with a condition code decides by the relation of the operands. -/
structure DecidesBy {w : ℕ} (a b : BitVec w) (cc : BitVec 4) (core : Core) : Prop where
  short_table : core.cpu.regs.shortCond cc = true ↔ Relates cc a b
  near_table : core.cpu.regs.checkCond cc = true ↔ Relates cc a b
  short : dispatch (0x70 + cc.setWidth 8) core = shortJump (Relates cc a b) core
  near : extendedArm (0x80 + cc.setWidth 8) core = nearJump (Relates cc a b) core
  setcc : extendedArm (0x90 + cc.setWidth 8) core = setByte (Relates cc a b) core

/-- However many instructions that keep the flags stand in between. -/
theorem conditions_decide
    {w : ℕ} {a b : BitVec w} {core after later : Core} (hcompare : Compares a b core after)
    (hflags : later.cpu.regs.flags = after.cpu.regs.flags) (cc : BitVec 4) :
    DecidesBy a b cc later := by
  have hstatus : later.cpu.regs.status = subStatus a b :=
    (Regs.status_of_flags hflags).trans hcompare.status
  have hnear : later.cpu.regs.checkCond cc = true ↔ Relates cc a b := checkCond_iff hstatus cc
  have hshort : later.cpu.regs.shortCond cc = true ↔ Relates cc a b := hnear
  rcases cond_of_opcode cc with ⟨hcc7, hcc8, hcc9⟩
  refine ⟨hshort, hnear, ?_, ?_, ?_⟩
  · rw [dispatch_short]
    exact jccShortArm_apply (by rw [hcc7]; exact hshort)
  · rw [extendedArm_near]
    exact jccNear_jump (by rw [hcc8]; exact hnear)
  · rw [extendedArm_setcc]
    exact setcc_byte (by rw [hcc9]; exact hnear)

/-- `CMP AL, 5` with AL = 0, then `JL`. -/
theorem conditions_decide_less :
    DecidesBy (0 : U8) 5 0xC
      ((operandCore []).setRegs ((operandCore []).cpu.regs.updateSub8 0 5 (0 - 5))) :=
  conditions_decide
    (@Compares.group1 .byte (ModRm.decode 0xF8) 0 5 0 (operandCore []) _ _ rfl rfl rfl) rfl 0xC

end Kita98
