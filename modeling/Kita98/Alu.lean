import Kita98.ModRm

/-!
# Arithmetic groups

Group 1 (`80`-`83`) and group 3 (`F6`, `F7`): the arms of `dispatch_alu`, with the
shifts and rotates of group 2 between them.
-/

namespace Kita98

open WordBits Kita98.Core

/-- Flags of OR, AND and XOR: ZF, SF and PF from the result, CF and OF clear. -/
def Regs.logicFlags8 (regs : Regs) (r : U8) : Regs :=
  ((regs.updateFlagsU8 r).setCf false).setOf false

def Regs.logicFlags16 (regs : Regs) (r : U16) : Regs :=
  ((regs.updateFlagsU16 r).setCf false).setOf false

def Regs.logicFlags32 (regs : Regs) (r : U32) : Regs :=
  ((regs.updateFlagsU32 r).setCf false).setOf false

def carry (n : ℕ) (regs : Regs) : BitVec n := if regs.getCf then 1 else 0

def group1U8 (modrm : ModRm) (imm : U8) : Routine U8 := do
  let dst ← readModrmU8 modrm
  match modrm.reg with
  | 0 => do
      let r := dst + imm
      modRegs fun regs => regs.updateAdd8 dst imm r
      return r
  | 1 => do
      let r := dst ||| imm
      modRegs fun regs => regs.logicFlags8 r
      return r
  | 2 => do
      let cf ← getRegs (carry 8)
      let r := dst + imm + cf
      modRegs fun regs => regs.updateAdd8 dst (imm + cf) r
      return r
  | 3 => do
      let cf ← getRegs (carry 8)
      let r := dst - imm - cf
      modRegs fun regs => regs.updateSub8 dst (imm + cf) r
      return r
  | 4 => do
      let r := dst &&& imm
      modRegs fun regs => regs.logicFlags8 r
      return r
  | 5 => do
      let r := dst - imm
      modRegs fun regs => regs.updateSub8 dst imm r
      return r
  | 6 => do
      let r := dst ^^^ imm
      modRegs fun regs => regs.logicFlags8 r
      return r
  | _ => do
      let r := dst - imm
      modRegs fun regs => regs.updateSub8 dst imm r
      return dst

def group1U16 (modrm : ModRm) (imm : U16) : Routine U16 := do
  let dst ← readModrmU16 modrm
  match modrm.reg with
  | 0 => do
      let r := dst + imm
      modRegs fun regs => regs.updateAdd16 dst imm r
      return r
  | 1 => do
      let r := dst ||| imm
      modRegs fun regs => regs.logicFlags16 r
      return r
  | 2 => do
      let cf ← getRegs (carry 16)
      let r := dst + imm + cf
      modRegs fun regs => regs.updateAdd16 dst (imm + cf) r
      return r
  | 3 => do
      let cf ← getRegs (carry 16)
      let r := dst - imm - cf
      modRegs fun regs => regs.updateSub16 dst (imm + cf) r
      return r
  | 4 => do
      let r := dst &&& imm
      modRegs fun regs => regs.logicFlags16 r
      return r
  | 5 => do
      let r := dst - imm
      modRegs fun regs => regs.updateSub16 dst imm r
      return r
  | 6 => do
      let r := dst ^^^ imm
      modRegs fun regs => regs.logicFlags16 r
      return r
  | _ => do
      let r := dst - imm
      modRegs fun regs => regs.updateSub16 dst imm r
      return dst

def group1U32 (modrm : ModRm) (imm : U32) : Routine U32 := do
  let dst ← readModrmU32 modrm
  match modrm.reg with
  | 0 => do
      let r := dst + imm
      modRegs fun regs => regs.updateAdd32 dst imm r
      return r
  | 1 => do
      let r := dst ||| imm
      modRegs fun regs => regs.logicFlags32 r
      return r
  | 2 => do
      let cf ← getRegs (carry 32)
      let r := dst + imm + cf
      modRegs fun regs => regs.updateAdd32 dst (imm + cf) r
      return r
  | 3 => do
      let cf ← getRegs (carry 32)
      let r := dst - imm - cf
      modRegs fun regs => regs.updateSub32 dst (imm + cf) r
      return r
  | 4 => do
      let r := dst &&& imm
      modRegs fun regs => regs.logicFlags32 r
      return r
  | 5 => do
      let r := dst - imm
      modRegs fun regs => regs.updateSub32 dst imm r
      return r
  | 6 => do
      let r := dst ^^^ imm
      modRegs fun regs => regs.logicFlags32 r
      return r
  | _ => do
      let r := dst - imm
      modRegs fun regs => regs.updateSub32 dst imm r
      return dst

/-! ## Group 1 -/

/-- The value `group1_u8` returns is dropped, as in the source. -/
def group1Rm8Imm8 : Routine StepResult := do
  let modrm ← fetchModrm
  let imm ← fetchU8
  let _ ← group1U8 modrm imm
  return .proceed

def group1Rm16Imm16 : Routine StepResult := do
  let modrm ← fetchModrm
  let imm ← fetchU16
  let _ ← group1U16 modrm imm
  return .proceed

def group1Rm16Imm8 : Routine StepResult := do
  let modrm ← fetchModrm
  let imm ← fetchU8
  let _ ← group1U16 modrm (imm.signExtend 16)
  return .proceed

/-! ## Group 2

No arm calls these. -/

/-- ROL of a byte; `8 - cnt` is a checked subtraction. -/
def rolRm8 (v : U8) (cnt : ℕ) : Routine U8 :=
  if cnt > 8 then Exec.fail .overflow
  else do
    modRegs fun regs => regs.setCf ((v >>> (8 - cnt)) &&& 1 != 0)
    return v.rotateLeft cnt

/-- Shifting a byte by 8 or more is checked. -/
def rorRm8 (v : U8) (cnt : ℕ) : Routine U8 :=
  if cnt > 8 then Exec.fail .overflow
  else do
    modRegs fun regs => regs.setCf ((v >>> (cnt - 1)) &&& 1 != 0)
    return v.rotateRight cnt

def rclRm8 (c : U8) : ℕ → Routine U8
  | 0 => return c
  | cnt + 1 => do
      let oldCf ← getRegs (carry 8)
      modRegs fun regs => regs.setCf (c &&& 0x80 != 0)
      rclRm8 ((c <<< 1) ||| oldCf) cnt

def rcrRm8 (c : U8) : ℕ → Routine U8
  | 0 => return c
  | cnt + 1 => do
      let oldCf ← getRegs (carry 8)
      modRegs fun regs => regs.setCf (c &&& 0x01 != 0)
      rcrRm8 ((c >>> 1) ||| (oldCf <<< 7)) cnt

def shlRm8 (v : U8) (cnt : ℕ) : Routine U8 :=
  if cnt ≥ 8 then Exec.fail .overflow
  else do
    modRegs fun regs => regs.setCf ((v <<< (cnt - 1)) &&& 0x80 != 0)
    return v <<< cnt

def shrRm8 (v : U8) (cnt : ℕ) : Routine U8 :=
  if cnt ≥ 8 then Exec.fail .overflow
  else do
    modRegs fun regs => regs.setCf ((v >>> (cnt - 1)) &&& 0x01 != 0)
    return v >>> cnt

def sarRm8 (v : U8) (cnt : ℕ) : Routine U8 :=
  if cnt ≥ 8 then Exec.fail .overflow
  else do
    modRegs fun regs => regs.setCf (v.sshiftRight (cnt - 1) &&& 0x01 != 0)
    return v.sshiftRight cnt

def shiftU8 (modrm : ModRm) (v : U8) (cnt : ℕ) : Routine U8 :=
  match modrm.reg with
  | 0 => rolRm8 v cnt
  | 1 => rorRm8 v cnt
  | 2 => rclRm8 v cnt
  | 3 => rcrRm8 v cnt
  | 4 => shlRm8 v cnt
  | 5 => shrRm8 v cnt
  | 7 => sarRm8 v cnt
  | _ => return v

def shiftRm8 (mb count : U8) : Routine Unit := do
  let modrm := ModRm.decode mb
  let v ← readModrmU8 modrm
  let cnt := (count &&& 0x1F).toNat
  if cnt = 0 then return ()
  else do
    let r ← shiftU8 modrm v cnt
    modRegs fun regs => regs.updateFlagsU8 r
    writeModrmU8 modrm r

/-- Shifting a word by 16 or more is checked; the carry is left alone. -/
def shiftU16 (modrm : ModRm) (v : U16) (cnt : ℕ) : Routine U16 :=
  match modrm.reg with
  | 0 => return v.rotateLeft cnt
  | 1 => return v.rotateRight cnt
  | 4 => if cnt ≥ 16 then Exec.fail .overflow else return v <<< cnt
  | 5 => if cnt ≥ 16 then Exec.fail .overflow else return v >>> cnt
  | 7 => if cnt ≥ 16 then Exec.fail .overflow else return v.sshiftRight cnt
  | _ => return v

def shiftRm16 (mb count : U8) : Routine Unit := do
  let modrm := ModRm.decode mb
  let v ← readModrmU16 modrm
  let cnt := (count &&& 0x1F).toNat
  if cnt = 0 then return ()
  else do
    let r ← shiftU16 modrm v cnt
    modRegs fun regs => regs.updateFlagsU16 r
    writeModrmU16 modrm r

/-! ## Group 3, bytes -/

def testRm8 (modrm : ModRm) : Routine StepResult := do
  let imm ← fetchU8
  let val ← readModrmU8 modrm
  modRegs fun regs => regs.logicFlags8 (val &&& imm)
  return .proceed

def negRm8 (modrm : ModRm) : Routine StepResult := do
  let val ← readModrmU8 modrm
  let r := ~~~val + 1
  modRegs fun regs => regs.updateSub8 0 val r
  writeModrmU8 modrm r
  return .proceed

def notRm8 (modrm : ModRm) : Routine StepResult := do
  let val ← readModrmU8 modrm
  writeModrmU8 modrm (~~~val)
  return .proceed

def mulRm8 (modrm : ModRm) : Routine StepResult := do
  let al ← getRegs fun regs => (regs.get8 .AL).setWidth 16
  let src ← readModrmU8 modrm
  let r : U16 := al * src.setWidth 16
  modRegs fun regs => ((regs.set16 .AX r).setCf (r > 0xFF)).setOf (r > 0xFF)
  return .proceed

def imulRm8 (modrm : ModRm) : Routine StepResult := do
  let al ← getRegs fun regs => (regs.get8 .AL).signExtend 16
  let src ← readModrmU8 modrm
  let r : U16 := al * src.signExtend 16
  let wide := BitVec.slt 0x7F r || r.slt (-0x80)
  modRegs fun regs => ((regs.set16 .AX r).setCf wide).setOf wide
  return .proceed

def divRm8 (modrm : ModRm) : Routine StepResult := do
  let src ← readModrmU8 modrm
  if src = 0 then return .interrupt 0
  else do
    let ax ← getRegs fun regs => regs.get16 .AX
    modRegs fun regs => regs.set8 .AL ((ax / src.setWidth 16).setWidth 8)
    modRegs fun regs => regs.set8 .AH ((ax % src.setWidth 16).setWidth 8)
    return .proceed

/-- The signed division overflows on `i16::MIN / -1`. -/
def idivRm8 (modrm : ModRm) : Routine StepResult := do
  let val ← readModrmU8 modrm
  let src : U16 := val.signExtend 16
  if src = 0 then return .interrupt 0
  else do
    let ax ← getRegs fun regs => regs.get16 .AX
    if ax = 0x8000 ∧ src = -1 then Exec.fail .overflow
    else do
      modRegs fun regs => regs.set8 .AL ((ax.sdiv src).setWidth 8)
      modRegs fun regs => regs.set8 .AH ((ax.srem src).setWidth 8)
      return .proceed

def group3Rm8 : Routine StepResult := do
  let modrm ← fetchModrm
  match modrm.reg with
  | 0 | 1 => testRm8 modrm
  | 2 => negRm8 modrm
  | 3 => notRm8 modrm
  | 4 => mulRm8 modrm
  | 5 => imulRm8 modrm
  | 6 => divRm8 modrm
  | _ => idivRm8 modrm

/-! ## Group 3, words -/

def testRm16 (modrm : ModRm) : Routine StepResult := do
  let imm ← fetchU16
  let val ← readModrmU16 modrm
  modRegs fun regs => regs.logicFlags16 (val &&& imm)
  return .proceed

def negRm16 (modrm : ModRm) : Routine StepResult := do
  let val ← readModrmU16 modrm
  let r := ~~~val + 1
  modRegs fun regs => regs.updateSub16 0 val r
  writeModrmU16 modrm r
  return .proceed

def notRm16 (modrm : ModRm) : Routine StepResult := do
  let val ← readModrmU16 modrm
  writeModrmU16 modrm (~~~val)
  return .proceed

def mulRm16 (modrm : ModRm) : Routine StepResult := do
  let ax ← getRegs fun regs => (regs.get16 .AX).setWidth 32
  let src ← readModrmU16 modrm
  let r : U32 := ax * src.setWidth 32
  modRegs fun regs => regs.set16 .AX ((r &&& 0xFFFF).setWidth 16)
  modRegs fun regs => regs.set16 .DX ((r >>> 16).setWidth 16)
  modRegs fun regs => (regs.setCf (r > 0xFFFF)).setOf (r > 0xFFFF)
  return .proceed

def imulRm16 (modrm : ModRm) : Routine StepResult := do
  let ax ← getRegs fun regs => (regs.get16 .AX).signExtend 32
  let src ← readModrmU16 modrm
  let r : U32 := ax * src.signExtend 32
  let wide := BitVec.slt 32767 r || r.slt (-32768)
  modRegs fun regs => regs.set16 .AX ((r &&& 0xFFFF).setWidth 16)
  modRegs fun regs => regs.set16 .DX ((r.sshiftRight 16).setWidth 16)
  modRegs fun regs => (regs.setCf wide).setOf wide
  return .proceed

def divRm16 (modrm : ModRm) : Routine StepResult := do
  let val ← readModrmU16 modrm
  let src : U32 := val.setWidth 32
  if src = 0 then return .interrupt 0
  else do
    let dxax ← getRegs fun regs =>
      ((regs.get16 .DX).setWidth 32 <<< 16) ||| (regs.get16 .AX).setWidth 32
    modRegs fun regs => regs.set16 .AX ((dxax / src).setWidth 16)
    modRegs fun regs => regs.set16 .DX ((dxax % src).setWidth 16)
    return .proceed

/-- AX is sign-extended before it is joined to DX, and the signed division
overflows on `i32::MIN / -1`. -/
def idivRm16 (modrm : ModRm) : Routine StepResult := do
  let val ← readModrmU16 modrm
  let src : U32 := val.signExtend 32
  if src = 0 then return .interrupt 0
  else do
    let dxax ← getRegs fun regs =>
      ((regs.get16 .DX).signExtend 32 <<< 16) ||| (regs.get16 .AX).signExtend 32
    if dxax = 0x80000000 ∧ src = -1 then Exec.fail .overflow
    else do
      modRegs fun regs => regs.set16 .AX ((dxax.sdiv src).setWidth 16)
      modRegs fun regs => regs.set16 .DX ((dxax.srem src).setWidth 16)
      return .proceed

def group3Rm16 : Routine StepResult := do
  let modrm ← fetchModrm
  match modrm.reg with
  | 0 | 1 => testRm16 modrm
  | 2 => negRm16 modrm
  | 3 => notRm16 modrm
  | 4 => mulRm16 modrm
  | 5 => imulRm16 modrm
  | 6 => divRm16 modrm
  | _ => idivRm16 modrm

/-- The explicit arms of `dispatch_alu`. -/
def aluArm (opcode : U8) : Option (Routine StepResult) :=
  match opcode with
  | 0x80 | 0x82 => some group1Rm8Imm8
  | 0x81 => some group1Rm16Imm16
  | 0x83 => some group1Rm16Imm8
  | 0xF6 => some group3Rm8
  | 0xF7 => some group3Rm16
  | _ => none

end Kita98
