import Kita98.Misc

/-!
# Jumps, calls and returns: the arms of `dispatch_flow`
-/

namespace Kita98

open WordBits Kita98.Core

/-- `ip.wrapping_add(rel) & 0xFFFF` -/
def Regs.jumpRel (regs : Regs) (rel : U32) : Regs :=
  { regs with ip := (regs.ip + rel) &&& 0xFFFF#32 }

def Regs.jumpTo (regs : Regs) (offset : U16) : Regs :=
  { regs with ip := offset.setWidth 32 }

def Regs.jumpFar (regs : Regs) (segment offset : U16) : Regs :=
  (regs.jumpTo offset).setSeg .CS segment

/-- The short Jcc arms test the same conditions as `check_cond`. -/
def jccShort (opcode : U8) : Routine StepResult := do
  let rel ← fetchU8
  let taken ← getRegs fun regs => regs.checkCond (opcode.setWidth 4)
  if taken then
    modRegs fun regs => regs.jumpRel (rel.signExtend 32)
    return .proceed
  else return .proceed

def decrementCx : Routine U16 := do
  let cx ← getRegs fun regs => regs.get16 .CX - 1
  modRegs fun regs => regs.set16 .CX cx
  return cx

/-- The condition of LOOPNE, LOOPE, LOOP and JCXZ; the first three count CX
down. -/
def loopCond (opcode : U8) : Routine Bool :=
  match opcode with
  | 0xE0 => do
      let cx ← decrementCx
      getRegs fun regs => cx != 0 && !regs.getZf
  | 0xE1 => do
      let cx ← decrementCx
      getRegs fun regs => cx != 0 && regs.getZf
  | 0xE2 => do
      let cx ← decrementCx
      return cx != 0
  | _ => getRegs fun regs => regs.get16 .CX == 0

def loopRel8 (opcode : U8) : Routine StepResult := do
  let rel ← fetchU8
  let taken ← loopCond opcode
  if taken then
    modRegs fun regs => regs.jumpRel (rel.signExtend 32)
    return .proceed
  else return .proceed

def jmpRel8 : Routine StepResult := do
  let rel ← fetchU8
  modRegs fun regs => regs.jumpRel (rel.signExtend 32)
  return .proceed

def jmpRel16 : Routine StepResult := do
  let rel ← fetchU16
  modRegs fun regs => regs.jumpRel (rel.signExtend 32)
  return .proceed

def jmpFarPtr : Routine StepResult := do
  let off ← fetchU16
  let seg ← fetchU16
  modRegs fun regs => regs.jumpFar seg off
  return .proceed

def callRel16 : Routine StepResult := do
  let rel ← fetchU16
  let nextIp ← getRegs fun regs => regs.ip.setWidth 16
  push16 nextIp
  modRegs fun regs => regs.jumpRel (rel.signExtend 32)
  return .proceed

def pushFarReturn : Routine Unit := do
  let curCs ← getRegs fun regs => regs.getSeg .CS
  let curIp ← getRegs fun regs => regs.ip.setWidth 16
  push16 curCs
  push16 curIp

def callFarPtr : Routine StepResult := do
  let off ← fetchU16
  let seg ← fetchU16
  pushFarReturn
  modRegs fun regs => regs.jumpFar seg off
  return .proceed

/-- RET, with the count of bytes it releases. -/
def retNearRelease (n : U16) : Routine StepResult := do
  let ip ← pop16
  modRegs fun regs => regs.jumpTo ip
  modRegs fun regs => regs.set16 .SP (regs.get16 .SP + n)
  return .proceed

def retNearImm : Routine StepResult := do
  let n ← fetchU16
  retNearRelease n

def retNear : Routine StepResult := do
  let ip ← pop16
  modRegs fun regs => regs.jumpTo ip
  return .proceed

def retFarImm : Routine StepResult := do
  let n ← fetchU16
  let ip ← pop16
  let cs ← pop16
  modRegs fun regs => regs.jumpFar cs ip
  modRegs fun regs => regs.set16 .SP (regs.get16 .SP + n)
  return .proceed

def retFar : Routine StepResult := do
  let ip ← pop16
  let cs ← pop16
  modRegs fun regs => regs.jumpFar cs ip
  return .proceed

/-- `(flags & !0xFFFF) | value` -/
def Regs.setFlags16 (regs : Regs) (value : U16) : Regs :=
  { regs with flags := (regs.flags &&& 0xFFFF0000#32) ||| value.setWidth 32 }

def iret : Routine StepResult := do
  let newIp ← pop16
  let newCs ← pop16
  let newFlags ← pop16
  modRegs fun regs => (regs.jumpFar newCs newIp).setFlags16 newFlags
  return .proceed

/-! ## Group FF -/

/-- INC and DEC keep CF. -/
def incRm16 (modrm : ModRm) : Routine StepResult := do
  let v ← readModrmU16 modrm
  let r := v + 1
  modRegs fun regs => (regs.updateAdd16 v 1 r).setCf regs.getCf
  writeModrmU16 modrm r
  return .proceed

def decRm16 (modrm : ModRm) : Routine StepResult := do
  let v ← readModrmU16 modrm
  let r := v - 1
  modRegs fun regs => (regs.updateSub16 v 1 r).setCf regs.getCf
  writeModrmU16 modrm r
  return .proceed

def callRm16 (modrm : ModRm) : Routine StepResult := do
  let target ← readModrmU16 modrm
  let nextIp ← getRegs fun regs => regs.ip.setWidth 16
  push16 nextIp
  modRegs fun regs => regs.jumpTo target
  return .proceed

def readFarPointer (modrm : ModRm) : Routine (U16 × U16) := do
  let ea ← eaFromModrm modrm
  getMem fun mem => (mem.readU16 ea, mem.readU16 (ea + 2))

def callFarMem (modrm : ModRm) : Routine StepResult := do
  let (off, seg) ← readFarPointer modrm
  pushFarReturn
  modRegs fun regs => regs.jumpFar seg off
  return .proceed

def jmpRm16 (modrm : ModRm) : Routine StepResult := do
  let target ← readModrmU16 modrm
  modRegs fun regs => regs.jumpTo target
  return .proceed

def jmpFarMem (modrm : ModRm) : Routine StepResult := do
  let (off, seg) ← readFarPointer modrm
  modRegs fun regs => regs.jumpFar seg off
  return .proceed

def pushRm16 (modrm : ModRm) : Routine StepResult := do
  let val ← readModrmU16 modrm
  push16 val
  return .proceed

def groupFF : Routine StepResult := do
  let modrm ← fetchModrm
  match modrm.reg with
  | 0 => incRm16 modrm
  | 1 => decRm16 modrm
  | 2 => callRm16 modrm
  | 3 => callFarMem modrm
  | 4 => jmpRm16 modrm
  | 5 => jmpFarMem modrm
  | 6 => pushRm16 modrm
  | _ => return .unimplemented 0xFF

def flowArm (opcode : U8) : Option (Routine StepResult) :=
  if 0x70 ≤ opcode ∧ opcode ≤ 0x7F then some (jccShort opcode)
  else if 0xE0 ≤ opcode ∧ opcode ≤ 0xE3 then some (loopRel8 opcode)
  else
    match opcode with
    | 0xEB => some jmpRel8
    | 0xE9 => some jmpRel16
    | 0xEA => some jmpFarPtr
    | 0xE8 => some callRel16
    | 0x9A => some callFarPtr
    | 0xC2 => some retNearImm
    | 0xC3 => some retNear
    | 0xCA => some retFarImm
    | 0xCB => some retFar
    | 0xCF => some iret
    | 0xFF => some groupFF
    | _ => none

end Kita98
