import Kita98.Flow

/-!
# Moves and exchanges: the arms of `dispatch_transfer`
-/

namespace Kita98

open WordBits Kita98.Core

def movReg8Imm (opcode : U8) : Routine StepResult := do
  let imm ← fetchU8
  modRegs fun regs => regs.set8 (reg8FromField (opcode.setWidth 3)) imm
  return .proceed

def movReg16Imm (opcode : U8) : Routine StepResult := do
  let imm ← fetchU16
  modRegs fun regs => regs.set16 (reg16FromField (opcode.setWidth 3)) imm
  return .proceed

def movRm8Reg : Routine StepResult := do
  let modrm ← fetchModrm
  let val ← getRegs fun regs => regs.get8 (reg8FromField modrm.reg)
  writeModrmU8 modrm val
  return .proceed

def movRm16Reg : Routine StepResult := do
  let modrm ← fetchModrm
  let val ← getRegs fun regs => regs.get16 (reg16FromField modrm.reg)
  writeModrmU16 modrm val
  return .proceed

def movReg8Rm : Routine StepResult := do
  let modrm ← fetchModrm
  let val ← readModrmU8 modrm
  modRegs fun regs => regs.set8 (reg8FromField modrm.reg) val
  return .proceed

def movReg16Rm : Routine StepResult := do
  let modrm ← fetchModrm
  let val ← readModrmU16 modrm
  modRegs fun regs => regs.set16 (reg16FromField modrm.reg) val
  return .proceed

/-- The immediate is fetched before the operand is decoded. -/
def movRm8Imm : Routine StepResult := do
  let modrm ← fetchModrm
  let imm ← fetchU8
  writeModrmU8 modrm imm
  return .proceed

def movRm16Imm : Routine StepResult := do
  let modrm ← fetchModrm
  let imm ← fetchU16
  writeModrmU16 modrm imm
  return .proceed

/-! ## Accumulator moves -/

def movAlMoffs : Routine StepResult := do
  let off ← fetchU16
  let seg ← overriddenSeg .DS
  let v ← getMem fun mem => mem.segReadU8 seg (off.setWidth 32)
  modRegs fun regs => regs.set8 .AL v
  return .proceed

def movAxMoffs : Routine StepResult := do
  let off ← fetchU16
  let seg ← overriddenSeg .DS
  let v ← getMem fun mem => mem.segReadU16 seg (off.setWidth 32)
  modRegs fun regs => regs.set16 .AX v
  return .proceed

def movMoffsAl : Routine StepResult := do
  let off ← fetchU16
  let seg ← overriddenSeg .DS
  let v ← getRegs fun regs => regs.get8 .AL
  modMem fun mem => mem.segWriteU8 seg (off.setWidth 32) v
  return .proceed

def movMoffsAx : Routine StepResult := do
  let off ← fetchU16
  let seg ← overriddenSeg .DS
  let v ← getRegs fun regs => regs.get16 .AX
  modMem fun mem => mem.segWriteU16 seg (off.setWidth 32) v
  return .proceed

/-! ## Addresses, exchanges and far pointers -/

def lea : Routine StepResult := do
  let modrm ← fetchModrm
  let ea ← eaFromModrm modrm
  modRegs fun regs => regs.set16 (reg16FromField modrm.reg) (ea.setWidth 16)
  return .proceed

def xchgAx (opcode : U8) : Routine StepResult := do
  let reg := reg16FromField (opcode.setWidth 3)
  let a ← getRegs fun regs => regs.get16 .AX
  let b ← getRegs fun regs => regs.get16 reg
  modRegs fun regs => (regs.set16 .AX b).set16 reg a
  return .proceed

def xchgRm8 : Routine StepResult := do
  let modrm ← fetchModrm
  let reg := reg8FromField modrm.reg
  let a ← getRegs fun regs => regs.get8 reg
  let b ← readModrmU8 modrm
  modRegs fun regs => regs.set8 reg b
  writeModrmU8 modrm a
  return .proceed

def xchgRm16 : Routine StepResult := do
  let modrm ← fetchModrm
  let reg := reg16FromField modrm.reg
  let a ← getRegs fun regs => regs.get16 reg
  let b ← readModrmU16 modrm
  modRegs fun regs => regs.set16 reg b
  writeModrmU16 modrm a
  return .proceed

/-- LES and LDS. -/
def loadFarPointer (s : SegReg) : Routine StepResult := do
  let modrm ← fetchModrm
  let (off, seg) ← readFarPointer modrm
  modRegs fun regs => (regs.set16 (reg16FromField modrm.reg) off).setSeg s seg
  return .proceed

def popRm16 : Routine StepResult := do
  let modrm ← fetchModrm
  let val ← pop16
  writeModrmU16 modrm val
  return .proceed

def transferArm (opcode : U8) : Option (Routine StepResult) :=
  if 0xB0 ≤ opcode ∧ opcode ≤ 0xB7 then some (movReg8Imm opcode)
  else if 0xB8 ≤ opcode ∧ opcode ≤ 0xBF then some (movReg16Imm opcode)
  else if opcode = 0x90 then some (pure .proceed)
  else if 0x91 ≤ opcode ∧ opcode ≤ 0x97 then some (xchgAx opcode)
  else
    match opcode with
    | 0x88 => some movRm8Reg
    | 0x89 => some movRm16Reg
    | 0x8A => some movReg8Rm
    | 0x8B => some movReg16Rm
    | 0xC6 => some movRm8Imm
    | 0xC7 => some movRm16Imm
    | 0xA0 => some movAlMoffs
    | 0xA1 => some movAxMoffs
    | 0xA2 => some movMoffsAl
    | 0xA3 => some movMoffsAx
    | 0x8D => some lea
    | 0x86 => some xchgRm8
    | 0x87 => some xchgRm16
    | 0xC4 => some (loadFarPointer .ES)
    | 0xC5 => some (loadFarPointer .DS)
    | 0x8F => some popRm16
    | _ => none

end Kita98
