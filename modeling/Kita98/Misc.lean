import Kita98.Extended

/-!
# Flags, interrupts and port instructions: the arms of `dispatch_misc`
-/

namespace Kita98

open WordBits Kita98.Core

def hlt : Routine StepResult := do
  Exec.update fun core => { core with cpu := { core.cpu with halted := true } }
  return .halt

def intImm8 : Routine StepResult := do
  let num ← fetchU8
  return .interrupt num

def salc : Routine StepResult := do
  modRegs fun regs => regs.set8 .AL (if regs.getCf then 0xFF else 0x00)
  return .proceed

def changeRegs (f : Regs → Regs) : Routine StepResult := do
  modRegs f
  return .proceed

/-- AAM and AAD only skip their immediate. -/
def skipImm8 : Routine StepResult := do
  let _ ← fetchU8
  return .proceed

/-! ## IN and OUT, with the port in an immediate byte or in DX -/

def immPort : Routine U16 := do
  return (← fetchU8).setWidth 16

def dxPort : Routine U16 := getRegs fun regs => regs.get16 .DX

def inByte (portOf : Routine U16) : Routine StepResult := do
  let port ← portOf
  let val ← ioRead port
  modRegs fun regs => regs.set8 .AL val
  return .proceed

def inWord (portOf : Routine U16) : Routine StepResult := do
  let port ← portOf
  let lo ← ioRead port
  let hi ← ioRead (port + 1)
  modRegs fun regs => regs.set16 .AX (joinBytes lo hi)
  return .proceed

def outByte (portOf : Routine U16) : Routine StepResult := do
  let port ← portOf
  let val ← getRegs fun regs => regs.get8 .AL
  ioWrite port val
  return .proceed

def outWord (portOf : Routine U16) : Routine StepResult := do
  let port ← portOf
  let val ← getRegs fun regs => regs.get16 .AX
  ioWrite port (lowByte val)
  ioWrite (port + 1) (highByte val)
  return .proceed

/-! ## Segment moves and FPU stubs -/

def movRm16Seg : Routine StepResult := do
  let modrm ← fetchModrm
  let val ← getRegs fun regs => regs.getSeg (segFromField modrm.reg)
  writeModrmU16 modrm val
  return .proceed

def movSegRm16 : Routine StepResult := do
  let modrm ← fetchModrm
  let val ← readModrmU16 modrm
  modRegs fun regs => regs.setSeg (segFromField modrm.reg) val
  return .proceed

def fpuStub : Routine StepResult := do
  let modrm ← fetchModrm
  consumeEa modrm
  return .proceed

def miscArm (opcode : U8) : Option (Routine StepResult) :=
  if 0xD8 ≤ opcode ∧ opcode ≤ 0xDF then some fpuStub
  else
    match opcode with
    | 0x0F => some dispatch0f
    | 0x90 => some (pure .proceed)
    | 0xF4 => some hlt
    | 0xCD => some intImm8
    | 0xCE => some (pure (.interrupt 4))
    | 0xD6 => some salc
    | 0xFA => some (changeRegs fun regs => regs.setFlag Flags.IF false)
    | 0xFB => some (changeRegs fun regs => regs.setFlag Flags.IF true)
    | 0xFC => some (changeRegs fun regs => regs.setDf false)
    | 0xFD => some (changeRegs fun regs => regs.setDf true)
    | 0xF5 => some (changeRegs fun regs => regs.setCf !regs.getCf)
    | 0xF8 => some (changeRegs fun regs => regs.setCf false)
    | 0xF9 => some (changeRegs fun regs => regs.setCf true)
    | 0x27 | 0x2F | 0x37 | 0x3F => some (pure .proceed)
    | 0xD4 | 0xD5 => some skipImm8
    | 0xE4 => some (inByte immPort)
    | 0xE5 => some (inWord immPort)
    | 0xE6 => some (outByte immPort)
    | 0xE7 => some (outWord immPort)
    | 0xEC => some (inByte dxPort)
    | 0xED => some (inWord dxPort)
    | 0xEE => some (outByte dxPort)
    | 0xEF => some (outWord dxPort)
    | 0x8C => some movRm16Seg
    | 0x8E => some movSegRm16
    | _ => none

end Kita98
