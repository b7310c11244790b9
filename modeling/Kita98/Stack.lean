import Kita98.ModRm

/-!
# Stack

Pushes and pops move SP by two modulo 64 KiB and address the word through SS.
-/

namespace Kita98

open WordBits Kita98.Core

def push16 (val : U16) : Routine Unit := fun core =>
  let sp := core.cpu.regs.get16 .SP - 2
  let ss := core.cpu.regs.getSeg .SS
  .ok ((), (core.setRegs (core.cpu.regs.set16 .SP sp)).setMem
    (core.bus.mem.segWriteU16 ss (sp.setWidth 32) val))

def pop16 : Routine U16 := fun core =>
  let sp := core.cpu.regs.get16 .SP
  let ss := core.cpu.regs.getSeg .SS
  .ok (core.bus.mem.segReadU16 ss (sp.setWidth 32),
    core.setRegs (core.cpu.regs.set16 .SP (sp + 2)))

def push32 (val : U32) : Routine Unit := fun core =>
  let sp := core.cpu.regs.get32 .SP - 4
  let ss := core.cpu.regs.getSeg .SS
  .ok ((), (core.setRegs (core.cpu.regs.set32 .SP sp)).setMem
    (core.bus.mem.segWriteU32 ss sp val))

def pop32 : Routine U32 := fun core =>
  let sp := core.cpu.regs.get32 .SP
  let ss := core.cpu.regs.getSeg .SS
  .ok (core.bus.mem.segReadU32 ss sp,
    core.setRegs (core.cpu.regs.set32 .SP (sp + 4)))

/-! ## The arms of `dispatch_stack` -/

def pushReg (opcode : U8) : Routine StepResult := do
  let val ← getRegs fun regs => regs.get16 (reg16FromField (opcode.setWidth 3))
  push16 val
  return .proceed

def popReg (opcode : U8) : Routine StepResult := do
  let val ← pop16
  modRegs fun regs => regs.set16 (reg16FromField (opcode.setWidth 3)) val
  return .proceed

def pushSeg (s : SegReg) : Routine StepResult := do
  let v ← getRegs fun regs => regs.getSeg s
  push16 v
  return .proceed

def popSeg (s : SegReg) : Routine StepResult := do
  let v ← pop16
  modRegs fun regs => regs.setSeg s v
  return .proceed

def pushReg16 (r : Reg16) : Routine Unit := do
  push16 (← getRegs fun regs => regs.get16 r)

def pusha : Routine StepResult := do
  let sp ← getRegs fun regs => regs.get16 .SP
  pushReg16 .AX
  pushReg16 .CX
  pushReg16 .DX
  pushReg16 .BX
  push16 sp
  pushReg16 .BP
  pushReg16 .SI
  pushReg16 .DI
  return .proceed

def popa : Routine StepResult := do
  let di ← pop16
  let si ← pop16
  let bp ← pop16
  let _ ← pop16
  let bx ← pop16
  let dx ← pop16
  let cx ← pop16
  let ax ← pop16
  modRegs fun regs => regs.set16 .DI di
  modRegs fun regs => regs.set16 .SI si
  modRegs fun regs => regs.set16 .BP bp
  modRegs fun regs => regs.set16 .BX bx
  modRegs fun regs => regs.set16 .DX dx
  modRegs fun regs => regs.set16 .CX cx
  modRegs fun regs => regs.set16 .AX ax
  return .proceed

def pushf : Routine StepResult := do
  let flags ← getRegs fun regs => regs.flags.setWidth 16
  push16 flags
  return .proceed

def popf : Routine StepResult := do
  let flags ← pop16
  modRegs fun regs =>
    { regs with flags := (regs.flags &&& 0xFFFF0000#32) ||| flags.setWidth 32 }
  return .proceed

def stackArm (opcode : U8) : Option (Routine StepResult) :=
  if 0x50 ≤ opcode ∧ opcode ≤ 0x57 then some (pushReg opcode)
  else if 0x58 ≤ opcode ∧ opcode ≤ 0x5F then some (popReg opcode)
  else
    match opcode with
    | 0x06 => some (pushSeg .ES)
    | 0x0E => some (pushSeg .CS)
    | 0x16 => some (pushSeg .SS)
    | 0x1E => some (pushSeg .DS)
    | 0x07 => some (popSeg .ES)
    | 0x17 => some (popSeg .SS)
    | 0x1F => some (popSeg .DS)
    | 0x60 => some pusha
    | 0x61 => some popa
    | 0x9C => some pushf
    | 0x9D => some popf
    | _ => none

end Kita98
