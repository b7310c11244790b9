import Kita98.Interpreter

/-!
# Operand decoding

The fields of a ModRM byte have their width in their type, so a field is
never out of range.  Computing an effective address consumes the SIB and
displacement bytes it needs; reading and writing an operand each compute the
address anew.
-/

namespace Kita98

open WordBits Kita98.Core

structure ModRm where
  mode : BitVec 2
  reg : BitVec 3
  rm : BitVec 3
  deriving DecidableEq, Repr

def ModRm.decode (byte : U8) : ModRm where
  mode := (byte >>> 6).setWidth 2
  reg := (byte >>> 3).setWidth 3
  rm := byte.setWidth 3

theorem field_cases : ∀ field : BitVec 3, field = 0 ∨ field = 1 ∨ field = 2 ∨ field = 3 ∨
    field = 4 ∨ field = 5 ∨ field = 6 ∨ field = 7 := by
  decide

def reg16FromField (field : BitVec 3) : Reg16 :=
  match field with
  | 0 => .AX
  | 1 => .CX
  | 2 => .DX
  | 3 => .BX
  | 4 => .SP
  | 5 => .BP
  | 6 => .SI
  | _ => .DI

def reg8FromField (field : BitVec 3) : Reg8 :=
  match field with
  | 0 => .AL
  | 1 => .CL
  | 2 => .DL
  | 3 => .BL
  | 4 => .AH
  | 5 => .CH
  | 6 => .DH
  | _ => .BH

def segFromField (field : BitVec 3) : SegReg :=
  match field with
  | 0 => .ES
  | 1 => .CS
  | 2 => .SS
  | 3 => .DS
  | 4 => .FS
  | 5 => .GS
  | _ => .DS

/-! ## Effective addresses -/

def defaultSeg16 (modrm : ModRm) : SegReg :=
  match modrm.rm with
  | 2 | 3 => .SS
  | 6 => if modrm.mode ≠ 0 then .SS else .DS
  | _ => .DS

/-- The sum of the base registers; `rm = 6` without a base is the caller's. -/
def baseRegs16 (regs : Regs) (rm : BitVec 3) : U16 :=
  match rm with
  | 0 => regs.get16 .BX + regs.get16 .SI
  | 1 => regs.get16 .BX + regs.get16 .DI
  | 2 => regs.get16 .BP + regs.get16 .SI
  | 3 => regs.get16 .BP + regs.get16 .DI
  | 4 => regs.get16 .SI
  | 5 => regs.get16 .DI
  | 6 => regs.get16 .BP
  | _ => regs.get16 .BX

def decodeEa16 (modrm : ModRm) : Routine (SegReg × U16) := do
  let prefixes ← getPrefixes
  let seg := prefixes.segOverride.getD (defaultSeg16 modrm)
  let base ←
    if modrm.rm = 6 ∧ modrm.mode = 0 then fetchU16
    else getRegs fun regs => baseRegs16 regs modrm.rm
  match modrm.mode with
  | 0 => return (seg, base)
  | 1 => return (seg, base + (← fetchU8).signExtend 16)
  | 2 => return (seg, base + (← fetchU16))
  | _ => Exec.fail .unreachable

/-- Base and index of a SIB byte, with the segment the base implies. -/
def sibOffset (mode : BitVec 2) : Routine (SegReg × U32) := do
  let sib ← fetchU8
  let ss := (sib >>> 6).setWidth 2
  let index : BitVec 3 := (sib >>> 3).setWidth 3
  let base : BitVec 3 := sib.setWidth 3
  let val ←
    if base = 5 ∧ mode = 0 then fetchU32
    else getRegs fun regs => regs.get32 (reg16FromField base)
  let seg :=
    if base = 5 ∧ mode = 0 then SegReg.DS
    else if base = 4 ∨ base = 5 then SegReg.SS else SegReg.DS
  let idx ← getRegs fun regs =>
    if index ≠ 4 then regs.get32 (reg16FromField index) <<< ss.toNat else 0
  return (seg, val + idx)

/-- Offset before the displacement, with the segment it implies. -/
def baseOffset32 (modrm : ModRm) : Routine (SegReg × U32) :=
  if modrm.rm = 4 then sibOffset modrm.mode
  else if modrm.rm = 5 ∧ modrm.mode = 0 then do
    let offset ← fetchU32
    return (.DS, offset)
  else do
    let offset ← getRegs fun regs => regs.get32 (reg16FromField modrm.rm)
    return (if modrm.rm = 5 then .SS else .DS, offset)

def displacement32 (mode : BitVec 2) : Routine U32 :=
  match mode with
  | 1 => do return (← fetchU8).signExtend 32
  | 2 => fetchU32
  | _ => pure 0

def decodeEa32 (modrm : ModRm) : Routine (SegReg × U32) := do
  let (defaultSeg, offset) ← baseOffset32 modrm
  let disp ← displacement32 modrm.mode
  let prefixes ← getPrefixes
  return (prefixes.segOverride.getD defaultSeg, offset + disp)

def decodeEa (modrm : ModRm) : Routine (SegReg × U32) := do
  let prefixes ← getPrefixes
  if prefixes.address32 then decodeEa32 modrm
  else
    let (seg, off) ← decodeEa16 modrm
    return (seg, off.setWidth 32)

def eaFromModrm (modrm : ModRm) : Routine U32 := do
  let (seg, offset) ← decodeEa modrm
  getRegs fun regs => Memory.phys (regs.getSeg seg) offset

/-! ## Operands -/

def readModrmU8 (modrm : ModRm) : Routine U8 :=
  if modrm.mode = 3 then getRegs fun regs => regs.get8 (reg8FromField modrm.rm)
  else do
    let ea ← eaFromModrm modrm
    getMem fun mem => mem.readU8 ea

def writeModrmU8 (modrm : ModRm) (val : U8) : Routine Unit :=
  if modrm.mode = 3 then modRegs fun regs => regs.set8 (reg8FromField modrm.rm) val
  else do
    let ea ← eaFromModrm modrm
    modMem fun mem => mem.writeU8 ea val

def readModrmU16 (modrm : ModRm) : Routine U16 :=
  if modrm.mode = 3 then getRegs fun regs => regs.get16 (reg16FromField modrm.rm)
  else do
    let ea ← eaFromModrm modrm
    getMem fun mem => mem.readU16 ea

def writeModrmU16 (modrm : ModRm) (val : U16) : Routine Unit :=
  if modrm.mode = 3 then modRegs fun regs => regs.set16 (reg16FromField modrm.rm) val
  else do
    let ea ← eaFromModrm modrm
    modMem fun mem => mem.writeU16 ea val

def readModrmU32 (modrm : ModRm) : Routine U32 :=
  if modrm.mode = 3 then getRegs fun regs => regs.get32 (reg16FromField modrm.rm)
  else do
    let ea ← eaFromModrm modrm
    getMem fun mem => mem.readU32 ea

def writeModrmU32 (modrm : ModRm) (val : U32) : Routine Unit :=
  if modrm.mode = 3 then modRegs fun regs => regs.set32 (reg16FromField modrm.rm) val
  else do
    let ea ← eaFromModrm modrm
    modMem fun mem => mem.writeU32 ea val

/-- `fetch_u8` and `ModRm::decode` -/
def fetchModrm : Routine ModRm := do
  return ModRm.decode (← fetchU8)

end Kita98
