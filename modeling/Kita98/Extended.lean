import Kita98.Alu
import Kita98.Stack

/-!
# The two-byte opcodes `0F xx`
-/

namespace Kita98

open WordBits Kita98.Core

/-- Compute an effective address only for the bytes it consumes. -/
def consumeEa (modrm : ModRm) : Routine Unit :=
  if modrm.mode = 3 then pure ()
  else do
    let _ ← decodeEa modrm

/-! ## System instructions -/

/-- SLDT and STR store 0 after a first, discarded, decoding of the address;
LLDT, LTR, VERR and VERW only decode it. -/
def group6 : Routine StepResult := do
  let modrm ← fetchModrm
  match modrm.reg with
  | 0 | 1 => do
      consumeEa modrm
      writeModrmU16 modrm 0
      return .proceed
  | 2 | 3 | 4 | 5 => do
      consumeEa modrm
      return .proceed
  | _ => return .proceed

def group7 : Routine StepResult := do
  let modrm ← fetchModrm
  consumeEa modrm
  return .proceed

def larLsl : Routine StepResult := do
  let modrm ← fetchModrm
  consumeEa modrm
  modRegs fun regs => (regs.set16 (reg16FromField modrm.reg) 0).setZf false
  return .proceed

def readCounter : Routine StepResult := do
  modRegs fun regs => (regs.set16 .AX 0).set16 .DX 0
  return .proceed

def movControl : Routine StepResult := do
  let _ ← fetchU8
  return .proceed

def cpuid : Routine StepResult := do
  modRegs fun regs =>
    (((regs.set16 .AX 0).set16 .BX 0).set16 .CX 0).set16 .DX 0
  return .proceed

/-! ## Arithmetic and conditions -/

def imulRegRm : Routine StepResult := do
  let modrm ← fetchModrm
  let reg := reg16FromField modrm.reg
  let prefixes ← getPrefixes
  if prefixes.operand32 then
    let src ← readModrmU32 modrm
    let dst ← getRegs fun regs => regs.get32 reg
    let wide := dst.smulOverflow src
    modRegs fun regs => ((regs.set32 reg (dst * src)).setCf wide).setOf wide
    return .proceed
  else
    let src ← readModrmU16 modrm
    let dst ← getRegs fun regs => regs.get16 reg
    let wide := dst.smulOverflow src
    modRegs fun regs => ((regs.set16 reg (dst * src)).setCf wide).setOf wide
    return .proceed

/-- The new IP of a taken near Jcc is not masked. -/
def jccNear (opcode : U8) : Routine StepResult := do
  let prefixes ← getPrefixes
  let rel ←
    if prefixes.operand32 then fetchU32
    else do
      let rel ← fetchU16
      pure (rel.signExtend 32)
  let taken ← getRegs fun regs => regs.checkCond (opcode.setWidth 4)
  if taken then
    modRegs fun regs => { regs with ip := regs.ip + rel }
    return .proceed
  else return .proceed

def setcc (opcode : U8) : Routine StepResult := do
  let modrm ← fetchModrm
  let taken ← getRegs fun regs => regs.checkCond (opcode.setWidth 4)
  writeModrmU8 modrm (if taken then 1 else 0)
  return .proceed

/-! ## Bit tests -/

/-- `(base >> bit) & 1 != 0` into CF. -/
def Regs.setCfBit (regs : Regs) (base : U16) (bit : ℕ) : Regs :=
  regs.setCf (base >>> bit &&& 1 != 0)

def regBit (modrm : ModRm) (regs : Regs) : ℕ :=
  (regs.get16 (reg16FromField modrm.reg) &&& 15).toNat

def bt : Routine StepResult := do
  let modrm ← fetchModrm
  let base ← readModrmU16 modrm
  let bit ← getRegs (regBit modrm)
  modRegs fun regs => regs.setCfBit base bit
  return .proceed

/-- BTS, BTR and BTC differ in the word they write back. -/
def bitModify (result : U16 → ℕ → U16) : Routine StepResult := do
  let modrm ← fetchModrm
  let base ← readModrmU16 modrm
  let bit ← getRegs (regBit modrm)
  modRegs fun regs => regs.setCfBit base bit
  writeModrmU16 modrm (result base bit)
  return .proceed

def bitSet (base : U16) (bit : ℕ) : U16 := base ||| 1#16 <<< bit

def bitReset (base : U16) (bit : ℕ) : U16 := base &&& ~~~(1#16 <<< bit)

def bitComplement (base : U16) (bit : ℕ) : U16 := base ^^^ 1#16 <<< bit

def bts : Routine StepResult := bitModify bitSet

def btr : Routine StepResult := bitModify bitReset

def btc : Routine StepResult := bitModify bitComplement

def group8Result (reg : BitVec 3) (base : U16) (bit : ℕ) : U16 :=
  match reg with
  | 5 => bitSet base bit
  | 6 => bitReset base bit
  | 7 => bitComplement base bit
  | _ => base

def group8 : Routine StepResult := do
  let modrm ← fetchModrm
  let base ← readModrmU16 modrm
  let imm ← fetchU8
  let bit := (imm &&& 15).toNat
  modRegs fun regs => regs.setCfBit base bit
  let result := group8Result modrm.reg base bit
  if 5 ≤ modrm.reg then
    writeModrmU16 modrm result
    return .proceed
  else return .proceed

/-- BSF and BSR differ in the bit they pick. -/
def bitScan (scan : U16 → U16) : Routine StepResult := do
  let modrm ← fetchModrm
  let src ← readModrmU16 modrm
  if src = 0 then
    modRegs fun regs => regs.setZf true
    return .proceed
  else
    modRegs fun regs => (regs.set16 (reg16FromField modrm.reg) (scan src)).setZf false
    return .proceed

def bsf : Routine StepResult := bitScan fun src => src.ctz

def bsr : Routine StepResult := bitScan fun src => 15 - src.clz

/-! ## Double shifts -/

/-- SHLD with its masked count; `16 - cnt` is a checked subtraction. -/
def shldCount (modrm : ModRm) (src : U16) (cnt : ℕ) : Routine StepResult := do
  let dst ← readModrmU16 modrm
  if cnt = 0 then return .proceed
  else if cnt > 16 then Exec.fail .overflow
  else
    let wide : U32 := (dst.setWidth 32 <<< 16) ||| src.setWidth 32
    let r : U16 := ((wide <<< cnt) >>> 16).setWidth 16
    modRegs fun regs => (regs.setCfBit dst (16 - cnt)).updateFlagsU16 r
    writeModrmU16 modrm r
    return .proceed

/-- SHRD with its masked count; shifting a word by 16 or more is checked. -/
def shrdCount (modrm : ModRm) (src : U16) (cnt : ℕ) : Routine StepResult := do
  let dst ← readModrmU16 modrm
  if cnt = 0 then return .proceed
  else if cnt > 16 then Exec.fail .overflow
  else
    let wide : U32 := (src.setWidth 32 <<< 16) ||| dst.setWidth 32
    let r : U16 := (wide >>> cnt).setWidth 16
    modRegs fun regs => (regs.setCfBit dst (cnt - 1)).updateFlagsU16 r
    writeModrmU16 modrm r
    return .proceed

/-- The count byte is fetched before the operand is decoded. -/
def doubleShiftImm (shift : ModRm → U16 → ℕ → Routine StepResult) :
    Routine StepResult := do
  let modrm ← fetchModrm
  let src ← getRegs fun regs => regs.get16 (reg16FromField modrm.reg)
  let cnt ← fetchU8
  shift modrm src (cnt &&& 31).toNat

def doubleShiftCl (shift : ModRm → U16 → ℕ → Routine StepResult) :
    Routine StepResult := do
  let modrm ← fetchModrm
  let src ← getRegs fun regs => regs.get16 (reg16FromField modrm.reg)
  let cnt ← getRegs fun regs => regs.get8 .CL
  shift modrm src (cnt &&& 31).toNat

def shldImm : Routine StepResult := doubleShiftImm shldCount

def shldCl : Routine StepResult := doubleShiftCl shldCount

def shrdImm : Routine StepResult := doubleShiftImm shrdCount

def shrdCl : Routine StepResult := doubleShiftCl shrdCount

/-! ## Extending moves and exchange-and-add -/

/-- MOVZX and MOVSX: the source widened to 32 bits, stored at operand size. -/
def moveExtended (source : ModRm → Routine U32) : Routine StepResult := do
  let modrm ← fetchModrm
  let val ← source modrm
  let prefixes ← getPrefixes
  if prefixes.operand32 then
    modRegs fun regs => regs.set32 (reg16FromField modrm.reg) val
    return .proceed
  else
    modRegs fun regs => regs.set16 (reg16FromField modrm.reg) (val.setWidth 16)
    return .proceed

def movzxRm8 : Routine StepResult := moveExtended fun modrm => do
  return (← readModrmU8 modrm).setWidth 32

def movzxRm16 : Routine StepResult := moveExtended fun modrm => do
  return (← readModrmU16 modrm).setWidth 32

def movsxRm8 : Routine StepResult := moveExtended fun modrm => do
  return (← readModrmU8 modrm).signExtend 32

def movsxRm16 : Routine StepResult := moveExtended fun modrm => do
  return (← readModrmU16 modrm).signExtend 32

def xaddRm8 : Routine StepResult := do
  let modrm ← fetchModrm
  let reg := reg8FromField modrm.reg
  let src ← getRegs fun regs => regs.get8 reg
  let dst ← readModrmU8 modrm
  let sum := dst + src
  modRegs fun regs => regs.updateAdd8 dst src sum
  modRegs fun regs => regs.set8 reg dst
  writeModrmU8 modrm sum
  return .proceed

def xaddRm16 : Routine StepResult := do
  let modrm ← fetchModrm
  let reg := reg16FromField modrm.reg
  let src ← getRegs fun regs => regs.get16 reg
  let dst ← readModrmU16 modrm
  let sum := dst + src
  modRegs fun regs => regs.updateAdd16 dst src sum
  modRegs fun regs => regs.set16 reg dst
  writeModrmU16 modrm sum
  return .proceed

/-- The arms of `dispatch_0f`; an unknown second byte is skipped. -/
def extendedArm (opcode : U8) : Routine StepResult :=
  if 0x80 ≤ opcode ∧ opcode ≤ 0x8F then jccNear opcode
  else if 0x90 ≤ opcode ∧ opcode ≤ 0x9F then setcc opcode
  else if 0x20 ≤ opcode ∧ opcode ≤ 0x23 then movControl
  else
    match opcode with
    | 0x00 => group6
    | 0x01 => group7
    | 0x02 | 0x03 => larLsl
    | 0x06 | 0x08 | 0x09 => pure .proceed
    | 0x0B => pure (.interrupt 6)
    | 0x30 => pure .proceed
    | 0x31 | 0x32 | 0x33 => readCounter
    | 0xAF => imulRegRm
    | 0xA0 => pushSeg .FS
    | 0xA1 => popSeg .FS
    | 0xA2 => cpuid
    | 0xA3 => bt
    | 0xA4 => shldImm
    | 0xA5 => shldCl
    | 0xA8 => pushSeg .GS
    | 0xA9 => popSeg .GS
    | 0xAB => bts
    | 0xAC => shrdImm
    | 0xAD => shrdCl
    | 0xB6 => movzxRm8
    | 0xB7 => movzxRm16
    | 0xBA => group8
    | 0xB3 => btr
    | 0xBB => btc
    | 0xBC => bsf
    | 0xBD => bsr
    | 0xBE => movsxRm8
    | 0xBF => movsxRm16
    | 0xC0 => xaddRm8
    | 0xC1 => xaddRm16
    | _ => pure .proceed

def dispatch0f : Routine StepResult := do
  let opcode ← fetchU8
  extendedArm opcode

end Kita98
