import Kita98.Group1
import Kita98.Dispatch

/-!
# The arms at either operand size

Each arm written with the width of its operands, its immediates and its
offsets as parameters.  At 16 bits it is the arm of the interpreter, and at 32
bits what the same instruction does behind a size prefix.
-/

namespace Kita98

open WordBits Kita98.Core

/-! ## Sizes -/

/-- What the arms do with operands of one width. -/
structure OperandOps (w : ℕ) extends AluSize w where
  fetch : Routine (BitVec w)
  set : BitVec 3 → BitVec w → Regs → Regs
  resultFlags : Regs → BitVec w → Regs
  bytes : U32

/-- With the width of a stack slot and of the instruction pointer. -/
structure StackOps (w : ℕ) extends OperandOps w where
  push : BitVec w → Routine Unit
  ipMask : U32

def byteOps : OperandOps 8 where
  toAluSize := byteAlu
  fetch := fetchU8
  set := fun field v regs => regs.set8 (reg8FromField field) v
  resultFlags := Regs.updateFlagsU8
  bytes := 1

def wordOps : StackOps 16 where
  toAluSize := wordAlu
  fetch := fetchU16
  set := fun field v regs => regs.set16 (reg16FromField field) v
  resultFlags := Regs.updateFlagsU16
  bytes := 2
  push := push16
  ipMask := 0xFFFF

def doubleOps : StackOps 32 where
  toAluSize := doubleAlu
  fetch := fetchU32
  set := fun field v regs => regs.set32 (reg16FromField field) v
  resultFlags := Regs.updateFlagsU32
  bytes := 4
  push := push32
  ipMask := 0xFFFFFFFF

/-- The arm at the operand size that a prefix state selects. -/
def atSize {α : Type} (operand32 : Bool) (arm : ∀ {w : ℕ}, StackOps w → α) : α :=
  if operand32 then arm doubleOps else arm wordOps

section Arms

variable {w : ℕ}

/-! ## Groups 1 and 3 -/

def sizedGroup1Imm (ops : OperandOps w) : Routine StepResult := do
  let modrm ← fetchModrm
  let imm ← ops.fetch
  let _ ← ops.group1 modrm imm
  return .proceed

def sizedGroup1Imm8 (ops : OperandOps w) : Routine StepResult := do
  let modrm ← fetchModrm
  let imm ← fetchU8
  let _ ← ops.group1 modrm (imm.signExtend w)
  return .proceed

def sizedTest (ops : OperandOps w) (modrm : ModRm) : Routine StepResult := do
  let imm ← ops.fetch
  let val ← ops.read modrm
  modRegs fun regs => ops.logicFlags regs (val &&& imm)
  return .proceed

def sizedNeg (ops : OperandOps w) (modrm : ModRm) : Routine StepResult := do
  let val ← ops.read modrm
  let r := ~~~val + 1
  modRegs fun regs => ops.updateSub regs 0 val r
  ops.write modrm r
  return .proceed

def sizedNot (ops : OperandOps w) (modrm : ModRm) : Routine StepResult := do
  let val ← ops.read modrm
  ops.write modrm (~~~val)
  return .proceed

def sizedMul (ops : OperandOps w) (modrm : ModRm) : Routine StepResult := do
  let acc ← getRegs fun regs => (ops.get 0 regs).setWidth (w + w)
  let src ← ops.read modrm
  let ones : BitVec (w + w) := (BitVec.allOnes w).setWidth (w + w)
  let r := acc * src.setWidth (w + w)
  modRegs fun regs => ops.set 0 ((r &&& ones).setWidth w) regs
  modRegs fun regs => ops.set 2 ((r >>> w).setWidth w) regs
  modRegs fun regs => (regs.setCf (r > ones)).setOf (r > ones)
  return .proceed

def sizedImul (ops : OperandOps w) (modrm : ModRm) : Routine StepResult := do
  let acc ← getRegs fun regs => (ops.get 0 regs).signExtend (w + w)
  let src ← ops.read modrm
  let ones : BitVec (w + w) := (BitVec.allOnes w).setWidth (w + w)
  let r := acc * src.signExtend (w + w)
  let wide := ((BitVec.intMax w).signExtend (w + w)).slt r ||
    r.slt ((BitVec.intMin w).signExtend (w + w))
  modRegs fun regs => ops.set 0 ((r &&& ones).setWidth w) regs
  modRegs fun regs => ops.set 2 ((r.sshiftRight w).setWidth w) regs
  modRegs fun regs => (regs.setCf wide).setOf wide
  return .proceed

def sizedDiv (ops : OperandOps w) (modrm : ModRm) : Routine StepResult := do
  let val ← ops.read modrm
  let src : BitVec (w + w) := val.setWidth (w + w)
  if src = 0 then return .interrupt 0
  else do
    let pair ← getRegs fun regs =>
      ((ops.get 2 regs).setWidth (w + w) <<< w) ||| (ops.get 0 regs).setWidth (w + w)
    modRegs fun regs => ops.set 0 ((pair / src).setWidth w) regs
    modRegs fun regs => ops.set 2 ((pair % src).setWidth w) regs
    return .proceed

def sizedIdiv (ops : OperandOps w) (modrm : ModRm) : Routine StepResult := do
  let val ← ops.read modrm
  let src : BitVec (w + w) := val.signExtend (w + w)
  if src = 0 then return .interrupt 0
  else do
    let pair ← getRegs fun regs =>
      ((ops.get 2 regs).signExtend (w + w) <<< w) ||| (ops.get 0 regs).signExtend (w + w)
    if pair = BitVec.intMin (w + w) ∧ src = -1 then Exec.fail .overflow
    else do
      modRegs fun regs => ops.set 0 ((pair.sdiv src).setWidth w) regs
      modRegs fun regs => ops.set 2 ((pair.srem src).setWidth w) regs
      return .proceed

def sizedGroup3 (ops : OperandOps w) : Routine StepResult := do
  let modrm ← fetchModrm
  match modrm.reg with
  | 0 | 1 => sizedTest ops modrm
  | 2 => sizedNeg ops modrm
  | 3 => sizedNot ops modrm
  | 4 => sizedMul ops modrm
  | 5 => sizedImul ops modrm
  | 6 => sizedDiv ops modrm
  | _ => sizedIdiv ops modrm

/-! ## Group FF and relative branches -/

def sizedInc (ops : OperandOps w) (modrm : ModRm) : Routine StepResult := do
  let v ← ops.read modrm
  let r := v + 1
  modRegs fun regs => (ops.updateAdd regs v 1 r).setCf regs.getCf
  ops.write modrm r
  return .proceed

def sizedDec (ops : OperandOps w) (modrm : ModRm) : Routine StepResult := do
  let v ← ops.read modrm
  let r := v - 1
  modRegs fun regs => (ops.updateSub regs v 1 r).setCf regs.getCf
  ops.write modrm r
  return .proceed

def sizedJumpTo (regs : Regs) (offset : BitVec w) : Regs :=
  { regs with ip := offset.setWidth 32 }

def sizedJumpFar (regs : Regs) (segment : U16) (offset : BitVec w) : Regs :=
  (sizedJumpTo regs offset).setSeg .CS segment

def sizedCallRm (ops : StackOps w) (modrm : ModRm) : Routine StepResult := do
  let target ← ops.read modrm
  let nextIp ← getRegs fun regs => regs.ip.setWidth w
  ops.push nextIp
  modRegs fun regs => sizedJumpTo regs target
  return .proceed

def sizedFarPointer (ops : OperandOps w) (modrm : ModRm) : Routine (BitVec w × U16) := do
  let ea ← eaFromModrm modrm
  getMem fun mem => (ops.load mem ea, mem.readU16 (ea + ops.bytes))

def sizedFarReturn (ops : StackOps w) : Routine Unit := do
  let curCs ← getRegs fun regs => (regs.getSeg .CS).setWidth w
  let curIp ← getRegs fun regs => regs.ip.setWidth w
  ops.push curCs
  ops.push curIp

def sizedCallFar (ops : StackOps w) (modrm : ModRm) : Routine StepResult := do
  let (off, seg) ← sizedFarPointer ops.toOperandOps modrm
  sizedFarReturn ops
  modRegs fun regs => sizedJumpFar regs seg off
  return .proceed

def sizedJmpRm (ops : OperandOps w) (modrm : ModRm) : Routine StepResult := do
  let target ← ops.read modrm
  modRegs fun regs => sizedJumpTo regs target
  return .proceed

def sizedJmpFar (ops : OperandOps w) (modrm : ModRm) : Routine StepResult := do
  let (off, seg) ← sizedFarPointer ops modrm
  modRegs fun regs => sizedJumpFar regs seg off
  return .proceed

def sizedPushRm (ops : StackOps w) (modrm : ModRm) : Routine StepResult := do
  let val ← ops.read modrm
  ops.push val
  return .proceed

def sizedGroupFF (ops : StackOps w) : Routine StepResult := do
  let modrm ← fetchModrm
  match modrm.reg with
  | 0 => sizedInc ops.toOperandOps modrm
  | 1 => sizedDec ops.toOperandOps modrm
  | 2 => sizedCallRm ops modrm
  | 3 => sizedCallFar ops modrm
  | 4 => sizedJmpRm ops.toOperandOps modrm
  | 5 => sizedJmpFar ops.toOperandOps modrm
  | 6 => sizedPushRm ops modrm
  | _ => return .unimplemented 0xFF

def sizedJumpRel (ops : StackOps w) (regs : Regs) (rel : BitVec w) : Regs :=
  { regs with ip := (regs.ip + rel.signExtend 32) &&& ops.ipMask }

def sizedJmpRel (ops : StackOps w) : Routine StepResult := do
  let rel ← ops.fetch
  modRegs fun regs => sizedJumpRel ops regs rel
  return .proceed

def sizedCallRel (ops : StackOps w) : Routine StepResult := do
  let rel ← ops.fetch
  let nextIp ← getRegs fun regs => regs.ip.setWidth w
  ops.push nextIp
  modRegs fun regs => sizedJumpRel ops regs rel
  return .proceed

/-! ## Moves -/

def sizedMovRegImm (ops : OperandOps w) (field : BitVec 3) : Routine StepResult := do
  let imm ← ops.fetch
  modRegs (ops.set field imm)
  return .proceed

def sizedMovRmImm (ops : OperandOps w) : Routine StepResult := do
  let modrm ← fetchModrm
  let imm ← ops.fetch
  ops.write modrm imm
  return .proceed

/-- The offset of a direct address, by the address size. -/
def fetchOffset (address32 : Bool) : Routine U32 :=
  if address32 then fetchU32
  else do
    let off ← fetchU16
    return off.setWidth 32

def sizedLoadMoffs (address32 : Bool) (ops : OperandOps w) : Routine StepResult := do
  let off ← fetchOffset address32
  let seg ← overriddenSeg .DS
  let v ← getMem fun mem => ops.load mem (Memory.phys seg off)
  modRegs (ops.set 0 v)
  return .proceed

def sizedStoreMoffs (address32 : Bool) (ops : OperandOps w) : Routine StepResult := do
  let off ← fetchOffset address32
  let seg ← overriddenSeg .DS
  let v ← getRegs (ops.get 0)
  modMem fun mem => ops.store mem (Memory.phys seg off) v
  return .proceed

/-! ## Double shifts, exchange-and-add, bit tests -/

def sizedShld (ops : OperandOps w) (modrm : ModRm) (src : BitVec w) (cnt : ℕ) :
    Routine StepResult := do
  let dst ← ops.read modrm
  if cnt = 0 then return .proceed
  else if cnt > w then Exec.fail .overflow
  else
    let wide : BitVec (w + w) := (dst.setWidth (w + w) <<< w) ||| src.setWidth (w + w)
    let r : BitVec w := ((wide <<< cnt) >>> w).setWidth w
    modRegs fun regs => ops.resultFlags (regs.setCf (dst >>> (w - cnt) &&& 1 != 0)) r
    ops.write modrm r
    return .proceed

def sizedShrd (ops : OperandOps w) (modrm : ModRm) (src : BitVec w) (cnt : ℕ) :
    Routine StepResult := do
  let dst ← ops.read modrm
  if cnt = 0 then return .proceed
  else if cnt > w then Exec.fail .overflow
  else
    let wide : BitVec (w + w) := (src.setWidth (w + w) <<< w) ||| dst.setWidth (w + w)
    let r : BitVec w := (wide >>> cnt).setWidth w
    modRegs fun regs => ops.resultFlags (regs.setCf (dst >>> (cnt - 1) &&& 1 != 0)) r
    ops.write modrm r
    return .proceed

def sizedShiftImm (ops : OperandOps w)
    (shift : OperandOps w → ModRm → BitVec w → ℕ → Routine StepResult) : Routine StepResult := do
  let modrm ← fetchModrm
  let src ← getRegs (ops.get modrm.reg)
  let cnt ← fetchU8
  shift ops modrm src (cnt &&& 31).toNat

def sizedShiftCl (ops : OperandOps w)
    (shift : OperandOps w → ModRm → BitVec w → ℕ → Routine StepResult) : Routine StepResult := do
  let modrm ← fetchModrm
  let src ← getRegs (ops.get modrm.reg)
  let cnt ← getRegs fun regs => regs.get8 .CL
  shift ops modrm src (cnt &&& 31).toNat

def sizedXadd (ops : OperandOps w) : Routine StepResult := do
  let modrm ← fetchModrm
  let src ← getRegs (ops.get modrm.reg)
  let dst ← ops.read modrm
  let sum := dst + src
  modRegs fun regs => ops.updateAdd regs dst src sum
  modRegs (ops.set modrm.reg dst)
  ops.write modrm sum
  return .proceed

/-- The low bits of a bit number. -/
def bitNumber {v : ℕ} (w : ℕ) (x : BitVec v) : ℕ := (x &&& BitVec.ofNat v (w - 1)).toNat

def sizedBt (ops : OperandOps w) : Routine StepResult := do
  let modrm ← fetchModrm
  let base ← ops.read modrm
  let bit ← getRegs fun regs => bitNumber w (ops.get modrm.reg regs)
  modRegs fun regs => regs.setCf (base >>> bit &&& 1 != 0)
  return .proceed

def sizedBitResult (field : BitVec 3) (base : BitVec w) (bit : ℕ) : BitVec w :=
  match field with
  | 5 => base ||| 1#w <<< bit
  | 6 => base &&& ~~~(1#w <<< bit)
  | 7 => base ^^^ 1#w <<< bit
  | _ => base

/-- BTS, BTR and BTC, told apart as in the immediate forms. -/
def sizedBitModify (field : BitVec 3) (ops : OperandOps w) : Routine StepResult := do
  let modrm ← fetchModrm
  let base ← ops.read modrm
  let bit ← getRegs fun regs => bitNumber w (ops.get modrm.reg regs)
  modRegs fun regs => regs.setCf (base >>> bit &&& 1 != 0)
  ops.write modrm (sizedBitResult field base bit)
  return .proceed

def sizedGroup8 (ops : OperandOps w) : Routine StepResult := do
  let modrm ← fetchModrm
  let base ← ops.read modrm
  let imm ← fetchU8
  let bit := bitNumber w imm
  modRegs fun regs => regs.setCf (base >>> bit &&& 1 != 0)
  let result := sizedBitResult modrm.reg base bit
  if 5 ≤ modrm.reg then
    ops.write modrm result
    return .proceed
  else return .proceed

def sizedBitScan (ops : OperandOps w) (scan : BitVec w → BitVec w) : Routine StepResult := do
  let modrm ← fetchModrm
  let src ← ops.read modrm
  if src = 0 then
    modRegs fun regs => regs.setZf true
    return .proceed
  else
    modRegs fun regs => (ops.set modrm.reg (scan src) regs).setZf false
    return .proceed

/-! ## String instructions -/

/-- SI or DI, or the whole of ESI or EDI, by the address size. -/
def pointerAt (address32 : Bool) (r : Reg16) (regs : Regs) : U32 :=
  if address32 then regs.get32 r else (regs.get16 r).setWidth 32

def advanceAt (address32 : Bool) (r : Reg16) (delta : U32) (regs : Regs) : Regs :=
  if address32 then
    if regs.getDf then regs.set32 r (regs.get32 r - delta)
    else regs.set32 r (regs.get32 r + delta)
  else regs.strAdvance r (delta.setWidth 16)

def sizedSource (address32 : Bool) (ops : OperandOps w) : Routine (BitVec w) := do
  let si ← getRegs (pointerAt address32 .SI)
  let seg ← overriddenSeg .DS
  getMem fun mem => ops.load mem (Memory.phys seg si)

def sizedDest (address32 : Bool) (ops : OperandOps w) : Routine (BitVec w) := do
  let di ← getRegs (pointerAt address32 .DI)
  let es ← getRegs fun regs => regs.getSeg .ES
  getMem fun mem => ops.load mem (Memory.phys es di)

def sizedStore (address32 : Bool) (ops : OperandOps w) (v : BitVec w) : Routine Unit := do
  let di ← getRegs (pointerAt address32 .DI)
  let es ← getRegs fun regs => regs.getSeg .ES
  modMem fun mem => ops.store mem (Memory.phys es di) v

inductive StringOp where
  | movs | cmps | stos | lods | scas
  deriving DecidableEq, Repr

def sizedString (op : StringOp) (address32 : Bool) (ops : OperandOps w) : Routine Unit :=
  match op with
  | .movs => do
      let v ← sizedSource address32 ops
      sizedStore address32 ops v
      modRegs (advanceAt address32 .SI ops.bytes)
      modRegs (advanceAt address32 .DI ops.bytes)
  | .cmps => do
      let a ← sizedSource address32 ops
      let b ← sizedDest address32 ops
      modRegs fun regs => ops.updateSub regs a b (a - b)
      modRegs (advanceAt address32 .SI ops.bytes)
      modRegs (advanceAt address32 .DI ops.bytes)
  | .stos => do
      let v ← getRegs (ops.get 0)
      sizedStore address32 ops v
      modRegs (advanceAt address32 .DI ops.bytes)
  | .lods => do
      let v ← sizedSource address32 ops
      modRegs (ops.set 0 v)
      modRegs (advanceAt address32 .SI ops.bytes)
  | .scas => do
      let v ← sizedDest address32 ops
      modRegs fun regs => ops.updateSub regs (ops.get 0 regs) v (ops.get 0 regs - v)
      modRegs (advanceAt address32 .DI ops.bytes)

def counterZero (address32 : Bool) (regs : Regs) : Bool :=
  if address32 then regs.get32 .CX = 0 else regs.get16 .CX = 0

def countDown (address32 : Bool) (regs : Regs) : Regs :=
  if address32 then regs.set32 .CX (regs.get32 .CX - 1)
  else regs.set16 .CX (regs.get16 .CX - 1)

/-- `repLoop` with CX, or ECX, as its counter. -/
def sizedRepLoop (address32 : Bool) (body : Routine Unit) (compares stopZf : Bool) :
    ℕ → Routine Unit
  | 0 => Exec.fail .hang
  | fuel + 1 => do
      let done ← getRegs (counterZero address32)
      if done then pure ()
      else do
        modRegs (countDown address32)
        body
        let zf ← getRegs fun regs => regs.getZf
        if compares ∧ zf = stopZf then pure ()
        else sizedRepLoop address32 body compares stopZf fuel

/-- One round for each value of the counter. -/
def sizedRepFuel (address32 : Bool) : ℕ := if address32 then 0x100000000 else repFuel

end Arms

/-! ## At 16 bits -/

theorem sizedGroup1Imm_word : sizedGroup1Imm wordOps.toOperandOps = group1Rm16Imm16 := rfl

theorem sizedGroup1Imm8_word : sizedGroup1Imm8 wordOps.toOperandOps = group1Rm16Imm8 := rfl

theorem sizedGroup3_word : sizedGroup3 wordOps.toOperandOps = group3Rm16 := rfl

theorem sizedMovRmImm_word : sizedMovRmImm wordOps.toOperandOps = movRm16Imm := rfl

theorem sizedXadd_word : sizedXadd wordOps.toOperandOps = xaddRm16 := rfl

theorem sizedBt_word : sizedBt wordOps.toOperandOps = bt := rfl

theorem sizedGroup8_word : sizedGroup8 wordOps.toOperandOps = group8 := rfl

theorem sizedGroupFF_word : sizedGroupFF wordOps = groupFF := rfl

theorem sizedJmpRel_word : sizedJmpRel wordOps = jmpRel16 := rfl

theorem sizedCallRel_word : sizedCallRel wordOps = callRel16 := rfl

theorem sizedMovRegImm_word (opcode : U8) :
    sizedMovRegImm wordOps.toOperandOps (opcode.setWidth 3) = movReg16Imm opcode := rfl

theorem sizedShiftImm_word :
    sizedShiftImm wordOps.toOperandOps sizedShld = shldImm ∧
      sizedShiftImm wordOps.toOperandOps sizedShrd = shrdImm := ⟨rfl, rfl⟩

theorem sizedShiftCl_word :
    sizedShiftCl wordOps.toOperandOps sizedShld = shldCl ∧
      sizedShiftCl wordOps.toOperandOps sizedShrd = shrdCl := ⟨rfl, rfl⟩

theorem sizedBitModify_word :
    sizedBitModify 5 wordOps.toOperandOps = bts ∧ sizedBitModify 6 wordOps.toOperandOps = btr ∧
      sizedBitModify 7 wordOps.toOperandOps = btc := ⟨rfl, rfl, rfl⟩

theorem sizedBitScan_word :
    sizedBitScan wordOps.toOperandOps (fun src => src.ctz) = bsf ∧
      sizedBitScan wordOps.toOperandOps (fun src => BitVec.ofNat 16 15 - src.clz) = bsr :=
  ⟨rfl, rfl⟩

theorem sizedRepLoop_word (body : Routine Unit) (compares stopZf : Bool) (fuel : ℕ) :
    sizedRepLoop false body compares stopZf fuel = repLoop body compares stopZf fuel := by
  induction fuel with
  | zero => rfl
  | succ fuel ih =>
      funext core
      by_cases hzero : core.cpu.regs.get16 .CX = 0#16
      · simp [sizedRepLoop, repLoop, getRegs, Exec.bind_apply, counterZero, hzero]
      · simp [sizedRepLoop, repLoop, getRegs, modRegs, Exec.bind_apply, counterZero, countDown,
          hzero, ih]

theorem sizedLoadMoffs_byte : sizedLoadMoffs false byteOps = movAlMoffs := by
  unfold sizedLoadMoffs fetchOffset
  simp only [Bool.false_eq_true, if_false, bind_assoc, pure_bind]
  rfl

theorem sizedLoadMoffs_word : sizedLoadMoffs false wordOps.toOperandOps = movAxMoffs := by
  unfold sizedLoadMoffs fetchOffset
  simp only [Bool.false_eq_true, if_false, bind_assoc, pure_bind]
  rfl

theorem sizedStoreMoffs_byte : sizedStoreMoffs false byteOps = movMoffsAl := by
  unfold sizedStoreMoffs fetchOffset
  simp only [Bool.false_eq_true, if_false, bind_assoc, pure_bind]
  rfl

theorem sizedStoreMoffs_word : sizedStoreMoffs false wordOps.toOperandOps = movMoffsAx := by
  unfold sizedStoreMoffs fetchOffset
  simp only [Bool.false_eq_true, if_false, bind_assoc, pure_bind]
  rfl

end Kita98
