import Kita98.Transfer

/-!
# Opcode dispatch

Each dispatcher has its explicit arms and hands every other opcode to a
further dispatcher.  `execute_one` enters the chain at `dispatch_alu`, which
goes on to `dispatch_flow` and `dispatch_misc`; the chain from
`dispatch_stack` over `dispatch_string` and `dispatch_transfer` joins it at
`dispatch_flow`.
-/

namespace Kita98

open WordBits Kita98.Core

/-! ## Prefix bytes -/

/-- What the prefix loops do with a byte; `none` ends the loop. -/
def prefixEffect (byte : U8) : Option (PrefixState → PrefixState) :=
  match byte with
  | 0x26 => some fun p => { p with segOverride := some .ES }
  | 0x2E => some fun p => { p with segOverride := some .CS }
  | 0x36 => some fun p => { p with segOverride := some .SS }
  | 0x3E => some fun p => { p with segOverride := some .DS }
  | 0x64 => some fun p => { p with segOverride := some .FS }
  | 0x65 => some fun p => { p with segOverride := some .GS }
  | 0x66 => some fun p => { p with operand32 := !p.operand32 }
  | 0x67 => some fun p => { p with address32 := !p.address32 }
  | 0xF0 => some id
  | _ => none

/-- The loop behind REPNE does not know the LOCK prefix. -/
def repnePrefixEffect (byte : U8) : Option (PrefixState → PrefixState) :=
  if byte = 0xF0 then none else prefixEffect byte

def modPrefixes (f : PrefixState → PrefixState) : Routine Unit :=
  Exec.update fun core =>
    { core with cpu := { core.cpu with prefixes := f core.cpu.prefixes } }

/-- Skip prefix bytes, starting with the one already fetched.  After one byte
for each offset of the segment the loop only repeats itself. -/
def skipPrefixes (effect : U8 → Option (PrefixState → PrefixState)) :
    ℕ → U8 → Routine U8
  | 0, _ => Exec.fail .hang
  | fuel + 1, byte =>
      match effect byte with
      | none => pure byte
      | some f => do
          modPrefixes f
          let next ← fetchU8
          skipPrefixes effect fuel next

def prefixFuel : ℕ := 0x10001

/-! ## The chain that `dispatch` enters -/

def dispatchMisc (opcode : U8) : Routine StepResult :=
  (miscArm opcode).getD (pure (.unimplemented opcode))

def dispatchFlow (opcode : U8) : Routine StepResult :=
  (flowArm opcode).getD (dispatchMisc opcode)

def dispatchAlu (opcode : U8) : Routine StepResult :=
  (aluArm opcode).getD (dispatchFlow opcode)

def dispatch (opcode : U8) : Routine StepResult := dispatchAlu opcode

/-! ## String instructions -/

def Regs.strAdvance (regs : Regs) (r : Reg16) (delta : U16) : Regs :=
  if regs.getDf then regs.set16 r (regs.get16 r - delta)
  else regs.set16 r (regs.get16 r + delta)

def strSiAdvance (delta : U16) : Routine Unit :=
  modRegs fun regs => regs.strAdvance .SI delta

def strDiAdvance (delta : U16) : Routine Unit :=
  modRegs fun regs => regs.strAdvance .DI delta

/-- Read at the (overridable) DS:SI. -/
def readSource {α : Type} (f : Memory → U16 → U32 → α) : Routine α := do
  let si ← getRegs fun regs => regs.get16 .SI
  let seg ← overriddenSeg .DS
  getMem fun mem => f mem seg (si.setWidth 32)

def readDest {α : Type} (f : Memory → U16 → U32 → α) : Routine α := do
  let di ← getRegs fun regs => regs.get16 .DI
  let es ← getRegs fun regs => regs.getSeg .ES
  getMem fun mem => f mem es (di.setWidth 32)

def writeDest {α : Type} (f : Memory → U16 → U32 → α → Memory) (v : α) : Routine Unit := do
  let di ← getRegs fun regs => regs.get16 .DI
  let es ← getRegs fun regs => regs.getSeg .ES
  modMem fun mem => f mem es (di.setWidth 32) v

def movsb : Routine Unit := do
  let v ← readSource Memory.segReadU8
  writeDest Memory.segWriteU8 v
  strSiAdvance 1
  strDiAdvance 1

def movsw : Routine Unit := do
  let v ← readSource Memory.segReadU16
  writeDest Memory.segWriteU16 v
  strSiAdvance 2
  strDiAdvance 2

def stosb : Routine Unit := do
  let v ← getRegs fun regs => regs.get8 .AL
  writeDest Memory.segWriteU8 v
  strDiAdvance 1

def stosw : Routine Unit := do
  let v ← getRegs fun regs => regs.get16 .AX
  writeDest Memory.segWriteU16 v
  strDiAdvance 2

def lodsb : Routine Unit := do
  let v ← readSource Memory.segReadU8
  modRegs fun regs => regs.set8 .AL v
  strSiAdvance 1

def lodsw : Routine Unit := do
  let v ← readSource Memory.segReadU16
  modRegs fun regs => regs.set16 .AX v
  strSiAdvance 2

def scasb : Routine Unit := do
  let v ← readDest Memory.segReadU8
  modRegs fun regs => regs.updateSub8 (regs.get8 .AL) v (regs.get8 .AL - v)
  strDiAdvance 1

def scasw : Routine Unit := do
  let v ← readDest Memory.segReadU16
  modRegs fun regs => regs.updateSub16 (regs.get16 .AX) v (regs.get16 .AX - v)
  strDiAdvance 2

def cmpsb : Routine Unit := do
  let a ← readSource Memory.segReadU8
  let b ← readDest Memory.segReadU8
  modRegs fun regs => regs.updateSub8 a b (a - b)
  strSiAdvance 1
  strDiAdvance 1

def cmpsw : Routine Unit := do
  let a ← readSource Memory.segReadU16
  let b ← readDest Memory.segReadU16
  modRegs fun regs => regs.updateSub16 a b (a - b)
  strSiAdvance 2
  strDiAdvance 2

def stringOp (opcode : U8) : Option (Routine Unit × Bool) :=
  match opcode with
  | 0xA4 => some (movsb, false)
  | 0xA5 => some (movsw, false)
  | 0xAA => some (stosb, false)
  | 0xAB => some (stosw, false)
  | 0xAC => some (lodsb, false)
  | 0xAD => some (lodsw, false)
  | 0xA6 => some (cmpsb, true)
  | 0xA7 => some (cmpsw, true)
  | 0xAE => some (scasb, true)
  | 0xAF => some (scasw, true)
  | _ => none

/-- Repeat while CX is not zero; a comparing instruction ends the loop when
ZF equals `stopZf`.  CX is counted down, so it bounds the rounds. -/
def repLoop (body : Routine Unit) (compares stopZf : Bool) : ℕ → Routine Unit
  | 0 => Exec.fail .hang
  | fuel + 1 => do
      let cx ← getRegs fun regs => regs.get16 .CX
      if cx = 0 then pure ()
      else do
        modRegs fun regs => regs.set16 .CX (cx - 1)
        body
        let zf ← getRegs fun regs => regs.getZf
        if compares ∧ zf = stopZf then pure ()
        else repLoop body compares stopZf fuel

def repFuel : ℕ := 0x10000

/-- REP / REPE: any string instruction; another opcode is dispatched again. -/
def repArm : Routine StepResult := do
  let first ← fetchU8
  let next ← skipPrefixes prefixEffect prefixFuel first
  match stringOp next with
  | some (body, compares) => do
      repLoop body compares false repFuel
      return .proceed
  | none => dispatch next

/-- REPNE: the comparing string instructions only. -/
def repneArm : Routine StepResult := do
  let first ← fetchU8
  let next ← skipPrefixes repnePrefixEffect prefixFuel first
  match stringOp next with
  | some (body, true) => do
      repLoop body true true repFuel
      return .proceed
  | _ => dispatch next

def stringArm (opcode : U8) : Option (Routine StepResult) :=
  match stringOp opcode with
  | some (body, _) => some do
      body
      return .proceed
  | none =>
      match opcode with
      | 0xF3 => some repArm
      | 0xF2 => some repneArm
      | _ => none

/-! ## The chain that `dispatch_stack` enters -/

def dispatchTransfer (opcode : U8) : Routine StepResult :=
  (transferArm opcode).getD (dispatchFlow opcode)

def dispatchString (opcode : U8) : Routine StepResult :=
  (stringArm opcode).getD (dispatchTransfer opcode)

def dispatchStack (opcode : U8) : Routine StepResult :=
  (stackArm opcode).getD (dispatchString opcode)

/-! ## One instruction -/

/-- Clear the prefix state, then fetch up to the first byte that is not a
prefix. -/
def fetchOpcode : Routine U8 := do
  modPrefixes fun _ => PrefixState.none
  let first ← fetchU8
  skipPrefixes prefixEffect prefixFuel first

def countInstruction : Routine Unit :=
  Exec.update fun core =>
    { core with
      cpu := { core.cpu with instructionsExecuted := core.cpu.instructionsExecuted + 1 } }

def executeOne : Routine StepResult := do
  let halted ← Exec.read fun core => core.cpu.halted
  if halted then return .halt
  else do
    let opcode ← fetchOpcode
    let result ← dispatch opcode
    countInstruction
    return result

end Kita98
