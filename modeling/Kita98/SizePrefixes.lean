import Kita98.SizedArms
import Kita98.StringSearch
import Kita98.DispatchCompleteness
import Kita98.AddressForms

/-!
# Size prefixes and the instruction stream

An instruction keeps in step with its size prefixes where it runs as its arm
does at the sizes they select, or is refused.  The arms of the interpreter are
those at 16 bits, whatever the prefixes say.
-/

namespace Kita98

open WordBits Kita98.Core Exec

/-! ## Dispatchers -/

namespace Dispatcher

def run : Dispatcher → U8 → Routine StepResult
  | alu => dispatchAlu
  | flow => dispatchFlow
  | misc => dispatchMisc
  | stack => dispatchStack
  | string => dispatchString
  | transfer => dispatchTransfer

/-- The dispatchers that an opcode without an arm is handed on to. -/
def chain : Dispatcher → List Dispatcher
  | alu => [alu, flow, misc]
  | flow => [flow, misc]
  | misc => [misc]
  | stack => [stack, string, transfer, flow, misc]
  | string => [string, transfer, flow, misc]
  | transfer => [transfer, flow, misc]

end Dispatcher

/-! ## Instructions -/

def StringOp.opcode : StringOp → Bool → U8
  | .movs, wide => if wide then 0xA5 else 0xA4
  | .cmps, wide => if wide then 0xA7 else 0xA6
  | .stos, wide => if wide then 0xAB else 0xAA
  | .lods, wide => if wide then 0xAD else 0xAC
  | .scas, wide => if wide then 0xAF else 0xAE

def StringOp.compares : StringOp → Bool
  | .cmps | .scas => true
  | _ => false

inductive ShiftCount where
  | imm8 | one | cl
  deriving DecidableEq, Repr

inductive BitOp where
  | set | reset | complement
  deriving DecidableEq, Repr

/-- The instructions that have 16-bit and 32-bit forms under one opcode. -/
inductive SizedInstr where
  /-- `81 /field` -/
  | group1Imm (field : BitVec 3)
  /-- `83 /field` -/
  | group1Imm8 (field : BitVec 3)
  /-- `F7 /field` -/
  | group3 (field : BitVec 3)
  /-- `FF /field` -/
  | groupFF (field : BitVec 3)
  | movRmImm
  | movRegImm (field : BitVec 3)
  | loadMoffs (wide : Bool)
  | storeMoffs (wide : Bool)
  | callRel
  | jmpRel
  | string (op : StringOp) (wide : Bool)
  | repeated (rep : RepeatPrefix) (op : StringOp) (wide : Bool)
  /-- Group 2 on words. -/
  | shift (count : ShiftCount)
  | doubleShift (right byCl : Bool)
  | xadd
  | bitTest
  | bitModify (op : BitOp)
  /-- `0F BA /field` -/
  | bitImm (field : BitVec 3)
  | bitScan (reverse : Bool)
  deriving DecidableEq, Repr

namespace SizedInstr

def opcode : SizedInstr → U8
  | group1Imm _ => 0x81
  | group1Imm8 _ => 0x83
  | group3 _ => 0xF7
  | groupFF _ => 0xFF
  | movRmImm => 0xC7
  | movRegImm field => 0xB8 + field.setWidth 8
  | loadMoffs wide => if wide then 0xA1 else 0xA0
  | storeMoffs wide => if wide then 0xA3 else 0xA2
  | callRel => 0xE8
  | jmpRel => 0xE9
  | string op wide => op.opcode wide
  | repeated rep _ _ => rep.byte
  | shift .imm8 => 0xC1
  | shift .one => 0xD1
  | shift .cl => 0xD3
  | doubleShift .. | xadd | bitTest | bitModify _ | bitImm _ | bitScan _ => 0x0F

def second : SizedInstr → Option U8
  | doubleShift right byCl =>
      some (if right then (if byCl then 0xAD else 0xAC) else (if byCl then 0xA5 else 0xA4))
  | xadd => some 0xC1
  | bitTest => some 0xA3
  | bitModify .set => some 0xAB
  | bitModify .reset => some 0xB3
  | bitModify .complement => some 0xBB
  | bitImm _ => some 0xBA
  | bitScan reverse => some (if reverse then 0xBD else 0xBC)
  | _ => none

/-- The register field of the ModRM byte, where it selects the instruction. -/
def field : SizedInstr → Option (BitVec 3)
  | group1Imm field | group1Imm8 field | group3 field | groupFF field | bitImm field => some field
  | _ => none

def home : SizedInstr → Option Dispatcher
  | group1Imm _ | group1Imm8 _ | group3 _ => some .alu
  | groupFF _ | callRel | jmpRel => some .flow
  | movRmImm | movRegImm _ | loadMoffs _ | storeMoffs _ => some .transfer
  | string .. | repeated .. => some .string
  | doubleShift .. | xadd | bitTest | bitModify _ | bitImm _ | bitScan _ => some .misc
  | shift _ => none

/-- The instruction stands behind its opcode byte in `core`, and its operands
behind the bytes that `start` has fetched. -/
def Opens (instr : SizedInstr) (core start : Core) : Prop :=
  (match instr with
    | repeated rep op wide =>
        ∃ k, Behind rep.effect core (op.opcode wide) k ∧ start = core.behind rep.effect k
    | _ =>
        match instr.second with
        | some second => core.byteAt 0 = second ∧ start = core.skip 1
        | none => start = core) ∧
  ∀ field ∈ instr.field, (ModRm.decode (start.byteAt 0)).reg = field

def bitField : BitOp → BitVec 3
  | .set => 5
  | .reset => 6
  | .complement => 7

def stringBody (op : StringOp) (wide operand32 address32 : Bool) : Routine Unit :=
  if wide then atSize operand32 fun ops => sizedString op address32 ops.toOperandOps
  else sizedString op address32 byteOps

/-- The arm at an operand and an address size; group 2 has none. -/
def sized (instr : SizedInstr) (operand32 address32 : Bool) : Routine StepResult :=
  match instr with
  | group1Imm _ => atSize operand32 fun ops => sizedGroup1Imm ops.toOperandOps
  | group1Imm8 _ => atSize operand32 fun ops => sizedGroup1Imm8 ops.toOperandOps
  | group3 _ => atSize operand32 fun ops => sizedGroup3 ops.toOperandOps
  | groupFF _ => atSize operand32 sizedGroupFF
  | movRmImm => atSize operand32 fun ops => sizedMovRmImm ops.toOperandOps
  | movRegImm field => atSize operand32 fun ops => sizedMovRegImm ops.toOperandOps field
  | loadMoffs wide =>
      if wide then atSize operand32 fun ops => sizedLoadMoffs address32 ops.toOperandOps
      else sizedLoadMoffs address32 byteOps
  | storeMoffs wide =>
      if wide then atSize operand32 fun ops => sizedStoreMoffs address32 ops.toOperandOps
      else sizedStoreMoffs address32 byteOps
  | callRel => atSize operand32 sizedCallRel
  | jmpRel => atSize operand32 sizedJmpRel
  | string op wide => do
      stringBody op wide operand32 address32
      return .proceed
  | repeated rep op wide => do
      sizedRepLoop address32 (stringBody op wide operand32 address32) op.compares rep.stopZf
        (sizedRepFuel address32)
      return .proceed
  | shift count => pure (.unimplemented (shift count).opcode)
  | doubleShift right byCl => atSize operand32 fun ops =>
      if byCl then sizedShiftCl ops.toOperandOps (if right then sizedShrd else sizedShld)
      else sizedShiftImm ops.toOperandOps (if right then sizedShrd else sizedShld)
  | xadd => atSize operand32 fun ops => sizedXadd ops.toOperandOps
  | bitTest => atSize operand32 fun ops => sizedBt ops.toOperandOps
  | bitModify op => atSize operand32 fun ops => sizedBitModify (bitField op) ops.toOperandOps
  | bitImm _ => atSize operand32 fun ops => sizedGroup8 ops.toOperandOps
  | bitScan reverse => atSize operand32 fun {w} ops =>
      sizedBitScan ops.toOperandOps fun src =>
        if reverse then BitVec.ofNat w (w - 1) - src.clz else src.ctz

end SizedInstr

/-! ## Keeping in step -/

/-- The interpreter turned the instruction down. -/
def Unimplemented (run : Except Fault (StepResult × Core)) : Prop :=
  ∃ op next, run = .ok (.unimplemented op, next)

/-- Wherever the instruction stands behind prefixes with these sizes, it is
refused or runs as its arm at them. -/
def KeepsStep (dispatcher : Dispatcher) (instr : SizedInstr) (operand32 address32 : Bool) : Prop :=
  ∀ core start : Core, instr.Opens core start →
    start.cpu.prefixes.operand32 = operand32 → start.cpu.prefixes.address32 = address32 →
      Unimplemented (dispatcher.run instr.opcode core) ∨
        dispatcher.run instr.opcode core = instr.sized operand32 address32 start

/-! ## What depends on which prefix -/

namespace SizedInstr

def operandSized : SizedInstr → Bool
  | loadMoffs wide | storeMoffs wide | string _ wide | repeated _ _ wide => wide
  | _ => true

/-- The arm has a direct offset, or SI, DI and CX; ModRM operands are decoded
by the address size. -/
def addressSized : SizedInstr → Bool
  | loadMoffs _ | storeMoffs _ | string .. | repeated .. => true
  | _ => false

/-- Arms that turn the instruction down themselves. -/
def TurnedDown : SizedInstr → Prop
  | groupFF field => field = 7
  | repeated .repne op _ => op.compares = false
  | _ => False

instance (instr : SizedInstr) : Decidable instr.TurnedDown := by
  cases instr with
  | repeated rep op wide => cases rep <;> unfold TurnedDown <;> infer_instance
  | _ => unfold TurnedDown; infer_instance

end SizedInstr

/-- The dispatcher has no arm for the instruction, or one that refuses it. -/
def Dispatcher.Refuses (dispatcher : Dispatcher) (instr : SizedInstr) : Prop :=
  instr.TurnedDown ∨ ∀ home ∈ instr.home, home ∉ dispatcher.chain

/-! ## The arms as they are -/

namespace SizedInstr

/-- The arm that the dispatchers have for the opcode. -/
def ownArm : SizedInstr → Routine StepResult
  | group1Imm _ => group1Rm16Imm16
  | group1Imm8 _ => group1Rm16Imm8
  | group3 _ => group3Rm16
  | groupFF _ => Kita98.groupFF
  | movRmImm => movRm16Imm
  | movRegImm field => movReg16Imm (movRegImm field).opcode
  | loadMoffs wide => if wide then movAxMoffs else movAlMoffs
  | storeMoffs wide => if wide then movMoffsAx else movMoffsAl
  | callRel => callRel16
  | jmpRel => jmpRel16
  | string op wide => do
      stringBody op wide false false
      return .proceed
  | repeated .repe _ _ => repArm
  | repeated .repne _ _ => repneArm
  | shift count => pure (.unimplemented (shift count).opcode)
  | doubleShift .. | xadd | bitTest | bitModify _ | bitImm _ | bitScan _ => dispatch0f

theorem arm_of_home {instr : SizedInstr} {home : Dispatcher} (hhome : instr.home = some home) :
    home.arm instr.opcode = some instr.ownArm := by
  cases instr with
  | movRegImm field =>
      cases hhome
      rcases field_cases field with h | h | h | h | h | h | h | h <;> subst h <;> rfl
  | loadMoffs wide => cases hhome; cases wide <;> rfl
  | storeMoffs wide => cases hhome; cases wide <;> rfl
  | string op wide => cases hhome; cases op <;> cases wide <;> rfl
  | repeated rep op wide => cases hhome; cases rep <;> rfl
  | shift count => cases hhome
  | _ => cases hhome; rfl

theorem no_arm_of_no_home {instr : SizedInstr} (hhome : instr.home = none) (d : Dispatcher) :
    d.arm instr.opcode = none := by
  cases instr with
  | shift count => cases count <;> cases d <;> rfl
  | _ => cases hhome

end SizedInstr

/-! ## The chains -/

namespace Dispatcher

variable {d home : Dispatcher} {opcode : U8} {routine : Routine StepResult}

theorem findSome_cons_getD (f : Dispatcher → Option (Routine StepResult)) (rest : List Dispatcher)
    (routine : Routine StepResult) :
    ((d :: rest).findSome? f).getD routine = (f d).getD ((rest.findSome? f).getD routine) := by
  rw [List.findSome?_cons]
  cases f d <;> rfl

theorem run_chain (d : Dispatcher) (opcode : U8) :
    d.run opcode =
      (d.chain.findSome? fun e => e.arm opcode).getD (pure (.unimplemented opcode)) := by
  cases d <;> simp only [chain, findSome_cons_getD] <;> rfl

/-- An arm on the chain is the one that runs. -/
theorem run_of_mem (harm : home.arm opcode = some routine) (hmem : home ∈ d.chain) :
    d.run opcode = routine := by
  rw [run_chain]
  cases hfound : d.chain.findSome? fun e => e.arm opcode with
  | none =>
      have hnone := List.findSome?_eq_none_iff.mp hfound home hmem
      rw [harm] at hnone
      cases hnone
  | some found =>
      rcases List.exists_of_findSome?_eq_some hfound with ⟨owner, -, howner⟩
      exact arm_unique howner harm

theorem run_of_none (hnone : ∀ e ∈ d.chain, e.arm opcode = none) :
    d.run opcode = pure (.unimplemented opcode) := by
  rw [run_chain, List.findSome?_eq_none_iff.mpr hnone]
  rfl

theorem run_of_not_mem (hnop : opcode ≠ 0x90) (harm : home.arm opcode = some routine)
    (hmem : home ∉ d.chain) : d.run opcode = pure (.unimplemented opcode) := by
  apply run_of_none
  intro e he
  cases hown : e.arm opcode with
  | none => rfl
  | some other =>
      rw [owner_unique hnop hown harm] at he
      exact absurd he hmem

end Dispatcher

namespace SizedInstr

theorem opcode_ne_nop (instr : SizedInstr) : instr.opcode ≠ 0x90 := by
  cases instr with
  | movRegImm field => revert field; decide
  | loadMoffs wide => cases wide <;> decide
  | storeMoffs wide => cases wide <;> decide
  | string op wide => cases op <;> cases wide <;> decide
  | repeated rep op wide => cases rep <;> simp [opcode, RepeatPrefix.byte]
  | shift count => cases count <;> decide
  | _ => simp [opcode]

variable {instr : SizedInstr} {core start : Core}

theorem dispatch0f_at {second : U8} (hsecond : core.byteAt 0 = second) :
    dispatch0f core = extendedArm second (core.skip 1) := by
  rw [← hsecond]
  rfl

theorem stringOp_opcode (op : StringOp) (wide : Bool) :
    stringOp (op.opcode wide) = some (stringBody op wide false false, op.compares) := by
  cases op <;> cases wide <;> rfl

theorem movRegImm_field : ∀ field : BitVec 3, (movRegImm field).opcode.setWidth 3 = field := by
  decide

theorem repeated_word (rep : RepeatPrefix) (op : StringOp) (wide : Bool) :
    (repeated rep op wide).sized false false = (do
      repLoop (stringBody op wide false false) op.compares rep.stopZf repFuel
      return .proceed) := by
  rw [sized, sizedRepLoop_word]
  rfl

theorem extended_word {second : U8} (hsecond : instr.second = some second) :
    extendedArm second = instr.sized false false := by
  cases instr with
  | doubleShift right byCl =>
      cases hsecond
      cases right <;> cases byCl
      · exact sizedShiftImm_word.1.symm
      · exact sizedShiftCl_word.1.symm
      · exact sizedShiftImm_word.2.symm
      · exact sizedShiftCl_word.2.symm
  | xadd =>
      cases hsecond
      exact sizedXadd_word.symm
  | bitTest =>
      cases hsecond
      exact sizedBt_word.symm
  | bitModify op =>
      cases op <;> cases hsecond
      · exact sizedBitModify_word.1.symm
      · exact sizedBitModify_word.2.1.symm
      · exact sizedBitModify_word.2.2.symm
  | bitImm field =>
      cases hsecond
      exact sizedGroup8_word.symm
  | bitScan reverse =>
      cases hsecond
      cases reverse
      · exact sizedBitScan_word.1.symm
      · exact sizedBitScan_word.2.symm
  | _ => cases hsecond

theorem movReg_word (field : BitVec 3) :
    (movRegImm field).ownArm = (movRegImm field).sized false false := by
  have hword := sizedMovRegImm_word (movRegImm field).opcode
  rw [movRegImm_field] at hword
  exact hword.symm

/-- The interpreter's arm is the one at 16 bits. -/
theorem ownArm_eq (hopens : instr.Opens core start) (htaken : ¬ instr.TurnedDown) :
    instr.ownArm core = instr.sized false false start := by
  have hstart := hopens.1
  have hextended : ∀ second, instr.second = some second →
      core.byteAt 0 = second ∧ start = core.skip 1 →
        dispatch0f core = instr.sized false false start := by
    rintro second hsecond ⟨hbyte, rfl⟩
    rw [dispatch0f_at hbyte, extended_word hsecond]
  cases instr with
  | doubleShift right byCl => exact hextended _ rfl hstart
  | xadd => exact hextended _ rfl hstart
  | bitTest => exact hextended _ rfl hstart
  | bitModify op => cases op <;> exact hextended _ rfl hstart
  | bitImm field => exact hextended _ rfl hstart
  | bitScan reverse => exact hextended _ rfl hstart
  | repeated rep op wide =>
      rcases hstart with ⟨k, hbehind, rfl⟩
      rw [repeated_word]
      cases rep with
      | repe => exact repArm_behind hbehind (stringOp_opcode op wide)
      | repne =>
          have hcompares : op.compares = true := Bool.eq_true_of_not_eq_false htaken
          have hrun := repneArm_behind hbehind (stringOp_opcode op wide)
          rw [if_pos hcompares] at hrun
          rw [hcompares]
          exact hrun
  | group1Imm field => exact hstart ▸ congrFun sizedGroup1Imm_word.symm start
  | group1Imm8 field => exact hstart ▸ congrFun sizedGroup1Imm8_word.symm start
  | group3 field => exact hstart ▸ congrFun sizedGroup3_word.symm start
  | groupFF field => exact hstart ▸ congrFun sizedGroupFF_word.symm start
  | movRmImm => exact hstart ▸ congrFun sizedMovRmImm_word.symm start
  | movRegImm field => exact hstart ▸ congrFun (movReg_word field) start
  | loadMoffs wide =>
      subst hstart
      cases wide
      · exact congrFun sizedLoadMoffs_byte.symm start
      · exact congrFun sizedLoadMoffs_word.symm start
  | storeMoffs wide =>
      subst hstart
      cases wide
      · exact congrFun sizedStoreMoffs_byte.symm start
      · exact congrFun sizedStoreMoffs_word.symm start
  | callRel => exact hstart ▸ congrFun sizedCallRel_word.symm start
  | jmpRel => exact hstart ▸ congrFun sizedJmpRel_word.symm start
  | string op wide =>
      subst hstart
      rfl
  | shift count =>
      subst hstart
      rfl

theorem ownArm_turned_down (hopens : instr.Opens core start) (hdown : instr.TurnedDown) :
    Unimplemented (instr.ownArm core) := by
  have hstart := hopens.1
  cases instr with
  | groupFF field =>
      subst hstart
      have hreg : (ModRm.decode (start.byteAt 0)).reg = 7 := (hopens.2 field rfl).trans hdown
      have hfetch : fetchModrm start = .ok (ModRm.decode (start.byteAt 0), start.skip 1) := rfl
      refine ⟨0xFF, start.skip 1, ?_⟩
      change Kita98.groupFF start = _
      rw [Kita98.groupFF, bind_ok hfetch, hreg]
      rfl
  | repeated rep op wide =>
      rcases hstart with ⟨k, hbehind, rfl⟩
      cases rep with
      | repe => exact hdown.elim
      | repne =>
          have hcompares : op.compares = false := hdown
          have hrun := repneArm_behind hbehind (stringOp_opcode op wide)
          rw [hcompares] at hrun
          refine ⟨op.opcode wide, core.behind repnePrefixEffect k, hrun.trans ?_⟩
          cases op <;> cases wide <;> rfl
  | _ => exact hdown.elim

/-- Only the sizes that the instruction has matter. -/
theorem sized_eq {operand32 address32 : Bool}
    (hoperand : instr.operandSized = true → operand32 = false)
    (haddress : instr.addressSized = true → address32 = false) :
    instr.sized operand32 address32 = instr.sized false false := by
  cases instr with
  | loadMoffs wide =>
      cases haddress rfl
      cases wide
      · rfl
      · cases hoperand rfl
        rfl
  | storeMoffs wide =>
      cases haddress rfl
      cases wide
      · rfl
      · cases hoperand rfl
        rfl
  | string op wide =>
      cases haddress rfl
      cases wide
      · rfl
      · cases hoperand rfl
        rfl
  | repeated rep op wide =>
      cases haddress rfl
      cases wide
      · rfl
      · cases hoperand rfl
        rfl
  | _ =>
      cases hoperand rfl
      rfl

end SizedInstr

/-! ## Probes -/

def probeRegs (pointer : U32) : Regs where
  gp
    | .AX => 0x55550000
    | .CX => 1
    | .DX => 0x10
    | .BX | .DI => pointer
    | .SP => 0x200
    | .BP => 0
    | .SI => 0xFFFF
  seg := fun _ => 0
  ip := 0
  flags := 2

def probeCore (pointer : U32) (bytes : List U8) (operand32 address32 : Bool) : Core :=
  let core := operandCore bytes
  { core with
    cpu := { core.cpu with regs := probeRegs pointer, prefixes := ⟨operand32, address32, none⟩ } }

def registerForm (field rm : BitVec 3) : U8 := packFields 3 field rm

namespace SizedInstr

def probeBytes : SizedInstr → List U8
  | group1Imm field => [registerForm field 0, 0, 0, 0, 0]
  | group1Imm8 field => [registerForm field 0, if field = 4 then 0xFF else 0]
  | group3 field => [registerForm field 0, 0, 0, 0, 0]
  | groupFF field =>
      if field = 3 ∨ field = 5 then [packFields 0 field 7, 1, 2, 3, 4, 5]
      else [registerForm field (if field = 0 then 3 else 0)]
  | movRmImm => [registerForm 0 0, 0, 0, 0, 0]
  | loadMoffs _ | storeMoffs _ => [0, 1, 0, 0]
  | repeated _ op wide => [op.opcode wide]
  | doubleShift right byCl => (doubleShift right byCl).second.toList ++ [registerForm 1 0, 1]
  | xadd => [0xC1, registerForm 1 0]
  | bitTest => [0xA3, registerForm 2 0]
  | bitModify op => (bitModify op).second.toList ++ [registerForm 2 0]
  | bitImm field => [0xBA, registerForm field 0, 0x10]
  | bitScan reverse => (bitScan reverse).second.toList ++ [registerForm 1 0]
  | _ => []

def probe (instr : SizedInstr) (operand32 address32 : Bool) : Core :=
  probeCore (if instr = groupFF 3 ∨ instr = groupFF 5 then 0 else 0xFFFF) instr.probeBytes
    operand32 address32

def probeStart (instr : SizedInstr) (operand32 address32 : Bool) : Core :=
  match instr with
  | repeated rep _ _ => (instr.probe operand32 address32).behind rep.effect 0
  | _ =>
      if instr.second.isSome then (instr.probe operand32 address32).skip 1
      else instr.probe operand32 address32

end SizedInstr

/-- The parts of an outcome in which the probes differ. -/
def digest (run : Except Fault (StepResult × Core)) :
    Except Fault (StepResult × U32 × U32 × List U32 × List U8) :=
  run.map fun r => (r.1, r.2.cpu.regs.ip, r.2.cpu.regs.flags,
    [Reg16.AX, .CX, .DX, .BX, .SP, .SI, .DI].map r.2.cpu.regs.gp,
    [0x100, 0x102].map r.2.bus.mem.readU8)

instance (run : Except Fault (StepResult × Core)) : Decidable (Unimplemented run) :=
  match run with
  | .ok (.unimplemented op, next) => .isTrue ⟨op, next, rfl⟩
  | .ok (.proceed, _) | .ok (.halt, _) | .ok (.interrupt _, _) | .error _ =>
      .isFalse fun h => by
        rcases h with ⟨op, next, hrun⟩
        cases hrun

namespace SizedInstr

/-- The probe tells the arm at these sizes from the one at 16 bits. -/
def Told (instr : SizedInstr) (operand32 address32 : Bool) : Prop :=
  digest (instr.sized false false (instr.probeStart operand32 address32)) ≠
      digest (instr.sized operand32 address32 (instr.probeStart operand32 address32)) ∧
    ¬ Unimplemented (instr.sized false false (instr.probeStart operand32 address32))

instance (instr : SizedInstr) (operand32 address32 : Bool) :
    Decidable (instr.Told operand32 address32) := by
  unfold Told
  infer_instance

/-- Behind a prefix that the instruction depends on, its probe tells. -/
theorem told (instr : SizedInstr) : ∀ operand32 address32 : Bool,
    ¬ instr.TurnedDown → instr.home ≠ none →
      instr.operandSized = true ∧ operand32 = true ∨
        instr.addressSized = true ∧ address32 = true →
      instr.Told operand32 address32 := by
  cases instr with
  | group1Imm field => revert field; decide +kernel
  | group1Imm8 field => revert field; decide +kernel
  | group3 field => revert field; decide +kernel
  | groupFF field => revert field; decide +kernel
  | movRmImm => decide +kernel
  | movRegImm field => revert field; decide +kernel
  | loadMoffs wide => revert wide; decide +kernel
  | storeMoffs wide => revert wide; decide +kernel
  | callRel => decide +kernel
  | jmpRel => decide +kernel
  | string op wide => cases op <;> revert wide <;> decide +kernel
  | repeated rep op wide => cases rep <;> cases op <;> revert wide <;> decide +kernel
  | shift count => cases count <;> decide +kernel
  | doubleShift right byCl => revert right byCl; decide +kernel
  | xadd => decide +kernel
  | bitTest => decide +kernel
  | bitModify op => cases op <;> decide +kernel
  | bitImm field => revert field; decide +kernel
  | bitScan reverse => revert reverse; decide +kernel

theorem probe_field (instr : SizedInstr) : ∀ operand32 address32 : Bool,
    ∀ field ∈ instr.field,
      (ModRm.decode ((instr.probeStart operand32 address32).byteAt 0)).reg = field := by
  cases instr with
  | group1Imm field => revert field; decide +kernel
  | group1Imm8 field => revert field; decide +kernel
  | group3 field => revert field; decide +kernel
  | groupFF field => revert field; decide +kernel
  | bitImm field => revert field; decide +kernel
  | _ =>
      intro operand32 address32 field hfield
      cases hfield

theorem probe_second (instr : SizedInstr) : ∀ operand32 address32 : Bool,
    ∀ second ∈ instr.second, (instr.probe operand32 address32).byteAt 0 = second := by
  cases instr with
  | doubleShift right byCl => revert right byCl; decide +kernel
  | xadd => decide +kernel
  | bitTest => decide +kernel
  | bitModify op => cases op <;> decide +kernel
  | bitImm field => revert field; decide +kernel
  | bitScan reverse => revert reverse; decide +kernel
  | _ =>
      intro operand32 address32 second hsecond
      cases hsecond

theorem probe_behind (rep : RepeatPrefix) (op : StringOp) (wide operand32 address32 : Bool) :
    Behind rep.effect ((repeated rep op wide).probe operand32 address32) (op.opcode wide) 0 := by
  constructor
  · intro j hj
    exact absurd hj (Nat.not_lt_zero j)
  · cases rep <;> cases op <;> cases wide <;> decide
  · cases rep <;> cases op <;> revert wide operand32 address32 <;> decide +kernel

theorem probe_opens (instr : SizedInstr) (operand32 address32 : Bool) :
    instr.Opens (instr.probe operand32 address32) (instr.probeStart operand32 address32) := by
  refine ⟨?_, instr.probe_field operand32 address32⟩
  have hsecond := instr.probe_second operand32 address32
  cases instr with
  | repeated rep op wide =>
      exact ⟨0, probe_behind rep op wide operand32 address32, rfl⟩
  | doubleShift right byCl => exact ⟨hsecond _ rfl, rfl⟩
  | xadd => exact ⟨hsecond _ rfl, rfl⟩
  | bitTest => exact ⟨hsecond _ rfl, rfl⟩
  | bitModify op => cases op <;> exact ⟨hsecond _ rfl, rfl⟩
  | bitImm field => exact ⟨hsecond _ rfl, rfl⟩
  | bitScan reverse => exact ⟨hsecond _ rfl, rfl⟩
  | _ => rfl

theorem probeStart_prefixes (instr : SizedInstr) (operand32 address32 : Bool) :
    (instr.probeStart operand32 address32).cpu.prefixes = ⟨operand32, address32, none⟩ := by
  cases instr with
  | bitModify op => cases op <;> rfl
  | _ => rfl

end SizedInstr

/-! ## Which prefixes are kept -/

theorem run_of_refuses {d : Dispatcher} {instr : SizedInstr} {core start : Core}
    (hrefuses : d.Refuses instr) (hopens : instr.Opens core start) :
    Unimplemented (d.run instr.opcode core) := by
  cases hhome : instr.home with
  | none =>
      rw [Dispatcher.run_of_none fun e _ => SizedInstr.no_arm_of_no_home hhome e]
      exact ⟨_, _, rfl⟩
  | some home =>
      have harm := SizedInstr.arm_of_home hhome
      by_cases hmem : home ∈ d.chain
      · rcases hrefuses with hdown | hnot
        · rw [Dispatcher.run_of_mem harm hmem]
          exact SizedInstr.ownArm_turned_down hopens hdown
        · exact absurd hmem (hnot home hhome)
      · rw [Dispatcher.run_of_not_mem instr.opcode_ne_nop harm hmem]
        exact ⟨_, _, rfl⟩

theorem run_of_not_refuses {d : Dispatcher} {instr : SizedInstr} {core start : Core}
    (htaken : ¬ d.Refuses instr) (hopens : instr.Opens core start) :
    d.run instr.opcode core = instr.sized false false start := by
  rcases not_or.mp htaken with ⟨hdown, hreached⟩
  rcases not_forall.mp hreached with ⟨home, hhome⟩
  rcases Classical.not_imp.mp hhome with ⟨hhome, hmem⟩
  rw [Dispatcher.run_of_mem (SizedInstr.arm_of_home hhome) (not_not.mp hmem)]
  exact SizedInstr.ownArm_eq hopens hdown

theorem not_keepsStep
    {d : Dispatcher} {instr : SizedInstr} {operand32 address32 : Bool}
    (htaken : ¬ d.Refuses instr)
    (hsized : instr.operandSized = true ∧ operand32 = true ∨
      instr.addressSized = true ∧ address32 = true) :
    ¬ KeepsStep d instr operand32 address32 := by
  intro hkeeps
  have hopens := instr.probe_opens operand32 address32
  have hprefixes := instr.probeStart_prefixes operand32 address32
  have hhome : instr.home ≠ none := by
    intro hnone
    apply htaken
    right
    intro home hhome
    rw [hnone] at hhome
    cases hhome
  have htold := instr.told operand32 address32 (fun hdown => htaken (.inl hdown)) hhome hsized
  have hrun := run_of_not_refuses htaken hopens
  rcases hkeeps _ _ hopens (by rw [hprefixes]) (by rw [hprefixes]) with hrefused | hsame
  · rw [hrun] at hrefused
    exact htold.2 hrefused
  · rw [hrun] at hsame
    exact htold.1 (congrArg digest hsame)

/-- An instruction keeps in step with its size prefixes exactly where the
dispatcher refuses it, or the prefixes select 16 bits for what it has. -/
theorem keepsStep_iff (d : Dispatcher) (instr : SizedInstr) (operand32 address32 : Bool) :
    KeepsStep d instr operand32 address32 ↔
      d.Refuses instr ∨
        ((instr.operandSized = true → operand32 = false) ∧
          (instr.addressSized = true → address32 = false)) := by
  constructor
  · intro hkeeps
    by_contra hnot
    rcases not_or.mp hnot with ⟨htaken, hsizes⟩
    apply not_keepsStep htaken _ hkeeps
    rcases not_and_or.mp hsizes with hoperand | haddress
    · left
      simpa using hoperand
    · right
      simpa using haddress
  · rintro hholds core start hopens - -
    by_cases hrefuses : d.Refuses instr
    · exact .inl (run_of_refuses hrefuses hopens)
    · rcases hholds.resolve_left hrefuses with ⟨hoperand, haddress⟩
      rw [SizedInstr.sized_eq hoperand haddress]
      exact .inr (run_of_not_refuses hrefuses hopens)

/-- `ADD EAX, 12345678h` -/
def addEaxCore : Core := operandCore [0x66, 0x81, 0xC0, 0x78, 0x56, 0x34, 0x12]

/-- It runs as an addition to AX, and the next instruction starts with the
upper half of the immediate, two bytes before the end. -/
theorem add_eax_out_of_step :
    Positioned addEaxCore 0x81 (addEaxCore.atRound 1) ∧
      (addEaxCore.atRound 1).cpu.prefixes = ⟨true, false, none⟩ ∧
      (executeOne addEaxCore).map (fun run => (run.1, run.2.cpu.regs.ip)) = .ok (.proceed, 5) ∧
      ((SizedInstr.group1Imm 0).sized true false (addEaxCore.atRound 1)).map
        (fun run => (run.1, run.2.cpu.regs.ip)) = .ok (.proceed, 7) ∧
      ¬ KeepsStep .alu (.group1Imm 0) true false := by
  refine ⟨⟨rfl, ?_⟩, by decide +kernel, by decide +kernel, by decide +kernel, ?_⟩
  · have hopcode : OpcodeAt addEaxCore 1 := by
      constructor <;> decide +kernel
    have hbyte : addEaxCore.byteAt 1 = 0x81 := by
      decide +kernel
    have hfetch := fetchOpcodeWithin_of_opcodeAt hopcode hopcode.lt_prefixFuel
    rw [hbyte] at hfetch
    exact hfetch
  · apply not_keepsStep
    · rintro (hdown | hnot)
      · exact hdown
      · exact hnot .alu rfl List.mem_cons_self
    · exact .inl ⟨rfl, rfl⟩

end Kita98
