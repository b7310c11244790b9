import Kita98.ArmResults

/-!
# Which opcodes reach their arm

Six dispatchers have explicit arms, but `execute_one` enters the chain at
`dispatch_alu`, past `dispatch_stack`, `dispatch_string` and
`dispatch_transfer`.  An opcode that only these three know is refused, so the
arm it has is never run.  The one way out is a repeat prefix whose own scan
for a string instruction runs round the whole segment and ends on itself:
then the arm refuses the byte as well, in the same state.
-/

namespace Kita98

open Exec

inductive Dispatcher where
  | alu
  | stack
  | string
  | transfer
  | flow
  | misc
  deriving DecidableEq, Repr

def Dispatcher.all : List Dispatcher := [.alu, .stack, .string, .transfer, .flow, .misc]

def Dispatcher.arm : Dispatcher → U8 → Option (Routine StepResult)
  | .alu => aluArm
  | .stack => stackArm
  | .string => stringArm
  | .transfer => transferArm
  | .flow => flowArm
  | .misc => miscArm

def counted (routine : Routine StepResult) : Routine StepResult := do
  let result ← routine
  countInstruction
  return result

/-- The running processor stands before `opcode`, possibly behind prefix
bytes; `next` is the state in which the opcode is dispatched. -/
structure Positioned (core : Core) (opcode : U8) (next : Core) : Prop where
  running : core.cpu.halted = false
  fetched : fetchOpcode core = .ok (opcode, next)

/-- `execute_one` does what the arm of the opcode does, and refuses only what
no dispatcher knows or the arm itself refuses. -/
structure PerformsArm (core : Core) (opcode : U8) (next : Core) : Prop where
  arm : ∀ (d : Dispatcher) (routine : Routine StepResult),
    d.arm opcode = some routine → executeOne core = counted routine next
  refused : ∀ (op : U8) (after : Core),
    executeOne core = .ok (.unimplemented op, after) →
      (∀ d : Dispatcher, d.arm op = none) ∨
        ∃ (d : Dispatcher) (routine : Routine StepResult) (last : Core),
          d.arm opcode = some routine ∧ routine next = .ok (.unimplemented op, last)

/-- Only dispatchers outside the chain of `dispatch` know the opcode. -/
def Stranded (opcode : U8) : Prop :=
  aluArm opcode = none ∧ flowArm opcode = none ∧ miscArm opcode = none ∧
    ∃ d : Dispatcher, (d.arm opcode).isSome

/-- The scan of a repeat prefix ends on the repeat prefix itself, with
nothing changed. -/
def RescansItself (opcode : U8) (next : Core) : Prop :=
  (opcode = 0xF3 ∧
      (fetchU8 >>= skipPrefixes prefixEffect prefixFuel) next = .ok (0xF3, next)) ∨
    (opcode = 0xF2 ∧
      (fetchU8 >>= skipPrefixes repnePrefixEffect prefixFuel) next = .ok (0xF2, next))

/-! ## The chain -/

theorem executeOne_of_positioned
    {core next : Core} {opcode : U8} (hpos : Positioned core opcode next) :
    executeOne core = counted (dispatch opcode) next := by
  have hread :
      (Exec.read fun core : Core => core.cpu.halted : Routine Bool) core =
        .ok (false, core) := by
    rw [read_apply, hpos.running]
  unfold executeOne
  rw [bind_ok hread]
  simp only [Bool.false_eq_true, if_false]
  rw [bind_ok hpos.fetched]
  rfl

theorem counted_ok
    {routine : Routine StepResult} {core next : Core} {result : StepResult}
    (hrun : routine core = .ok (result, next)) :
    ∃ after, counted routine core = .ok (result, after) := by
  unfold counted
  rw [bind_ok hrun]
  exact ⟨_, rfl⟩

theorem counted_eq_ok
    {routine : Routine StepResult} {core after : Core} {result : StepResult}
    (hrun : counted routine core = .ok (result, after)) :
    ∃ next, routine core = .ok (result, next) := by
  unfold counted at hrun
  rcases bind_eq_ok hrun with ⟨value, next, hroutine, hrest⟩
  cases hrest
  exact ⟨next, hroutine⟩

theorem counted_inj
    {routine routine' : Routine StepResult} {core next next' : Core}
    {result result' : StepResult}
    (hrun : routine core = .ok (result, next))
    (hrun' : routine' core = .ok (result', next'))
    (heq : counted routine core = counted routine' core) :
    result = result' ∧ next = next' := by
  unfold counted at heq
  rw [bind_ok hrun, bind_ok hrun'] at heq
  simp only [bind_apply, countInstruction, update_apply, pure_apply,
    Except.ok.injEq, Prod.mk.injEq] at heq
  rcases heq with ⟨hresult, hcore⟩
  refine ⟨hresult, ?_⟩
  cases next
  cases next'
  simp only [Core.mk.injEq, Interpreter.mk.injEq] at hcore ⊢
  rcases hcore with ⟨⟨hregs, hhalted, hcount, hprefixes, hranges⟩, hbus⟩
  rename_i cpu _ cpu' _
  cases cpu
  cases cpu'
  simp only at hregs hhalted hcount hprefixes hranges
  simp only [Interpreter.mk.injEq]
  refine ⟨⟨hregs, hhalted, ?_, hprefixes, hranges⟩, hbus⟩
  omega

/-! ## One owner for each opcode -/

def owners (opcode : U8) : List Dispatcher :=
  Dispatcher.all.filter fun d => (d.arm opcode).isSome

/-- Only NOP is claimed twice. -/
theorem owners_length_le_one :
    ∀ opcode : U8, opcode ≠ 0x90 → (owners opcode).length ≤ 1 := by
  decide +kernel

theorem mem_owners
    {opcode : U8} {d : Dispatcher} {routine : Routine StepResult}
    (harm : d.arm opcode = some routine) : d ∈ owners opcode := by
  have hall : d ∈ Dispatcher.all := by
    cases d <;> decide
  have hsome : (d.arm opcode).isSome = true := by
    rw [harm]
    rfl
  exact List.mem_filter.mpr ⟨hall, hsome⟩

theorem owner_unique
    {opcode : U8} {d d' : Dispatcher} {routine routine' : Routine StepResult}
    (hnop : opcode ≠ 0x90) (harm : d.arm opcode = some routine)
    (harm' : d'.arm opcode = some routine') : d = d' := by
  have hone := owners_length_le_one opcode hnop
  have hd := mem_owners harm
  have hd' := mem_owners harm'
  rcases howners : owners opcode with _ | ⟨owner, _ | ⟨other, rest⟩⟩
  · rw [howners] at hd
    cases hd
  · rw [howners, List.mem_singleton] at hd hd'
    rw [hd, hd']
  · rw [howners] at hone
    simp at hone

theorem arm_unique
    {opcode : U8} {d d' : Dispatcher} {routine routine' : Routine StepResult}
    (harm : d.arm opcode = some routine) (harm' : d'.arm opcode = some routine') :
    routine = routine' := by
  by_cases hnop : opcode = 0x90
  · subst hnop
    cases d <;> cases harm <;> cases d' <;> cases harm' <;> rfl
  · rw [owner_unique hnop harm harm', harm'] at harm
    exact (Option.some.inj harm).symm

/-! ## Reached and stranded opcodes -/

theorem dispatch_of_no_arm
    {opcode : U8} (halu : aluArm opcode = none) (hflow : flowArm opcode = none)
    (hmisc : miscArm opcode = none) :
    dispatch opcode = pure (.unimplemented opcode) := by
  unfold dispatch dispatchAlu dispatchFlow dispatchMisc
  rw [halu, hflow, hmisc]
  rfl

/-- An opcode that is not stranded is unknown to every dispatcher, or the
chain runs its arm. -/
theorem dispatch_of_not_stranded
    {opcode : U8} (hreached : ¬ Stranded opcode) :
    (∀ d : Dispatcher, d.arm opcode = none) ∨
      ∃ d : Dispatcher, d.arm opcode = some (dispatch opcode) := by
  unfold dispatch dispatchAlu dispatchFlow dispatchMisc
  cases halu : aluArm opcode with
  | some routine => exact .inr ⟨.alu, halu⟩
  | none =>
      cases hflow : flowArm opcode with
      | some routine => exact .inr ⟨.flow, hflow⟩
      | none =>
          cases hmisc : miscArm opcode with
          | some routine => exact .inr ⟨.misc, hmisc⟩
          | none =>
              left
              intro d
              cases harm : d.arm opcode with
              | none => rfl
              | some routine =>
                  have hsome : (d.arm opcode).isSome := by
                    rw [harm]
                    rfl
                  exact absurd ⟨halu, hflow, hmisc, d, hsome⟩ hreached

theorem performsArm_of_not_stranded
    {core next : Core} {opcode : U8} (hpos : Positioned core opcode next)
    (hreached : ¬ Stranded opcode) : PerformsArm core opcode next := by
  have hrun := executeOne_of_positioned hpos
  rcases dispatch_of_not_stranded hreached with hnone | ⟨owner, howner⟩
  · constructor
    · intro d routine harm
      rw [hnone d] at harm
      cases harm
    · intro op after hrefused
      have hdispatch :=
        dispatch_of_no_arm (hnone .alu) (hnone .flow) (hnone .misc)
      rw [hrun, hdispatch] at hrefused
      cases hrefused
      exact .inl hnone
  · constructor
    · intro d routine harm
      rw [hrun, arm_unique harm howner]
    · intro op after hrefused
      rw [hrun] at hrefused
      rcases counted_eq_ok hrefused with ⟨last, hlast⟩
      exact .inr ⟨owner, dispatch opcode, last, howner, hlast⟩

theorem arm_eq_dispatch_of_rescansItself
    {next : Core} {opcode : U8} (hrescan : RescansItself opcode next) :
    ∃ routine : Routine StepResult,
      Dispatcher.string.arm opcode = some routine ∧
        routine next = .ok (.unimplemented opcode, next) ∧
          dispatch opcode = pure (.unimplemented opcode) := by
  rcases hrescan with ⟨rfl, hscan⟩ | ⟨rfl, hscan⟩
  · refine ⟨repArm, rfl, ?_, rfl⟩
    rcases bind_eq_ok hscan with ⟨first, fetched, hfetch, hskip⟩
    unfold repArm
    rw [bind_ok hfetch, bind_ok hskip]
    rfl
  · refine ⟨repneArm, rfl, ?_, rfl⟩
    rcases bind_eq_ok hscan with ⟨first, fetched, hfetch, hskip⟩
    unfold repneArm
    rw [bind_ok hfetch, bind_ok hskip]
    rfl

theorem performsArm_of_rescansItself
    {core next : Core} {opcode : U8} (hpos : Positioned core opcode next)
    (hrescan : RescansItself opcode next) : PerformsArm core opcode next := by
  have hrun := executeOne_of_positioned hpos
  rcases arm_eq_dispatch_of_rescansItself hrescan with ⟨string, hstring, hrefuse, hdispatch⟩
  constructor
  · intro d routine harm
    rw [hrun, arm_unique harm hstring, hdispatch]
    unfold counted
    rw [bind_ok hrefuse]
    rfl
  · intro op after hrefused
    rw [hrun, hdispatch] at hrefused
    cases hrefused
    exact .inr ⟨.string, string, next, hstring, hrefuse⟩

/-- A stranded opcode is refused, so an arm that agrees with the refusal
refuses it as well, and only the repeat prefixes do. -/
theorem rescansItself_of_performsArm
    {core next : Core} {opcode : U8} (hpos : Positioned core opcode next)
    (hstranded : Stranded opcode) (hperforms : PerformsArm core opcode next) :
    RescansItself opcode next := by
  rcases hstranded with ⟨halu, hflow, hmisc, owner, howner⟩
  rcases Option.isSome_iff_exists.mp howner with ⟨routine, harm⟩
  have hrun := hperforms.arm owner routine harm
  rw [executeOne_of_positioned hpos, dispatch_of_no_arm halu hflow hmisc] at hrun
  rcases counted_ok (pure_apply (ε := Fault) (StepResult.unimplemented opcode) next) with
    ⟨after, hafter⟩
  rcases counted_eq_ok (hrun.symm.trans hafter) with ⟨last, hlast⟩
  rcases counted_inj hlast (pure_apply _ next) hrun.symm with ⟨-, hsame⟩
  subst hsame
  cases owner with
  | alu => rw [show aluArm opcode = some routine from harm] at halu; cases halu
  | flow => rw [show flowArm opcode = some routine from harm] at hflow; cases hflow
  | misc => rw [show miscArm opcode = some routine from harm] at hmisc; cases hmisc
  | stack => cases stackArm_proceeds harm _ _ _ hlast
  | transfer => cases transferArm_proceeds harm _ _ _ hlast
  | string =>
      rcases stringArm_cases harm with hproceeds | ⟨rfl, rfl⟩ | ⟨rfl, rfl⟩
      · cases hproceeds _ _ _ hlast
      · exact .inl ⟨rfl, repArm_unimplemented hlast⟩
      · exact .inr ⟨rfl, repneArm_unimplemented hlast⟩

theorem performsArm_iff
    {core next : Core} {opcode : U8} (hpos : Positioned core opcode next) :
    PerformsArm core opcode next ↔ ¬ Stranded opcode ∨ RescansItself opcode next := by
  constructor
  · intro hperforms
    by_cases hstranded : Stranded opcode
    · exact .inr (rescansItself_of_performsArm hpos hstranded hperforms)
    · exact .inl hstranded
  · rintro (hreached | hrescan)
    · exact performsArm_of_not_stranded hpos hreached
    · exact performsArm_of_rescansItself hpos hrescan

/-! ## A stranded MOV -/

def movAxMemory : Memory := Memory.new.loadBytes 0 [0xB8, 0x34, 0x12]

def movAxCore : Core where
  cpu := Interpreter.new
  bus := { Bus.new none (fun _ => 0) with mem := movAxMemory }

theorem movAxCore_positioned :
    Positioned movAxCore 0xB8 (movAxCore.setIp 1) :=
  ⟨rfl, rfl⟩

theorem movAxCore_refused :
    executeOne movAxCore =
      counted (pure (.unimplemented 0xB8)) (movAxCore.setIp 1) :=
  rfl

theorem performsArm_movAxCore :
    PerformsArm movAxCore 0xB8 (movAxCore.setIp 1) ↔
      ¬ Stranded 0xB8 ∨ RescansItself 0xB8 (movAxCore.setIp 1) :=
  performsArm_iff movAxCore_positioned

theorem movAx_not_performed :
    Positioned movAxCore 0xB8 (movAxCore.setIp 1) ∧
      ¬ PerformsArm movAxCore 0xB8 (movAxCore.setIp 1) := by
  refine ⟨movAxCore_positioned, ?_⟩
  intro hperforms
  obtain ⟨after, hafter⟩ :=
    counted_ok (pure_apply (ε := Fault) (StepResult.unimplemented 0xB8)
      (movAxCore.setIp 1))
  rcases hperforms.refused 0xB8 after (movAxCore_refused.trans hafter) with
    hnone | ⟨d, routine, last, harm, hlast⟩
  · cases hnone .transfer
  · have htransfer : Dispatcher.transfer.arm 0xB8 = some (movReg16Imm 0xB8) := rfl
    rw [arm_unique harm htransfer] at hlast
    cases hlast

end Kita98
