import Kita98.HaltLatch
import Kita98.InstructionEnd
import Kita98.JitCache

/-!
# The instruction limit over a run

`execute_one` advances the counter that `step` compares with the limit; a
translated block does not.  The counter stays within the limit along every run,
and what has been executed beyond it are the instructions of the blocks.
-/

namespace Kita98

open Exec

variable {H : HostFiles}

/-! ## The counter of the interpreter -/

def SameCount (core next : Core) : Prop :=
  next.cpu.instructionsExecuted = core.cpu.instructionsExecuted

instance : IsPreorder Core SameCount where
  refl := fun _ => rfl
  trans := fun _ _ _ hfirst hrest => hrest.trans hfirst

instance : IsFrame SameCount := .of_others (fun _ _ _ => rfl) fun _ _ _ _ => rfl

theorem dispatch_count
    {opcode : U8} {core next : Core} {result : StepResult}
    (hrun : dispatch opcode core = .ok (result, next)) : SameCount core next := by
  apply @dispatch_cases SameCount _ _ _ _ _ _ hrun
  · intro hkept
    exact hkept
  · intro hopcode hiret
    cases hiret
    rfl
  · intro hopcode hhlt
    cases hhlt
    rfl
  · intro second fetched hopcode hfetch hjcc hbranch
    cases hfetch
    rw [jccNear_apply] at hbranch
    cases hbranch
    split <;> rfl

theorem executeOne_count
    {core next : Core} {result : StepResult} (hrunning : core.halted = false)
    (hrun : executeOne core = .ok (result, next)) :
    next.cpu.instructionsExecuted = core.cpu.instructionsExecuted + 1 := by
  rcases executeOne_returns hrunning hrun with ⟨k, mid, hopcode, hdispatch, rfl⟩
  have hmid : SameCount (core.atRound k) mid := dispatch_count hdispatch
  exact congrArg (· + 1) hmid

theorem serviceInterrupt_count
    {num : U8} {m m' : Machine H} {u : Unit} (hrun : serviceInterrupt num m = .ok (u, m')) :
    SameCount m.toCore m'.toCore := by
  rcases bind_eq_ok hrun with ⟨_, entered, henter, hrest⟩
  rcases bind_eq_ok hrest with ⟨handled, served, hserve, hleave⟩
  have hentered : SameCount m.toCore entered.toCore := by
    rcases focus_eq_ok henter with ⟨core, hcore, rfl⟩
    rw [enterInterrupt_apply] at hcore
    cases hcore
    rfl
  have hserved : SameCount entered.toCore served.toCore := by
    by_cases hends : EndsByInterrupt num entered.cpu.regs
    · unfold SameCount
      rw [handleInterrupt_ends hserve hends]
    · exact handleInterrupt_staysIn hserve hends
  have hlast : SameCount served.toCore m'.toCore := by
    cases handled with
    | true =>
        cases hleave
        rfl
    | false =>
        cases hleave
        rfl
  exact hlast.trans (hserved.trans hentered)

/-! ## Guest instructions of a block -/

/-- Each translated instruction stores IP behind it, and `HLT` leaves with 1. -/
def Emitted.retired : Emitted → ℕ
  | movWord off _ => if off = 24 then 1 else 0
  | leave rax => if rax = 1 then 1 else 0
  | _ => 0

def JitBlock.retired (block : JitBlock) : ℕ := (block.code.map Emitted.retired).sum

/-- `JMP`, `INT` and `HLT` are instructions of the guest themselves. -/
def BlockEnd.retired : BlockEnd → ℕ
  | jmp _ => 1
  | int _ => 1
  | hlt => 1
  | _ => 0

theorem BodyInstr.retired_code (ds : U16) (instr : BodyInstr) : (instr.code ds).retired = 0 := by
  cases instr with
  | movReg r imm => cases r <;> rfl
  | _ => rfl

theorem retired_bodyCode (ds : U16) (currIp : U32) (body : List BodyInstr) :
    ((bodyCode ds currIp body).map Emitted.retired).sum = body.length := by
  induction body generalizing currIp with
  | nil => rfl
  | cons instr body ih =>
      rw [bodyCode, List.map_cons, List.map_cons, List.sum_cons, List.sum_cons,
        instr.retired_code, ih, List.length_cons]
      simp only [Emitted.retired, if_true]
      omega

theorem BlockEnd.retired_exit
    {ending : BlockEnd} {currIp : U32} {exit : Exit}
    (hexit : ending.exitAt currIp = some exit) :
    (exit.code.map Emitted.retired).sum = ending.retired := by
  cases ending with
  | int num =>
      by_cases hsmall : currIp.toNat + 2 < 2 ^ 32
      · cases (if_pos hsmall).symm.trans hexit
        have hrax : ¬ 100 + num.toNat = 1 := by omega
        simp [Exit.code, Emitted.retired, BlockEnd.retired, hrax]
      · cases (if_neg hsmall).symm.trans hexit
  | _ =>
      cases hexit
      rfl

theorem freshCode_eq
    {core : Core} {block : JitBlock} (hfresh : freshCode core = some block) :
    ∃ exit, exitOf core = some exit ∧ ¬ TranslatesNothing core ∧
      block.code =
        bodyCode (core.cpu.regs.getSeg .DS) core.cpu.regs.ip (guestBlock core).1 ++
          exit.code := by
  cases hexit : exitOf core with
  | none =>
      rw [freshCode_of_exitOf_none hexit] at hfresh
      cases hfresh
  | some exit =>
      have hsome : ¬ TranslatesNothing core := by
        intro hnothing
        rw [freshCode_of_translatesNothing hnothing] at hfresh
        cases hfresh
      rw [freshCode_of_exitOf hexit hsome] at hfresh
      cases hfresh
      exact ⟨exit, rfl, hsome, rfl⟩

theorem retired_freshCode
    {core : Core} {block : JitBlock} (hfresh : freshCode core = some block) :
    block.retired = (guestBlock core).1.length + (guestBlock core).2.retired := by
  rcases freshCode_eq hfresh with ⟨exit, hexit, -, hcode⟩
  rw [JitBlock.retired, hcode, List.map_append, List.sum_append, retired_bodyCode,
    BlockEnd.retired_exit hexit]

/-- A block without instructions only asks to go on. -/
theorem exitRax_of_unretired
    {core : Core} {block : JitBlock} (hfresh : freshCode core = some block)
    (hnone : block.retired = 0) : exitRax block.code = some 0 := by
  have hsum := retired_freshCode hfresh
  have hnil : (guestBlock core).1 = [] := List.eq_nil_of_length_eq_zero (by omega)
  have hend : (guestBlock core).2.retired = 0 := by omega
  rcases freshCode_eq hfresh with ⟨exit, hexit, hsome, hcode⟩
  rw [hcode, hnil]
  unfold TranslatesNothing at hsome
  unfold exitOf at hexit hsome
  cases hlast : (guestBlock core).2 with
  | limit =>
      rw [hlast] at hsome
      exact absurd ⟨hnil, rfl⟩ hsome
  | unsupported =>
      rw [hlast] at hsome
      exact absurd ⟨hnil, rfl⟩ hsome
  | unknown =>
      rw [hlast] at hexit
      cases hexit
      rfl
  | _ =>
      rw [hlast] at hend
      cases hend

/-! ## Instructions of a step -/

def nativeBy (rt : Runtime H) : ℕ := ((blockAt rt).map JitBlock.retired).getD 0

def interpretedBy (rt : Runtime H) : ℕ :=
  match jitExecute rt with
  | .ok (.proceed, _) => 1
  | _ => 0

/-- Guest instructions that a call of `step` executes, by the block and by the
interpreter, a refused one included. -/
def retiredBy (rt : Runtime H) : ℕ :=
  if Executes rt then nativeBy rt + interpretedBy rt else 0

def retiredAlong (past : List (Runtime H)) : ℕ := (past.map retiredBy).sum

/-! ## One step -/

/-- What `step` compares. -/
def Runtime.meter (rt : Runtime H) : ℕ × ℕ := (rt.maxInstructions, rt.cpu.instructionsExecuted)

theorem onMachine_keeps_meter
    {α : Type} {handler : Handler H α}
    (hcount : ∀ m a m', handler m = .ok (a, m') → SameCount m.toCore m'.toCore) :
    Keeps Runtime.meter (onMachine handler) := by
  intro rt a rt' hrun
  rcases focus_eq_ok hrun with ⟨m, hmachine, rfl⟩
  have hsame : m.cpu.instructionsExecuted = rt.cpu.instructionsExecuted := hcount _ _ _ hmachine
  exact congrArg (Prod.mk rt.maxInstructions) hsame

theorem startProgram_count
    {data : List U8} {core core' : Core} {result : Except Error Unit}
    (hrun : startProgram data core = .ok (result, core')) : SameCount core core' := by
  rcases bind_eq_ok hrun with ⟨u, reset, hreset, hrest⟩
  cases hreset
  have hstays : StaysIn SameCount (executeBinary data) := inferInstance
  have hlast := hstays.returns hrest
  exact hlast

theorem handleStepResult_keeps_meter (result : StepResult) :
    Keeps (Runtime.meter (H := H)) (handleStepResult result) := by
  apply handleStepResult_keeps
  · intro rt index
    rfl
  · intro data
    apply onMachine_keeps_meter
    intro m a m' hrun
    rcases focus_eq_ok hrun with ⟨core, hcore, rfl⟩
    exact startProgram_count hcore
  · intro num
    apply onMachine_keeps_meter
    intro m a m' hrun
    exact serviceInterrupt_count hrun

theorem interpretedBy_of_jit
    {rt mid : Runtime H} {result : StepResult} (hjit : jitExecute rt = .ok (result, mid)) :
    interpretedBy rt = if result = .proceed then 1 else 0 := by
  unfold interpretedBy
  rw [hjit]
  cases result <;> rfl

theorem executeNext_meter
    {rt next : Runtime H} {result : StepResult} (hrunning : rt.cpu.halted = false)
    (hnext : executeNext rt = .ok (result, next)) :
    next.meter = (rt.maxInstructions, rt.cpu.instructionsExecuted + interpretedBy rt) := by
  rcases bind_eq_ok hnext with ⟨first, mid, hjit, hrest⟩
  have hmid : mid.meter = rt.meter := by
    unfold jitExecute at hjit
    split at hjit
    · cases hjit
    · cases hjit
      rfl
  have hmidRunning : mid.cpu.halted = false := (jitExecute_halted hjit).1.trans hrunning
  rcases Prod.mk.inj hmid with ⟨hlimit, hcount⟩
  rw [interpretedBy_of_jit hjit, ← hlimit, ← hcount]
  by_cases hproceed : first = .proceed
  · rw [if_pos hproceed] at hrest
    rw [if_pos hproceed]
    rcases focus_eq_ok hrest with ⟨m, hmachine, rfl⟩
    rcases focus_eq_ok hmachine with ⟨core, hcore, rfl⟩
    have hmore := executeOne_count hmidRunning hcore
    exact congrArg (Prod.mk mid.maxInstructions) hmore
  · rw [if_neg hproceed] at hrest
    rw [if_neg hproceed]
    cases hrest
    rfl

theorem step_meter
    {rt rt' : Runtime H} {result : Except Error StepResult}
    (hstep : step rt = .ok (result, rt')) :
    rt'.meter = (rt.maxInstructions,
      rt.cpu.instructionsExecuted + if Executes rt then interpretedBy rt else 0) := by
  by_cases hexecutes : Executes rt
  · rw [step_of_executes hexecutes] at hstep
    rcases bind_eq_ok hstep with ⟨first, next, hnext, hhandle⟩
    rw [handleStepResult_keeps_meter first next _ rt' hhandle,
      executeNext_meter hexecutes.1 hnext, if_pos hexecutes]
  · rw [step_of_not_executes hexecutes] at hstep
    cases hstep
    rw [if_neg hexecutes]
    rfl

/-! ## A run -/

theorem Run.limit {start rt : Runtime H} {past : List (Runtime H)} (hrun : Run start past rt) :
    rt.maxInstructions = start.maxInstructions := by
  induction hrun with
  | start => rfl
  | step hrun hstep ih =>
      have hmeter := congrArg Prod.fst (step_meter hstep)
      exact hmeter.trans ih

/-- A machine with a limit, as it is built. -/
structure BudgetStart (start : Runtime H) : Prop where
  limited : 0 < start.maxInstructions
  counter : start.cpu.instructionsExecuted = 0
  cache : start.jit.cache = fun _ => none

theorem counter_lt_of_executes
    {start rt : Runtime H} {past : List (Runtime H)} (hstart : BudgetStart start)
    (hrun : Run start past rt) (hexecutes : Executes rt) :
    rt.cpu.instructionsExecuted < start.maxInstructions := by
  have hlimit := hexecutes.2
  have hlimited := hstart.limited
  unfold limitReached at hlimit
  rw [← hrun.limit] at hlimited ⊢
  simpa [hlimited] using hlimit

theorem counter_le
    {start rt : Runtime H} {past : List (Runtime H)} (hstart : BudgetStart start)
    (hrun : Run start past rt) : rt.cpu.instructionsExecuted ≤ start.maxInstructions := by
  induction hrun with
  | start =>
      rw [hstart.counter]
      exact Nat.zero_le _
  | @step past rt rt' result hrun hstep ih =>
      have hmeter : rt'.cpu.instructionsExecuted = _ := congrArg Prod.snd (step_meter hstep)
      rw [hmeter]
      by_cases hexecutes : Executes rt
      · have hbelow : rt.cpu.instructionsExecuted < start.maxInstructions := by
          have hlimit := hexecutes.2
          unfold limitReached at hlimit
          have hlimited := hstart.limited
          rw [← hrun.limit] at hlimited ⊢
          simpa [hlimited] using hlimit
        have hone : interpretedBy rt ≤ 1 := by
          unfold interpretedBy
          split <;> omega
        rw [if_pos hexecutes]
        omega
      · rw [if_neg hexecutes]
        exact ih

/-- Guest instructions that the blocks executed along a run. -/
def nativeAlong (past : List (Runtime H)) : ℕ :=
  (past.map fun old => if Executes old then nativeBy old else 0).sum

/-- The counter misses exactly the instructions of the blocks. -/
theorem retiredAlong_eq
    {start rt : Runtime H} {past : List (Runtime H)} (hrun : Run start past rt) :
    start.cpu.instructionsExecuted + retiredAlong past =
      rt.cpu.instructionsExecuted + nativeAlong past := by
  unfold retiredAlong nativeAlong
  induction hrun with
  | start => rfl
  | @step past rt rt' result hrun hstep ih =>
      have hmeter : rt'.cpu.instructionsExecuted = _ := congrArg Prod.snd (step_meter hstep)
      rw [hmeter, List.map_cons, List.map_cons, List.sum_cons, List.sum_cons]
      by_cases hexecutes : Executes rt
      · rw [retiredBy, if_pos hexecutes, if_pos hexecutes, if_pos hexecutes]
        omega
      · rw [retiredBy, if_neg hexecutes, if_neg hexecutes, if_neg hexecutes]
        omega

/-! ## Runs without native instructions -/

/-- If the step executes, the block it runs holds no guest instruction. -/
def Interpreted (rt : Runtime H) : Prop := Executes rt → nativeBy rt = 0

def Succeeds (rt : Runtime H) : Prop := ∃ result rt', step rt = .ok (.ok result, rt')

/-- No run from `start` executes more instructions than the limit allows, and
`run` ends with a halted machine. -/
structure KeepsBudget (start : Runtime H) : Prop where
  bounded : ∀ past rt, Run start past rt → retiredAlong past ≤ start.maxInstructions
  halts : ∃ n last, Runtime.run n start = .ok (some (.ok ()), last) ∧ last.cpu.halted = true

theorem nativeAlong_of_interpreted
    {past : List (Runtime H)} (hpast : ∀ old ∈ past, Interpreted old) : nativeAlong past = 0 := by
  apply List.sum_eq_zero
  intro count hcount
  rcases List.mem_map.mp hcount with ⟨old, hold, rfl⟩
  split
  · rename_i hexecutes
    exact hpast old hold hexecutes
  · rfl

theorem retired_le
    {start rt : Runtime H} {past : List (Runtime H)} (hstart : BudgetStart start)
    (hrun : Run start past rt) (hpast : ∀ old ∈ past, Interpreted old) :
    retiredAlong past ≤ start.maxInstructions := by
  have hcounted := retiredAlong_eq hrun
  rw [hstart.counter, nativeAlong_of_interpreted hpast] at hcounted
  have hcounter := counter_le hstart hrun
  omega

/-- A block without instructions asks the interpreter to go on. -/
theorem jit_proceeds
    {start rt mid : Runtime H} {past : List (Runtime H)} {result : StepResult}
    (hempty : start.jit.cache = fun _ => none) (hrun : Run start past rt)
    (hnative : nativeBy rt = 0) (hjit : jitExecute rt = .ok (result, mid)) :
    result = .proceed := by
  rcases jitExecute_result hjit with ⟨block, hblock, hresult⟩ | ⟨-, hresult⟩
  · have hfresh : ∃ core, freshCode core = some block := by
      unfold blockAt at hblock
      cases hcache : rt.jit.cache (JitRuntime.physIp rt.cpu.regs) with
      | none =>
          rw [hcache] at hblock
          exact ⟨rt.toCore, hblock⟩
      | some cached =>
          rw [hcache] at hblock
          cases hblock
          obtain ⟨old, -, -, hold⟩ := (backed_of_run hempty hrun).entries _ _ hcache
          exact ⟨old.toCore, hold⟩
    obtain ⟨core, hcore⟩ := hfresh
    have hnone : block.retired = 0 := by
      unfold nativeBy at hnative
      rw [hblock] at hnative
      exact hnative
    rw [hresult, exitRax_of_unretired hcore hnone]
    rfl
  · exact hresult

theorem interpretedBy_eq_one
    {start rt rt' : Runtime H} {past : List (Runtime H)} {result : Except Error StepResult}
    (hempty : start.jit.cache = fun _ => none) (hrun : Run start past rt)
    (hexecutes : Executes rt) (hnative : nativeBy rt = 0)
    (hstep : step rt = .ok (result, rt')) : interpretedBy rt = 1 := by
  rw [step_of_executes hexecutes] at hstep
  rcases bind_eq_ok hstep with ⟨last, late, hnext, -⟩
  rcases bind_eq_ok hnext with ⟨first, mid, hjit, -⟩
  rw [interpretedBy_of_jit hjit, if_pos (jit_proceeds hempty hrun hnative hjit)]

/-- Without native instructions a machine that reports `Halt` is halted. -/
theorem halted_of_interpreted
    {start rt rt' : Runtime H} {past : List (Runtime H)}
    (hempty : start.jit.cache = fun _ => none) (hrun : Run start past rt)
    (hinterpreted : Interpreted rt) (hstep : step rt = .ok (.ok .halt, rt')) :
    rt'.cpu.halted = true := by
  by_cases hexecutes : Executes rt
  · have hrest := hstep
    rw [step_of_executes hexecutes] at hrest
    rcases bind_eq_ok hrest with ⟨last, late, hnext, -⟩
    rcases bind_eq_ok hnext with ⟨first, mid, hjit, -⟩
    have hproceed := jit_proceeds hempty hrun (hinterpreted hexecutes) hjit
    have hloose : ¬ BlockHalts rt := by
      rw [blockHalts_iff hjit, hproceed]
      exact StepResult.noConfusion
    exact halted_of_latches hstep (.inr (.inr hloose))
  · rw [step_of_not_executes hexecutes] at hstep
    cases hstep
    rfl

theorem runRound_of_step
    {rt rt' : Runtime H} {result : StepResult} (hstep : step rt = .ok (.ok result, rt')) :
    runRound rt = .ok (if result = .halt then some (.ok ()) else none, rt') := by
  unfold runRound
  rw [bind_ok hstep]
  cases result <;> rfl

/-- One call of `step` for each instruction that the limit allows, and the call
that meets the limit. -/
theorem run_halts
    {start : Runtime H} (hstart : BudgetStart start)
    (hmeets : ∀ past rt, Run start past rt → Interpreted rt ∧ Succeeds rt) :
    ∃ last, Runtime.run (start.maxInstructions + 1) start = .ok (some (.ok ()), last) ∧
      last.cpu.halted = true := by
  have hends := @rounds_end _ _ _ runRound start.maxInstructions
    (fun k rt => ∃ past, Run start past rt ∧
      (Executes rt → rt.cpu.instructionsExecuted = k))
    (fun outcome last => outcome = .ok () ∧ last.cpu.halted = true) ?leave ?round 0 start ?first
  case leave =>
    rintro k rt outcome next ⟨past, hrun, -⟩ hround
    rcases hmeets past rt hrun with ⟨hinterpreted, result, rt', hstep⟩
    rw [runRound_of_step hstep] at hround
    by_cases hhalt : result = .halt
    · subst hhalt
      cases hround
      exact ⟨rfl, halted_of_interpreted hstart.cache hrun hinterpreted hstep⟩
    · rw [if_neg hhalt] at hround
      cases hround
  case round =>
    rintro k rt ⟨past, hrun, hcounter⟩
    rcases hmeets past rt hrun with ⟨hinterpreted, result, rt', hstep⟩
    refine ⟨_, rt', runRound_of_step hstep, ?_⟩
    intro hgoes
    have hresult : result ≠ .halt := by
      intro hhalt
      rw [if_pos hhalt] at hgoes
      cases hgoes
    have hexecutes : Executes rt := by
      by_contra hidle
      rw [step_of_not_executes hidle] at hstep
      cases hstep
      exact hresult rfl
    have hbelow := counter_lt_of_executes hstart hrun hexecutes
    rw [hcounter hexecutes] at hbelow
    refine ⟨hbelow, rt :: past, .step hrun hstep, ?_⟩
    intro _
    have hmeter : rt'.cpu.instructionsExecuted = _ := congrArg Prod.snd (step_meter hstep)
    rw [hmeter, if_pos hexecutes, hcounter hexecutes,
      interpretedBy_eq_one hstart.cache hrun hexecutes (hinterpreted hexecutes) hstep]
  case first => exact ⟨[], .start, fun _ => hstart.counter⟩
  obtain ⟨outcome, last, hlast, rfl, hhalted⟩ := hends
  exact ⟨last, hlast, hhalted⟩

/-- In a run whose steps are all interpreted the limit bounds what has been
executed; if every step that can be reached is, and succeeds, `run` ends. -/
theorem instruction_budget {start : Runtime H} (hstart : BudgetStart start) :
    (∀ past rt, Run start past rt → (∀ old ∈ past, Interpreted old) →
      retiredAlong past ≤ start.maxInstructions) ∧
    ((∀ past rt, Run start past rt → Interpreted rt ∧ Succeeds rt) → KeepsBudget start) := by
  constructor
  · intro past rt hrun hpast
    exact retired_le hstart hrun hpast
  · intro hmeets
    constructor
    · intro past rt hrun
      apply retired_le hstart hrun
      intro old hold
      obtain ⟨earlier, hearlier⟩ := hrun.reached old hold
      exact (hmeets earlier old hearlier).1
    · obtain ⟨last, hrun, hhalted⟩ := run_halts hstart hmeets
      exact ⟨_, last, hrun, hhalted⟩

/-! ## A limit of one instruction -/

def limitedRuntime (code : List U8) : Runtime HostFiles.none :=
  { batchRuntime code with maxInstructions := 1 }

theorem limitedRuntime_start (code : List U8) : BudgetStart (limitedRuntime code) := by
  constructor
  · exact Nat.one_pos
  · rfl
  · rfl

theorem limited_run
    {code : List U8} {rt : Runtime HostFiles.none} {past : List (Runtime HostFiles.none)}
    (hone : interpretedBy (limitedRuntime code) = 1) (hrun : Run (limitedRuntime code) past rt) :
    rt = limitedRuntime code ∨ ¬ Executes rt := by
  induction hrun with
  | start => exact .inl rfl
  | @step past rt rt' result hrun hstep ih =>
      right
      rcases ih with rfl | hidle
      · have hmeter := step_meter hstep
        rw [hone] at hmeter
        rintro ⟨-, hlimit⟩
        obtain ⟨hmax, hcount⟩ := Prod.mk.inj hmeter
        unfold limitReached at hlimit
        rw [hmax, hcount] at hlimit
        cases hlimit
      · rw [step_of_not_executes hidle] at hstep
        cases hstep
        rintro ⟨hrunning, -⟩
        cases hrunning

theorem instruction_budget_nop :
    (∀ past rt, Run (limitedRuntime [0x90]) past rt → (∀ old ∈ past, Interpreted old) →
      retiredAlong past ≤ 1) ∧ KeepsBudget (limitedRuntime [0x90]) := by
  obtain ⟨hbounded, hkeeps⟩ := instruction_budget (limitedRuntime_start [0x90])
  refine ⟨hbounded, hkeeps ?_⟩
  intro past rt hrun
  rcases limited_run (by decide +kernel) hrun with rfl | hidle
  · constructor
    · intro _
      decide +kernel
    · have hok : (step (limitedRuntime [0x90])).toOption.map (fun last => last.1.toOption) =
          some (some .proceed) := by
        decide +kernel
      rcases exists_of_map _ hok with ⟨⟨result, rt'⟩, hstep, hresult⟩
      cases result with
      | error e => cases hresult
      | ok result => exact ⟨result, rt', hstep⟩
  · constructor
    · intro hexecutes
      exact absurd hexecutes hidle
    · exact ⟨_, _, step_of_not_executes hidle⟩

/-- `INT 11h` in a block leaves IP where it is and is never counted. -/
theorem interrupts_uncounted :
    BudgetStart (limitedRuntime [0xCD, 0x11]) ∧ ¬ KeepsBudget (limitedRuntime [0xCD, 0x11]) := by
  refine ⟨limitedRuntime_start _, ?_⟩
  intro hkeeps
  have htwo : (step (limitedRuntime [0xCD, 0x11])).toOption.bind (fun first =>
      (step first.2).toOption.map fun _ => retiredAlong [first.2, limitedRuntime [0xCD, 0x11]]) =
        some 2 := by
    decide +kernel
  cases hfirst : step (limitedRuntime [0xCD, 0x11]) with
  | error e =>
      rw [hfirst] at htwo
      cases htwo
  | ok first =>
      rw [hfirst] at htwo
      rcases exists_of_map _ htwo with ⟨second, hsecond, hretired⟩
      have hbounded := hkeeps.bounded _ _ (.step (.step .start hfirst) hsecond)
      rw [hretired] at hbounded
      revert hbounded
      decide

end Kita98
