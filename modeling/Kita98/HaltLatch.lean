import Kita98.ArmResults
import Kita98.BatchProgress
import Kita98.BlockCode

/-!
# A machine that has reported `Halt`

The interpreter's `HLT` sets the halt flag, and so does the instruction limit.
A `HLT` inside a translated block only ends the block: IP and the flag stay as
they were, and the next call of `step` runs the block again.
-/

namespace Kita98

open Exec

variable {H : HostFiles}

/-! ## `HLT` of the interpreter -/

theorem dispatch_halts
    {opcode : U8} {core core' : Core} (hrun : dispatch opcode core = .ok (.halt, core')) :
    core'.halted = true := by
  unfold dispatch dispatchAlu at hrun
  cases halu : aluArm opcode with
  | some routine =>
      rw [halu] at hrun
      exact absurd rfl (aluArm_answers halu core _ core' hrun : Handled _).1
  | none =>
      rw [halu] at hrun
      unfold dispatchFlow at hrun
      cases hflow : flowArm opcode with
      | some routine =>
          rw [hflow] at hrun
          exact absurd rfl (flowArm_handled hflow core _ core' hrun).1
      | none =>
          rw [hflow] at hrun
          unfold dispatchMisc at hrun
          cases hmisc : miscArm opcode with
          | none =>
              rw [hmisc] at hrun
              cases hrun
          | some routine =>
              rw [hmisc] at hrun
              by_cases hhlt : opcode = 0xF4
              · subst hhlt
                cases hmisc
                cases hrun
                rfl
              · exact absurd rfl (miscArm_answers hmisc hhlt core _ core' hrun : Handled _).1

theorem executeOne_halts
    {core core' : Core} (hrun : executeOne core = .ok (.halt, core')) :
    core'.halted = true := by
  unfold executeOne at hrun
  rw [bind_ok (read_apply _ core)] at hrun
  split at hrun
  · rename_i hhalted
    cases hrun
    exact hhalted
  · rcases bind_eq_ok hrun with ⟨opcode, fetched, -, hrest⟩
    rcases bind_eq_ok hrest with ⟨result, executed, hdispatch, hlast⟩
    cases hlast
    have hhalted := dispatch_halts hdispatch
    exact hhalted

/-! ## `HLT` in a block -/

/-- The block that `execute` runs: the cached one, or the one it compiles. -/
def blockAt (rt : Runtime H) : Option JitBlock :=
  match rt.jit.cache (JitRuntime.physIp rt.cpu.regs) with
  | some block => some block
  | none => freshCode rt.toCore

/-- The block at CS:IP leaves with the code of `Halt`. -/
def BlockHalts (rt : Runtime H) : Prop :=
  ∃ block, blockAt rt = some block ∧
    decodeRax ((exitRax block.code).getD (rt.jit.residue 0)) = .halt

theorem runBlock_result
    (jit : JitRuntime) (block : JitBlock) (bus : Bus) (regs : Regs) :
    (jit.runBlock block bus regs).1 =
      decodeRax ((exitRax block.code).getD (jit.residue 0)) := by
  have hrax := runCode_rax block.code bus regs
  unfold JitRuntime.runBlock
  generalize runCode block.code bus regs = run at hrax
  rcases run with ⟨left, bus', regs'⟩
  rw [← hrax]
  cases left <;> rfl

theorem jitExecute_result
    {rt mid : Runtime H} {result : StepResult} (hjit : jitExecute rt = .ok (result, mid)) :
    (∃ block, blockAt rt = some block ∧
      result = decodeRax ((exitRax block.code).getD (rt.jit.residue 0))) ∨
        blockAt rt = none ∧ result = .proceed := by
  unfold jitExecute JitRuntime.execute at hjit
  unfold blockAt
  cases hcache : rt.jit.cache (JitRuntime.physIp rt.cpu.regs) with
  | some block =>
      rw [hcache] at hjit
      cases hjit
      left
      exact ⟨block, rfl, runBlock_result _ _ _ _⟩
  | none =>
      rw [hcache] at hjit
      simp only at hjit ⊢
      unfold freshCode
      cases htranslate : translateBlock rt.bus rt.cpu.regs (JitRuntime.physIp rt.cpu.regs) with
      | error e =>
          rw [htranslate] at hjit
          cases hjit
      | ok ops =>
          rw [htranslate] at hjit
          cases ops with
          | nil =>
              cases hjit
              exact .inr ⟨rfl, rfl⟩
          | cons op ops =>
              cases hjit
              left
              exact ⟨_, rfl, runBlock_result _ _ _ _⟩

theorem blockHalts_iff
    {rt mid : Runtime H} {result : StepResult} (hjit : jitExecute rt = .ok (result, mid)) :
    BlockHalts rt ↔ result = .halt := by
  unfold BlockHalts
  rcases jitExecute_result hjit with ⟨block, hblock, hresult⟩ | ⟨hblock, hresult⟩
  · rw [hblock, hresult]
    constructor
    · rintro ⟨other, hother, hhalt⟩
      cases hother
      exact hhalt
    · intro hhalt
      exact ⟨block, rfl, hhalt⟩
  · rw [hblock, hresult]
    constructor
    · rintro ⟨other, hother, -⟩
      cases hother
    · intro hhalt
      cases hhalt

/-- Without a halting block it is the interpreter that reports `Halt`. -/
theorem executeNext_halts
    {rt next : Runtime H} (hnext : executeNext rt = .ok (.halt, next))
    (hblock : ¬ BlockHalts rt) : next.cpu.halted = true := by
  rcases bind_eq_ok hnext with ⟨first, mid, hjit, hrest⟩
  split at hrest
  · rcases focus_eq_ok hrest with ⟨m, hmachine, rfl⟩
    rcases focus_eq_ok hmachine with ⟨core, hcore, rfl⟩
    exact executeOne_halts hcore
  · cases hrest
    exact absurd ((blockHalts_iff hjit).mpr rfl) hblock

/-- A halting block leaves the flag and the instruction counter alone. -/
theorem executeNext_of_blockHalts
    {rt next : Runtime H} {result : StepResult} (hnext : executeNext rt = .ok (result, next))
    (hblock : BlockHalts rt) :
    result = .halt ∧ next.cpu.halted = rt.cpu.halted ∧ limitReached next = limitReached rt := by
  rcases bind_eq_ok hnext with ⟨first, mid, hjit, hrest⟩
  have hfirst := (blockHalts_iff hjit).mp hblock
  subst hfirst
  rw [if_neg (by decide)] at hrest
  cases hrest
  unfold jitExecute at hjit
  split at hjit
  · cases hjit
  · cases hjit
    exact ⟨rfl, rfl, rfl⟩

/-! ## Calls of `step` that report `Halt` -/

/-- The state a caller of `step` can see is the same. -/
structure Unchanged (rt later : Runtime H) : Prop where
  regs : later.cpu.regs = rt.cpu.regs
  mem : later.bus.mem = rt.bus.mem
  video : later.bus.video = rt.bus.video
  index : later.currentBatchIndex = rt.currentBatchIndex

/-- Every later call of `step` reports `Halt` and changes nothing. -/
def HaltAbsorbing (rt : Runtime H) : Prop :=
  ∀ past later, Run rt past later →
    ∃ next, step later = .ok (.ok .halt, next) ∧ Unchanged rt next

/-- The machine is halted, at its limit, or in front of a block that does not
itself end in `HLT`. -/
def HaltLatches (rt : Runtime H) : Prop :=
  rt.cpu.halted = true ∨ limitReached rt = true ∨ ¬ BlockHalts rt

theorem run_of_halted
    {rt later : Runtime H} {past : List (Runtime H)} (hhalted : rt.cpu.halted = true)
    (hrun : Run rt past later) : later = rt := by
  induction hrun with
  | start => rfl
  | step hrun hstep ih =>
      rw [ih, step_of_halted hhalted] at hstep
      cases hstep
      rfl

theorem absorbing_of_halted {rt : Runtime H} (hhalted : rt.cpu.halted = true) :
    HaltAbsorbing rt := by
  intro past later hrun
  have hsame := run_of_halted hhalted hrun
  subst hsame
  exact ⟨later, step_of_halted hhalted, rfl, rfl, rfl, rfl⟩

/-- A machine that executes reports `Halt` behind the last program only, with
the index moved on. -/
theorem step_halts
    {rt rt' : Runtime H} (hexecutes : Executes rt) (hstep : step rt = .ok (.ok .halt, rt')) :
    ∃ next, executeNext rt = .ok (.halt, next) ∧
      rt' = { next with currentBatchIndex := next.currentBatchIndex + 1 } := by
  rw [step_of_executes hexecutes] at hstep
  rcases bind_eq_ok hstep with ⟨first, next, hnext, hhandle⟩
  cases first with
  | proceed => cases hhandle
  | unimplemented op => cases hhandle
  | interrupt num =>
      rcases bind_eq_ok hhandle with ⟨u, late, -, hlast⟩
      cases hlast
  | halt =>
      have hadvance : advanceBatch next = .ok (.ok .halt, rt') := hhandle
      unfold advanceBatch at hadvance
      rw [bind_ok (update_apply _ next), bind_ok (read_apply _ _)] at hadvance
      cases hentry : next.batchQueue[next.currentBatchIndex + 1]? with
      | some entry =>
          simp only [hentry] at hadvance
          have hproceeds := (loadNext_ok hadvance).1
          cases hproceeds
      | none =>
          simp only [hentry] at hadvance
          cases hadvance
          exact ⟨next, hnext, rfl⟩

theorem halted_of_latches
    {rt rt' : Runtime H} (hstep : step rt = .ok (.ok .halt, rt')) (hlatches : HaltLatches rt) :
    rt'.cpu.halted = true := by
  cases hhalted : rt.cpu.halted with
  | true =>
      rw [step_of_halted hhalted] at hstep
      cases hstep
      exact hhalted
  | false =>
      cases hlimit : limitReached rt with
      | true =>
          rcases step_of_limit hlimit with ⟨last, hlast, hset⟩
          rw [hlast] at hstep
          cases hstep
          exact hset
      | false =>
          rcases step_halts ⟨hhalted, hlimit⟩ hstep with ⟨next, hnext, rfl⟩
          rcases hlatches with hlatched | hreached | hblock
          · rw [hhalted] at hlatched
            cases hlatched
          · rw [hlimit] at hreached
            cases hreached
          · have hset := executeNext_halts hnext hblock
            exact hset

/-- Whatever a machine that executes reports next, a second `Halt` moves the
index again. -/
theorem not_absorbing_of_executes {rt : Runtime H} (hexecutes : Executes rt) :
    ¬ HaltAbsorbing rt := by
  intro habsorbing
  rcases habsorbing [] rt .start with ⟨next, hstep, hsame⟩
  rcases step_halts hexecutes hstep with ⟨mid, hmid, rfl⟩
  have hindex := congrArg Prod.snd (executeNext_batch hmid)
  have hkept := hsame.index
  simp only [Runtime.batch] at hindex
  simp only [hindex] at hkept
  omega

theorem halt_absorbing_iff
    {rt rt' : Runtime H} (hstep : step rt = .ok (.ok .halt, rt')) :
    HaltAbsorbing rt' ↔ HaltLatches rt := by
  constructor
  · intro habsorbing
    by_contra hloose
    unfold HaltLatches at hloose
    push Not at hloose
    rcases hloose with ⟨hhalted, hlimit, hblock⟩
    have hexecutes : Executes rt :=
      ⟨Bool.eq_false_iff.mpr hhalted, Bool.eq_false_iff.mpr hlimit⟩
    rcases step_halts hexecutes hstep with ⟨next, hnext, rfl⟩
    rcases executeNext_of_blockHalts hnext hblock with ⟨-, hflag, hcount⟩
    apply not_absorbing_of_executes _ habsorbing
    exact ⟨hflag.trans hexecutes.1, hcount.trans hexecutes.2⟩
  · intro hlatches
    exact absorbing_of_halted (halted_of_latches hstep hlatches)

/-! ## A program that is a single `HLT` -/

def lastRuntime (code : List U8) : Runtime HostFiles.none :=
  { batchRuntime code with batchQueue := [programEntry] }

theorem step_lastRuntime
    {code : List U8} {halted : Bool}
    (hrun : (step (lastRuntime code)).toOption.map
      (fun last => (last.1.toOption, decide (Executes last.2))) = some (some .halt, !halted)) :
    ∃ rt', step (lastRuntime code) = .ok (.ok .halt, rt') ∧ (Executes rt' ↔ halted = false) := by
  rcases exists_of_map _ hrun with ⟨⟨result, rt'⟩, hstep, hlast⟩
  rcases Prod.mk.inj hlast with ⟨hresult, hexecutes⟩
  cases result with
  | error e => cases hresult
  | ok result =>
      cases hresult
      refine ⟨rt', hstep, ?_⟩
      cases halted with
      | true => simpa using hexecutes
      | false => simpa using hexecutes

theorem halt_absorbing_prefixed :
    ∃ rt', step (lastRuntime [0x26, 0xF4]) = .ok (.ok .halt, rt') ∧
      (HaltAbsorbing rt' ↔ HaltLatches (lastRuntime [0x26, 0xF4])) := by
  rcases @step_lastRuntime [0x26, 0xF4] true (by decide +kernel) with ⟨rt', hstep, -⟩
  exact ⟨rt', hstep, halt_absorbing_iff hstep⟩

theorem halt_not_absorbing :
    ∃ rt', BatchStart (lastRuntime [0xF4, 0x90]) ∧
      step (lastRuntime [0xF4, 0x90]) = .ok (.ok .halt, rt') ∧ ¬ HaltAbsorbing rt' := by
  have hstart : BatchStart (lastRuntime [0xF4, 0x90]) := by
    constructor
    · exact ⟨programEntry, [0xF4, 0x90], blankCore [0xF4, 0x90], loadedCore [0xF4, 0x90], rfl,
        by decide +kernel, rfl, rfl⟩
    · rfl
    · rfl
    · rfl
  rcases @step_lastRuntime [0xF4, 0x90] false (by decide +kernel) with ⟨rt', hstep, hexecutes⟩
  exact ⟨rt', hstart, hstep, not_absorbing_of_executes (hexecutes.mpr rfl)⟩

end Kita98
