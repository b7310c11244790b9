import Kita98.JitCache
import Kita98.JitEquivalence
import Kita98.NestedCalls

/-!
# Runs without the block translator

A machine that never translates anything runs like its interpreter alone: as long
as no step compiles an instruction that the translator takes, every cached block is
a request to interpret, and the two machines take the same steps.
-/

namespace Kita98

open Exec

variable {H : HostFiles}

/-! ## The machine without its translator -/

/-- `step` with every instruction interpreted. -/
def plainStep : Running H (Except Error StepResult) := do
  let rt ← Exec.read id
  if rt.cpu.halted then return .ok .halt
  else if limitReached rt then do
    onMachine (onCore setHalted)
    return .ok .halt
  else interpretStep

inductive PlainRun (start : Runtime H) : List (Runtime H) → Runtime H → Prop
  | start : PlainRun start [] start
  | step {past : List (Runtime H)} {rt rt' : Runtime H} {result : Except Error StepResult}
      (hrun : PlainRun start past rt) (hstep : plainStep rt = .ok (result, rt')) :
      PlainRun start (rt :: past) rt'

def Runtime.withJit (jit : JitRuntime) (rt : Runtime H) : Runtime H := { rt with jit := jit }

theorem onMachine_blind {α : Type} (jit : JitRuntime) (handler : Handler H α) :
    Blind (Runtime.withJit jit) (onMachine handler) := by
  apply Blind.focus
  · intro rt
    rfl
  · intro m rt
    rfl

theorem advanceBatch_blind (jit : JitRuntime) :
    Blind (Runtime.withJit jit) (advanceBatch : Running H (Except Error StepResult)) := by
  have hload : ∀ entry, Blind (Runtime.withJit jit)
      (loadNext entry : Running H (Except Error StepResult)) := by
    intro entry
    unfold loadNext
    apply Blind.bind (.read (f := Runtime.withJit jit) fun _ => rfl)
    intro disk
    cases readDiskFile disk entry with
    | error e => exact .pure _
    | ok data =>
        apply Blind.bind (onMachine_blind jit _)
        intro result
        cases result <;> exact .pure _
  unfold advanceBatch
  apply Blind.bind
  · apply Blind.update
    intro rt
    rfl
  · intro u
    apply Blind.bind (.read (f := Runtime.withJit jit) fun _ => rfl)
    intro entry
    cases entry with
    | none => exact .pure _
    | some entry => exact hload entry

theorem handleStepResult_blind (jit : JitRuntime) (result : StepResult) :
    Blind (Runtime.withJit jit)
      (handleStepResult result : Running H (Except Error StepResult)) := by
  cases result with
  | proceed => exact .pure _
  | halt => exact advanceBatch_blind jit
  | interrupt num => exact .bind (onMachine_blind jit _) fun _ => .pure _
  | unimplemented op => exact .pure _

theorem interpretStep_blind (jit : JitRuntime) :
    Blind (Runtime.withJit jit) (interpretStep : Running H (Except Error StepResult)) :=
  .bind (onMachine_blind jit _) (handleStepResult_blind jit)

theorem plainStep_of_executes {rt : Runtime H} (hexecutes : Executes rt) :
    plainStep rt = interpretStep rt := by
  unfold plainStep
  rw [bind_ok (read_apply id rt)]
  simp only [id, hexecutes.1, hexecutes.2, Bool.false_eq_true, if_false]

theorem plainStep_of_not_executes {rt : Runtime H} (hexecutes : ¬ Executes rt) :
    plainStep rt = step rt := by
  unfold plainStep step
  rw [bind_ok (read_apply id rt), bind_ok (read_apply id rt)]
  simp only [id]
  split
  · rfl
  · split
    · rfl
    · rename_i hrunning hlimit
      exact absurd ⟨Bool.eq_false_iff.mpr hrunning, Bool.eq_false_iff.mpr hlimit⟩ hexecutes

theorem plainStep_withJit (jit : JitRuntime) (rt : Runtime H) :
    plainStep (rt.withJit jit) = (plainStep rt).map (Prod.map id (Runtime.withJit jit)) := by
  by_cases hexecutes : Executes rt
  · have hsame : Executes (rt.withJit jit) := hexecutes
    rw [plainStep_of_executes hexecutes, plainStep_of_executes hsame]
    exact interpretStep_blind jit rt
  · have hsame : ¬ Executes (rt.withJit jit) := hexecutes
    rw [plainStep_of_not_executes hexecutes, plainStep_of_not_executes hsame,
      step_of_not_executes hexecutes, step_of_not_executes hsame]
    rfl

/-! ## Requests to interpret -/

/-- Code that changes nothing and asks for interpretation. -/
def idleCode : JitBlock := ⟨[.leave 0]⟩

def IdleCache (jit : JitRuntime) : Prop :=
  ∀ phys block, jit.cache phys = some block → block = idleCode

/-- The instruction at CS:IP is not one that the translator takes. -/
def AtIdle (rt : Runtime H) : Prop := IdleBlock (guestBlock rt.toCore)

theorem freshCode_of_idle {core : Core} (hidle : IdleBlock (guestBlock core)) :
    freshCode core = none ∧ TranslatesNothing core ∨ freshCode core = some idleCode := by
  rcases hidle with ⟨hbody, hend | hend⟩
  · have hnothing : TranslatesNothing core := by
      refine ⟨hbody, ?_⟩
      unfold exitOf
      rw [hend]
      rfl
    exact .inl ⟨freshCode_of_translatesNothing hnothing, hnothing⟩
  · have hexit : exitOf core = some ⟨none, some 0⟩ := by
      unfold exitOf
      rw [hend]
      rfl
    have hsome : ¬ TranslatesNothing core := by
      rintro ⟨-, hnone⟩
      rw [hexit] at hnone
      cases hnone
    right
    rw [freshCode_of_exitOf hexit hsome, hbody]
    rfl

theorem BlockEnd.unknown_of_exitAt {ending : BlockEnd} {currIp : U32}
    (hexit : ending.exitAt currIp = some ⟨none, some 0⟩) : ending = .unknown := by
  cases ending with
  | unknown => rfl
  | int num =>
      unfold exitAt at hexit
      simp only at hexit
      split at hexit
      · cases hexit
      · cases hexit
  | _ => cases hexit

theorem idle_of_freshCode {core : Core} (hfresh : freshCode core = some idleCode) :
    IdleBlock (guestBlock core) := by
  cases hexit : exitOf core with
  | none =>
      rw [freshCode_of_exitOf_none hexit] at hfresh
      cases hfresh
  | some exit =>
      have hsome : ¬ TranslatesNothing core := by
        intro hnothing
        rw [freshCode_of_translatesNothing hnothing] at hfresh
        cases hfresh
      rw [freshCode_of_exitOf hexit hsome] at hfresh
      have hcode := congrArg JitBlock.code (Option.some.inj hfresh)
      cases hbody : (guestBlock core).1 with
      | cons instr body =>
          rw [hbody] at hcode
          exact absurd (List.cons.inj hcode).1 (BodyInstr.code_ne_leave _ _ _)
      | nil =>
          rw [hbody] at hcode
          have hzero : exit = ⟨none, some 0⟩ := Exit.code_inj hcode
          subst hzero
          refine ⟨hbody, .inr ?_⟩
          unfold exitOf at hexit
          exact BlockEnd.unknown_of_exitAt hexit

/-- Only a form of `C6` that is not taken leaves nothing translated. -/
theorem idle_of_translatesNothing {core : Core} (hnothing : TranslatesNothing core) :
    IdleBlock (guestBlock core) := by
  rcases hnothing with ⟨hbody, hexit⟩
  refine ⟨hbody, ?_⟩
  unfold exitOf at hexit
  cases hend : (guestBlock core).2 with
  | unsupported => exact .inl rfl
  | unknown => exact .inr rfl
  | limit =>
      have hlength : (guestBlock core).1.length = blockLimit :=
        (decodeBlock_length core.bus.mem (core.cpu.regs.getSeg .CS) blockLimit
          core.cpu.regs.ip (JitRuntime.physIp core.cpu.regs)).2 hend
      rw [hbody] at hlength
      cases hlength
  | int num =>
      rw [hend] at hexit
      unfold BlockEnd.exitAt at hexit
      simp only at hexit
      split at hexit
      · cases hexit
      · cases hexit
  | _ =>
      rw [hend] at hexit
      cases hexit

/-- Only a step that translates an instruction puts anything else into the cache. -/
theorem idleCache_iff
    {start rt : Runtime H} {past : List (Runtime H)} (hempty : start.jit.cache = fun _ => none)
    (hrun : Run start past rt) :
    IdleCache rt.jit ↔ ∀ old ∈ past, Compiles old → AtIdle old := by
  have hbacked := backed_of_run hempty hrun
  constructor
  · intro hidle old hold hcompiles
    rcases hbacked.recorded old ⟨hold, hcompiles⟩ with ⟨block, hfresh, hcache⟩
    rw [hidle _ _ hcache] at hfresh
    exact idle_of_freshCode hfresh
  · intro hall phys block hcache
    rcases hbacked.entries phys block hcache with ⟨old, ⟨hold, hcompiles⟩, -, hfresh⟩
    rcases freshCode_of_idle (hall old hold hcompiles) with ⟨hnone, -⟩ | hsome
    · rw [hnone] at hfresh
      cases hfresh
    · rw [hsome] at hfresh
      exact (Option.some.inj hfresh).symm

/-! ## One step -/

theorem runBlock_idle (jit : JitRuntime) (bus : Bus) (regs : Regs) :
    jit.runBlock idleCode bus regs = (.proceed, jit, bus, regs) := rfl

theorem IdleCache.insert {jit : JitRuntime} (hidle : IdleCache jit) (phys : U32) :
    IdleCache (jit.insert phys idleCode) := by
  intro other block hcache
  unfold JitRuntime.insert at hcache
  by_cases hsame : other = phys
  · subst hsame
    simp only [Function.update_self] at hcache
    exact (Option.some.inj hcache).symm
  · simp only [Function.update_of_ne hsame] at hcache
    exact hidle other block hcache

/-- The translator does nothing in front of an instruction it does not take. -/
theorem jitExecute_idle {rt : Runtime H} (hidle : IdleCache rt.jit)
    (hat : rt.jit.cache (JitRuntime.physIp rt.cpu.regs) = none → AtIdle rt) :
    ∃ jit, IdleCache jit ∧ jitExecute rt = .ok (.proceed, rt.withJit jit) := by
  have hexecute : ∃ jit, IdleCache jit ∧
      rt.jit.execute rt.bus rt.cpu.regs = .ok (.proceed, jit, rt.bus, rt.cpu.regs) := by
    cases hcache : rt.jit.cache (JitRuntime.physIp rt.cpu.regs) with
    | some block =>
        rw [execute_of_cached hcache, hidle _ _ hcache, runBlock_idle]
        exact ⟨rt.jit, hidle, rfl⟩
    | none =>
        rcases freshCode_of_idle (hat hcache) with ⟨-, hnothing⟩ | hfresh
        · refine ⟨rt.jit, hidle, ?_⟩
          obtain ⟨ops, hops, -, hempty⟩ :=
            @assemble_of_exitAt (rt.cpu.regs.getSeg .DS) _ _ _ _ hnothing.2
          unfold JitRuntime.execute
          rw [hcache, @translateBlock_eq rt.toCore, hops, hempty.mpr ⟨hnothing.1, rfl⟩]
        · rw [@execute_of_fresh rt.jit rt.toCore _ hcache hfresh, runBlock_idle]
          exact ⟨_, hidle.insert _, rfl⟩
  rcases hexecute with ⟨jit, hnext, hexecute⟩
  refine ⟨jit, hnext, ?_⟩
  unfold jitExecute
  rw [hexecute]
  rfl

theorem step_plain {rt : Runtime H} (hidle : IdleCache rt.jit)
    (hat : Executes rt → rt.jit.cache (JitRuntime.physIp rt.cpu.regs) = none → AtIdle rt) :
    ∃ jit, IdleCache jit ∧
      step rt = (plainStep rt).map (Prod.map id (Runtime.withJit jit)) := by
  by_cases hexecutes : Executes rt
  · rcases jitExecute_idle hidle (hat hexecutes) with ⟨jit, hnext, hblock⟩
    refine ⟨jit, hnext, ?_⟩
    rw [step_interprets hexecutes hblock, plainStep_of_executes hexecutes]
    exact interpretStep_blind jit rt
  · refine ⟨rt.jit, hidle, ?_⟩
    rw [plainStep_of_not_executes hexecutes, step_of_not_executes hexecutes]
    rfl

/-! ## Whole runs -/

/-- The states as they are but for the cache of the translator. -/
def forgetting (jit : JitRuntime) (past : List (Runtime H)) : List (Runtime H) :=
  past.map (Runtime.withJit jit)

theorem plainRun_of_run
    {start rt : Runtime H} {past : List (Runtime H)} (hempty : start.jit.cache = fun _ => none)
    (hrun : Run start past rt) (hidle : ∀ old ∈ past, Compiles old → AtIdle old) :
    PlainRun start (forgetting start.jit past) (rt.withJit start.jit) := by
  induction hrun with
  | start => exact .start
  | @step past rt rt' result hrun hstep ih =>
      have hearlier : ∀ old ∈ past, Compiles old → AtIdle old :=
        fun old hold => hidle old (List.mem_cons_of_mem _ hold)
      have hat : Executes rt →
          rt.jit.cache (JitRuntime.physIp rt.cpu.regs) = none → AtIdle rt := by
        intro hexecutes huncached
        by_cases hnothing : TranslatesNothing rt.toCore
        · exact idle_of_translatesNothing hnothing
        · exact hidle rt List.mem_cons_self ⟨hexecutes, huncached, hnothing⟩
      rcases step_plain ((idleCache_iff hempty hrun).mpr hearlier) hat with ⟨jit, -, hplain⟩
      rw [hplain] at hstep
      have hnext : plainStep (rt.withJit start.jit) = .ok (result, rt'.withJit start.jit) := by
        rw [plainStep_withJit]
        cases hone : plainStep rt with
        | error e =>
            rw [hone] at hstep
            cases hstep
        | ok p =>
            rw [hone] at hstep
            cases hstep
            rfl
      exact (ih hearlier).step hnext

theorem run_of_plainRun
    {start rt : Runtime H} {past : List (Runtime H)} (hcache : IdleCache start.jit)
    (hrun : PlainRun start past rt) (hidle : ∀ old ∈ past, Executes old → AtIdle old) :
    ∃ past' rt', Run start past' rt' ∧ IdleCache rt'.jit ∧
      forgetting start.jit past' = past ∧ rt'.withJit start.jit = rt := by
  induction hrun with
  | start => exact ⟨[], start, .start, hcache, rfl, rfl⟩
  | @step past rt rt' result hrun hstep ih =>
      have hearlier : ∀ old ∈ past, Executes old → AtIdle old :=
        fun old hold => hidle old (List.mem_cons_of_mem _ hold)
      rcases ih hearlier with ⟨past', now, hnow, hnowCache, rfl, rfl⟩
      have hat : Executes now → now.jit.cache (JitRuntime.physIp now.cpu.regs) = none →
          AtIdle now :=
        fun hexecutes _ => hidle (now.withJit start.jit) List.mem_cons_self hexecutes
      rcases step_plain hnowCache hat with ⟨jit, hjit, hplain⟩
      rw [plainStep_withJit] at hstep
      cases hone : plainStep now with
      | error e =>
          rw [hone] at hstep
          cases hstep
      | ok p =>
          rw [hone] at hstep hplain
          cases hstep
          exact ⟨now :: past', p.2.withJit jit, hnow.step hplain, hjit, rfl, rfl⟩

/-- From an empty cache on, the cache holds nothing but requests to interpret if
and only if no step compiled an instruction that the translator takes; then the
run is one of the interpreter alone, and every run of the interpreter that meets
no such instruction is a run of the machine. -/
theorem interpreted_runs {start : Runtime H} (hempty : start.jit.cache = fun _ => none) :
    (∀ past rt, Run start past rt →
      (IdleCache rt.jit ↔ ∀ old ∈ past, Compiles old → AtIdle old) ∧
        (IdleCache rt.jit → PlainRun start (forgetting start.jit past) (rt.withJit start.jit))) ∧
      ∀ past rt, PlainRun start past rt → (∀ old ∈ past, Executes old → AtIdle old) →
        ∃ past' rt', Run start past' rt' ∧ IdleCache rt'.jit ∧
          forgetting start.jit past' = past ∧ rt'.withJit start.jit = rt := by
  constructor
  · intro past rt hrun
    have hcache := idleCache_iff hempty hrun
    exact ⟨hcache, fun hidle => plainRun_of_run hempty hrun (hcache.mp hidle)⟩
  · intro past rt hrun hidle
    apply run_of_plainRun ?_ hrun hidle
    intro phys block hblock
    rw [hempty] at hblock
    cases hblock

theorem interpreted_runs_patched :
    ∃ first second : Runtime HostFiles.none, Run patchRuntime [first, patchRuntime] second ∧
      (IdleCache second.jit ↔ ∀ old ∈ [first, patchRuntime], Compiles old → AtIdle old) ∧
        (IdleCache second.jit →
          PlainRun patchRuntime (forgetting patchRuntime.jit [first, patchRuntime])
            (second.withJit patchRuntime.jit)) := by
  rcases patched_run with ⟨first, second, hrun, -⟩
  have hruns := (@interpreted_runs _ patchRuntime rfl).1 _ _ hrun
  exact ⟨first, second, hrun, hruns.1, hruns.2⟩

end Kita98
