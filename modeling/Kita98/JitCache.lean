import Kita98.BlockCode
import Kita98.MemoTable
import Kita98.Runs

/-!
# The block cache over a run

Cached blocks are found by the physical address of CS:IP alone.  A run backs
the cache by the states that compiled a block, so the block found in a later
state is the one that would be compiled there exactly when the state that
compiled it agrees on what a block depends on.
-/

namespace Kita98

open Exec MemoTable

variable {H : HostFiles}

/-! ## What a step caches -/

/-- `step` translates the block at CS:IP and caches it. -/
structure Compiles (rt : Runtime H) : Prop where
  executes : Executes rt
  uncached : rt.jit.cache (JitRuntime.physIp rt.cpu.regs) = none
  translated : ¬ TranslatesNothing rt.toCore

def outcome (run : Except Fault (StepResult × JitRuntime × Bus × Regs)) :
    Except Fault (StepResult × Bus × Regs) :=
  run.map fun (result, _, bus, regs) => (result, bus, regs)

/-- The cache makes no difference. -/
def Transparent (rt : Runtime H) : Prop :=
  outcome (rt.jit.execute rt.bus rt.cpu.regs) =
    outcome (rt.jit.emptied.execute rt.bus rt.cpu.regs)

/-- A block cached for CS:IP is the one that would be compiled now. -/
def CacheCurrent (rt : Runtime H) : Prop :=
  ∀ block, rt.jit.cache (JitRuntime.physIp rt.cpu.regs) = some block →
    freshCode rt.toCore = some block

/-- The state that compiled a block at the present address, if any, agrees on
the translation. -/
def SteadyAt (past : List (Runtime H)) (rt : Runtime H) : Prop :=
  ∀ old ∈ past, Compiles old →
    JitRuntime.physIp old.cpu.regs = JitRuntime.physIp rt.cpu.regs →
      SameTranslation old.toCore rt.toCore

/-! ## One execution -/

theorem runBlock_cache (jit : JitRuntime) (block : JitBlock) (bus : Bus) (regs : Regs) :
    (jit.runBlock block bus regs).2.1.cache = jit.cache := by
  unfold JitRuntime.runBlock
  split <;> rfl

theorem runBlock_outcome
    {jit jit' : JitRuntime} {block : JitBlock} {bus : Bus} {regs : Regs}
    (hresidue : jit.residue = jit'.residue) :
    outcome (.ok (jit.runBlock block bus regs)) = outcome (.ok (jit'.runBlock block bus regs)) := by
  unfold JitRuntime.runBlock
  rcases runCode block.code bus regs with ⟨rax, bus', regs'⟩
  cases rax with
  | some n => rfl
  | none => rw [hresidue]; rfl

theorem execute_of_cached
    {jit : JitRuntime} {bus : Bus} {regs : Regs} {block : JitBlock}
    (hcache : jit.cache (JitRuntime.physIp regs) = some block) :
    jit.execute bus regs = .ok (jit.runBlock block bus regs) := by
  unfold JitRuntime.execute
  rw [hcache]

theorem execute_of_fresh
    {jit : JitRuntime} {core : Core} {block : JitBlock}
    (hcache : jit.cache (JitRuntime.physIp core.cpu.regs) = none)
    (hfresh : freshCode core = some block) :
    jit.execute core.bus core.cpu.regs =
      .ok ((jit.insert (JitRuntime.physIp core.cpu.regs) block).runBlock block core.bus
        core.cpu.regs) := by
  unfold freshCode at hfresh
  unfold JitRuntime.execute
  rw [hcache]
  split at hfresh
  · rename_i op ops hops
    cases hfresh
    simp only [hops]
  · cases hfresh

theorem execute_of_nothing
    {jit jit' : JitRuntime} {core : Core} {result : StepResult} {bus : Bus} {regs : Regs}
    (hcache : jit.cache (JitRuntime.physIp core.cpu.regs) = none)
    (hfresh : freshCode core = none)
    (hexecute : jit.execute core.bus core.cpu.regs = .ok (result, jit', bus, regs)) :
    jit' = jit := by
  unfold freshCode at hfresh
  unfold JitRuntime.execute at hexecute
  rw [hcache] at hexecute
  split at hfresh
  · cases hfresh
  · rename_i hops
    simp only at hexecute
    split at hexecute
    · cases hexecute
    · cases hexecute
      rfl
    · rename_i op ops heq
      exact absurd heq (hops op ops)

theorem transparent_of_current {rt : Runtime H} (hcurrent : CacheCurrent rt) :
    Transparent rt := by
  unfold Transparent
  cases hcache : rt.jit.cache (JitRuntime.physIp rt.cpu.regs) with
  | some block =>
      have hfresh := hcurrent block hcache
      rw [execute_of_cached hcache, @execute_of_fresh rt.jit.emptied rt.toCore block rfl hfresh]
      exact runBlock_outcome rfl
  | none =>
      cases hfresh : freshCode rt.toCore with
      | some block =>
          rw [@execute_of_fresh rt.jit rt.toCore block hcache hfresh,
            @execute_of_fresh rt.jit.emptied rt.toCore block rfl hfresh]
          exact runBlock_outcome rfl
      | none =>
          unfold freshCode at hfresh
          unfold JitRuntime.execute JitRuntime.emptied
          rw [hcache]
          split at hfresh
          · cases hfresh
          · rename_i hops
            simp only
            split
            · rfl
            · rfl
            · rename_i op ops heq
              exact absurd heq (hops op ops)

/-! ## One step -/

theorem onMachine_keeps_jit {α : Type} (handler : Handler H α) :
    Keeps (fun rt : Runtime H => rt.jit) (onMachine handler) := by
  intro rt a rt' hrun
  rcases focus_eq_ok hrun with ⟨m, -, rfl⟩
  rfl

theorem handleStepResult_keeps_jit (result : StepResult) :
    Keeps (fun rt : Runtime H => rt.jit) (handleStepResult result) :=
  handleStepResult_keeps (fun _ _ => rfl) (fun _ => onMachine_keeps_jit _)
    (fun _ => onMachine_keeps_jit _) result

theorem step_jit
    {rt rt' : Runtime H} {result : Except Error StepResult} (hexecutes : Executes rt)
    (hstep : step rt = .ok (result, rt')) :
    ∃ result' bus regs, rt.jit.execute rt.bus rt.cpu.regs = .ok (result', rt'.jit, bus, regs) := by
  rw [step_of_executes hexecutes] at hstep
  rcases bind_eq_ok hstep with ⟨last, late, hnext, hhandle⟩
  rcases bind_eq_ok hnext with ⟨first, mid, hjit, hrest⟩
  have hkeeps : Keeps (fun rt : Runtime H => rt.jit)
      (if first = .proceed then onMachine (onCore executeOne) else pure first :
        Running H StepResult) :=
    .ite (onMachine_keeps_jit _) (.pure _)
  have hmid : rt'.jit = mid.jit :=
    (handleStepResult_keeps_jit last late _ rt' hhandle).trans (hkeeps mid _ late hrest)
  unfold jitExecute at hjit
  cases hexecute : rt.jit.execute rt.bus rt.cpu.regs with
  | error e =>
      simp only [hexecute] at hjit
      cases hjit
  | ok run =>
      rcases run with ⟨result', jit, bus, regs⟩
      simp only [hexecute] at hjit
      cases hjit
      rw [hmid]
      exact ⟨_, _, _, rfl⟩

/-! ## The cache over a run -/

def compilers (past : List (Runtime H)) : Set (Runtime H) := {rt | rt ∈ past ∧ Compiles rt}

theorem step_of_compiles
    {rt rt' : Runtime H} {result : Except Error StepResult} (hcompiles : Compiles rt)
    (hstep : step rt = .ok (result, rt')) :
    ∃ block, freshCode rt.toCore = some block ∧
      rt'.jit.cache =
        Function.update rt.jit.cache (JitRuntime.physIp rt.cpu.regs) (some block) := by
  rcases step_jit hcompiles.executes hstep with ⟨result', bus, regs, hexecute⟩
  cases hexit : exitOf rt.toCore with
  | none =>
      exfalso
      unfold JitRuntime.execute at hexecute
      rw [hcompiles.uncached, @translateBlock_eq rt.toCore, assemble_of_exitAt_none hexit]
        at hexecute
      cases hexecute
  | some exit =>
      have hfresh := freshCode_of_exitOf hexit hcompiles.translated
      refine ⟨_, hfresh, ?_⟩
      rw [@execute_of_fresh rt.jit rt.toCore _ hcompiles.uncached hfresh] at hexecute
      have hjit := congrArg (fun run : StepResult × JitRuntime × Bus × Regs => run.2.1.cache)
        (Except.ok.inj hexecute)
      exact hjit.symm.trans (runBlock_cache _ _ _ _)

theorem step_of_not_compiles
    {rt rt' : Runtime H} {result : Except Error StepResult} (hcompiles : ¬ Compiles rt)
    (hstep : step rt = .ok (result, rt')) : rt'.jit.cache = rt.jit.cache := by
  by_cases hexecutes : Executes rt
  · rcases step_jit hexecutes hstep with ⟨result', bus, regs, hexecute⟩
    cases hcache : rt.jit.cache (JitRuntime.physIp rt.cpu.regs) with
    | some block =>
        rw [execute_of_cached hcache] at hexecute
        have hjit := congrArg (fun run : StepResult × JitRuntime × Bus × Regs => run.2.1.cache)
          (Except.ok.inj hexecute)
        exact hjit.symm.trans (runBlock_cache _ _ _ _)
    | none =>
        have hnothing : TranslatesNothing rt.toCore := by
          by_contra htranslated
          exact hcompiles ⟨hexecutes, hcache, htranslated⟩
        rw [@execute_of_nothing rt.jit rt'.jit rt.toCore _ _ _ hcache
          (freshCode_of_translatesNothing hnothing) hexecute]
  · rw [step_of_not_executes hexecutes] at hstep
    cases hstep
    rfl

theorem backed_of_run
    {start rt : Runtime H} {past : List (Runtime H)}
    (hempty : start.jit.cache = fun _ => none) (hrun : Run start past rt) :
    Backed (fun rt : Runtime H => JitRuntime.physIp rt.cpu.regs)
      (fun rt => freshCode rt.toCore) (compilers past) rt.jit.cache := by
  induction hrun with
  | start =>
      have hnone : compilers ([] : List (Runtime H)) = ∅ := by
        simp [compilers]
      rw [hempty, hnone]
      exact backed_empty
  | @step past rt rt' result hrun hstep ih =>
      by_cases hcompiles : Compiles rt
      · rcases step_of_compiles hcompiles hstep with ⟨block, hfresh, hcache⟩
        have hinsert : compilers (rt :: past) = insert rt (compilers past) := by
          ext old
          constructor
          · rintro ⟨hmem, hcompiles'⟩
            rcases List.mem_cons.mp hmem with heq | hold
            · exact .inl heq
            · exact .inr ⟨hold, hcompiles'⟩
          · rintro (rfl | ⟨hold, hcompiles'⟩)
            · exact ⟨List.mem_cons_self, hcompiles⟩
            · exact ⟨List.mem_cons_of_mem _ hold, hcompiles'⟩
        rw [hinsert, hcache]
        exact ih.insert hcompiles.uncached hfresh
      · have hsame : compilers (rt :: past) = compilers past := by
          ext old
          constructor
          · rintro ⟨hmem, hcompiles'⟩
            rcases List.mem_cons.mp hmem with rfl | hold
            · exact absurd hcompiles' hcompiles
            · exact ⟨hold, hcompiles'⟩
          · rintro ⟨hold, hcompiles'⟩
            exact ⟨List.mem_cons_of_mem _ hold, hcompiles'⟩
        rw [hsame, step_of_not_compiles hcompiles hstep]
        exact ih

theorem cache_transparent_iff
    {start rt : Runtime H} {past : List (Runtime H)}
    (hempty : start.jit.cache = fun _ => none) (hrun : Run start past rt) :
    (Transparent rt ∧ CacheCurrent rt) ↔ SteadyAt past rt := by
  have hback := backed_of_run hempty hrun
  have hiff : CacheCurrent rt ↔ SteadyAt past rt := by
    unfold CacheCurrent
    rw [hback.fresh_iff rt]
    constructor
    · intro hsame old hold hcompiles hkey
      rcases hback.recorded old ⟨hold, hcompiles⟩ with ⟨block, hfresh, -⟩
      exact (freshCode_eq_iff hfresh).mp (hsame old ⟨hold, hcompiles⟩ hkey)
    · rintro hsteady old ⟨hold, hcompiles⟩ hkey
      rcases hback.recorded old ⟨hold, hcompiles⟩ with ⟨block, hfresh, -⟩
      exact (freshCode_eq_iff hfresh).mpr (hsteady old hold hcompiles hkey)
  constructor
  · rintro ⟨-, hcurrent⟩
    exact hiff.mp hcurrent
  · intro hsteady
    have hcurrent := hiff.mpr hsteady
    exact ⟨transparent_of_current hcurrent, hcurrent⟩

/-! ## A patched instruction -/

/-- A machine in front of `MOV [BX], ES` and a jump back to it, with BX zero and
ES 00F4h: the move turns its own opcode into `HLT`. -/
def patchRuntime : Runtime HostFiles.none where
  cpu := { Interpreter.new with regs := Regs.new.setSeg .ES 0x00F4 }
  bus :=
    { Bus.new none (fun _ => 0) with
      mem := Memory.new.loadBytes 0 [0x8C, 0x07, 0xEB, 0xFC] }
  dos := DosRuntime.new
  jit := ⟨fun _ => none, fun _ => 0⟩
  maxInstructions := 0
  batchQueue := []
  currentBatchIndex := 0

def bothResults (rt : Runtime H) : Except Fault StepResult × Except Fault StepResult :=
  ((rt.jit.execute rt.bus rt.cpu.regs).map Prod.fst,
    (rt.jit.emptied.execute rt.bus rt.cpu.regs).map Prod.fst)

theorem patched_results :
    (step patchRuntime).bind (fun first => (step first.2).map fun second => bothResults second.2) =
      .ok (.ok .proceed, .ok .halt) := by
  decide +kernel

/-- The third step finds the block of the move where there is a `HLT`. -/
theorem patched_run :
    ∃ first second : Runtime HostFiles.none, Run patchRuntime [first, patchRuntime] second ∧
      bothResults second = (.ok .proceed, .ok .halt) := by
  have hresults := patched_results
  cases hfirst : step patchRuntime with
  | error e =>
      rw [hfirst] at hresults
      cases hresults
  | ok run =>
      rw [hfirst] at hresults
      rcases run with ⟨result, first⟩
      cases hsecond : step first with
      | error e =>
          simp only [Except.bind, hsecond, Except.map] at hresults
          cases hresults
      | ok run' =>
          simp only [Except.bind, hsecond, Except.map] at hresults
          rcases run' with ⟨result', second⟩
          exact ⟨first, second, .step (.step .start hfirst) hsecond, Except.ok.inj hresults⟩

theorem cache_transparent_patched :
    ∃ first second : Runtime HostFiles.none, Run patchRuntime [first, patchRuntime] second ∧
      ((Transparent second ∧ CacheCurrent second) ↔ SteadyAt [first, patchRuntime] second) := by
  rcases patched_run with ⟨first, second, hrun, -⟩
  exact ⟨first, second, hrun, cache_transparent_iff rfl hrun⟩

theorem stale_block_executed :
    ∃ (past : List (Runtime HostFiles.none)) (rt : Runtime HostFiles.none),
      patchRuntime.jit.cache = (fun _ => none) ∧ Run patchRuntime past rt ∧
        ¬ Transparent rt := by
  rcases patched_run with ⟨first, second, hrun, hresults⟩
  refine ⟨_, second, rfl, hrun, ?_⟩
  intro htransparent
  rcases Prod.mk.inj hresults with ⟨hcached, hfresh⟩
  have hfst : ∀ run : Except Fault (StepResult × JitRuntime × Bus × Regs),
      run.map Prod.fst = (outcome run).map Prod.fst := by
    intro run
    cases run <;> rfl
  rw [hfst, htransparent, ← hfst, hfresh] at hcached
  cases hcached

end Kita98
