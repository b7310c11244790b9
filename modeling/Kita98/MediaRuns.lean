import Kita98.InstructionBudget
import Kita98.MachineTrace
import Kita98.PowerOn

/-!
# What no run changes

The image in the drive, the ticks of the timer, the batch queue and the limit
stay as they were built, the host's clock is read in order, and nothing that has
been printed is taken back.
-/

namespace Kita98

open Exec

variable {H : HostFiles}

/-- The bus later on. -/
structure Later (bus bus' : Bus) : Prop where
  disk : bus'.disk = bus.disk
  ticks : bus'.ticks = bus.ticks
  console : bus.video.console <+: bus'.video.console
  clock : ∃ n, bus'.clock = fun k => bus.clock (k + n)

namespace Later

theorem refl (bus : Bus) : Later bus bus := ⟨rfl, rfl, List.prefix_rfl, 0, rfl⟩

theorem trans {bus mid bus' : Bus} (hfirst : Later bus mid) (hrest : Later mid bus') :
    Later bus bus' := by
  rcases hfirst.clock with ⟨n, hn⟩
  rcases hrest.clock with ⟨m, hm⟩
  refine ⟨hrest.disk.trans hfirst.disk, hrest.ticks.trans hfirst.ticks,
    hfirst.console.trans hrest.console, m + n, ?_⟩
  rw [hm, hn]
  funext k
  change bus.clock (k + m + n) = _
  rw [Nat.add_assoc]

theorem of_video {bus : Bus} (mem : Memory) {video : VideoController}
    (hconsole : bus.video.console <+: video.console) :
    Later bus { bus with mem := mem, video := video } :=
  ⟨rfl, rfl, hconsole, 0, rfl⟩

theorem readPort (bus : Bus) (port : U16) : Later bus (bus.ioReadU8 port).2 := by
  unfold Bus.ioReadU8
  split
  · exact ⟨rfl, rfl, List.prefix_rfl, 1, rfl⟩
  all_goals exact refl bus

theorem writePort (bus : Bus) (port : U16) (val : U8) : Later bus (bus.ioWriteU8 port val) := by
  have hpalette : (bus.video.writePort port val).console = bus.video.console := by
    unfold VideoController.writePort
    split <;> rfl
  unfold Bus.ioWriteU8
  split
  · exact refl bus
  · exact refl bus
  iterate 4 exact of_video bus.mem (by rw [hpalette])
  · split
    · exact of_video bus.mem List.prefix_rfl
    · exact refl bus

theorem memWriteU8 (bus : Bus) (addr : U32) (val : U8) : Later bus (bus.memWriteU8 addr val) := by
  have hplane : (bus.video.updateVram addr val).2.console = bus.video.console := by
    unfold VideoController.updateVram
    split
    · rfl
    · split <;> rfl
  have hprefix : bus.video.console <+: (bus.video.updateVram addr val).2.console := by
    rw [hplane]
  unfold Bus.memWriteU8
  simp only
  split
  · exact of_video bus.mem hprefix
  · exact of_video _ hprefix

end Later

/-! ## Routines -/

def LaterBus (core next : Core) : Prop := Later core.bus next.bus

instance : IsPreorder Core LaterBus where
  refl := fun core => Later.refl core.bus
  trans := fun _ _ _ => Later.trans

instance : IsFrame LaterBus where
  setRegs := fun _ _ core => Later.refl core.bus
  setPrefixes := fun core _ => Later.refl core.bus
  setRanges := fun core _ => Later.refl core.bus
  setMem := fun core mem => Later.of_video mem List.prefix_rfl
  readPort := fun core port => Later.readPort core.bus port
  writePort := fun core port val => Later.writePort core.bus port val
  setVideo := by
    intro f hf core
    rcases hf.prints core.bus.video with ⟨text, dirty, hprints⟩
    apply Later.of_video core.bus.mem
    rw [hprints]
    exact List.prefix_append _ _

theorem dispatch_later
    {opcode : U8} {core next : Core} {result : StepResult}
    (hrun : dispatch opcode core = .ok (result, next)) : LaterBus core next := by
  apply @dispatch_cases LaterBus _ _ _ _ _ _ hrun
  · exact id
  · intro hopcode hiret
    cases hiret
    exact Later.refl core.bus
  · intro hopcode hhlt
    cases hhlt
    exact Later.refl core.bus
  · intro second fetched hopcode hfetch hjcc hbranch
    cases hfetch
    rw [jccNear_apply] at hbranch
    cases hbranch
    split <;> exact Later.refl core.bus

theorem executeOne_later
    {core next : Core} {result : StepResult} (hrun : executeOne core = .ok (result, next)) :
    LaterBus core next := by
  unfold executeOne at hrun
  rw [bind_ok (read_apply _ core)] at hrun
  split at hrun
  · cases hrun
    exact Later.refl core.bus
  · rcases bind_eq_ok hrun with ⟨opcode, fetched, hfetch, hrest⟩
    rcases bind_eq_ok hrest with ⟨result', executed, hdispatch, hlast⟩
    cases hlast
    have hfetched : StaysIn LaterBus fetchOpcode := inferInstance
    have hexecuted : LaterBus fetched executed := dispatch_later hdispatch
    exact Later.trans (hfetched.returns hfetch) hexecuted

theorem runCode_later (code : List Emitted) (bus : Bus) (regs : Regs) :
    Later bus (runCode code bus regs).2.1 := by
  induction code generalizing bus regs with
  | nil => exact Later.refl bus
  | cons instr code ih =>
      cases instr with
      | leave rax => exact Later.refl bus
      | memWriteU8 phys val => exact (Later.memWriteU8 bus phys val).trans (ih _ regs)
      | ioWriteU8 port => exact (Later.writePort bus port _).trans (ih _ regs)
      | movWord off imm => exact ih bus _
      | addWord off imm => exact ih bus _

/-! ## Actions and runs -/

theorem Action.later {action : Action} {m m' : Machine H} (hleads : action.Leads m m') :
    Later m.bus m'.bus := by
  cases action with
  | instruction =>
      have hcore := Action.leads_onCore rfl hleads
      rcases bind_eq_ok hcore with ⟨result, next, hrun, hlast⟩
      cases hlast
      exact executeOne_later hrun
  | block ops =>
      have hcore := Action.leads_onCore rfl hleads
      have hbus : m'.bus = (runCode (compileBlock ops).code m.bus m.cpu.regs).2.1 :=
        (congrArg (fun last => last.2.bus) (Except.ok.inj hcore)).symm
      rw [hbus]
      exact runCode_later _ _ _
  | enter =>
      have hcore := Action.leads_onCore rfl hleads
      have henter : StaysIn LaterBus enterInterrupt := by
        unfold enterInterrupt
        infer_instance
      exact henter.returns hcore
  | service num =>
      rcases bind_eq_ok hleads with ⟨handled, served, hserve, hlast⟩
      cases hlast
      by_cases hends : EndsByInterrupt num m.cpu.regs
      · have hbus := congrArg Core.bus (handleInterrupt_ends hserve hends)
        rw [hbus]
        exact Later.refl m.bus
      · exact handleInterrupt_staysIn (R := LaterBus) hserve hends
  | leave =>
      have hcore := Action.leads_onCore rfl hleads
      rw [leaveInterrupt_apply] at hcore
      have hbus : m'.bus = m.bus := (congrArg (fun last => last.2.bus) (Except.ok.inj hcore)).symm
      rw [hbus]
      exact Later.refl m.bus
  | vector num =>
      have hcore := Action.leads_onCore rfl hleads
      have hbus : m'.bus = m.bus := (congrArg (fun last => last.2.bus) (Except.ok.inj hcore)).symm
      rw [hbus]
      exact Later.refl m.bus
  | load data =>
      have hcore := Action.leads_onCore rfl hleads
      rcases bind_eq_ok hcore with ⟨result, loaded, hload, hlast⟩
      cases hlast
      have hstays : StaysIn LaterBus (executeBinary data) := inferInstance
      rcases bind_eq_ok hload with ⟨u, reset, hreset, hrest⟩
      cases hreset
      have hloaded := hstays.returns hrest
      exact hloaded
  | stop =>
      have hcore := Action.leads_onCore rfl hleads
      have hbus : m'.bus = m.bus := (congrArg (fun last => last.2.bus) (Except.ok.inj hcore)).symm
      rw [hbus]
      exact Later.refl m.bus

def LaterMachine (m m' : Machine H) : Prop := Later m.bus m'.bus

instance : IsPreorder (Machine H) LaterMachine where
  refl := fun m => Later.refl m.bus
  trans := fun _ _ _ => Later.trans

theorem Traced.later {m m' : Machine H} (htraced : Traced m m') : Later m.bus m'.bus := by
  rcases htraced with ⟨past, htrace⟩
  have hlater : LaterMachine m m' := htrace.related fun _ _ _ hleads => Action.later hleads
  exact hlater

theorem handleStepResult_keeps_queue (result : StepResult) :
    Keeps (Runtime.batchQueue (H := H)) (handleStepResult result) := by
  have honMachine : ∀ {α : Type} (handler : Handler H α),
      Keeps Runtime.batchQueue (onMachine handler) := by
    intro α handler rt a rt' hrun
    rcases focus_eq_ok hrun with ⟨m, -, rfl⟩
    rfl
  apply handleStepResult_keeps
  · intro rt index
    rfl
  · intro data
    exact honMachine _
  · intro num
    exact honMachine _

theorem step_queue
    {rt rt' : Runtime H} {result : Except Error StepResult} (hstep : step rt = .ok (result, rt')) :
    rt'.batchQueue = rt.batchQueue := by
  by_cases hexecutes : Executes rt
  · rw [step_of_executes hexecutes] at hstep
    rcases bind_eq_ok hstep with ⟨first, next, hnext, hhandle⟩
    exact (handleStepResult_keeps_queue first next _ rt' hhandle).trans
      (congrArg Prod.fst (executeNext_batch hnext))
  · rw [step_of_not_executes hexecutes] at hstep
    cases hstep
    rfl

theorem Run.queue {start rt : Runtime H} {past : List (Runtime H)} (hrun : Run start past rt) :
    rt.batchQueue = start.batchQueue := by
  induction hrun with
  | start => rfl
  | step hbefore hstep ih => exact (step_queue hstep).trans ih

/-! ## From power on -/

/-- The image that is opened, unless the file is an EXE. -/
def mediaOf (host : Host) (filePath : Text) : Option Disk :=
  if isExeFile host filePath then none
  else
    match Disk.load (host.readFile filePath) with
    | .ok (.ok disk) => some disk
    | _ => none

/-- The bus of a machine that has run nothing yet. -/
structure FreshBus (host : Host) (filePath : Text) (bus : Bus) : Prop where
  disk : bus.disk = mediaOf host filePath
  ticks : bus.ticks = 0
  clock : bus.clock = host.clock

theorem programLoaded_bus (data : List U8) (core : Core) :
    ∃ mem, (programLoaded data core).bus = { core.bus with mem := mem } := by
  unfold programLoaded
  split <;> exact ⟨_, rfl⟩

theorem Booted.bus {host : Host} {filePath : Text} {core : Core} {queue : List DirEntry}
    (hbooted : Booted host filePath core queue) : FreshBus host filePath core.bus := by
  have hmedia : ∀ disk, isExeFile host filePath = false →
      Disk.load (host.readFile filePath) = .ok (.ok disk) →
        some disk = mediaOf host filePath := by
    intro disk himage hdisk
    unfold mediaOf
    rw [himage, hdisk]
    rfl
  cases hbooted with
  | exe hexe hread hload =>
      have hloaded := (loadMz_ok hload).2
      have hnone : none = mediaOf host filePath := by
        unfold mediaOf
        rw [if_pos hexe]
      rw [hloaded]
      exact ⟨hnone, rfl, rfl⟩
  | @file disk fs first rest data core himage hdisk hdetect hqueue hread hload =>
      rcases programLoaded_bus data (newCore (some disk) host.clock) with ⟨mem, hbus⟩
      rw [Core.setRegs_bus, executeBinary_ok hload, hbus]
      exact ⟨hmedia disk himage hdisk, rfl, rfl⟩
  | sector himage hdisk hdetect hread => exact ⟨hmedia _ himage hdisk, rfl, rfl⟩

/-- What a run keeps of the machine that was built: its drive, its timer and its
queue, the host's clock from where it has been read to, and what was printed.
The programs come from the image as it was opened. -/
structure Kept (host : Host) (filePath : Text) (start : Runtime H) (past : List (Runtime H))
    (rt : Runtime H) : Prop where
  disk : rt.bus.disk = mediaOf host filePath
  ticks : rt.bus.ticks = 0
  clock : ∃ n, rt.bus.clock = fun k => host.clock (k + n)
  queue : rt.batchQueue = start.batchQueue
  printed : ∀ old ∈ past, old.bus.video.console <+: rt.bus.video.console
  loads : ∀ old ∈ past, ∀ entry next, loadedBy old = some entry →
    executeNext old = .ok (.halt, next) →
      entry ∈ start.batchQueue ∧
        readDiskFile next.bus.disk entry = readDiskFile (mediaOf host filePath) entry

theorem run_later
    {start rt : Runtime H} {past : List (Runtime H)} (hcompiled : Compiled start.jit)
    (hrun : Run start past rt) :
    Later start.bus rt.bus ∧ ∀ old ∈ past, Later start.bus old.bus ∧ Later old.bus rt.bus := by
  induction hrun with
  | start =>
      refine ⟨Later.refl _, ?_⟩
      intro old hold
      cases hold
  | step hbefore hstep ih =>
      rcases ih with ⟨hlast, hpast⟩
      have hone := (traced_step (traced_run hcompiled hbefore).1 hstep).2.later
      refine ⟨hlast.trans hone, ?_⟩
      intro old hold
      rcases List.mem_cons.mp hold with rfl | hold
      · exact ⟨hlast, hone⟩
      · rcases hpast old hold with ⟨hfirst, hrest⟩
        exact ⟨hfirst, hrest.trans hone⟩

theorem loadedBy_mem {rt : Runtime H} {entry : DirEntry} (hload : loadedBy rt = some entry) :
    entry ∈ rt.batchQueue := by
  unfold loadedBy at hload
  split at hload
  · exact List.mem_of_getElem? hload
  · cases hload

/-- The states a run goes through are ends of runs. -/
theorem Run.before {start rt : Runtime H} {past : List (Runtime H)} (hrun : Run start past rt) :
    ∀ old ∈ past, ∃ earlier, Run start earlier old := by
  induction hrun with
  | start =>
      intro old hold
      cases hold
  | @step past rt rt' result hbefore hstep ih =>
      intro old hold
      rcases List.mem_cons.mp hold with rfl | hold
      · exact ⟨past, hbefore⟩
      · exact ih old hold

theorem media_kept
    {host : Host} {filePath : Text} {maxInstructions : ℕ} {start rt : Runtime H}
    {past : List (Runtime H)}
    (hnew : Runtime.new H host filePath maxInstructions = .ok (.ok start))
    (hrun : Run start past rt) : Kept host filePath start past rt := by
  rcases new_booted hnew with ⟨hbooted, -, hjit, -, -⟩
  have hfresh := hbooted.bus
  have hcompiled : Compiled start.jit := by
    rw [hjit]
    intro phys block hblock
    cases hblock
  rcases run_later hcompiled hrun with ⟨hlast, hpast⟩
  constructor
  · exact hlast.disk.trans hfresh.disk
  · exact hlast.ticks.trans hfresh.ticks
  · rcases hlast.clock with ⟨n, hn⟩
    exact ⟨n, by rw [hn, hfresh.clock]⟩
  · exact hrun.queue
  · intro old hold
    exact (hpast old hold).2.console
  · intro old hold entry next hload hnext
    rcases hrun.before old hold with ⟨earlier, hearlier⟩
    have hlater := (traced_executeNext (traced_run hcompiled hearlier).1 hnext).2.later
    constructor
    · rw [← hearlier.queue]
      exact loadedBy_mem hload
    · rw [hlater.disk, (hpast old hold).1.disk, hfresh.disk]

/-- The state after `n` steps. -/
def stepTimes : ℕ → Runtime H → Checked (Runtime H)
  | 0, rt => .ok rt
  | n + 1, rt =>
      match stepTimes n rt with
      | .error fault => .error fault
      | .ok rt' => (step rt').map Prod.snd

theorem run_of_stepTimes
    {n : ℕ} {start rt : Runtime H} (hsteps : stepTimes n start = .ok rt) :
    ∃ past, past.length = n ∧ Run start past rt := by
  induction n generalizing rt with
  | zero =>
      cases hsteps
      exact ⟨[], rfl, .start⟩
  | succ n ih =>
      unfold stepTimes at hsteps
      cases hbefore : stepTimes n start with
      | error fault =>
          rw [hbefore] at hsteps
          cases hsteps
      | ok mid =>
          rw [hbefore] at hsteps
          rcases ih hbefore with ⟨past, hlength, hrun⟩
          cases hstep : step mid with
          | error fault =>
              simp only [hstep] at hsteps
              cases hsteps
          | ok last =>
              simp only [hstep] at hsteps
              cases hsteps
              exact ⟨mid :: past, congrArg Nat.succ hlength, hrun.step hstep⟩

/-- The first program prints an `A`, and its HLT loads the second. -/
theorem media_kept_queue :
    ∃ start past rt, Runtime.new HostFiles.none queueHost "a.hdm".toList 5 = .ok (.ok start) ∧
      past.length = 4 ∧ rt.currentBatchIndex = 1 ∧ rt.bus.video.console = ['A'] ∧
        Kept queueHost "a.hdm".toList start past rt := by
  have hfour : ((Runtime.new HostFiles.none queueHost "a.hdm".toList 5).toOption.bind
      Except.toOption).bind (fun start => (stepTimes 4 start).toOption.map fun rt =>
        (rt.currentBatchIndex, rt.bus.video.console)) = some (1, ['A']) := by
    decide +kernel
  rcases Option.bind_eq_some_iff.mp hfour with ⟨start, hbuilt, hsteps⟩
  rcases exists_of_map _ hsteps with ⟨rt, hrt, hfacts⟩
  rcases Prod.mk.inj hfacts with ⟨hindex, hconsole⟩
  rcases run_of_stepTimes hrt with ⟨past, hlength, hrun⟩
  have hnew := eq_ok_ok_of_toOption hbuilt
  exact ⟨start, past, rt, hnew, hlength, hindex, hconsole, media_kept hnew hrun⟩

end Kita98
