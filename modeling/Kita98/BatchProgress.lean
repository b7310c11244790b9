import Kita98.ExecTransfer
import Kita98.HaltFlag
import Kita98.JitCache

/-!
# The batch queue over a run

`HLT` advances the queue in the step that executes it.  The interrupts that end
a program only set the halt flag, and a halted machine never looks at the queue
again: the programs behind it are never loaded.  Loading a program leaves the block
cache as it is: where an earlier program had a block, that is what runs.
-/

namespace Kita98

open Exec

variable {H : HostFiles}

/-! ## Endings and loads -/

/-- How a step ends the current program. -/
inductive Ending where
  | hlt
  /-- INT 19h, INT 20h or INT 21h with AH=4Ch -/
  | service
  deriving DecidableEq, Repr

instance (num : U8) (regs : Regs) : Decidable (EndsByInterrupt num regs) := by
  unfold EndsByInterrupt
  infer_instance

def endingOf (result : StepResult) (next : Runtime H) : Option Ending :=
  match result with
  | .halt => some .hlt
  | .interrupt num => if EndsByInterrupt num next.cpu.regs then some .service else none
  | _ => none

def ending (rt : Runtime H) : Option Ending :=
  if Executes rt then
    match executeNext rt with
    | .ok (result, next) => endingOf result next
    | .error _ => none
  else none

def loadedBy (rt : Runtime H) : Option DirEntry :=
  if ending rt = some .hlt then rt.batchQueue[rt.currentBatchIndex + 1]? else none

/-- The programs loaded along a run, in the order of loading, with the one that
was there at its start. -/
def loadedAlong (start : Runtime H) (past : List (Runtime H)) : List DirEntry :=
  start.batchQueue.take 1 ++ past.reverse.filterMap loadedBy

def endedAlong (past : List (Runtime H)) : ℕ := past.countP fun old => (ending old).isSome

/-- A machine as it is built for a queue: its first program is loaded, and DL
names the drive. -/
structure BatchStart (start : Runtime H) : Prop where
  loaded : ∃ entry data blank core,
    start.batchQueue[0]? = some entry ∧ readDiskFile start.bus.disk entry = .ok data ∧
      executeBinary data blank = .ok (.ok (), core) ∧
        start.toCore = core.setRegs (core.cpu.regs.set8 .DL 0x80)
  index : start.currentBatchIndex = 0
  running : start.cpu.halted = false
  uncached : start.jit.cache = fun _ => none

/-- The step neither meets the instruction limit nor reports an error. -/
structure Regular (rt : Runtime H) : Prop where
  limit : limitReached rt = false
  succeeds : ∃ result rt', step rt = .ok (.ok result, rt')

/-- The file of an entry is read from the disk and started in place of what
ran before. -/
def Starts (entry : DirEntry) (next rt' : Runtime H) : Prop :=
  ∃ data, readDiskFile next.bus.disk entry = .ok data ∧
    startProgram data next.toCore = .ok (.ok (), rt'.toCore)

/-- The steps of the current program. -/
def sinceLoad (past : List (Runtime H)) : List (Runtime H) :=
  past.takeWhile fun old => (loadedBy old).isNone

/-- The steps up to the one that loaded the current program. -/
def beforeLoad (past : List (Runtime H)) : List (Runtime H) :=
  past.dropWhile fun old => (loadedBy old).isNone

/-- The earlier state compiled a block for the present CS:IP. -/
def CompiledFor (rt old : Runtime H) : Prop :=
  Compiles old ∧ JitRuntime.physIp old.cpu.regs = JitRuntime.physIp rt.cpu.regs

/-- The step executes the program that has been loaded: a block that it finds in the
cache is the one of the code at CS:IP, or that program has compiled it. -/
def RunsLoaded (past : List (Runtime H)) (rt : Runtime H) : Prop :=
  Executes rt → ∀ block, rt.jit.cache (JitRuntime.physIp rt.cpu.regs) = some block →
    freshCode rt.toCore = some block ∨ ∃ old ∈ sinceLoad past, CompiledFor rt old

/-- After each ending the next program has been loaded, a step that loads a
program starts it, the steps behind it execute that program, and `step` does not
return `Halt` before the last program has ended. -/
structure Progress (start : Runtime H) (past : List (Runtime H)) (rt : Runtime H) : Prop where
  loads : loadedAlong start past = start.batchQueue.take (endedAlong past + 1)
  runs : ∀ old earlier, old :: earlier <:+ past → RunsLoaded earlier old
  starts : ∀ entry result rt', limitReached rt = false → loadedBy rt = some entry →
    step rt = .ok (.ok result, rt') →
      ∃ next, executeNext rt = .ok (.halt, next) ∧ Starts entry next rt'
  halts : ∀ rt', limitReached rt = false → step rt = .ok (.ok .halt, rt') →
    start.batchQueue.length ≤ endedAlong (rt :: past)

/-- An interrupt ends a program that is not the last of the queue. -/
def CutShort (rt : Runtime H) : Prop :=
  ending rt = some .service ∧ rt.currentBatchIndex + 1 < rt.batchQueue.length

/-- The code at CS:IP translates otherwise than when an earlier program compiled it. -/
def RunsStale (past : List (Runtime H)) (rt : Runtime H) : Prop :=
  Executes rt ∧ ∃ old ∈ beforeLoad past, CompiledFor rt old ∧
    ¬ SameTranslation old.toCore rt.toCore

/-! ## One step -/

def Runtime.batch (rt : Runtime H) : List DirEntry × ℕ := (rt.batchQueue, rt.currentBatchIndex)

instance {α : Type} (handler : Handler H α) : Quiet Runtime.batch (onMachine handler) := by
  constructor
  intro rt a rt' hrun
  rcases focus_eq_ok hrun with ⟨m, -, rfl⟩
  rfl

theorem jitExecute_halted
    {rt rt' : Runtime H} {result : StepResult} (hrun : jitExecute rt = .ok (result, rt')) :
    rt'.cpu.halted = rt.cpu.halted ∧ rt'.batch = rt.batch := by
  unfold jitExecute at hrun
  split at hrun
  · cases hrun
  · cases hrun
    exact ⟨rfl, rfl⟩

theorem executeNext_batch
    {rt rt' : Runtime H} {result : StepResult} (hrun : executeNext rt = .ok (result, rt')) :
    rt'.batch = rt.batch := by
  rcases bind_eq_ok hrun with ⟨first, mid, hjit, hrest⟩
  have hquiet : Quiet Runtime.batch
      (if first = .proceed then onMachine (onCore executeOne) else pure first :
        Running H StepResult) :=
    inferInstance
  exact (hquiet.keeps mid result rt' hrest).trans (jitExecute_halted hjit).2

theorem executeNext_halted
    {rt rt' : Runtime H} {result : StepResult} (hrun : executeNext rt = .ok (result, rt'))
    (hresult : result ≠ .halt) : rt'.cpu.halted = rt.cpu.halted := by
  rcases bind_eq_ok hrun with ⟨first, mid, hjit, hrest⟩
  have hmid := (jitExecute_halted hjit).1
  split at hrest
  · rcases focus_eq_ok hrest with ⟨m, hmachine, rfl⟩
    rcases focus_eq_ok hmachine with ⟨core, hcore, rfl⟩
    exact (executeOne_halted hcore hresult).trans hmid
  · cases hrest
    exact hmid

theorem startProgram_halted
    {data : List U8} {core core' : Core} {result : Except Error Unit}
    (hrun : startProgram data core = .ok (result, core')) : core'.halted = false := by
  rcases bind_eq_ok hrun with ⟨_, reset, hreset, hrest⟩
  cases hreset
  have hmild : Mild (executeBinary data) := inferInstance
  exact (hmild.returns hrest).halted

theorem loadNext_ok
    {entry : DirEntry} {rt rt' : Runtime H} {result : StepResult}
    (hrun : loadNext entry rt = .ok (.ok result, rt')) :
    result = .proceed ∧ Starts entry rt rt' ∧ rt'.batch = rt.batch := by
  unfold loadNext at hrun
  rw [bind_ok (read_apply _ rt)] at hrun
  cases hfile : readDiskFile rt.bus.disk entry with
  | error e =>
      rw [hfile] at hrun
      cases hrun
  | ok data =>
      rw [hfile] at hrun
      rcases bind_eq_ok hrun with ⟨loaded, late, hload, hlast⟩
      cases loaded with
      | error e => cases hlast
      | ok u =>
          cases hlast
          rcases focus_eq_ok hload with ⟨m, hmachine, rfl⟩
          rcases focus_eq_ok hmachine with ⟨core, hcore, rfl⟩
          exact ⟨rfl, ⟨data, hfile, hcore⟩, rfl⟩

/-- What a step does to the batch. -/
inductive BatchEffect (rt : Runtime H) (result : StepResult) (rt' : Runtime H) : Prop
  | idle (hhalted : rt.cpu.halted = true) (hending : ending rt = none)
      (hresult : result = .halt) (hsame : rt' = rt)
  | goesOn (hrunning : rt.cpu.halted = false) (hending : ending rt = none)
      (hresult : result ≠ .halt) (hbatch : rt'.batch = rt.batch)
      (hhalted : rt'.cpu.halted = false)
  | serves (hrunning : rt.cpu.halted = false) (hending : ending rt = some .service)
      (hresult : result ≠ .halt) (hbatch : rt'.batch = rt.batch)
      (hhalted : rt'.cpu.halted = true)
  | loads {entry : DirEntry} {next : Runtime H} (hrunning : rt.cpu.halted = false)
      (hending : ending rt = some .hlt)
      (hentry : rt.batchQueue[rt.currentBatchIndex + 1]? = some entry)
      (hresult : result ≠ .halt)
      (hbatch : rt'.batch = (rt.batchQueue, rt.currentBatchIndex + 1))
      (hhalted : rt'.cpu.halted = false)
      (hnext : executeNext rt = .ok (.halt, next)) (hstarts : Starts entry next rt')
  | finishes (hrunning : rt.cpu.halted = false) (hending : ending rt = some .hlt)
      (hentry : rt.batchQueue[rt.currentBatchIndex + 1]? = none)
      (hbatch : rt'.batch = (rt.batchQueue, rt.currentBatchIndex + 1))

theorem ending_of_executes
    {rt next : Runtime H} {result : StepResult} (hexecutes : Executes rt)
    (hnext : executeNext rt = .ok (result, next)) : ending rt = endingOf result next := by
  unfold ending
  rw [if_pos hexecutes, hnext]

theorem advanceBatch_effect
    {rt next rt' : Runtime H} {result : StepResult} (hexecutes : Executes rt)
    (hnext : executeNext rt = .ok (.halt, next))
    (hadvance : advanceBatch next = .ok (.ok result, rt')) : BatchEffect rt result rt' := by
  have hending := ending_of_executes hexecutes hnext
  rcases Prod.mk.inj (executeNext_batch hnext) with ⟨hqueue, hindex⟩
  unfold advanceBatch at hadvance
  rw [bind_ok (update_apply _ next), bind_ok (read_apply _ _)] at hadvance
  simp only [hqueue, hindex] at hadvance
  cases hentry : rt.batchQueue[rt.currentBatchIndex + 1]? with
  | none =>
      rw [hentry] at hadvance
      cases hadvance
      exact .finishes hexecutes.1 hending hentry rfl
  | some entry =>
      rw [hentry] at hadvance
      rcases loadNext_ok hadvance with ⟨rfl, hstarts, hbatch⟩
      rcases hstarts with ⟨data, hfile, hload⟩
      exact .loads hexecutes.1 hending hentry (by decide) hbatch (startProgram_halted hload)
        hnext ⟨data, hfile, hload⟩

theorem step_effect
    {rt rt' : Runtime H} {result : StepResult} (hlimit : limitReached rt = false)
    (hstep : step rt = .ok (.ok result, rt')) : BatchEffect rt result rt' := by
  cases hhalted : rt.cpu.halted with
  | true =>
      have hending : ending rt = none := by
        unfold ending
        rw [if_neg]
        rintro ⟨hrunning, -⟩
        rw [hhalted] at hrunning
        cases hrunning
      rw [step_of_halted hhalted] at hstep
      cases hstep
      exact .idle hhalted hending rfl rfl
  | false =>
      have hexecutes : Executes rt := ⟨hhalted, hlimit⟩
      rw [step_of_executes hexecutes] at hstep
      rcases bind_eq_ok hstep with ⟨first, next, hnext, hhandle⟩
      have hbatch := executeNext_batch hnext
      have hending := ending_of_executes hexecutes hnext
      cases first with
      | proceed =>
          cases hhandle
          exact .goesOn hhalted hending (by decide) hbatch
            ((executeNext_halted hnext (by decide)).trans hhalted)
      | halt => exact advanceBatch_effect hexecutes hnext hhandle
      | unimplemented op =>
          cases hhandle
          exact .goesOn hhalted hending (by simp) hbatch
            ((executeNext_halted hnext (by simp)).trans hhalted)
      | interrupt num =>
          rcases bind_eq_ok hhandle with ⟨u, late, hservice, hlast⟩
          cases hlast
          rcases focus_eq_ok hservice with ⟨m, hmachine, rfl⟩
          rcases serviceInterrupt_halted hmachine with ⟨hends, hkeeps⟩
          by_cases hend : EndsByInterrupt num next.cpu.regs
          · exact .serves hhalted (hending.trans (if_pos hend)) (by decide) hbatch (hends hend)
          · exact .goesOn hhalted (hending.trans (if_neg hend)) (by decide) hbatch
              ((hkeeps hend).trans
                ((executeNext_halted hnext (by simp)).trans hhalted))

/-! ## A run -/

def hltsAlong (past : List (Runtime H)) : ℕ := past.countP fun old => ending old = some .hlt

def servicesAlong (past : List (Runtime H)) : ℕ :=
  past.countP fun old => ending old = some .service

theorem endedAlong_eq (past : List (Runtime H)) :
    endedAlong past = hltsAlong past + servicesAlong past := by
  unfold endedAlong hltsAlong servicesAlong
  induction past with
  | nil => rfl
  | cons rt past ih =>
      rw [List.countP_cons, List.countP_cons, List.countP_cons, ih]
      cases ending rt with
      | none => rfl
      | some how =>
          cases how
          · simp
            omega
          · simp
            omega

theorem loadedAlong_cons (start rt : Runtime H) (past : List (Runtime H)) :
    loadedAlong start (rt :: past) = loadedAlong start past ++ (loadedBy rt).toList := by
  unfold loadedAlong
  rw [List.reverse_cons, List.filterMap_append, List.append_assoc]
  congr 2

/-- The index counts the programs that ended by `HLT`, and so many more than
the first have been loaded; the machine halts after one service or behind the
last program. -/
structure BatchInvariant (start : Runtime H) (past : List (Runtime H)) (rt : Runtime H) :
    Prop where
  batch : rt.batch = (start.batchQueue, hltsAlong past)
  loads : loadedAlong start past = start.batchQueue.take (hltsAlong past + 1)
  served : ∀ old ∈ past, ending old = some .service →
    old.batch = (start.batchQueue, hltsAlong past)
  running : rt.cpu.halted = false → servicesAlong past = 0
  halted : rt.cpu.halted = true → servicesAlong past = 1 ∨
    (servicesAlong past = 0 ∧ start.batchQueue.length ≤ hltsAlong past)

theorem BatchInvariant.of_none
    {start rt rt' : Runtime H} {past : List (Runtime H)} (hinv : BatchInvariant start past rt)
    (hending : ending rt = none) (hbatch : rt'.batch = rt.batch)
    (hhalted : rt'.cpu.halted = rt.cpu.halted) : BatchInvariant start (rt :: past) rt' := by
  have hhlts : hltsAlong (rt :: past) = hltsAlong past := by
    unfold hltsAlong
    rw [List.countP_cons_of_neg]
    simp [hending]
  have hservices : servicesAlong (rt :: past) = servicesAlong past := by
    unfold servicesAlong
    rw [List.countP_cons_of_neg]
    simp [hending]
  have hload : loadedBy rt = none := by
    unfold loadedBy
    rw [hending]
    rfl
  constructor
  · rw [hhlts, hbatch, hinv.batch]
  · rw [loadedAlong_cons, hload, hhlts, hinv.loads]
    exact List.append_nil _
  · intro old hold hservice
    rw [hhlts]
    rcases List.mem_cons.mp hold with rfl | hold
    · rw [hending] at hservice
      cases hservice
    · exact hinv.served old hold hservice
  · rw [hservices, hhalted]
    exact hinv.running
  · rw [hservices, hhlts, hhalted]
    exact hinv.halted

theorem BatchInvariant.of_service
    {start rt rt' : Runtime H} {past : List (Runtime H)} (hinv : BatchInvariant start past rt)
    (hrunning : rt.cpu.halted = false) (hending : ending rt = some .service)
    (hbatch : rt'.batch = rt.batch) (hhalted : rt'.cpu.halted = true) :
    BatchInvariant start (rt :: past) rt' := by
  have hhlts : hltsAlong (rt :: past) = hltsAlong past := by
    unfold hltsAlong
    rw [List.countP_cons_of_neg]
    simp [hending]
  have hnone := hinv.running hrunning
  have hservices : servicesAlong (rt :: past) = 1 := by
    unfold servicesAlong at hnone ⊢
    rw [List.countP_cons_of_pos (by simp [hending]), hnone]
  have hload : loadedBy rt = none := by
    unfold loadedBy
    rw [hending]
    rfl
  constructor
  · rw [hhlts, hbatch, hinv.batch]
  · rw [loadedAlong_cons, hload, hhlts, hinv.loads]
    exact List.append_nil _
  · intro old hold hservice
    rw [hhlts]
    rcases List.mem_cons.mp hold with rfl | hold
    · exact hinv.batch
    · exact hinv.served old hold hservice
  · intro hrunning'
    rw [hhalted] at hrunning'
    cases hrunning'
  · intro _
    exact .inl hservices

theorem BatchInvariant.of_hlt
    {start rt rt' : Runtime H} {past : List (Runtime H)} (hinv : BatchInvariant start past rt)
    (hrunning : rt.cpu.halted = false) (hending : ending rt = some .hlt)
    (hbatch : rt'.batch = (rt.batchQueue, rt.currentBatchIndex + 1))
    (hhalted : rt'.cpu.halted = true → rt.batchQueue[rt.currentBatchIndex + 1]? = none) :
    BatchInvariant start (rt :: past) rt' := by
  have hhlts : hltsAlong (rt :: past) = hltsAlong past + 1 := by
    unfold hltsAlong
    rw [List.countP_cons_of_pos]
    simp [hending]
  have hnone := hinv.running hrunning
  have hservices : servicesAlong (rt :: past) = 0 := by
    unfold servicesAlong at hnone ⊢
    rw [List.countP_cons_of_neg (by simp [hending]), hnone]
  rcases Prod.mk.inj hinv.batch with ⟨hqueue, hindex⟩
  have hload : loadedBy rt = start.batchQueue[hltsAlong past + 1]? := by
    unfold loadedBy
    rw [if_pos hending, hqueue, hindex]
  constructor
  · rw [hhlts, hbatch, hqueue, hindex]
  · rw [loadedAlong_cons, hload, hhlts, hinv.loads, ← List.take_add_one]
  · intro old hold hservice
    exfalso
    rcases List.mem_cons.mp hold with rfl | hold
    · rw [hending] at hservice
      cases hservice
    · exact List.countP_eq_zero.mp hnone old hold (by simpa using hservice)
  · intro _
    exact hservices
  · intro hhalted'
    right
    refine ⟨hservices, ?_⟩
    have hend := hhalted hhalted'
    rw [hqueue, hindex, List.getElem?_eq_none_iff] at hend
    rw [hhlts]
    exact hend

theorem batchInvariant_of_run
    {start rt : Runtime H} {past : List (Runtime H)} (hstart : BatchStart start)
    (hrun : Run start past rt) (hregular : ∀ old ∈ past, Regular old) :
    BatchInvariant start past rt := by
  induction hrun with
  | start =>
      constructor
      · exact Prod.ext rfl hstart.index
      · exact List.append_nil _
      · intro old hold
        cases hold
      · intro _
        rfl
      · intro hhalted
        rw [hstart.running] at hhalted
        cases hhalted
  | @step past rt rt' result hrun hstep ih =>
      have hinv := ih fun old hold => hregular old (List.mem_cons_of_mem _ hold)
      rcases hregular rt List.mem_cons_self with ⟨hlimit, result', late, hgood⟩
      rw [hgood] at hstep
      cases hstep
      cases step_effect hlimit hgood with
      | idle hhalted hending hresult hsame => exact hinv.of_none hending (by rw [hsame]) (by rw [hsame])
      | goesOn hrunning hending hresult hbatch hhalted =>
          exact hinv.of_none hending hbatch (hhalted.trans hrunning.symm)
      | serves hrunning hending hresult hbatch hhalted =>
          exact hinv.of_service hrunning hending hbatch hhalted
      | loads hrunning hending hentry hresult hbatch hhalted =>
          apply hinv.of_hlt hrunning hending hbatch
          intro hhalted'
          rw [hhalted] at hhalted'
          cases hhalted'
      | finishes hrunning hending hentry hbatch =>
          exact hinv.of_hlt hrunning hending hbatch fun _ => hentry

/-! ## Blocks of earlier programs -/

theorem Run.at_suffix
    {start rt old : Runtime H} {past earlier : List (Runtime H)} (hrun : Run start past rt)
    (hsuffix : old :: earlier <:+ past) : Run start earlier old := by
  induction hrun with
  | start => exact absurd hsuffix.length_le (by simp)
  | step hrun hstep ih =>
      rcases List.suffix_cons_iff.mp hsuffix with heq | hsuffix
      · cases heq
        exact hrun
      · exact ih hsuffix

/-- Only the first of two states compiles a block for one address. -/
theorem Run.compiles_once
    {start rt old old' : Runtime H} {past earlier : List (Runtime H)}
    (hempty : start.jit.cache = fun _ => none) (hrun : Run start past rt)
    (hsuffix : old' :: earlier <:+ past) (hold : old ∈ earlier) (hcompiles : Compiles old)
    (hkey : JitRuntime.physIp old.cpu.regs = JitRuntime.physIp old'.cpu.regs) :
    ¬ Compiles old' := by
  intro hcompiles'
  have hback := backed_of_run hempty (hrun.at_suffix hsuffix)
  rcases hback.recorded old ⟨hold, hcompiles⟩ with ⟨block, -, hcached⟩
  rw [hkey, hcompiles'.uncached] at hcached
  cases hcached

theorem runsLoaded_iff
    {start rt : Runtime H} {past : List (Runtime H)}
    (hempty : start.jit.cache = fun _ => none) (hrun : Run start past rt) :
    RunsLoaded past rt ↔ ¬ RunsStale past rt := by
  have hback := backed_of_run hempty hrun
  have hsplit : sinceLoad past ++ beforeLoad past = past := List.takeWhile_append_dropWhile
  constructor
  · rintro hruns ⟨hexecutes, old, hbefore, ⟨hcompiles, hkey⟩, hother⟩
    have hold : old ∈ past := (List.dropWhile_suffix _).mem hbefore
    rcases hback.recorded old ⟨hold, hcompiles⟩ with ⟨block, hfresh, hcached⟩
    rw [hkey] at hcached
    rcases hruns hexecutes block hcached with hnow | ⟨old', hsince, hcompiles', hkey'⟩
    · exact hother ((freshCode_eq_iff hfresh).mp (hfresh.trans hnow.symm))
    · rcases List.append_of_mem hsince with ⟨later, between, hparts⟩
      have hsuffix : old' :: (between ++ beforeLoad past) <:+ past := by
        refine ⟨later, ?_⟩
        rw [← List.cons_append, ← List.append_assoc, ← hparts, hsplit]
      exact hrun.compiles_once hempty hsuffix (List.mem_append_right _ hbefore) hcompiles
        (hkey.trans hkey'.symm) hcompiles'
  · intro hnone hexecutes block hcached
    rcases hback.entries _ block hcached with ⟨old, ⟨hold, hcompiles⟩, hkey, hfresh⟩
    rw [← hsplit] at hold
    rcases List.mem_append.mp hold with hsince | hbefore
    · exact .inr ⟨old, hsince, hcompiles, hkey⟩
    · left
      rw [← hfresh, eq_comm, freshCode_eq_iff hfresh]
      by_contra hother
      exact hnone ⟨hexecutes, old, hbefore, ⟨hcompiles, hkey⟩, hother⟩

/-! ## Progress -/

theorem starts_of_loadedBy
    {rt rt' : Runtime H} {entry : DirEntry} {result : StepResult}
    (hload : loadedBy rt = some entry) (heffect : BatchEffect rt result rt') :
    ∃ next, executeNext rt = .ok (.halt, next) ∧ Starts entry next rt' := by
  unfold loadedBy at hload
  split at hload
  · rename_i hhlt
    cases heffect with
    | idle hhalted hending =>
        rw [hhlt] at hending
        cases hending
    | goesOn hrunning hending =>
        rw [hhlt] at hending
        cases hending
    | serves hrunning hending =>
        rw [hhlt] at hending
        cases hending
    | loads hrunning hending hentry hresult hbatch hhalted hnext hstarts =>
        cases hentry.symm.trans hload
        exact ⟨_, hnext, hstarts⟩
    | finishes hrunning hending hentry =>
        cases hentry.symm.trans hload
  · cases hload

/-- `Halt` is returned behind the last program only. -/
theorem BatchInvariant.length_le
    {start rt rt' : Runtime H} {past : List (Runtime H)} (hinv : BatchInvariant start past rt)
    (hlast : servicesAlong past = 0 ∨
      start.batchQueue.length ≤ hltsAlong past + servicesAlong past)
    (heffect : BatchEffect rt .halt rt') :
    start.batchQueue.length ≤ hltsAlong (rt :: past) + servicesAlong (rt :: past) := by
  have hhlts : hltsAlong past ≤ hltsAlong (rt :: past) := (List.sublist_cons_self rt past).countP_le
  have hservices : servicesAlong past ≤ servicesAlong (rt :: past) :=
    (List.sublist_cons_self rt past).countP_le
  cases heffect with
  | idle hhalted hending =>
      rcases hinv.halted hhalted with hserved | ⟨hzero, hall⟩ <;> omega
  | goesOn hrunning hending hresult => exact absurd rfl hresult
  | serves hrunning hending hresult => exact absurd rfl hresult
  | loads hrunning hending hentry hresult => exact absurd rfl hresult
  | finishes hrunning hending hentry =>
      rcases Prod.mk.inj hinv.batch with ⟨hqueue, hindex⟩
      rw [hqueue, hindex, List.getElem?_eq_none_iff] at hentry
      have hmore : hltsAlong (rt :: past) = hltsAlong past + 1 := by
        unfold hltsAlong
        rw [List.countP_cons_of_pos]
        simp [hending]
      omega

theorem batch_progress_iff
    {start rt : Runtime H} {past : List (Runtime H)} (hstart : BatchStart start)
    (hrun : Run start past rt) (hregular : ∀ old ∈ past, Regular old) :
    Progress start past rt ↔
      ∀ old earlier, old :: earlier <:+ past → ¬ CutShort old ∧ ¬ RunsStale earlier old := by
  have hinv := batchInvariant_of_run hstart hrun hregular
  have hruns : ∀ old earlier, old :: earlier <:+ past →
      (RunsLoaded earlier old ↔ ¬ RunsStale earlier old) :=
    fun old earlier hsuffix => runsLoaded_iff hstart.uncached (hrun.at_suffix hsuffix)
  constructor
  · rintro ⟨hloads, hloaded, -, -⟩ old earlier hsuffix
    refine ⟨?_, (hruns old earlier hsuffix).mp (hloaded old earlier hsuffix)⟩
    rintro ⟨hservice, hmore⟩
    have hold : old ∈ past := hsuffix.mem List.mem_cons_self
    rcases Prod.mk.inj (hinv.served old hold hservice) with ⟨hqueue, hindex⟩
    have hserved : 0 < servicesAlong past :=
      List.countP_pos_iff.mpr ⟨old, hold, by simpa using hservice⟩
    have hlength := congrArg List.length (hinv.loads.symm.trans hloads)
    rw [List.length_take, List.length_take, endedAlong_eq] at hlength
    rw [hqueue, hindex] at hmore
    omega
  · intro hnone
    have hlast : servicesAlong past = 0 ∨
        start.batchQueue.length ≤ hltsAlong past + servicesAlong past := by
      by_cases hserved : 0 < servicesAlong past
      · right
        rcases List.countP_pos_iff.mp hserved with ⟨old, hold, hservice⟩
        have hservice' : ending old = some .service := by simpa using hservice
        rcases Prod.mk.inj (hinv.served old hold hservice') with ⟨hqueue, hindex⟩
        rcases List.append_of_mem hold with ⟨later, earlier, hsplit⟩
        have hmore : ¬ old.currentBatchIndex + 1 < old.batchQueue.length := fun hmore =>
          (hnone old earlier ⟨later, hsplit.symm⟩).1 ⟨hservice', hmore⟩
        rw [hqueue, hindex] at hmore
        omega
      · left
        omega
    have hone : servicesAlong past ≤ 1 := by
      cases hhalted : rt.cpu.halted with
      | false =>
          have hzero := hinv.running hhalted
          omega
      | true =>
          rcases hinv.halted hhalted with hserved | ⟨hzero, -⟩ <;> omega
    constructor
    · rw [hinv.loads, endedAlong_eq]
      rcases hlast with hzero | hall
      · rw [hzero, Nat.add_zero]
      · rw [List.take_of_length_le (by omega), List.take_of_length_le (by omega)]
    · intro old earlier hsuffix
      exact (hruns old earlier hsuffix).mpr (hnone old earlier hsuffix).2
    · intro entry result rt' hlimit hload hstep
      exact starts_of_loadedBy hload (step_effect hlimit hstep)
    · intro rt' hlimit hstep
      rw [endedAlong_eq]
      exact hinv.length_le hlast (step_effect hlimit hstep)

/-! ## Two queued programs -/

def batchDisk (code : List U8) : Disk :=
  { programDisk with
    data := bootSector ++ pad 512 [0xFE, 0xFF, 0xFF, 0xFF, 0x0F] ++ rootSector ++ pad 512 code }

def blankCore (code : List U8) : Core where
  cpu := Interpreter.new
  bus := Bus.new (some (batchDisk code)) fun _ => 0

def loadedCore (code : List U8) : Core :=
  ((blankCore code).setMem
    ((blankCore code).bus.mem.loadBytes (Memory.phys loadSegment 0x0100) code)).setRegs
      Regs.new.setCom

/-- A machine whose queue names the program twice. -/
def batchRuntime (code : List U8) : Runtime HostFiles.none where
  toCore := (loadedCore code).setRegs (Regs.new.setCom.set8 .DL 0x80)
  dos := DosRuntime.new
  jit := ⟨fun _ => none, fun _ => 0⟩
  maxInstructions := 0
  batchQueue := [programEntry, programEntry]
  currentBatchIndex := 0

theorem batchStart_batchRuntime
    {code : List U8} (hmagic : ¬ hasMzMagic code)
    (hfile : readDiskFile (some (batchDisk code)) programEntry = .ok code) :
    BatchStart (batchRuntime code) := by
  refine ⟨⟨programEntry, code, blankCore code, loadedCore code, rfl, hfile, ?_, rfl⟩, rfl, rfl,
    rfl⟩
  unfold executeBinary
  rw [if_neg hmagic]
  rfl

theorem one_step_run
    {rt : Runtime H} (hlimit : limitReached rt = false)
    (hok : (step rt).toOption.bind (fun last => last.1.toOption) = some .proceed) :
    ∃ rt', Run rt [rt] rt' ∧ ∀ old ∈ [rt], Regular old := by
  cases hstep : step rt with
  | error e =>
      rw [hstep] at hok
      cases hok
  | ok last =>
      rcases last with ⟨result, rt'⟩
      cases result with
      | error e =>
          rw [hstep] at hok
          cases hok
      | ok result =>
          refine ⟨rt', .step .start hstep, ?_⟩
          intro old hold
          rw [List.mem_singleton.mp hold]
          exact ⟨hlimit, result, rt', hstep⟩

/-- Both programs end by `HLT`, and the second finds the block of the first. -/
theorem batch_progress_hlt :
    ∃ loaded rt, Run (batchRuntime [0xF4, 0x90]) [loaded, batchRuntime [0xF4, 0x90]] rt ∧
      rt.currentBatchIndex = 2 ∧
      (Progress (batchRuntime [0xF4, 0x90]) [loaded, batchRuntime [0xF4, 0x90]] rt ↔
        ∀ old earlier, old :: earlier <:+ [loaded, batchRuntime [0xF4, 0x90]] →
          ¬ CutShort old ∧ ¬ RunsStale earlier old) := by
  have hstart := @batchStart_batchRuntime [0xF4, 0x90] (by decide) (by decide +kernel)
  have hends : (step (batchRuntime [0xF4, 0x90])).toOption.bind (fun first =>
      (step first.2).toOption.map fun second => (first.1.toOption, limitReached first.2,
        second.1.toOption, second.2.currentBatchIndex)) =
      some (some .proceed, false, some .halt, 2) := by
    decide +kernel
  rcases Option.bind_eq_some_iff.mp hends with ⟨⟨result, loaded⟩, hfirst, hrest⟩
  rcases exists_of_map _ hrest with ⟨⟨result', rt⟩, hstep', hfacts⟩
  have hstep := eq_ok_of_toOption hfirst
  simp only [Prod.mk.injEq] at hfacts
  rcases hfacts with ⟨hproceed, hlimit, hhalt, hindex⟩
  rw [eq_ok_of_toOption hproceed] at hstep
  rw [eq_ok_of_toOption hhalt] at hstep'
  have hrun := (Run.start.step hstep).step hstep'
  refine ⟨loaded, rt, hrun, hindex, batch_progress_iff hstart hrun ?_⟩
  intro old hold
  rcases List.mem_cons.mp hold with rfl | hold
  · exact ⟨hlimit, _, _, hstep'⟩
  · rw [List.mem_singleton.mp hold]
    exact ⟨rfl, _, _, hstep⟩

/-- `INT 20h` in the first of two programs leaves the second one unloaded. -/
theorem second_program_never_loaded :
    ∃ rt, BatchStart (batchRuntime [0xCD, 0x20]) ∧
      Run (batchRuntime [0xCD, 0x20]) [batchRuntime [0xCD, 0x20]] rt ∧
        (∀ old ∈ [batchRuntime [0xCD, 0x20]], Regular old) ∧
          ¬ Progress (batchRuntime [0xCD, 0x20]) [batchRuntime [0xCD, 0x20]] rt := by
  have hstart := @batchStart_batchRuntime [0xCD, 0x20] (by decide) (by decide +kernel)
  rcases @one_step_run _ (batchRuntime [0xCD, 0x20]) rfl (by decide +kernel) with
    ⟨rt, hrun, hregular⟩
  refine ⟨rt, hstart, hrun, hregular, ?_⟩
  intro hprogress
  have hloads := hprogress.loads
  revert hloads
  decide +kernel

end Kita98
