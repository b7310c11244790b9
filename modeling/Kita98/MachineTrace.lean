import Kita98.LabelledTrace
import Kita98.PrefixLoop
import Kita98.HaltFlag
import Kita98.JitCache

/-!
# What the runtime does to the machine

The processor, the bus and the file handles change in a few ways only: one
interpreted instruction, the code of one translated block, the four parts of
an interrupt, and the loading of a program.  A run of `step` is a trace of
such actions.
-/

namespace Kita98

open Exec

variable {H : HostFiles}

inductive Action where
  /-- One call of `execute_one`. -/
  | instruction
  /-- The code that is emitted for the operations. -/
  | block (ops : List IrOp)
  | enter
  | service (num : U8)
  | leave
  | vector (num : U8)
  | load (data : List U8)
  | stop

namespace Action

def runOps (ops : List IrOp) : Routine Unit := fun core =>
  match runCode (compileBlock ops).code core.bus core.cpu.regs with
  | (_, bus, regs) => .ok ((), { core.setRegs regs with bus := bus })

def perform : Action → Handler H Unit
  | .instruction => onCore do
      let _ ← executeOne
      return ()
  | .block ops => onCore (runOps ops)
  | .enter => onCore enterInterrupt
  | .service num => do
      let _ ← handleInterrupt num
      return ()
  | .leave => onCore leaveInterrupt
  | .vector num => onCore (vectorInterrupt num)
  | .load data => onCore do
      let _ ← startProgram data
      return ()
  | .stop => onCore setHalted

def Leads (action : Action) (m m' : Machine H) : Prop := action.perform m = .ok ((), m')

end Action

theorem leads_of_core
    {α : Type} {routine : Routine α} {m : Machine H} {core : Core} {a : α}
    (hrun : routine m.toCore = .ok (a, core)) :
    (onCore (do
      let _ ← routine
      return ()) : Handler H Unit) m = .ok ((), { m with toCore := core }) := by
  have hdone : (do
      let _ ← routine
      return () : Routine Unit) m.toCore = .ok ((), core) := bind_ok hrun
  exact focus_ok hdone

abbrev MachineTrace (start : Machine H) (past : List (Action × Machine H)) (m : Machine H) :
    Prop :=
  LabelledTrace Action.Leads start past m

/-- The machine before its first program, or with it loaded. -/
inductive Fresh (m : Machine H) : Prop
  | new (hcpu : m.cpu = Interpreter.new)
  | loaded {data : List U8} {blank core : Core} (hblank : blank.cpu = Interpreter.new)
      (hload : executeBinary data blank = .ok (.ok (), core))
      (hdrive : m.toCore = core.setRegs (core.cpu.regs.set8 .DL 0x80))

/-! ## What actions leave alone -/

/-- The instruction writes general registers and memory only. -/
def Emitted.General : Emitted → Prop
  | .movWord off _ => off < 32
  | .addWord off _ => off < 32
  | _ => True

theorem emit_general (op : IrOp) : ∀ instr ∈ emit op, instr.General := by
  have hindex : ∀ reg : Reg16, reg.index * 2 < 32 := by
    intro reg
    cases reg <;> decide
  intro instr hinstr
  cases op with
  | movRegImm reg imm =>
      rw [List.mem_singleton.mp hinstr]
      exact hindex reg
  | addRegImm reg imm =>
      rw [List.mem_singleton.mp hinstr]
      exact hindex reg
  | syncIp ip =>
      rw [List.mem_singleton.mp hinstr]
      exact (by decide : 24 < 32)
  | movMemImm8 phys val =>
      rw [List.mem_singleton.mp hinstr]
      trivial
  | outImm8 port reg =>
      rw [List.mem_singleton.mp hinstr]
      trivial
  | exit result =>
      cases result <;> rw [List.mem_singleton.mp hinstr] <;> trivial
  | movRegReg dst src => cases hinstr
  | subRegImm reg imm => cases hinstr
  | cmpRegImm reg imm => cases hinstr
  | jmpRelative rel => cases hinstr
  | int num => cases hinstr

theorem storeWord_ip_flags {off : ℕ} (hoff : off < 32) (regs : Regs) (v : U16) :
    (regs.storeWord off v).ip = regs.ip ∧ (regs.storeWord off v).flags = regs.flags := by
  unfold Regs.storeWord
  rw [if_pos hoff]
  exact ⟨rfl, rfl⟩

theorem runCode_ip_flags
    {code : List Emitted} (hgeneral : ∀ instr ∈ code, instr.General) (bus : Bus) (regs : Regs) :
    (runCode code bus regs).2.2.ip = regs.ip ∧
      (runCode code bus regs).2.2.flags = regs.flags := by
  induction code generalizing bus regs with
  | nil => exact ⟨rfl, rfl⟩
  | cons instr code ih =>
      have hfirst := hgeneral instr List.mem_cons_self
      have hrest := ih fun later hlater => hgeneral later (List.mem_cons_of_mem _ hlater)
      cases instr with
      | leave rax => exact ⟨rfl, rfl⟩
      | memWriteU8 phys val => exact hrest _ regs
      | ioWriteU8 port => exact hrest _ regs
      | movWord off imm =>
          rcases storeWord_ip_flags hfirst regs imm with ⟨hip, hflags⟩
          rcases hrest bus (regs.storeWord off imm) with ⟨hip', hflags'⟩
          exact ⟨hip'.trans hip, hflags'.trans hflags⟩
      | addWord off imm =>
          rcases storeWord_ip_flags hfirst regs (regs.loadWord off + imm) with ⟨hip, hflags⟩
          rcases hrest bus (regs.storeWord off (regs.loadWord off + imm)) with ⟨hip', hflags'⟩
          exact ⟨hip'.trans hip, hflags'.trans hflags⟩

/-- The code of a block touches neither IP nor the flags. -/
theorem runOps_ip_flags (ops : List IrOp) (bus : Bus) (regs : Regs) :
    (runCode (compileBlock ops).code bus regs).2.2.ip = regs.ip ∧
      (runCode (compileBlock ops).code bus regs).2.2.flags = regs.flags := by
  apply runCode_ip_flags
  intro instr hinstr
  rcases List.mem_flatMap.mp hinstr with ⟨op, -, hop⟩
  exact emit_general op instr hop

theorem startProgram_regs
    {data : List U8} {core core' : Core} {result : Except Error Unit}
    (hrun : startProgram data core = .ok (result, core')) :
    core'.cpu.regs.InSegment ∧ core'.cpu.regs.reserved = true := by
  rcases bind_eq_ok hrun with ⟨u, reset, hreset, hrest⟩
  cases hreset
  have hmild : Mild (executeBinary data) := inferInstance
  have htame := hmild.returns hrest
  constructor
  · apply htame.inSegment
    exact (by decide : Regs.new.ip.toNat < 2 ^ 16)
  · apply htame.reserved
    exact (by decide : Regs.new.reserved = true)

theorem fresh_regs {m : Machine H} (hfresh : Fresh m) :
    m.cpu.regs.InSegment ∧ m.cpu.regs.reserved = true := by
  have hin : Interpreter.new.regs.InSegment := (by decide : Regs.new.ip.toNat < 2 ^ 16)
  have hset : Interpreter.new.regs.reserved = true := (by decide : Regs.new.reserved = true)
  cases hfresh with
  | new hcpu =>
      rw [hcpu]
      exact ⟨hin, hset⟩
  | @loaded data blank core hblank hload hdrive =>
      have hmild : Mild (executeBinary data) := inferInstance
      have htame := (hmild.returns hload).trans
        (tame_setRegs (fun regs => regs.set8 .DL 0x80) core)
      rw [← hblank] at hin hset
      have hin' := htame.inSegment hin
      have hset' := htame.reserved hset
      rw [← hdrive] at hin' hset'
      exact ⟨hin', hset'⟩

/-! ## One action -/

theorem Action.leads_onCore
    {action : Action} {routine : Routine Unit} {m m' : Machine H}
    (haction : (action.perform : Handler H Unit) = onCore routine) (hleads : action.Leads m m') :
    routine m.toCore = .ok ((), m'.toCore) := by
  have hrun : (onCore routine : Handler H Unit) m = .ok ((), m') := by
    rw [← haction]
    exact hleads
  rcases focus_eq_ok hrun with ⟨core, hcore, rfl⟩
  exact hcore

theorem Action.leads_of_map
    {β : Type} {action : Action} {m : Machine H} (f : Machine H → β) {b : β}
    (hmap : (action.perform m).toOption.map (fun last => f last.2) = some b) :
    ∃ m', action.Leads m m' ∧ f m' = b := by
  rcases exists_of_map _ hmap with ⟨last, hrun, hf⟩
  exact ⟨last.2, hrun, hf⟩

/-- What an action does to the registers. -/
inductive ActionEffect (m m' : Machine H) : Action → Prop
  | instruction {result : StepResult} (hrun : executeOne m.toCore = .ok (result, m'.toCore)) :
      ActionEffect m m' .instruction
  | block {ops : List IrOp} (hip : m'.cpu.regs.ip = m.cpu.regs.ip)
      (hflags : m'.cpu.regs.flags = m.cpu.regs.flags) : ActionEffect m m' (.block ops)
  | enter (hcore : m'.toCore = m.toCore.entered) : ActionEffect m m' .enter
  | service {num : U8} (htame : m'.cpu.regs = m.cpu.regs ∨ Tame m.toCore m'.toCore) :
      ActionEffect m m' (.service num)
  | leave (hcore : m'.toCore = m.toCore.left) : ActionEffect m m' .leave
  | vector {num : U8} {segment offset : U16}
      (hregs : m'.cpu.regs = (m.cpu.regs.setSeg .CS segment).jumpTo offset) :
      ActionEffect m m' (.vector num)
  | load {data : List U8} (hin : m'.cpu.regs.InSegment) (hset : m'.cpu.regs.reserved = true) :
      ActionEffect m m' (.load data)
  | stop (hregs : m'.cpu.regs = m.cpu.regs) : ActionEffect m m' .stop

theorem Action.effect {action : Action} {m m' : Machine H} (hleads : action.Leads m m') :
    ActionEffect m m' action := by
  cases action with
  | instruction =>
      have hcore := Action.leads_onCore rfl hleads
      rcases bind_eq_ok hcore with ⟨result, next, hrun, hlast⟩
      cases hlast
      exact .instruction hrun
  | block ops =>
      have hcore := Action.leads_onCore rfl hleads
      have hregs : m'.cpu.regs = (runCode (compileBlock ops).code m.bus m.cpu.regs).2.2 :=
        (congrArg (fun last => last.2.cpu.regs) (Except.ok.inj hcore)).symm
      rcases runOps_ip_flags ops m.bus m.cpu.regs with ⟨hip, hflags⟩
      rw [← hregs] at hip hflags
      exact .block hip hflags
  | enter =>
      have hcore := Action.leads_onCore rfl hleads
      rw [enterInterrupt_apply] at hcore
      exact .enter (congrArg Prod.snd (Except.ok.inj hcore)).symm
  | service num =>
      rcases bind_eq_ok hleads with ⟨handled, served, hserve, hlast⟩
      cases hlast
      by_cases hends : EndsByInterrupt num m.cpu.regs
      · have hregs := congrArg Core.regs (handleInterrupt_ends hserve hends)
        exact .service (.inl hregs)
      · exact .service (.inr (handleInterrupt_staysIn hserve hends))
  | leave =>
      have hcore := Action.leads_onCore rfl hleads
      rw [leaveInterrupt_apply] at hcore
      exact .leave (congrArg Prod.snd (Except.ok.inj hcore)).symm
  | vector num =>
      have hcore := Action.leads_onCore rfl hleads
      exact .vector (congrArg (fun last => last.2.cpu.regs) (Except.ok.inj hcore)).symm
  | load data =>
      have hcore := Action.leads_onCore rfl hleads
      rcases bind_eq_ok hcore with ⟨result, loaded, hload, hlast⟩
      cases hlast
      rcases startProgram_regs hload with ⟨hin, hset⟩
      exact .load hin hset
  | stop =>
      have hcore := Action.leads_onCore rfl hleads
      exact .stop (congrArg (fun last => last.2.cpu.regs) (Except.ok.inj hcore)).symm

theorem inSegment_congr {regs regs' : Regs} (hip : regs'.ip = regs.ip) :
    regs'.InSegment ↔ regs.InSegment := by
  unfold Regs.InSegment
  rw [hip]

theorem reserved_congr {regs regs' : Regs} (hflags : regs'.flags = regs.flags) :
    regs'.reserved = regs.reserved := by
  unfold Regs.reserved
  rw [hflags]

theorem reserved_entered (core : Core) :
    core.entered.cpu.regs.reserved = core.cpu.regs.reserved := by
  have htrap := @TameRegs.reserved_setFlag Flags.TF (by decide)
  have hinterrupt := @TameRegs.reserved_setFlag Flags.IF (by decide)
  exact (htrap _ false).trans (hinterrupt _ false)

/-- Only an instruction or the end of a service can take IP out of the segment
or clear the flag. -/
theorem Action.keeps
    {action : Action} {m m' : Machine H} (hleads : action.Leads m m')
    (hinstruction : action ≠ .instruction) (hleave : action ≠ .leave) :
    (m.cpu.regs.InSegment → m'.cpu.regs.InSegment) ∧
      (m.cpu.regs.reserved = true → m'.cpu.regs.reserved = true) := by
  cases action.effect hleads with
  | instruction hrun => exact absurd rfl hinstruction
  | leave hcore => exact absurd rfl hleave
  | block hip hflags =>
      rw [inSegment_congr hip, reserved_congr hflags]
      exact ⟨id, id⟩
  | enter hcore =>
      rw [hcore, reserved_entered]
      exact ⟨id, id⟩
  | service htame =>
      rcases htame with hregs | htame
      · rw [hregs]
        exact ⟨id, id⟩
      · exact ⟨htame.inSegment, htame.reserved⟩
  | vector hregs =>
      rw [hregs]
      exact ⟨fun _ => TameRegs.inSegment_jumpTo _ _, id⟩
  | load hin hset => exact ⟨fun _ => hin, fun _ => hset⟩
  | stop hregs =>
      rw [hregs]
      exact ⟨id, id⟩

/-! ## Runs of `step` -/

/-- Every block in the cache is the code of some operations. -/
def Compiled (jit : JitRuntime) : Prop :=
  ∀ phys block, jit.cache phys = some block → ∃ ops, block = compileBlock ops

theorem runBlock_bus_regs (jit : JitRuntime) (block : JitBlock) (bus : Bus) (regs : Regs) :
    (jit.runBlock block bus regs).2.2 = (runCode block.code bus regs).2 := by
  unfold JitRuntime.runBlock
  rcases runCode block.code bus regs with ⟨rax, bus', regs'⟩
  cases rax <;> rfl

theorem execute_effect
    {jit jit' : JitRuntime} {bus bus' : Bus} {regs regs' : Regs} {result : StepResult}
    (hcompiled : Compiled jit) (hexecute : jit.execute bus regs = .ok (result, jit', bus', regs')) :
    Compiled jit' ∧ ((bus', regs') = (bus, regs) ∨
      ∃ ops, (bus', regs') = (runCode (compileBlock ops).code bus regs).2) := by
  have hrunBlock : ∀ (before : JitRuntime) (ops : List IrOp), Compiled before →
      before.runBlock (compileBlock ops) bus regs = (result, jit', bus', regs') →
        Compiled jit' ∧ (bus', regs') = (runCode (compileBlock ops).code bus regs).2 := by
    intro before ops hbefore hrun
    have hcache := runBlock_cache before (compileBlock ops) bus regs
    have hstate := runBlock_bus_regs before (compileBlock ops) bus regs
    rw [hrun] at hcache hstate
    constructor
    · intro phys block hblock
      rw [hcache] at hblock
      exact hbefore phys block hblock
    · exact hstate
  unfold JitRuntime.execute at hexecute
  cases hcache : jit.cache (JitRuntime.physIp regs) with
  | some block =>
      rw [hcache] at hexecute
      rcases hcompiled _ _ hcache with ⟨ops, rfl⟩
      rcases hrunBlock jit ops hcompiled (Except.ok.inj hexecute) with ⟨hlast, hstate⟩
      exact ⟨hlast, .inr ⟨ops, hstate⟩⟩
  | none =>
      rw [hcache] at hexecute
      cases htranslate : translateBlock bus regs (JitRuntime.physIp regs) with
      | error e =>
          simp only [htranslate] at hexecute
          cases hexecute
      | ok ops =>
          cases ops with
          | nil =>
              simp only [htranslate] at hexecute
              cases hexecute
              exact ⟨hcompiled, .inl rfl⟩
          | cons op ops =>
              simp only [htranslate] at hexecute
              have hinsert : Compiled (jit.insert (JitRuntime.physIp regs)
                  (compileBlock (op :: ops))) := by
                intro phys block hblock
                by_cases hphys : phys = JitRuntime.physIp regs
                · subst hphys
                  have hsome := (Function.update_self _ _ _).symm.trans hblock
                  cases hsome
                  exact ⟨op :: ops, rfl⟩
                · have hold := (Function.update_of_ne hphys _ _).symm.trans hblock
                  exact hcompiled phys block hold
              rcases hrunBlock _ (op :: ops) hinsert (Except.ok.inj hexecute) with ⟨hlast, hstate⟩
              exact ⟨hlast, .inr ⟨op :: ops, hstate⟩⟩

def Traced (m m' : Machine H) : Prop := ∃ past, MachineTrace m past m'

theorem Traced.refl (m : Machine H) : Traced m m := ⟨[], .start⟩

theorem Traced.trans {m mid m' : Machine H} (hfirst : Traced m mid) (hrest : Traced mid m') :
    Traced m m' := by
  rcases hfirst with ⟨past, hfirst⟩
  rcases hrest with ⟨later, hrest⟩
  exact ⟨later ++ past, hfirst.append hrest⟩

theorem Traced.of_action {action : Action} {m m' : Machine H} (hleads : action.Leads m m') :
    Traced m m' :=
  ⟨[(action, m)], .single hleads⟩

theorem traced_jitExecute
    {rt mid : Runtime H} {result : StepResult} (hcompiled : Compiled rt.jit)
    (hjit : jitExecute rt = .ok (result, mid)) :
    Compiled mid.jit ∧ Traced rt.toMachine mid.toMachine := by
  unfold jitExecute at hjit
  cases hexecute : rt.jit.execute rt.bus rt.cpu.regs with
  | error e =>
      simp only [hexecute] at hjit
      cases hjit
  | ok run =>
      rcases run with ⟨result', jit, bus, regs⟩
      simp only [hexecute] at hjit
      cases hjit
      rcases execute_effect hcompiled hexecute with ⟨hlast, hsame | ⟨ops, hstate⟩⟩
      · cases hsame
        exact ⟨hlast, .refl _⟩
      · refine ⟨hlast, @Traced.of_action H (.block ops) _ _ ?_⟩
        have hbus := congrArg Prod.fst hstate
        have hregs := congrArg Prod.snd hstate
        simp only at hbus hregs
        rw [hbus, hregs]
        rfl

theorem traced_executeNext
    {rt next : Runtime H} {result : StepResult} (hcompiled : Compiled rt.jit)
    (hnext : executeNext rt = .ok (result, next)) :
    Compiled next.jit ∧ Traced rt.toMachine next.toMachine := by
  rcases bind_eq_ok hnext with ⟨first, mid, hjit, hrest⟩
  rcases traced_jitExecute hcompiled hjit with ⟨hmid, htraced⟩
  split at hrest
  · rcases focus_eq_ok hrest with ⟨m, hmachine, rfl⟩
    rcases focus_eq_ok hmachine with ⟨core, hcore, rfl⟩
    refine ⟨hmid, htraced.trans (@Traced.of_action H .instruction _ _ ?_)⟩
    exact leads_of_core hcore
  · cases hrest
    exact ⟨hmid, htraced⟩

theorem traced_serviceInterrupt
    {num : U8} {m m' : Machine H} {u : Unit} (hrun : serviceInterrupt num m = .ok (u, m')) :
    Traced m m' := by
  rcases bind_eq_ok hrun with ⟨_, entered, henter, hrest⟩
  rcases bind_eq_ok hrest with ⟨handled, served, hserve, hlast⟩
  have hservice : (Action.service num).Leads entered served := bind_ok hserve
  have hfirst : Traced m served :=
    (@Traced.of_action H .enter _ _ henter).trans (.of_action hservice)
  cases handled with
  | true => exact hfirst.trans (@Traced.of_action H .leave _ _ hlast)
  | false => exact hfirst.trans (@Traced.of_action H (.vector num) _ _ hlast)

theorem traced_advanceBatch
    {rt rt' : Runtime H} {result : Except Error StepResult}
    (hrun : advanceBatch rt = .ok (result, rt')) : Traced rt.toMachine rt'.toMachine := by
  unfold advanceBatch at hrun
  rw [bind_ok (update_apply _ rt), bind_ok (read_apply _ _)] at hrun
  cases hentry : rt.batchQueue[rt.currentBatchIndex + 1]? with
  | none =>
      simp only [hentry] at hrun
      cases hrun
      exact .refl _
  | some entry =>
      simp only [hentry] at hrun
      unfold loadNext at hrun
      rw [bind_ok (read_apply _ _)] at hrun
      cases hfile : readDiskFile rt.bus.disk entry with
      | error e =>
          simp only [hfile] at hrun
          cases hrun
          exact .refl _
      | ok data =>
          simp only [hfile] at hrun
          rcases bind_eq_ok hrun with ⟨loaded, late, hload, hlast⟩
          rcases focus_eq_ok hload with ⟨m, hmachine, rfl⟩
          rcases focus_eq_ok hmachine with ⟨core, hcore, rfl⟩
          have hleads : (Action.load data).Leads rt.toMachine { rt.toMachine with toCore := core } :=
            leads_of_core hcore
          cases loaded with
          | error e =>
              cases hlast
              exact .of_action hleads
          | ok u =>
              cases hlast
              exact .of_action hleads

theorem traced_handleStepResult
    {rt rt' : Runtime H} {first : StepResult} {result : Except Error StepResult}
    (hrun : handleStepResult first rt = .ok (result, rt')) :
    Traced rt.toMachine rt'.toMachine := by
  cases first with
  | proceed =>
      cases hrun
      exact .refl _
  | halt => exact traced_advanceBatch hrun
  | interrupt num =>
      rcases bind_eq_ok hrun with ⟨u, late, hservice, hlast⟩
      cases hlast
      rcases focus_eq_ok hservice with ⟨m, hmachine, rfl⟩
      exact traced_serviceInterrupt hmachine
  | unimplemented op =>
      cases hrun
      exact .refl _

theorem traced_step
    {rt rt' : Runtime H} {result : Except Error StepResult} (hcompiled : Compiled rt.jit)
    (hstep : step rt = .ok (result, rt')) :
    Compiled rt'.jit ∧ Traced rt.toMachine rt'.toMachine := by
  by_cases hexecutes : Executes rt
  · rw [step_of_executes hexecutes] at hstep
    rcases bind_eq_ok hstep with ⟨first, next, hnext, hhandle⟩
    rcases traced_executeNext hcompiled hnext with ⟨hnextCompiled, htraced⟩
    have hjit : rt'.jit = next.jit := handleStepResult_keeps_jit first next result rt' hhandle
    rw [hjit]
    exact ⟨hnextCompiled, htraced.trans (traced_handleStepResult hhandle)⟩
  · rw [step_of_not_executes hexecutes] at hstep
    cases hstep
    exact ⟨hcompiled, @Traced.of_action H .stop _ _ rfl⟩

/-- Every run of `step` from an empty cache is a trace of actions. -/
theorem traced_run
    {start rt : Runtime H} {past : List (Runtime H)} (hcompiled : Compiled start.jit)
    (hrun : Run start past rt) : Compiled rt.jit ∧ Traced start.toMachine rt.toMachine := by
  induction hrun with
  | start => exact ⟨hcompiled, .refl _⟩
  | step hbefore hstep ih =>
      rcases ih with ⟨hlast, htraced⟩
      rcases traced_step hlast hstep with ⟨hnext, hone⟩
      exact ⟨hnext, htraced.trans hone⟩

end Kita98
