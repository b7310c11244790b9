import Kita98.InstructionBudget
import Kita98.NestedCalls
import Kita98.PowerOn

/-!
# Interrupts that nothing handles

An interrupt without a native handler goes through its vector.  While the
vectors lead to the IRET of the stub the next step returns: what it leaves
behind are the six bytes below SP and one more instruction on the counter.
-/

namespace Kita98

open WordBits ByteStore Memory Exec MemoTable

variable {H : HostFiles}

/-! ## Through the vector -/

/-- The state behind an interrupt that is not handled natively. -/
def Core.vectored (core : Core) (num : U8) : Core :=
  core.entered.setRegs ((core.entered.cpu.regs.setSeg .CS (core.entered.bus.mem.getIvt num).1).jumpTo
    (core.entered.bus.mem.getIvt num).2)

theorem serviceInterrupt_vectored {m : Machine H} {num : U8}
    (hvector : (nativeHandler num : Option (Handler H Unit)) = none) :
    serviceInterrupt num m = .ok ((), { m with toCore := m.toCore.vectored num }) := by
  have henter : (onCore enterInterrupt : Handler H Unit) m =
      .ok ((), { m with toCore := m.toCore.entered }) :=
    focus_ok (enterInterrupt_apply m.toCore)
  have hhandle : (handleInterrupt num : Handler H Bool) = pure false := by
    unfold handleInterrupt
    rw [hvector]
  unfold serviceInterrupt
  rw [bind_ok henter, hhandle, bind_ok (pure_apply _ _)]
  rfl

/-- The six bytes that an interrupt pushes. -/
def FrameCell (regs : Regs) (c : Cell) : Prop :=
  ∃ n ∈ ([2, 4, 6] : List U16),
    c = stackCell regs (regs.get16 .SP - n) ∨ c = stackCell regs (regs.get16 .SP - n) + 1

theorem entered_outside {core : Core} {c : Cell} (houtside : ¬ FrameCell core.cpu.regs c) :
    core.entered.bus.mem.data c = core.bus.mem.data c := by
  have hapart : ∀ n ∈ ([2, 4, 6] : List U16),
      c ≠ stackCell core.cpu.regs (core.cpu.regs.get16 .SP - n) ∧
        c ≠ stackCell core.cpu.regs (core.cpu.regs.get16 .SP - n) + 1 := by
    intro n hn
    constructor
    · intro hlow
      exact houtside ⟨n, hn, .inl hlow⟩
    · intro hhigh
      exact houtside ⟨n, hn, .inr hhigh⟩
  rcases hapart 2 (by decide) with ⟨hflags, hflags'⟩
  rcases hapart 4 (by decide) with ⟨hcs, hcs'⟩
  rcases hapart 6 (by decide) with ⟨hip, hip'⟩
  rw [entered_mem_data, writeWord_of_ne _ _ hip hip', writeWord_of_ne _ _ hcs hcs',
    writeWord_of_ne _ _ hflags hflags']

theorem forall_frame {P : U16 → Prop} :
    (∀ n ∈ ([2, 4, 6] : List U16), P n) ↔ P 2 ∧ P 4 ∧ P 6 := by
  simp

/-- The frame covers neither a vector nor the stub. -/
structure ClearOfStub (regs : Regs) : Prop where
  vectors : ∀ c : Cell, c.toNat < 0x400 → ¬ FrameCell regs c
  stub : ¬ FrameCell regs (cell stubPhys)

theorem Stubbed.entered {core : Core} (hstubbed : Stubbed core.bus.mem)
    (hclear : ClearOfStub core.cpu.regs) : Stubbed core.entered.bus.mem :=
  hstubbed.of_same (fun c hc => entered_outside (hclear.vectors c hc))
    (entered_outside hclear.stub)

/-! ## Back from the stub -/

theorem flags_returned (flags : U32) :
    (setMask (setMask flags Flags.IF false) Flags.TF false &&& 0xFFFF0000#32) |||
      (flags.setWidth 16).setWidth 32 = flags := by
  rw [and_setMask_of_disjoint _ (by decide), and_setMask_of_disjoint _ (by decide)]
  exact setHalf_half flags

/-- The general registers, the segments and the flags are the caller's again. -/
theorem returned_entered (core : Core) (segment offset : U16) :
    Regs.returned ((core.entered.cpu.regs.setSeg .CS segment).jumpTo offset) core.cpu.regs =
      { core.cpu.regs with ip := (core.cpu.regs.ip.setWidth 16).setWidth 32 } := by
  apply Regs.ext
  · have hgp : ((core.cpu.regs.set16 .SP (core.cpu.regs.get16 .SP - 6)).set16 .SP
        (core.cpu.regs.get16 .SP)).gp = core.cpu.regs.gp := by
      rw [Regs.set16_set16, Regs.set16_get16]
    exact hgp
  · have hseg : ((core.cpu.regs.setSeg .CS segment).setSeg .CS (core.cpu.regs.getSeg .CS)).seg =
        core.cpu.regs.seg := by
      unfold Regs.setSeg Regs.getSeg
      rw [Function.update_idem, Function.update_eq_self]
    exact hseg
  · rfl
  · exact flags_returned core.cpu.regs.flags

theorem vectored_returns (core : Core) (num : U8) :
    ((core.vectored num).atRound 0).left =
      ((core.vectored num).atRound 0).setRegs
        { core.cpu.regs with ip := (core.cpu.regs.ip.setWidth 16).setWidth 32 } := by
  have hkept : FrameKept core ((core.vectored num).atRound 0) := by
    constructor
    · rfl
    · exact entered_sp core
    · intro n hn
      rfl
  rw [left_of_frameKept hkept]
  have hregs := returned_entered core (core.entered.bus.mem.getIvt num).1
    (core.entered.bus.mem.getIvt num).2
  exact congrArg (((core.vectored num).atRound 0).setRegs) hregs

/-! ## The block at the stub -/

theorem freshCode_of_iret
    {core : Core} (hiret : core.bus.mem.readU8 (JitRuntime.physIp core.cpu.regs) = 0xCF) :
    freshCode core = some ⟨[.leave 0]⟩ := by
  unfold freshCode translateBlock blockLimit translateFrom
  rw [hiret]
  rfl

/-- Nothing but a request to interpret is ever cached for the stub. -/
theorem cached_at_stub
    {start rt : Runtime H} {past : List (Runtime H)}
    (hempty : start.jit.cache = fun _ => none) (hrun : Run start past rt)
    (hiret : ∀ old ∈ past, old.bus.mem.readU8 stubPhys = 0xCF) :
    ∀ block, rt.jit.cache stubPhys = some block → block = ⟨[.leave 0]⟩ := by
  intro block hblock
  rcases (backed_of_run hempty hrun).entries _ _ hblock with ⟨old, hold, hkey, hfresh⟩
  have hbyte := hiret old hold.1
  rw [← hkey] at hbyte
  rw [freshCode_of_iret hbyte] at hfresh
  exact (Option.some.inj hfresh).symm

/-- The machine is in front of the IRET of the stub, and is going on. -/
structure AtStub (rt : Runtime H) : Prop where
  executes : Executes rt
  place : JitRuntime.physIp rt.cpu.regs = stubPhys
  iret : rt.bus.mem.readU8 stubPhys = 0xCF
  cached : ∀ block, rt.jit.cache stubPhys = some block → block = ⟨[.leave 0]⟩

theorem AtStub.jit {rt : Runtime H} (hat : AtStub rt) :
    ∃ jit, jitExecute rt = .ok (.proceed, { rt with jit := jit }) := by
  have hiret := hat.iret
  rw [← hat.place] at hiret
  have hexecute : ∃ jit, rt.jit.execute rt.bus rt.cpu.regs =
      .ok (.proceed, jit, rt.bus, rt.cpu.regs) := by
    cases hcache : rt.jit.cache (JitRuntime.physIp rt.cpu.regs) with
    | some block =>
        have hblock := hcache
        rw [hat.place] at hblock
        rw [execute_of_cached hcache, hat.cached block hblock]
        exact ⟨_, rfl⟩
    | none =>
        rw [@execute_of_fresh rt.jit rt.toCore _ hcache (freshCode_of_iret hiret)]
        exact ⟨_, rfl⟩
  rcases hexecute with ⟨jit, hexecute⟩
  refine ⟨jit, ?_⟩
  unfold jitExecute
  rw [hexecute]

theorem AtStub.step {rt : Runtime H} (hat : AtStub rt) :
    ∃ jit, step rt = .ok (.ok .proceed,
      { rt with jit := jit, toCore := (rt.toCore.atRound 0).left.counted }) := by
  rcases hat.jit with ⟨jit, hjit⟩
  have hbyte : rt.toCore.byteAt 0 = 0xCF := by
    have hiret := hat.iret
    rw [← hat.place] at hiret
    exact hiret
  have hopcode : OpcodeAt rt.toCore 0 := by
    constructor
    · intro j hj
      omega
    · rw [hbyte]
      decide
  have hdispatch : dispatch (rt.toCore.byteAt 0) (rt.toCore.atRound 0) =
      .ok (.proceed, (rt.toCore.atRound 0).left) := by
    rw [hbyte]
    exact iret_apply _
  have hone := executeOne_of_dispatch hat.executes.1 hopcode hdispatch
  refine ⟨jit, ?_⟩
  rw [step_interprets hat.executes hjit]
  exact @interpretStep_proceeds _ { rt with jit := jit } _ hone

/-! ## Raised and returned -/

/-- Where the machine goes on: with the low half of IP, one more instruction on
the counter, and the frame left below SP. -/
structure Resumed (next last : Runtime H) : Prop where
  regs : last.cpu.regs =
    { next.cpu.regs with ip := (next.cpu.regs.ip.setWidth 16).setWidth 32 }
  running : last.cpu.halted = false
  counter : last.cpu.instructionsExecuted = next.cpu.instructionsExecuted + 1
  mem : ∀ c, ¬ FrameCell next.cpu.regs c → last.bus.mem.data c = next.bus.mem.data c
  devices : { last.bus with mem := next.bus.mem } = next.bus
  files : last.dos = next.dos
  batch : last.batch = next.batch
  stubbed : Stubbed last.bus.mem

/-- The block or the interpreter comes to an interrupt without a handler, and
what it leaves is a machine with its vectors at the stub. -/
structure Unhandled (rt : Runtime H) (num : U8) (next : Runtime H) : Prop where
  executes : Executes rt
  raised : executeNext rt = .ok (.interrupt num, next)
  vector : (nativeHandler num : Option (Handler H Unit)) = none
  stubbed : Stubbed next.bus.mem
  clear : ClearOfStub next.cpu.regs

theorem Unhandled.running {rt next : Runtime H} {num : U8} (hraised : Unhandled rt num next) :
    next.cpu.halted = false :=
  (executeNext_halted hraised.raised (by simp)).trans hraised.executes.1

theorem Unhandled.step {rt next : Runtime H} {num : U8} (hraised : Unhandled rt num next) :
    step rt = .ok (.ok .proceed, { next with toCore := next.toCore.vectored num }) := by
  rw [step_of_executes hraised.executes, bind_ok hraised.raised]
  exact handleStepResult_interrupt (serviceInterrupt_vectored hraised.vector)

theorem Unhandled.atStub
    {start rt next : Runtime H} {past : List (Runtime H)} {num : U8}
    (hraised : Unhandled rt num next) (hempty : start.jit.cache = fun _ => none)
    (hrun : Run start past rt) (hiret : ∀ old ∈ rt :: past, old.bus.mem.readU8 stubPhys = 0xCF)
    (hlimit : limitReached next = false) :
    AtStub { next with toCore := next.toCore.vectored num } := by
  have hstubbed := hraised.stubbed.entered hraised.clear
  constructor
  · exact ⟨hraised.running, hlimit⟩
  · change Memory.phys ((_ : Regs).getSeg .CS) _ = stubPhys
    unfold Core.vectored
    rw [hstubbed.vector num]
    rfl
  · exact hstubbed.iret
  · exact cached_at_stub hempty (hrun.step hraised.step) hiret

theorem unhandled_returns
    {start rt next : Runtime H} {past : List (Runtime H)} {num : U8} (hstart : PoweredOn start)
    (hrun : Run start past rt) (hiret : ∀ old ∈ rt :: past, old.bus.mem.readU8 stubPhys = 0xCF)
    (hraised : Unhandled rt num next) (hlimit : limitReached next = false) :
    ∃ mid last, step rt = .ok (.ok .proceed, mid) ∧ step mid = .ok (.ok .proceed, last) ∧
      Resumed next last := by
  rcases (hraised.atStub hstart.cache hrun hiret hlimit).step with ⟨jit, hlast⟩
  refine ⟨_, _, hraised.step, hlast, ?_⟩
  rw [vectored_returns]
  constructor
  · rfl
  · exact hraised.running
  · rfl
  · intro c hc
    exact entered_outside hc
  · rfl
  · rfl
  · rfl
  · exact hraised.stubbed.entered hraised.clear

/-! ## A boot sector with an INT -/

/-- A machine whose boot sector starts with `INT 40h`. -/
def intRuntime : Runtime HostFiles.none where
  cpu := { Interpreter.new with regs := Regs.new.setBoot }
  bus :=
    { Bus.new none (fun _ => 0) with
      mem := (installStub Memory.new).loadBytes 0x7C00 [0xCD, 0x40] }
  dos := DosRuntime.new
  jit := ⟨fun _ => none, fun _ => 0⟩
  maxInstructions := 0
  batchQueue := []
  currentBatchIndex := 0

theorem intRuntime_poweredOn : PoweredOn intRuntime where
  core := ⟨rfl, rfl, (by decide : Regs.new.setBoot.ip.toNat < 2 ^ 16),
    (by decide : Regs.new.setBoot.reserved = true)⟩
  cache := rfl
  handles := rfl
  index := rfl
  batch := fun hqueue => absurd rfl hqueue
  budget := fun hlimit => absurd hlimit (Nat.lt_irrefl 0)

theorem intRuntime_stubbed : Stubbed intRuntime.bus.mem :=
  (installStub_stubbed Memory.new).afterBytes (by decide) (by decide)

/-- What the block leaves in the registers. -/
def intRegs : Regs := Regs.new.setBoot.storeWord 24 0x7C02

def intRaised : Runtime HostFiles.none :=
  { intRuntime with
    cpu := { intRuntime.cpu with regs := intRegs }
    jit := intRuntime.jit.insert 0x7C00 ⟨[.movWord 24 0x7C02, .leave 164]⟩ }

theorem intRegs_frame : ∀ n ∈ ([2, 4, 6] : List U16),
    (stackCell intRegs (intRegs.get16 .SP - n)).toNat / 0x100 = 0x7B ∧
      (stackCell intRegs (intRegs.get16 .SP - n) + 1).toNat / 0x100 = 0x7B := by
  rw [forall_frame]
  decide +kernel

theorem intRegs_page {c : Cell} (hframe : FrameCell intRegs c) : c.toNat / 0x100 = 0x7B := by
  rcases hframe with ⟨n, hn, rfl | rfl⟩
  · exact (intRegs_frame n hn).1
  · exact (intRegs_frame n hn).2

theorem intRegs_clear : ClearOfStub intRegs := by
  constructor
  · intro c hc hframe
    have hpage := intRegs_page hframe
    omega
  · intro hframe
    have hpage := intRegs_page hframe
    rw [stubPhys_toNat] at hpage
    omega

theorem intRuntime_unhandled : Unhandled intRuntime 0x40 intRaised where
  executes := ⟨rfl, rfl⟩
  raised := by
    have hfresh : freshCode intRuntime.toCore =
        some ⟨[.movWord 24 0x7C02, .leave 164]⟩ := by
      decide +kernel
    have hjit : jitExecute intRuntime = .ok (.interrupt 0x40, intRaised) := by
      unfold jitExecute
      rw [@execute_of_fresh intRuntime.jit intRuntime.toCore _ rfl hfresh]
      rfl
    unfold executeNext
    rw [bind_ok hjit]
    rfl
  vector := rfl
  stubbed := intRuntime_stubbed
  clear := intRegs_clear

theorem unhandled_returns_int :
    ∃ mid last, step intRuntime = .ok (.ok .proceed, mid) ∧
      step mid = .ok (.ok .proceed, last) ∧ Resumed intRaised last := by
  apply unhandled_returns intRuntime_poweredOn .start ?_ intRuntime_unhandled rfl
  intro old hold
  rw [List.mem_singleton.mp hold]
  exact intRuntime_stubbed.iret

end Kita98
