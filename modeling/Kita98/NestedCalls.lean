import Kita98.BlockRuns
import Kita98.CallFrames
import Kita98.HaltLatch
import Kita98.MachineTrace

/-!
# Well-nested calls

Between calls and returns the program may do as it likes, as long as it keeps
SS and the words of the frames.  The frames then lie below one another, and a
return that is reached with SP at a frame resumes behind its call, unless the
call is an INT that a translated block took: IP is then still at the block, and not
behind the INT in memory.
-/

namespace Kita98

open WordBits Kita98.Core Exec

variable {H : HostFiles}

/-! ## Returns -/

/-- RET, RETF and IRET. -/
def CallForm.returnOpcode : CallForm → U8
  | .near => 0xC3
  | .far => 0xCB
  | .interrupt => 0xCF

/-- The instruction at CS:IP is the return of this form. -/
def ReturnAt (core : Core) (form : CallForm) : Prop :=
  ∃ k, OpcodeAt core k ∧ core.byteAt k = form.returnOpcode

/-- The `i`-th word from the top of the stack. -/
def Core.topWord (core : Core) (i : ℕ) : U16 :=
  core.stackWord core.cpu.regs (core.cpu.regs.get16 .SP + BitVec.ofNat 16 (2 * i))

/-- The words on top of the stack have been popped to IP, CS and FLAGS, as far
as the form has them. -/
structure Popped (form : CallForm) (core next : Core) : Prop where
  ss : next.cpu.regs.getSeg .SS = core.cpu.regs.getSeg .SS
  sp : next.cpu.regs.get16 .SP =
    core.cpu.regs.get16 .SP + BitVec.ofNat 16 (2 * form.count)
  data : next.bus.mem.data = core.bus.mem.data
  ip : next.cpu.regs.ip = (core.topWord 0).setWidth 32
  cs : form ≠ .near → next.cpu.regs.getSeg .CS = core.topWord 1
  flags : form = .interrupt → next.cpu.regs.flags.setWidth 16 = core.topWord 2

def Core.dropWord (core : Core) : Core :=
  core.setRegs (core.cpu.regs.set16 .SP (core.cpu.regs.get16 .SP + 2))

theorem dropWord_sp (core : Core) :
    core.dropWord.cpu.regs.get16 .SP = core.cpu.regs.get16 .SP + 2 :=
  Regs.get16_set16_self _ _ _

theorem topWord_dropWord (core : Core) (i : ℕ) : core.dropWord.topWord i = core.topWord (i + 1) := by
  have hoff : core.dropWord.cpu.regs.get16 .SP + BitVec.ofNat 16 (2 * i) =
      core.cpu.regs.get16 .SP + BitVec.ofNat 16 (2 * (i + 1)) := by
    rw [dropWord_sp]
    bv_omega
  unfold Core.topWord
  rw [hoff]
  rfl

theorem pop16_apply (core : Core) : pop16 core = .ok (core.topWord 0, core.dropWord) := by
  have hword : core.bus.mem.segReadU16 (core.cpu.regs.getSeg .SS)
      ((core.cpu.regs.get16 .SP).setWidth 32) = core.topWord 0 := by
    unfold Core.topWord
    rw [segReadU16_stack, Nat.mul_zero, BitVec.add_zero]
  unfold pop16
  rw [← hword]
  rfl

theorem setFlags16_low (regs : Regs) (value : U16) :
    (regs.setFlags16 value).flags.setWidth 16 = value := by
  have hmask : (0xFFFF0000#32).setWidth 16 = 0#16 := by decide
  unfold Regs.setFlags16
  rw [BitVec.setWidth_or, BitVec.setWidth_and, hmask, BitVec.and_zero, BitVec.zero_or,
    BitVec.setWidth_setWidth_of_le _ (by decide), BitVec.setWidth_eq]

theorem retNear_popped (core : Core) :
    ∃ next, retNear core = .ok (.proceed, next) ∧ Popped .near core next := by
  unfold retNear
  rw [bind_ok (pop16_apply core)]
  refine ⟨_, rfl, ?_⟩
  constructor
  · rfl
  · exact dropWord_sp core
  · rfl
  · rfl
  · simp
  · simp

theorem retFar_popped (core : Core) :
    ∃ next, retFar core = .ok (.proceed, next) ∧ Popped .far core next := by
  have hsp : core.dropWord.dropWord.cpu.regs.get16 .SP =
      core.cpu.regs.get16 .SP + BitVec.ofNat 16 (2 * CallForm.far.count) := by
    rw [dropWord_sp, dropWord_sp, BitVec.add_assoc]
    rfl
  unfold retFar
  rw [bind_ok (pop16_apply core), bind_ok (pop16_apply _)]
  refine ⟨_, rfl, ?_⟩
  constructor
  · rfl
  · exact hsp
  · rfl
  · rfl
  · intro hform
    exact topWord_dropWord core 0
  · simp

theorem iret_popped (core : Core) :
    ∃ next, iret core = .ok (.proceed, next) ∧ Popped .interrupt core next := by
  have hsp : core.dropWord.dropWord.dropWord.cpu.regs.get16 .SP =
      core.cpu.regs.get16 .SP + BitVec.ofNat 16 (2 * CallForm.interrupt.count) := by
    rw [dropWord_sp, dropWord_sp, dropWord_sp, BitVec.add_assoc, BitVec.add_assoc]
    rfl
  unfold iret
  rw [bind_ok (pop16_apply core), bind_ok (pop16_apply _), bind_ok (pop16_apply _)]
  refine ⟨_, rfl, ?_⟩
  constructor
  · rfl
  · exact hsp
  · rfl
  · rfl
  · intro hform
    exact topWord_dropWord core 0
  · intro hform
    have hthird : core.dropWord.dropWord.topWord 0 = core.topWord 2 := by
      rw [topWord_dropWord, topWord_dropWord]
    rw [← hthird]
    exact setFlags16_low _ _

theorem interpretStep_return
    {rt : Runtime H} {form : CallForm} (hrunning : rt.cpu.halted = false)
    (hreturn : ReturnAt rt.toCore form) :
    ∃ rt', interpretStep rt = .ok (.ok .proceed, rt') ∧ Popped form rt.toCore rt'.toCore := by
  rcases hreturn with ⟨k, hopcode, hbyte⟩
  have hdispatch : ∃ next, dispatch (rt.toCore.byteAt k) (rt.toCore.atRound k) =
      .ok (.proceed, next) ∧ Popped form (rt.toCore.atRound k) next := by
    rw [hbyte]
    cases form with
    | near => exact retNear_popped _
    | far => exact retFar_popped _
    | interrupt => exact iret_popped _
  rcases hdispatch with ⟨next, hrun, hpopped⟩
  have hone := executeOne_of_dispatch hrunning hopcode hrun
  refine ⟨_, interpretStep_proceeds hone, ?_⟩
  exact ⟨hpopped.ss, hpopped.sp, hpopped.data, hpopped.ip, hpopped.cs, hpopped.flags⟩

/-! ## Calls -/

/-- The bytes from CS:IP to the end of the INT that the code in memory leads to,
within so many instructions. -/
def Core.toIntEnd : ℕ → Core → Option ℕ
  | 0, _ => none
  | fuel + 1, core =>
      match core.guestInstr with
      | .inl instr => (toIntEnd fuel (core.skip instr.bytes)).map (instr.bytes + ·)
      | .inr (.int _) => some 2
      | .inr _ => none

/-- The offset behind that INT. -/
def Core.behindInt (core : Core) : Option U16 :=
  (core.toIntEnd blockLimit).map fun n => (skipIp n core.cpu.regs.ip).setWidth 16

theorem toIntEnd_bounds {fuel n : ℕ} {core : Core} (hend : core.toIntEnd fuel = some n) :
    0 < n ∧ n ≤ 5 * fuel := by
  induction fuel generalizing core n with
  | zero => cases hend
  | succ fuel ih =>
      unfold Core.toIntEnd at hend
      split at hend
      · rename_i instr hinstr
        rcases Option.map_eq_some_iff.mp hend with ⟨rest, hrest, rfl⟩
        have hbytes : instr.bytes ≤ 5 := by
          cases instr <;> simp [BodyInstr.bytes]
        have hbounds := ih hrest
        omega
      · cases hend
        omega
      · cases hend

/-- The INT ends further on than the code begins. -/
theorem behindInt_ne (core : Core) :
    core.behindInt ≠ some (core.cpu.regs.ip.setWidth 16) := by
  intro hsame
  rcases Option.map_eq_some_iff.mp hsame with ⟨n, hend, hip⟩
  have hbounds := toIntEnd_bounds hend
  have hlimit : blockLimit = 50 := rfl
  have hlow := congrArg BitVec.toNat hip
  cases n with
  | zero => omega
  | succ n =>
      rw [BitVec.toNat_setWidth, BitVec.toNat_setWidth, skipIp_toNat] at hlow
      omega

/-- What makes a call: `execute_one`, with an instruction of this length, or a
translated block, with the offset behind the INT in memory. -/
inductive Engine where
  | interpreter (length : ℕ)
  | block (next : Option U16)

structure CallFrame (base : Regs) where
  form : CallForm
  engine : Engine
  /-- The state in front of an interpreted call, or behind the code of a block. -/
  caller : Core
  /-- Bytes on the stack before the call. -/
  above : ℕ
  sp : caller.cpu.regs.get16 .SP = base.get16 .SP - BitVec.ofNat 16 above

namespace CallFrame

variable {base : Regs} (frame : CallFrame base)

/-- Offset of the instruction that follows the call in memory. -/
def next : Option U16 :=
  match frame.engine with
  | .interpreter length => some ((skipIp length frame.caller.cpu.regs.ip).setWidth 16)
  | .block next => next

/-- The bytes that IP has moved on when the return address is pushed; no
emitted code stores to IP. -/
def fetched : ℕ :=
  match frame.engine with
  | .interpreter length => length
  | .block _ => 0

def onStack : WordStack.Frame where
  above := frame.above
  words := frame.form.saved frame.caller.cpu.regs frame.fetched

/-- `execute_one` made the call. -/
def Interpreted : Prop := ∃ length, frame.engine = .interpreter length

/-- A translated INT does not find in IP the offset behind it. -/
def Misses : Prop :=
  ∀ next, frame.engine = .block next → next ≠ some (frame.caller.cpu.regs.ip.setWidth 16)

end CallFrame

/-- The block at CS:IP was compiled from operations that end in `INT num`, and leaves
the state `mid`. -/
structure BlockInterrupt (rt : Runtime H) (num : U8) (mid : Runtime H) : Prop where
  ends : ∃ ops, blockAt rt = some (compileBlock (ops ++ [.exit (.interrupt num)]))
  runs : jitExecute rt = .ok (.interrupt num, mid)

/-- The frame's call leads from one state to the other. -/
inductive Calls {base : Regs} (frame : CallFrame base) : Runtime H → Runtime H → Prop
  | interpreted {length : ℕ} {rt rt' : Runtime H} (hengine : frame.engine = .interpreter length)
      (hrunning : rt.cpu.halted = false) (hcall : CallAt H rt.toCore frame.form length)
      (hstep : interpretStep rt = .ok (.ok .proceed, rt')) : Calls frame rt rt'
  | translated {num : U8} {rt mid rt' : Runtime H}
      (hengine : frame.engine = .block rt.toCore.behindInt) (hform : frame.form = .interrupt)
      (hblock : BlockInterrupt rt num mid)
      (hvector : (nativeHandler num : Option (Handler H Unit)) = none)
      (hstep : handleStepResult (.interrupt num) mid = .ok (.ok .proceed, rt')) :
      Calls frame mid rt'

/-- No emitted code stores to IP. -/
theorem BlockInterrupt.ip {rt mid : Runtime H} {num : U8} (hblock : BlockInterrupt rt num mid) :
    mid.cpu.regs.ip = rt.cpu.regs.ip := by
  rcases hblock with ⟨⟨ops, hops⟩, hruns⟩
  have hexecute : ∃ jit : JitRuntime, rt.jit.execute rt.bus rt.cpu.regs =
      .ok (jit.runBlock (compileBlock (ops ++ [.exit (.interrupt num)])) rt.bus rt.cpu.regs) := by
    unfold blockAt at hops
    cases hcache : rt.jit.cache (JitRuntime.physIp rt.cpu.regs) with
    | some block =>
        rw [hcache] at hops
        cases hops
        exact ⟨_, execute_of_cached hcache⟩
    | none =>
        rw [hcache] at hops
        exact ⟨_, @execute_of_fresh rt.jit rt.toCore _ hcache hops⟩
  rcases hexecute with ⟨jit, hexecute⟩
  have hregs := congrArg Prod.snd (runBlock_bus_regs jit
    (compileBlock (ops ++ [.exit (.interrupt num)])) rt.bus rt.cpu.regs)
  unfold jitExecute at hruns
  rw [hexecute] at hruns
  generalize jit.runBlock _ rt.bus rt.cpu.regs = run at hruns hregs
  rcases run with ⟨result, jit', bus, regs⟩
  cases hruns
  exact (congrArg Regs.ip hregs).trans (runOps_ip_flags _ _ _).1

theorem Calls.misses {base : Regs} {frame : CallFrame base} {rt rt' : Runtime H}
    (hcalls : Calls frame rt rt') (hcaller : frame.caller = rt.toCore) : frame.Misses := by
  intro next hengine
  cases hcalls with
  | interpreted hengine' =>
      rw [hengine'] at hengine
      cases hengine
  | translated hengine' hform hblock hvector hstep =>
      rw [hengine'] at hengine
      cases hengine
      rw [hcaller, hblock.ip]
      exact behindInt_ne _

/-! `step` runs a block and then one of these two. -/

theorem step_interprets {rt mid : Runtime H} (hexecutes : Executes rt)
    (hblock : jitExecute rt = .ok (.proceed, mid)) : step rt = interpretStep mid := by
  rw [step_of_executes hexecutes]
  unfold executeNext interpretStep
  rw [bind_apply, bind_ok hblock, bind_apply]
  rfl

theorem step_services {rt mid : Runtime H} {num : U8} (hexecutes : Executes rt)
    (hblock : jitExecute rt = .ok (.interrupt num, mid)) :
    step rt = handleStepResult (.interrupt num) mid := by
  rw [step_of_executes hexecutes]
  unfold executeNext
  rw [bind_apply, bind_ok hblock]
  rfl

theorem Calls.pushed {base : Regs} {frame : CallFrame base} {rt rt' : Runtime H}
    (hcalls : Calls frame rt rt') (hcaller : frame.caller = rt.toCore) :
    Pushed rt.toCore frame.onStack.words rt'.toCore := by
  cases hcalls with
  | interpreted hengine hrunning hcall hstep =>
      rcases interpretStep_call hrunning hcall with ⟨called, hrun, hpushed⟩
      rw [hstep] at hrun
      cases hrun
      unfold CallFrame.onStack CallFrame.fetched
      rw [hengine, hcaller]
      exact hpushed
  | translated hengine hform hblock hvector hstep =>
      rcases @serviceInterrupt_pushed _ rt.toMachine _ hvector with ⟨m', hservice, hpushed⟩
      rw [handleStepResult_interrupt hservice] at hstep
      cases hstep
      unfold CallFrame.onStack CallFrame.fetched
      rw [hengine, hform, hcaller]
      exact hpushed

/-! ## Runs -/

/-- The return of the frame's form, reached with SP at the frame. -/
structure MatchingReturn {base : Regs} (frame : CallFrame base) (rt : Runtime H) : Prop where
  running : rt.cpu.halted = false
  sp : rt.cpu.regs.get16 .SP = base.get16 .SP - BitVec.ofNat 16 frame.onStack.mark
  opcode : ReturnAt rt.toCore frame.form

/-- Runs with the calls that have not returned, innermost first.  The frames
take up at most 64 KiB; what else happens keeps SS and their words. -/
inductive NestedRun (start : Runtime H) : List (CallFrame start.cpu.regs) → Runtime H → Prop
  | start : NestedRun start [] start
  | call {frame : CallFrame start.cpu.regs} {live : List (CallFrame start.cpu.regs)}
      {rt rt' : Runtime H} (hrun : NestedRun start live rt) (hcaller : frame.caller = rt.toCore)
      (hbelow : WordStack.depth (live.map CallFrame.onStack) ≤ frame.above)
      (hfits : frame.onStack.mark ≤ 2 ^ 16) (hcalls : Calls frame rt rt') :
      NestedRun start (frame :: live) rt'
  | other {live : List (CallFrame start.cpu.regs)} {rt rt' : Runtime H}
      (hrun : NestedRun start live rt)
      (hss : rt'.cpu.regs.getSeg .SS = rt.cpu.regs.getSeg .SS)
      (hkept : ∀ frame ∈ live,
        frame.onStack.Kept (stackAddr start.cpu.regs) rt.bus.mem.data rt'.bus.mem.data) :
      NestedRun start live rt'
  | leave {frame : CallFrame start.cpu.regs} {live : List (CallFrame start.cpu.regs)}
      {rt rt' : Runtime H} (hrun : NestedRun start (frame :: live) rt)
      (hmatch : MatchingReturn frame rt) (hstep : interpretStep rt = .ok (.ok .proceed, rt')) :
      NestedRun start live rt'

/-- The stack segment is the same, and every frame is in it. -/
structure FramesIntact (start : Runtime H) (live : List (CallFrame start.cpu.regs))
    (rt : Runtime H) : Prop where
  ss : rt.cpu.regs.getSeg .SS = start.cpu.regs.getSeg .SS
  misses : ∀ frame ∈ live, frame.Misses
  stacked : WordStack.Stacked (stackAddr start.cpu.regs) (2 ^ 16) rt.bus.mem.data
    (live.map CallFrame.onStack)

section Steps

variable {start rt rt' : Runtime H} {frame : CallFrame start.cpu.regs}
  {live : List (CallFrame start.cpu.regs)}

theorem stackAddr_shift (hss : rt.cpu.regs.getSeg .SS = start.cpu.regs.getSeg .SS)
    {above : ℕ} (hsp : rt.cpu.regs.get16 .SP = start.cpu.regs.get16 .SP - BitVec.ofNat 16 above) :
    stackAddr rt.cpu.regs = fun d => stackAddr start.cpu.regs (above + d) := by
  funext d
  have hoff : start.cpu.regs.get16 .SP - BitVec.ofNat 16 above - BitVec.ofNat 16 d =
      start.cpu.regs.get16 .SP - BitVec.ofNat 16 (above + d) := by
    rw [BitVec.ofNat_add]
    bv_omega
  unfold stackAddr stackCell
  rw [hss, hsp, hoff]

theorem FramesIntact.call (hintact : FramesIntact start live rt)
    (hcaller : frame.caller = rt.toCore)
    (hbelow : WordStack.depth (live.map CallFrame.onStack) ≤ frame.above)
    (hfits : frame.onStack.mark ≤ 2 ^ 16) (hcalls : Calls frame rt rt') :
    FramesIntact start (frame :: live) rt' := by
  have hpushed := hcalls.pushed hcaller
  have hsp := frame.sp
  rw [hcaller] at hsp
  have hdata := hpushed.data
  rw [stackAddr_shift hintact.ss hsp, WordStack.push_shift] at hdata
  constructor
  · exact hpushed.ss.trans hintact.ss
  · intro called hcalled
    rcases List.mem_cons.mp hcalled with rfl | hcalled
    · exact hcalls.misses hcaller
    · exact hintact.misses called hcalled
  · rw [hdata]
    exact hintact.stacked.push (stackAddr_spread _) hbelow hfits

theorem FramesIntact.leave (hintact : FramesIntact start (frame :: live) rt)
    (hmatch : MatchingReturn frame rt) (hstep : interpretStep rt = .ok (.ok .proceed, rt')) :
    FramesIntact start live rt' := by
  rcases interpretStep_return hmatch.running hmatch.opcode with ⟨returned, hrun, hpopped⟩
  rw [hstep] at hrun
  cases hrun
  constructor
  · exact hpopped.ss.trans hintact.ss
  · exact fun called hcalled => hintact.misses called (List.mem_cons_of_mem _ hcalled)
  · rw [hpopped.data]
    exact hintact.stacked.pop.2

theorem framesIntact_of_run (hrun : NestedRun start live rt) : FramesIntact start live rt := by
  induction hrun with
  | start => exact ⟨rfl, by simp, .nil⟩
  | call hrun hcaller hbelow hfits hcalls ih => exact ih.call hcaller hbelow hfits hcalls
  | other hrun hss hkept ih =>
      constructor
      · exact hss.trans ih.ss
      · exact ih.misses
      · apply ih.stacked.of_kept
        intro onStack hmem
        rcases List.mem_map.mp hmem with ⟨frame, hframe, rfl⟩
        exact hkept frame hframe
  | leave hrun hmatch hstep ih => exact ih.leave hmatch hstep

/-! ## Where a return goes -/

/-- The words on top of the stack are those of the frame, the last one first. -/
theorem topWord_of_intact (hintact : FramesIntact start (frame :: live) rt)
    (hmatch : MatchingReturn frame rt) {i : ℕ} {word : U16}
    (hword : frame.onStack.words.reverse[i]? = some word) : rt.toCore.topWord i = word := by
  rcases List.getElem?_eq_some_iff.mp hword with ⟨hi, hget⟩
  rw [List.length_reverse] at hi
  rw [List.getElem_reverse] at hget
  have hlies := hintact.stacked.pop.1 (frame.onStack.words.length - 1 - i) (by omega)
  have hoff : start.cpu.regs.get16 .SP - BitVec.ofNat 16 frame.onStack.mark +
      BitVec.ofNat 16 (2 * i) = start.cpu.regs.get16 .SP -
        BitVec.ofNat 16 (frame.onStack.above + 2 * (frame.onStack.words.length - 1 - i + 1)) := by
    have hmark : frame.onStack.mark =
        frame.onStack.above + 2 * (frame.onStack.words.length - 1 - i + 1) + 2 * i := by
      unfold WordStack.Frame.mark
      omega
    rw [hmark, BitVec.ofNat_add]
    bv_omega
  unfold Core.topWord Core.stackWord stackCell
  rw [hmatch.sp, hoff, hintact.ss]
  exact hlies.trans hget

/-- The instruction behind the call, with the registers that the form saves. -/
structure Resumes {base : Regs} (frame : CallFrame base) (regs : Regs) : Prop where
  ip : ∃ next, frame.next = some next ∧ regs.ip = next.setWidth 32
  sp : regs.get16 .SP = frame.caller.cpu.regs.get16 .SP
  cs : frame.form ≠ .near → regs.getSeg .CS = frame.caller.cpu.regs.getSeg .CS
  flags : frame.form = .interrupt →
    regs.flags.setWidth 16 = (frame.caller.cpu.regs.flags.setWidth 16 : U16)

/-- The return at CS:IP resumes behind the frame's call. -/
def ReturnsBehind {base : Regs} (frame : CallFrame base) (rt : Runtime H) : Prop :=
  ∃ rt', interpretStep rt = .ok (.ok .proceed, rt') ∧ Resumes frame rt'.cpu.regs

/-- The return address that was pushed is the right one. -/
theorem interpreted_iff {base : Regs} {frame : CallFrame base} (hmisses : frame.Misses) :
    frame.Interpreted ↔
      frame.next = some ((skipIp frame.fetched frame.caller.cpu.regs.ip).setWidth 16) := by
  unfold CallFrame.Interpreted CallFrame.fetched CallFrame.next
  cases hengine : frame.engine with
  | interpreter length => simp
  | block next =>
      have hnone : skipIp 0 frame.caller.cpu.regs.ip = frame.caller.cpu.regs.ip := rfl
      simp [hnone, hmisses next hengine]

theorem popped_resumes_iff (hintact : FramesIntact start (frame :: live) rt)
    (hmatch : MatchingReturn frame rt) (hpopped : Popped frame.form rt.toCore rt'.toCore) :
    Resumes frame rt'.cpu.regs ↔ frame.Interpreted := by
  have hip := hpopped.ip
  rw [topWord_of_intact hintact hmatch (frame.form.saved_next _ frame.fetched)] at hip
  rw [interpreted_iff (hintact.misses frame List.mem_cons_self)]
  constructor
  · intro hresumes
    rcases hresumes.ip with ⟨next, hnext, hwide⟩
    have hlow := congrArg (BitVec.setWidth 16) (hip.symm.trans hwide)
    rw [BitVec.setWidth_setWidth_of_le _ (by decide), BitVec.setWidth_eq,
      BitVec.setWidth_setWidth_of_le _ (by decide), BitVec.setWidth_eq] at hlow
    rw [hnext, ← hlow]
  · intro hsame
    constructor
    · exact ⟨_, hsame, hip⟩
    · have hmark : frame.onStack.mark = frame.above + 2 * frame.form.count := by
        unfold WordStack.Frame.mark CallFrame.onStack
        rw [CallForm.saved_length]
      rw [hpopped.sp, hmatch.sp, frame.sp, hmark, BitVec.ofNat_add]
      bv_omega
    · intro hform
      have hcs := topWord_of_intact hintact hmatch (CallForm.saved_cs hform _ frame.fetched)
      exact (hpopped.cs hform).trans hcs
    · intro hform
      have hflags := topWord_of_intact hintact hmatch
        (CallForm.saved_flags hform _ frame.fetched)
      exact (hpopped.flags hform).trans hflags

/-- In every well-nested run a return resumes behind its own call, but for an INT
that a translated block took. -/
theorem nested_calls_return_iff (hrun : NestedRun start (frame :: live) rt)
    (hmatch : MatchingReturn frame rt) : ReturnsBehind frame rt ↔ frame.Interpreted := by
  have hintact := framesIntact_of_run hrun
  rcases interpretStep_return hmatch.running hmatch.opcode with ⟨rt', hstep, hpopped⟩
  rw [← popped_resumes_iff hintact hmatch hpopped]
  constructor
  · rintro ⟨returned, hreturned, hresumes⟩
    rw [hstep] at hreturned
    cases hreturned
    exact hresumes
  · intro hresumes
    exact ⟨rt', hstep, hresumes⟩

end Steps

/-! ## A plain INT -/

/-- A machine at 0000:0000 with an `IRET` behind vector 40h. -/
def vectorRuntime (code : List U8) : Runtime HostFiles.none where
  cpu := Interpreter.new
  bus :=
    { Bus.new none (fun _ => 0) with
      mem := (Memory.new.loadBytes 0 code).loadBytes 0x100 [0x04, 0x01, 0x00, 0x00, 0xCF] }
  dos := DosRuntime.new
  jit := ⟨fun _ => none, fun _ => 0⟩
  maxInstructions := 0
  batchQueue := []
  currentBatchIndex := 0

theorem ok_of_map
    {ε α σ β : Type} {x : Except ε (α × σ)} (f : σ → β) {a : α} {b : β}
    (hmap : x.toOption.map (fun last => (last.1, f last.2)) = some (a, b)) :
    ∃ s, x = .ok (a, s) ∧ f s = b := by
  rcases exists_of_map _ hmap with ⟨last, hrun, hlast⟩
  rcases Prod.mk.inj hlast with ⟨rfl, hb⟩
  exact ⟨last.2, hrun, hb⟩

/-- What the return needs, and whether SP is six bytes down. -/
def atReturn (start rt : Runtime HostFiles.none) : Bool × U8 × Bool :=
  (rt.cpu.halted, rt.toCore.byteAt 0,
    rt.cpu.regs.get16 .SP == start.cpu.regs.get16 .SP - BitVec.ofNat 16 6)

def firstInterrupt (start : Runtime HostFiles.none) (engine : Engine) (caller : Core)
    (hsp : caller.cpu.regs.get16 .SP = start.cpu.regs.get16 .SP) :
    CallFrame start.cpu.regs where
  form := .interrupt
  engine := engine
  caller := caller
  above := 0
  sp := hsp.trans (BitVec.sub_zero _).symm

section FirstInterrupt

variable {start rt mid : Runtime HostFiles.none} {engine : Engine} {caller : Core}
  {hsp : caller.cpu.regs.get16 .SP = start.cpu.regs.get16 .SP}

theorem firstInterrupt_mark : (firstInterrupt start engine caller hsp).onStack.mark = 6 := by
  unfold WordStack.Frame.mark CallFrame.onStack
  rw [CallForm.saved_length]
  rfl

theorem firstInterrupt_run (hmid : NestedRun start [] mid) (hcaller : caller = mid.toCore)
    (hcalls : Calls (firstInterrupt start engine caller hsp) mid rt) :
    NestedRun start [firstInterrupt start engine caller hsp] rt := by
  refine .call hmid hcaller ?_ ?_ hcalls
  · exact Nat.le_refl 0
  · rw [firstInterrupt_mark]
    omega

theorem firstInterrupt_return (hat : atReturn start rt = (false, 0xCF, true)) :
    MatchingReturn (firstInterrupt start engine caller hsp) rt := by
  rcases Prod.mk.inj hat with ⟨hrunning, hrest⟩
  rcases Prod.mk.inj hrest with ⟨hbyte, hdown⟩
  have hopcode : OpcodeAt rt.toCore 0 := by
    constructor
    · intro j hj
      omega
    · rw [hbyte]
      decide
  constructor
  · exact hrunning
  · rw [firstInterrupt_mark]
    exact eq_of_beq hdown
  · exact ⟨0, hopcode, hbyte⟩

end FirstInterrupt

/-- Behind a prefix byte the interpreter executes the INT. -/
theorem nested_calls_return_prefixed :
    ∃ (frame : CallFrame (vectorRuntime [0x2E, 0xCD, 0x40]).cpu.regs)
      (rt : Runtime HostFiles.none),
      NestedRun (vectorRuntime [0x2E, 0xCD, 0x40]) [frame] rt ∧
        (ReturnsBehind frame rt ↔ frame.Interpreted) := by
  rcases ok_of_map (x := interpretStep (vectorRuntime [0x2E, 0xCD, 0x40]))
    (a := Except.ok .proceed) (b := (false, 0xCF, true))
    (atReturn (vectorRuntime [0x2E, 0xCD, 0x40])) (by decide +kernel) with ⟨rt, hstep, hat⟩
  have hopcode : OpcodeAt (vectorRuntime [0x2E, 0xCD, 0x40]).toCore 1 := by
    constructor
    · decide +kernel
    · decide +kernel
  have hcall : CallAt HostFiles.none (vectorRuntime [0x2E, 0xCD, 0x40]).toCore .interrupt 3 :=
    .int hopcode (by decide +kernel) rfl
  have hrun := @firstInterrupt_run _ _ _ (.interpreter 3) _ rfl .start rfl
    (.interpreted rfl rfl hcall hstep)
  exact ⟨_, rt, hrun, nested_calls_return_iff hrun (firstInterrupt_return hat)⟩

/-- What the block of a plain INT leaves. -/
def behindBlock (start mid : Runtime HostFiles.none) : Bool :=
  mid.cpu.regs.get16 .SP == start.cpu.regs.get16 .SP &&
    mid.cpu.regs.getSeg .SS == start.cpu.regs.getSeg .SS

/-- The translator takes the INT, and its return comes back to the INT itself. -/
theorem int_returns_to_itself :
    ∃ (frame : CallFrame (vectorRuntime [0xCD, 0x40]).cpu.regs) (rt : Runtime HostFiles.none),
      step (vectorRuntime [0xCD, 0x40]) = .ok (.ok .proceed, rt) ∧
        NestedRun (vectorRuntime [0xCD, 0x40]) [frame] rt ∧ MatchingReturn frame rt ∧
          frame.next = some 2 ∧ ¬ ReturnsBehind frame rt ∧
            ∃ rt', step rt = .ok (.ok .proceed, rt') ∧ rt'.cpu.regs.ip = 0 := by
  rcases ok_of_map (x := step (vectorRuntime [0xCD, 0x40]))
    (a := Except.ok .proceed) (b := ((false, 0xCF, true), some (.ok .proceed, 0)))
    (fun rt => (atReturn (vectorRuntime [0xCD, 0x40]) rt,
      (step rt).toOption.map fun last => (last.1, last.2.cpu.regs.ip)))
    (by decide +kernel) with ⟨rt, hstep, hfacts⟩
  rcases Prod.mk.inj hfacts with ⟨hat, hagain⟩
  rcases ok_of_map (x := jitExecute (vectorRuntime [0xCD, 0x40]))
    (a := StepResult.interrupt 0x40) (b := true)
    (behindBlock (vectorRuntime [0xCD, 0x40])) (by decide +kernel) with ⟨mid, hblock, hmid⟩
  have hends : blockAt (vectorRuntime [0xCD, 0x40]) =
      some (compileBlock ([.syncIp 2] ++ [.exit (.interrupt 0x40)])) := by
    decide +kernel
  have hnext : (vectorRuntime [0xCD, 0x40]).toCore.behindInt = some 2 := by
    decide +kernel
  unfold behindBlock at hmid
  rw [Bool.and_eq_true] at hmid
  rcases hmid with ⟨hsp, hss⟩
  have hserviced := (step_services ⟨rfl, rfl⟩ hblock).symm.trans hstep
  have hother : NestedRun (vectorRuntime [0xCD, 0x40]) [] mid :=
    .other .start (eq_of_beq hss) (by simp)
  have hrun := @firstInterrupt_run _ _ _ (.block _) _ (eq_of_beq hsp) hother rfl
    (.translated rfl rfl ⟨⟨_, hends⟩, hblock⟩ rfl hserviced)
  have hreturn := @firstInterrupt_return _ _
    (.block (vectorRuntime [0xCD, 0x40]).toCore.behindInt) mid.toCore (eq_of_beq hsp) hat
  refine ⟨_, rt, hstep, hrun, hreturn, hnext, ?_, ?_⟩
  · intro hbehind
    rcases (nested_calls_return_iff hrun hreturn).mp hbehind with ⟨length, hengine⟩
    cases hengine
  · exact ok_of_map (fun rt' : Runtime HostFiles.none => rt'.cpu.regs.ip) hagain

end Kita98
