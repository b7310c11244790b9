import Kita98.InstructionEnd
import Kita98.InterruptFrame

/-!
# Call frames

A call pushes the offset behind itself; a far call pushes CS before it, and an
interrupt through the vector table FLAGS before both.
-/

namespace Kita98

open WordBits Kita98.Core Exec

variable {H : HostFiles}

inductive CallForm where
  | near
  | far
  | interrupt
  deriving DecidableEq, Repr

namespace CallForm

/-- The words that a call of `length` bytes pushes, in this order. -/
def saved (form : CallForm) (regs : Regs) (length : ℕ) : List U16 :=
  match form with
  | near => [(skipIp length regs.ip).setWidth 16]
  | far => [regs.getSeg .CS, (skipIp length regs.ip).setWidth 16]
  | interrupt =>
      [regs.flags.setWidth 16, regs.getSeg .CS, (skipIp length regs.ip).setWidth 16]

def count : CallForm → ℕ
  | near => 1
  | far => 2
  | interrupt => 3

@[simp] theorem saved_length (form : CallForm) (regs : Regs) (length : ℕ) :
    (form.saved regs length).length = form.count := by
  cases form <;> rfl

/-! The last word comes first off the stack. -/

theorem saved_next (form : CallForm) (regs : Regs) (length : ℕ) :
    (form.saved regs length).reverse[0]? = some ((skipIp length regs.ip).setWidth 16) := by
  cases form <;> rfl

theorem saved_cs {form : CallForm} (hform : form ≠ near) (regs : Regs) (length : ℕ) :
    (form.saved regs length).reverse[1]? = some (regs.getSeg .CS) := by
  cases form with
  | near => contradiction
  | far => rfl
  | interrupt => rfl

theorem saved_flags {form : CallForm} (hform : form = interrupt) (regs : Regs) (length : ℕ) :
    (form.saved regs length).reverse[2]? = some (regs.flags.setWidth 16) := by
  rw [hform]
  rfl

end CallForm

/-! ## The calls -/

def Core.modrmAt (core : Core) (k : ℕ) : ModRm := ModRm.decode (core.byteAt (k + 1))

def Core.modrmLength (core : Core) (k : ℕ) : ℕ :=
  k + 2 + operandSize (core.prefixesAt k).address32 (core.modrmAt k) (core.byteAt (k + 2))

/-- The instruction at CS:IP is a call of this form and length.  An interrupt
without a native handler goes through the vector table. -/
inductive CallAt (H : HostFiles) (core : Core) : CallForm → ℕ → Prop
  | rel16 {k : ℕ} (hopcode : OpcodeAt core k) (hbyte : core.byteAt k = 0xE8) :
      CallAt H core .near (k + 3)
  | rm16 {k : ℕ} (hopcode : OpcodeAt core k) (hbyte : core.byteAt k = 0xFF)
      (hreg : (core.modrmAt k).reg = 2) : CallAt H core .near (core.modrmLength k)
  | farPtr {k : ℕ} (hopcode : OpcodeAt core k) (hbyte : core.byteAt k = 0x9A) :
      CallAt H core .far (k + 5)
  | farMem {k : ℕ} (hopcode : OpcodeAt core k) (hbyte : core.byteAt k = 0xFF)
      (hreg : (core.modrmAt k).reg = 3) (hmode : (core.modrmAt k).mode ≠ 3) :
      CallAt H core .far (core.modrmLength k)
  | int {k : ℕ} (hopcode : OpcodeAt core k) (hbyte : core.byteAt k = 0xCD)
      (hvector : (nativeHandler (core.byteAt (k + 1)) : Option (Handler H Unit)) = none) :
      CallAt H core .interrupt (k + 2)

/-! ## Pushing a frame -/

/-- The words have been pushed, and SS is the same. -/
structure Pushed (core : Core) (words : List U16) (next : Core) : Prop where
  ss : next.cpu.regs.getSeg .SS = core.cpu.regs.getSeg .SS
  sp : next.cpu.regs.get16 .SP = core.cpu.regs.get16 .SP - BitVec.ofNat 16 (2 * words.length)
  data : next.bus.mem.data =
    WordStack.push (stackAddr core.cpu.regs) core.bus.mem.data 0 words

def Core.pushedWord (core : Core) (word : U16) : Core :=
  (core.setRegs (core.cpu.regs.set16 .SP (core.cpu.regs.get16 .SP - 2))).setMem
    (core.bus.mem.segWriteU16 (core.cpu.regs.getSeg .SS)
      ((core.cpu.regs.get16 .SP - 2).setWidth 32) word)

theorem pushed_word (core : Core) (word : U16) : Pushed core [word] (core.pushedWord word) := by
  constructor
  · rfl
  · exact Regs.get16_set16_self _ _ _
  · have hmem : (core.pushedWord word).bus.mem =
        core.bus.mem.segWriteU16 (core.cpu.regs.getSeg .SS)
          ((core.cpu.regs.get16 .SP - 2).setWidth 32) word := rfl
    rw [hmem, Memory.segWriteU16, Memory.writeU16_data]
    rfl

theorem Pushed.word {core mid : Core} {words : List U16} (hpushed : Pushed core words mid)
    (word : U16) : Pushed core (words ++ [word]) (mid.pushedWord word) := by
  have hword := pushed_word mid word
  have hdeep : core.cpu.regs.get16 .SP - BitVec.ofNat 16 (2 * words.length) - BitVec.ofNat 16 2 =
      core.cpu.regs.get16 .SP - BitVec.ofNat 16 (0 + 2 * words.length + 2) := by
    bv_omega
  constructor
  · exact hword.ss.trans hpushed.ss
  · have hlength : 2 * (words ++ [word]).length = 0 + 2 * words.length + 2 := by
      rw [List.length_append, List.length_singleton]
      omega
    rw [hlength, ← hdeep, ← hpushed.sp]
    exact hword.sp
  · have hcell : stackAddr mid.cpu.regs (0 + 2) =
        stackAddr core.cpu.regs (0 + 2 * words.length + 2) := by
      unfold stackAddr stackCell
      rw [hpushed.ss, hpushed.sp, Nat.zero_add, hdeep]
    rw [hword.data, hpushed.data, WordStack.push_append, ← hcell]
    rfl

/-- Only SS, SP and the memory matter, before the words and behind them. -/
theorem Pushed.congr
    {core core' mid next : Core} {words : List U16} (hpushed : Pushed core' words mid)
    (hss' : core'.cpu.regs.getSeg .SS = core.cpu.regs.getSeg .SS)
    (hsp' : core'.cpu.regs.get16 .SP = core.cpu.regs.get16 .SP)
    (hdata' : core'.bus.mem.data = core.bus.mem.data)
    (hss : next.cpu.regs.getSeg .SS = mid.cpu.regs.getSeg .SS)
    (hsp : next.cpu.regs.get16 .SP = mid.cpu.regs.get16 .SP)
    (hdata : next.bus.mem.data = mid.bus.mem.data) : Pushed core words next := by
  have hcells : stackAddr core'.cpu.regs = stackAddr core.cpu.regs := by
    funext d
    unfold stackAddr stackCell
    rw [hss', hsp']
  constructor
  · rw [hss, hpushed.ss, hss']
  · rw [hsp, hpushed.sp, hsp']
  · rw [hdata, hpushed.data, hcells, hdata']

/-! ## What the calls do -/

theorem callRel16_pushed (core : Core) :
    ∃ next, callRel16 core = .ok (.proceed, next) ∧
      Pushed core (CallForm.near.saved core.cpu.regs 2) next := by
  have hpushed := pushed_word (core.skip 2) ((skipIp 2 core.cpu.regs.ip).setWidth 16)
  exact ⟨_, rfl, hpushed.congr rfl rfl rfl rfl rfl rfl⟩

theorem callFarPtr_pushed (core : Core) :
    ∃ next, callFarPtr core = .ok (.proceed, next) ∧
      Pushed core (CallForm.far.saved core.cpu.regs 4) next := by
  have hcs := pushed_word (core.skip 4) (core.cpu.regs.getSeg .CS)
  have hpushed := hcs.word ((skipIp 4 core.cpu.regs.ip).setWidth 16)
  exact ⟨_, rfl, hpushed.congr rfl rfl rfl rfl rfl rfl⟩

section Operand

variable (modrm : ModRm) (core : Core)

/-- The bytes of the operand that follow the ModRM byte. -/
def Core.operandBytes : ℕ :=
  operandSize core.cpu.prefixes.address32 modrm (core.codeByte core.cpu.regs.ip)

theorem callRm16_pushed :
    ∃ next, callRm16 modrm core = .ok (.proceed, next) ∧
      Pushed core (CallForm.near.saved core.cpu.regs (core.operandBytes modrm)) next := by
  rcases readModrmU16_size modrm core with ⟨target, hread⟩
  have hpushed := pushed_word (core.skip (core.operandBytes modrm))
    ((skipIp (core.operandBytes modrm) core.cpu.regs.ip).setWidth 16)
  unfold callRm16
  rw [bind_ok hread]
  exact ⟨_, rfl, hpushed.congr rfl rfl rfl rfl rfl rfl⟩

theorem callFarMem_pushed (hmode : modrm.mode ≠ 3) :
    ∃ next, callFarMem modrm core = .ok (.proceed, next) ∧
      Pushed core (CallForm.far.saved core.cpu.regs (core.operandBytes modrm)) next := by
  rcases eaFromModrm_size hmode core with ⟨ea, hea⟩
  have hcs := pushed_word (core.skip (core.operandBytes modrm)) (core.cpu.regs.getSeg .CS)
  have hpushed := hcs.word ((skipIp (core.operandBytes modrm) core.cpu.regs.ip).setWidth 16)
  unfold callFarMem readFarPointer
  rw [bind_apply, bind_ok hea]
  exact ⟨_, rfl, hpushed.congr rfl rfl rfl rfl rfl rfl⟩

end Operand

theorem entered_pushed (core : Core) :
    Pushed core (CallForm.interrupt.saved core.cpu.regs 0) core.entered := by
  constructor
  · rfl
  · exact entered_sp core
  · exact entered_mem_data core

/-! ## One instruction -/

theorem executeOne_of_dispatch
    {core mid : Core} {k : ℕ} {result : StepResult} (hrunning : core.halted = false)
    (hopcode : OpcodeAt core k)
    (hdispatch : dispatch (core.byteAt k) (core.atRound k) = .ok (result, mid)) :
    executeOne core = .ok (result, mid.counted) := by
  rw [← executeOneWithin_prefixFuel, executeOneWithin_of_running _ hrunning,
    bind_ok (fetchOpcodeWithin_of_opcodeAt hopcode hopcode.lt_prefixFuel), bind_ok hdispatch]
  rfl

def Core.behindModrm (core : Core) (k : ℕ) : Core := (core.atRound k).skip 1

theorem fetchModrm_atRound (core : Core) (k : ℕ) :
    fetchModrm (core.atRound k) = .ok (core.modrmAt k, core.behindModrm k) := rfl

/-- What is left of the instruction decides on the return address. -/
theorem saved_atRound
    {core : Core} (form : CallForm) {k n rest length : ℕ} (hlength : k + 1 + n + rest = length) :
    form.saved ((core.atRound k).skip n).cpu.regs rest = form.saved core.cpu.regs length := by
  have hip : skipIp rest ((core.atRound k).skip n).cpu.regs.ip = skipIp length core.cpu.regs.ip := by
    rw [← hlength, skipIp_add, skipIp_add (k + 1) n]
    rfl
  unfold CallForm.saved
  rw [hip]
  rfl

/-- A frame that the instruction pushes once it has fetched its opcode and `n`
bytes more. -/
theorem executeOne_pushed
    {core next : Core} {form : CallForm} {k n rest length : ℕ} (hrunning : core.halted = false)
    (hopcode : OpcodeAt core k)
    (hdispatch : dispatch (core.byteAt k) (core.atRound k) = .ok (.proceed, next))
    (hpushed : Pushed ((core.atRound k).skip n)
      (form.saved ((core.atRound k).skip n).cpu.regs rest) next)
    (hlength : k + 1 + n + rest = length) :
    ∃ next, executeOne core = .ok (.proceed, next) ∧
      Pushed core (form.saved core.cpu.regs length) next := by
  have hrun := executeOne_of_dispatch hrunning hopcode hdispatch
  rw [saved_atRound form hlength] at hpushed
  exact ⟨_, hrun, hpushed.congr rfl rfl rfl rfl rfl rfl⟩

theorem dispatch_groupFF {core : Core} {k : ℕ} (hbyte : core.byteAt k = 0xFF) :
    dispatch (core.byteAt k) (core.atRound k) = groupFF (core.atRound k) := by
  rw [hbyte]
  rfl

theorem groupFF_call
    {core : Core} {k : ℕ} (hreg : (core.modrmAt k).reg = 2) :
    groupFF (core.atRound k) = callRm16 (core.modrmAt k) (core.behindModrm k) := by
  unfold groupFF
  rw [bind_ok (fetchModrm_atRound core k), hreg]
  rfl

theorem groupFF_callFar
    {core : Core} {k : ℕ} (hreg : (core.modrmAt k).reg = 3) :
    groupFF (core.atRound k) = callFarMem (core.modrmAt k) (core.behindModrm k) := by
  unfold groupFF
  rw [bind_ok (fetchModrm_atRound core k), hreg]
  rfl

theorem behindModrm_operandBytes (core : Core) (k : ℕ) :
    k + 1 + 1 + (core.behindModrm k).operandBytes (core.modrmAt k) = core.modrmLength k := by
  have hbyte : (core.behindModrm k).codeByte (core.behindModrm k).cpu.regs.ip =
      core.byteAt (k + 2) := by
    have hip : (core.behindModrm k).cpu.regs.ip = skipIp (k + 2) core.cpu.regs.ip :=
      (skipIp_add (k + 1) 1 core.cpu.regs.ip).symm
    rw [hip]
    rfl
  unfold Core.operandBytes Core.modrmLength
  rw [hbyte]
  rfl

theorem executeOne_call
    {core : Core} {form : CallForm} {length : ℕ} (hrunning : core.halted = false)
    (hcall : CallAt H core form length) (hform : form ≠ .interrupt) :
    ∃ next, executeOne core = .ok (.proceed, next) ∧
      Pushed core (form.saved core.cpu.regs length) next := by
  cases hcall with
  | @rel16 k hopcode hbyte =>
      rcases callRel16_pushed (core.atRound k) with ⟨next, hrun, hpushed⟩
      have hdispatch : dispatch (core.byteAt k) (core.atRound k) = .ok (.proceed, next) := by
        rw [hbyte]
        exact hrun
      exact executeOne_pushed (n := 0) hrunning hopcode hdispatch hpushed (by omega)
  | @rm16 k hopcode hbyte hreg =>
      rcases callRm16_pushed (core.modrmAt k) (core.behindModrm k) with ⟨next, hrun, hpushed⟩
      have hdispatch := (dispatch_groupFF hbyte).trans ((groupFF_call hreg).trans hrun)
      exact executeOne_pushed hrunning hopcode hdispatch hpushed (behindModrm_operandBytes core k)
  | @farPtr k hopcode hbyte =>
      rcases callFarPtr_pushed (core.atRound k) with ⟨next, hrun, hpushed⟩
      have hdispatch : dispatch (core.byteAt k) (core.atRound k) = .ok (.proceed, next) := by
        rw [hbyte]
        exact hrun
      exact executeOne_pushed (n := 0) hrunning hopcode hdispatch hpushed (by omega)
  | @farMem k hopcode hbyte hreg hmode =>
      rcases callFarMem_pushed (core.modrmAt k) (core.behindModrm k) hmode with
        ⟨next, hrun, hpushed⟩
      have hdispatch := (dispatch_groupFF hbyte).trans ((groupFF_callFar hreg).trans hrun)
      exact executeOne_pushed hrunning hopcode hdispatch hpushed (behindModrm_operandBytes core k)
  | int => exact absurd rfl hform

/-! ## The instruction and its result -/

/-- One interpreted instruction, and what the run loop makes of its result. -/
def interpretStep : Running H (Except Error StepResult) := do
  let result ← onMachine (onCore executeOne)
  handleStepResult result

def Runtime.setCore (rt : Runtime H) (core : Core) : Runtime H :=
  { rt with cpu := core.cpu, bus := core.bus }

theorem interpretStep_proceeds {rt : Runtime H} {next : Core}
    (hrun : executeOne rt.toCore = .ok (.proceed, next)) :
    interpretStep rt = .ok (.ok .proceed, rt.setCore next) := by
  have hmachine : (onMachine (onCore executeOne) : Running H StepResult) rt =
      .ok (.proceed, rt.setCore next) :=
    focus_ok (focus_ok hrun)
  unfold interpretStep
  rw [bind_ok hmachine]
  rfl

theorem vectorInterrupt_pushed {core : Core} {words : List U16} {mid : Core} (num : U8)
    (hpushed : Pushed core words mid) :
    ∃ next, vectorInterrupt num mid = .ok ((), next) ∧ Pushed core words next :=
  ⟨_, rfl, hpushed.congr rfl rfl rfl rfl rfl rfl⟩

theorem serviceInterrupt_pushed {m : Machine H} {num : U8}
    (hvector : (nativeHandler num : Option (Handler H Unit)) = none) :
    ∃ m', serviceInterrupt num m = .ok ((), m') ∧
      Pushed m.toCore (CallForm.interrupt.saved m.cpu.regs 0) m'.toCore := by
  rcases vectorInterrupt_pushed num (entered_pushed m.toCore) with ⟨next, hrun, hpushed⟩
  have henter : (onCore enterInterrupt : Handler H Unit) m =
      .ok ((), { m with toCore := m.toCore.entered }) :=
    focus_ok (enterInterrupt_apply m.toCore)
  have hhandle : (handleInterrupt num : Handler H Bool) = pure false := by
    unfold handleInterrupt
    rw [hvector]
  have hvectored : (onCore (vectorInterrupt num) : Handler H Unit)
      { m with toCore := m.toCore.entered } = .ok ((), { m with toCore := next }) :=
    focus_ok hrun
  unfold serviceInterrupt
  rw [bind_ok henter, hhandle, bind_ok (pure_apply _ _)]
  exact ⟨_, hvectored, hpushed⟩

theorem executeOne_int
    {core : Core} {k : ℕ} (hrunning : core.halted = false) (hopcode : OpcodeAt core k)
    (hbyte : core.byteAt k = 0xCD) :
    executeOne core =
      .ok (.interrupt (core.byteAt (k + 1)), ((core.atRound k).skip 1).counted) := by
  apply executeOne_of_dispatch hrunning hopcode
  rw [hbyte]
  rfl

theorem handleStepResult_interrupt
    {rt : Runtime H} {num : U8} {m' : Machine H}
    (hservice : serviceInterrupt num rt.toMachine = .ok ((), m')) :
    handleStepResult (.interrupt num) rt = .ok (.ok .proceed, { rt with toMachine := m' }) := by
  have hserviced : (onMachine (serviceInterrupt num) : Running H Unit) rt =
      .ok ((), { rt with toMachine := m' }) :=
    focus_ok hservice
  unfold handleStepResult
  simp only
  rw [bind_ok hserviced]
  rfl

theorem interpretStep_call
    {rt : Runtime H} {form : CallForm} {length : ℕ} (hrunning : rt.cpu.halted = false)
    (hcall : CallAt H rt.toCore form length) :
    ∃ rt', interpretStep rt = .ok (.ok .proceed, rt') ∧
      Pushed rt.toCore (form.saved rt.cpu.regs length) rt'.toCore := by
  by_cases hform : form = .interrupt
  · subst hform
    cases hcall with
    | @int k hopcode hbyte hvector =>
        have hmachine : (onMachine (onCore executeOne) : Running H StepResult) rt =
            .ok (.interrupt (rt.toCore.byteAt (k + 1)),
              rt.setCore ((rt.toCore.atRound k).skip 1).counted) :=
          focus_ok (focus_ok (executeOne_int hrunning hopcode hbyte))
        rcases @serviceInterrupt_pushed _
          (rt.setCore ((rt.toCore.atRound k).skip 1).counted).toMachine _ hvector with
          ⟨m', hservice, hpushed⟩
        unfold interpretStep
        rw [bind_ok hmachine, handleStepResult_interrupt hservice,
          ← @saved_atRound rt.toCore .interrupt k 1 0 _ rfl]
        exact ⟨_, rfl, hpushed.congr rfl rfl rfl rfl rfl rfl⟩
  · rcases executeOne_call hrunning hcall hform with ⟨next, hrun, hpushed⟩
    exact ⟨_, interpretStep_proceeds hrun, hpushed⟩

end Kita98
