import Kita98.InterruptFrame
import Kita98.ServiceReports

/-!
# Results of natively handled interrupts

A service reports through CF and ZF, and the epilogue then pops the flags word
that was pushed before the service ran.  The guest sees the report only where
it says what the flags said anyway.
-/

namespace Kita98

open WordBits Exec

/-! ## Bits of the flags word -/

namespace Regs

theorem flag_eq_getLsbD (regs : Regs) {i : ℕ} (hi : i < 32) :
    regs.flag (1#32 <<< i) = regs.flags.getLsbD i := by
  have hone : BitVec.twoPow 32 i ≠ 0#32 := by
    intro hzero
    have hbit := congrArg (fun v : U32 => v.getLsbD i) hzero
    simp [hi] at hbit
  unfold flag testMask
  rw [← BitVec.twoPow_eq, BitVec.and_twoPow]
  cases regs.flags.getLsbD i <;> simp [hone]

theorem getCf_eq_getLsbD (regs : Regs) : regs.getCf = regs.flags.getLsbD 0 :=
  regs.flag_eq_getLsbD (by decide)

theorem getZf_eq_getLsbD (regs : Regs) : regs.getZf = regs.flags.getLsbD 6 :=
  regs.flag_eq_getLsbD (by decide)

theorem returned_getCf (regs before : Regs) :
    (regs.returned before).getCf = before.getCf := by
  rw [getCf_eq_getLsbD, getCf_eq_getLsbD, returned_flags _ _ (by decide)]

theorem returned_getZf (regs before : Regs) :
    (regs.returned before).getZf = before.getZf := by
  rw [getZf_eq_getLsbD, getZf_eq_getLsbD, returned_flags _ _ (by decide)]

end Regs

/-! ## The composition -/

variable {H : HostFiles}

def Machine.entered (m : Machine H) : Machine H := { m with toCore := m.toCore.entered }

/-- The guest sees CF and ZF as the handler left them, and everything else of
its context as it was before the interrupt. -/
structure ResultsReach (before handled after : Regs) : Prop where
  cf : after.getCf = handled.getCf
  zf : after.getZf = handled.getZf
  others : ∀ i, i < 16 → i ≠ 0 → i ≠ 6 → after.flags.getLsbD i = before.flags.getLsbD i
  cs : after.getSeg .CS = before.getSeg .CS
  ip : after.ip = before.ip
  ss : after.getSeg .SS = before.getSeg .SS
  sp : after.get16 .SP = before.get16 .SP

/-- What the service reports is what the flags said before the interrupt, and
IP lies below 64 KiB. -/
structure ReportsNoChange (num : U8) (m : Machine H) : Prop where
  cf : ∀ v, serviceCarry num m.entered = some v → m.cpu.regs.getCf = v
  zf : ∀ v, serviceZero num m.entered = some v → m.cpu.regs.getZf = v
  ip : m.cpu.regs.ip.toNat < 2 ^ 16

theorem getD_eq_iff {v : Bool} (report : Option Bool) :
    v = report.getD v ↔ ∀ w, report = some w → v = w := by
  cases report with
  | none => simp
  | some w => simp

theorem ip_round_trip_iff (ip : U32) :
    (ip.setWidth 16).setWidth 32 = ip ↔ ip.toNat < 2 ^ 16 := by
  bv_omega

theorem entered_getCf (core : Core) : core.entered.cpu.regs.getCf = core.cpu.regs.getCf := by
  unfold Core.entered Regs.getCf
  simp only [Core.setMem_cpu, Core.setRegs_cpu_regs]
  rw [Regs.flag_setFlag_of_disjoint _ _ (by decide),
    Regs.flag_setFlag_of_disjoint _ _ (by decide), Regs.flag_of_set16]

theorem entered_getZf (core : Core) : core.entered.cpu.regs.getZf = core.cpu.regs.getZf := by
  unfold Core.entered Regs.getZf
  simp only [Core.setMem_cpu, Core.setRegs_cpu_regs]
  rw [Regs.flag_setFlag_of_disjoint _ _ (by decide),
    Regs.flag_setFlag_of_disjoint _ _ (by decide), Regs.flag_of_set16]

theorem frameKept_of_handled
    {num : U8} {m handled : Machine H}
    (hhandled : handleInterrupt num m.entered = .ok (true, handled))
    (hkeeps : num = 0x21 → ¬ StartsProgram m.toCore.entered)
    (hframe : FrameIntact m.toCore handled.toCore) :
    FrameKept m.toCore handled.toCore := by
  have hreports := handleInterrupt_reports hkeeps hhandled
  refine ⟨hreports.ss, ?_, hframe⟩
  rw [hreports.sp]
  exact entered_sp m.toCore

theorem handleStepResult_of_handled
    {num : U8} {rt : Runtime H} {handled : Machine H}
    (hhandled : handleInterrupt num rt.toMachine.entered = .ok (true, handled)) :
    handleStepResult (.interrupt num) rt =
      .ok (.ok .proceed,
        { rt with toMachine := { handled with toCore := handled.toCore.left } }) := by
  have henter : onCore enterInterrupt rt.toMachine = .ok ((), rt.toMachine.entered) :=
    focus_ok (enterInterrupt_apply rt.toCore)
  have hleave : onCore leaveInterrupt handled =
      .ok ((), { handled with toCore := handled.toCore.left }) :=
    focus_ok (leaveInterrupt_apply handled.toCore)
  have hservice : serviceInterrupt num rt.toMachine =
      .ok ((), { handled with toCore := handled.toCore.left }) := by
    unfold serviceInterrupt
    rw [bind_ok henter, bind_ok hhandled]
    exact hleave
  have hmachine : onMachine (serviceInterrupt num) rt =
      .ok ((), { rt with toMachine := { handled with toCore := handled.toCore.left } }) :=
    focus_ok hservice
  unfold handleStepResult
  simp only
  rw [bind_ok hmachine]
  rfl

theorem interrupt_results_iff
    {num : U8} {rt : Runtime H} {handled : Machine H}
    (hhandled : handleInterrupt num rt.toMachine.entered = .ok (true, handled))
    (hkeeps : num = 0x21 → ¬ StartsProgram rt.toCore.entered)
    (hframe : FrameIntact rt.toCore handled.toCore) :
    ∃ after, handleStepResult (.interrupt num) rt = .ok (.ok .proceed, after) ∧
      (ResultsReach rt.cpu.regs handled.cpu.regs after.cpu.regs ↔
        ReportsNoChange num rt.toMachine) := by
  refine ⟨_, handleStepResult_of_handled hhandled, ?_⟩
  have hreports := handleInterrupt_reports hkeeps hhandled
  have hleft := left_of_frameKept (frameKept_of_handled hhandled hkeeps hframe)
  simp only [hleft]
  have hcf : handled.cpu.regs.getCf =
      (serviceCarry num rt.toMachine.entered).getD rt.cpu.regs.getCf := by
    rw [← entered_getCf rt.toCore]
    exact hreports.cf
  have hzf : handled.cpu.regs.getZf =
      (serviceZero num rt.toMachine.entered).getD rt.cpu.regs.getZf := by
    rw [← entered_getZf rt.toCore]
    exact hreports.zf
  constructor
  · intro hreach
    refine ⟨?_, ?_, ?_⟩
    · rw [← getD_eq_iff, ← hcf, ← hreach.cf]
      exact (Regs.returned_getCf _ _).symm
    · rw [← getD_eq_iff, ← hzf, ← hreach.zf]
      exact (Regs.returned_getZf _ _).symm
    · rw [← ip_round_trip_iff]
      exact hreach.ip
  · rintro ⟨hcarry, hzero, hip⟩
    rw [← getD_eq_iff, ← hcf] at hcarry
    rw [← getD_eq_iff, ← hzf] at hzero
    refine ⟨?_, ?_, ?_, ?_, ?_, ?_, ?_⟩
    · rw [← hcarry]
      exact Regs.returned_getCf _ _
    · rw [← hzero]
      exact Regs.returned_getZf _ _
    · intro i hi _ _
      exact Regs.returned_flags _ _ hi
    · exact Regs.returned_cs _ _
    · exact (ip_round_trip_iff _).mpr hip
    · exact (Regs.returned_ss _ _).trans hreports.ss
    · exact Regs.returned_sp _ _

/-! ## A disk read without a disk -/

/-- A machine without a disk that asks INT 13h for one sector. -/
def noDiskRuntime : Runtime HostFiles.none where
  cpu := { Interpreter.new with regs := Regs.new.set16 .AX 0x0201 }
  bus := Bus.new none fun _ => 0
  dos := DosRuntime.new
  jit := ⟨fun _ => none, fun _ => 0⟩
  maxInstructions := 0
  batchQueue := []
  currentBatchIndex := 0

def noDiskHandled : Machine HostFiles.none :=
  { noDiskRuntime.toMachine.entered with
    toCore := noDiskRuntime.toCore.entered.setRegs
      ((noDiskRuntime.toCore.entered.cpu.regs.set8 .AH 0x01).setCf true) }

theorem noDisk_handled :
    handleInterrupt 0x13 noDiskRuntime.toMachine.entered = .ok (true, noDiskHandled) :=
  rfl

theorem interrupt_results_noDisk :
    ∃ after, handleStepResult (.interrupt 0x13) noDiskRuntime = .ok (.ok .proceed, after) ∧
      (ResultsReach noDiskRuntime.cpu.regs noDiskHandled.cpu.regs after.cpu.regs ↔
        ReportsNoChange 0x13 noDiskRuntime.toMachine) :=
  interrupt_results_iff noDisk_handled (fun hnum => by cases hnum) (fun _ _ => rfl)

/-- The guest never learns that its disk read failed. -/
theorem noDisk_results_lost :
    ∃ after, handleInterrupt 0x13 noDiskRuntime.toMachine.entered = .ok (true, noDiskHandled) ∧
      FrameIntact noDiskRuntime.toCore noDiskHandled.toCore ∧
        handleStepResult (.interrupt 0x13) noDiskRuntime = .ok (.ok .proceed, after) ∧
          ¬ ResultsReach noDiskRuntime.cpu.regs noDiskHandled.cpu.regs after.cpu.regs := by
  refine ⟨_, noDisk_handled, fun _ _ => rfl, handleStepResult_of_handled noDisk_handled, ?_⟩
  intro hreach
  have hcf := hreach.cf
  revert hcf
  decide +kernel

end Kita98
