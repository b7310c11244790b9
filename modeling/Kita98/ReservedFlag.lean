import Kita98.IpRange

/-!
# The reserved flag

Single flags are set and cleared under their own masks, which leave bit 1
alone.  `IRET` and the end of a native service take the whole low half of the
flags from the stack, with whatever bit 1 is there.
-/

namespace Kita98

open WordBits Kita98.Core Exec

variable {H : HostFiles}

/-! ## Flags popped from the stack -/

/-- The flags word of the interrupt frame on top of the stack. -/
def Core.flagsWord (core : Core) : U16 :=
  core.bus.mem.segReadU16 (core.cpu.regs.getSeg .SS)
    ((core.cpu.regs.get16 .SP + 4).setWidth 32)

theorem reserved_setFlags16 (regs : Regs) (value : U16) :
    (regs.setFlags16 value).reserved = value.getLsbD 1 := by
  unfold Regs.reserved Regs.setFlags16
  simp

theorem reserved_left (core : Core) :
    core.left.cpu.regs.reserved = core.flagsWord.getLsbD 1 :=
  reserved_setFlags16 _ _

def InterruptReturn (core : Core) : Prop :=
  core.halted = false ∧ ∃ k, OpcodeAt core k ∧ core.byteAt k = 0xCF

/-- The action takes the flags from the stack. -/
def PopsFlags (action : Action) (m : Machine H) : Prop :=
  action = .leave ∨ (action = .instruction ∧ InterruptReturn m.toCore)

/-- Bit 1 of the flags that the action takes from the stack is clear. -/
def ClearsReserved (action : Action) (m : Machine H) : Prop :=
  PopsFlags action m ∧ m.toCore.flagsWord.getLsbD 1 = false

/-! ## One instruction -/

theorem dispatch_reserved
    {core mid : Core} {k : ℕ} {result : StepResult} (hset : core.cpu.regs.reserved = true)
    (hrun : dispatch (core.byteAt k) (core.atRound k) = .ok (result, mid))
    (hother : core.byteAt k ≠ 0xCF) : mid.cpu.regs.reserved = true := by
  cases dispatch_effect hrun with
  | tame htame => exact htame.reserved hset
  | returns hcf hiret => exact absurd hcf hother
  | halts hf4 hhlt =>
      cases hhlt
      exact hset
  | branches htwo hfetch hjcc hbranch =>
      cases hfetch
      rw [jccNear_apply] at hbranch
      cases hbranch
      split
      · exact hset
      · exact hset

theorem dispatch_iret (core : Core) (k : ℕ) (hcf : core.byteAt k = 0xCF) :
    dispatch (core.byteAt k) (core.atRound k) = .ok (.proceed, (core.atRound k).left) := by
  have hiret : dispatch 0xCF = iret := rfl
  rw [hcf, hiret, iret_apply]

theorem executeOne_reserved_iff
    {core next : Core} {result : StepResult} (hset : core.cpu.regs.reserved = true)
    (hrun : executeOne core = .ok (result, next)) :
    next.cpu.regs.reserved = true ↔
      ¬ (InterruptReturn core ∧ core.flagsWord.getLsbD 1 = false) := by
  cases hhalted : core.halted with
  | true =>
      rw [executeOne_of_halted hhalted] at hrun
      cases hrun
      unfold InterruptReturn
      simp [hset, hhalted]
  | false =>
      rcases executeOne_returns hhalted hrun with ⟨k, mid, hopcode, hdispatch, rfl⟩
      by_cases hcf : core.byteAt k = 0xCF
      · rw [dispatch_iret core k hcf] at hdispatch
        cases hdispatch
        have hreturn : InterruptReturn core := ⟨hhalted, k, hopcode, hcf⟩
        have hword : (core.atRound k).left.counted.cpu.regs.reserved =
            core.flagsWord.getLsbD 1 :=
          reserved_left (core.atRound k)
        rw [hword]
        simp [hreturn]
      · have hmid := dispatch_reserved hset hdispatch hcf
        apply iff_of_true hmid
        rintro ⟨⟨-, k', hopcode', hcf'⟩, -⟩
        rw [hopcode'.unique hopcode] at hcf'
        exact hcf hcf'

/-! ## One action -/

theorem action_reserved_iff
    {action : Action} {m m' : Machine H} (hset : m.cpu.regs.reserved = true)
    (hleads : action.Leads m m') :
    m'.cpu.regs.reserved = true ↔ ¬ ClearsReserved action m := by
  by_cases hinstruction : action = .instruction
  · subst hinstruction
    cases Action.effect hleads with
    | instruction hrun =>
        rw [executeOne_reserved_iff hset hrun]
        unfold ClearsReserved PopsFlags
        simp
  · by_cases hleave : action = .leave
    · subst hleave
      cases Action.effect hleads with
      | leave hcore =>
          have hword := reserved_left m.toCore
          rw [← hcore] at hword
          rw [hword]
          unfold ClearsReserved PopsFlags
          simp
    · have hset' := (Action.keeps hleads hinstruction hleave).2 hset
      apply iff_of_true hset'
      rintro ⟨hpops | hpops, -⟩
      · exact hleave hpops
      · exact hinstruction hpops.1

/-! ## Every trace -/

theorem reserved_flag_iff
    {start m : Machine H} {past : List (Action × Machine H)} (hfresh : Fresh start)
    (htrace : MachineTrace start past m) :
    (m.cpu.regs.reserved = true ∧ ∀ entry ∈ past, entry.2.cpu.regs.reserved = true) ↔
      ∀ entry ∈ past, ¬ ClearsReserved entry.1 entry.2 := by
  apply LabelledTrace.invariant_iff (P := fun m => m.cpu.regs.reserved = true)
    (B := ClearsReserved) (fresh_regs hfresh).2 _ htrace
  intro action old next hold hleads
  exact action_reserved_iff hold hleads

theorem reserved_flag_nop :
    ∃ m : Machine HostFiles.none,
      (m.cpu.regs.reserved = true ∧ ∀ entry ∈ [(Action.instruction, codeMachine [0x90])],
        entry.2.cpu.regs.reserved = true) ↔
          ∀ entry ∈ [(Action.instruction, codeMachine [0x90])],
            ¬ ClearsReserved entry.1 entry.2 := by
  rcases @Action.leads_of_map _ _ .instruction (codeMachine [0x90])
    (fun m => m.cpu.regs.ip) 0x1 (by decide +kernel) with ⟨m, hleads, -⟩
  exact ⟨m, reserved_flag_iff (.new rfl) (.single hleads)⟩

/-- `IRET` with zeros on the stack. -/
theorem iret_clears_reserved :
    ∃ m, Fresh (codeMachine [0xCF]) ∧
      MachineTrace (codeMachine [0xCF]) [(.instruction, codeMachine [0xCF])] m ∧
        m.cpu.regs.reserved = false := by
  rcases @Action.leads_of_map _ _ .instruction (codeMachine [0xCF])
    (fun m => m.cpu.regs.reserved) false (by decide +kernel) with ⟨m, hleads, hclear⟩
  exact ⟨m, .new rfl, .single hleads, hclear⟩

end Kita98
