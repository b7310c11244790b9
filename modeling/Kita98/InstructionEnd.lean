import Kita98.ArmEffects
import Kita98.PrefixLoop

/-!
# How an instruction ends

An instruction is executed or refused once a byte that is no prefix byte has
been fetched; from there on it may fail in arithmetic, or where group FF reads
a far pointer from a register.
-/

namespace Kita98

open WordBits Kita98.Core Exec

/-! ## Behind the prefix bytes -/

/-- `execute_one` with a bound of its own on the rounds of the prefix loop. -/
def executeOneWithin (fuel : ℕ) : Routine StepResult := do
  let halted ← Exec.read fun core => core.cpu.halted
  if halted then return .halt
  else do
    let opcode ← fetchOpcodeWithin fuel
    let result ← dispatch opcode
    countInstruction
    return result

theorem executeOneWithin_prefixFuel : executeOneWithin prefixFuel = executeOne := rfl

theorem executeOneWithin_of_halted
    {core : Core} (fuel : ℕ) (hhalted : core.halted = true) :
    executeOneWithin fuel core = .ok (.halt, core) := by
  have hread : core.cpu.halted = true := hhalted
  unfold executeOneWithin
  rw [bind_ok (read_apply _ core)]
  simp only [hread, if_true, pure_apply]

theorem executeOneWithin_of_running
    {core : Core} (fuel : ℕ) (hrunning : core.halted = false) :
    executeOneWithin fuel core =
      (fetchOpcodeWithin fuel >>= fun opcode => do
        let result ← dispatch opcode
        countInstruction
        return result) core := by
  have hread : core.cpu.halted = false := hrunning
  unfold executeOneWithin
  rw [bind_ok (read_apply _ core)]
  simp only [hread, Bool.false_eq_true, if_false]

/-- Behind the opcode only its dispatch can fail. -/
theorem executeOneWithin_fails_iff
    {core : Core} {k fuel : ℕ} {fault : Fault} (hrunning : core.halted = false)
    (hopcode : OpcodeAt core k) (hfuel : k < fuel) :
    executeOneWithin fuel core = .error fault ↔
      dispatch (core.byteAt k) (core.atRound k) = .error fault := by
  rw [executeOneWithin_of_running fuel hrunning,
    bind_ok (fetchOpcodeWithin_of_opcodeAt hopcode hfuel)]
  constructor
  · intro hrun
    rcases bind_eq_error hrun with hdispatch | ⟨result, executed, -, hlast⟩
    · exact hdispatch
    · cases hlast
  · exact bind_error

def Core.counted (core : Core) : Core :=
  { core with
    cpu := { core.cpu with instructionsExecuted := core.cpu.instructionsExecuted + 1 } }

theorem executeOne_returns
    {core next : Core} {result : StepResult} (hrunning : core.halted = false)
    (hrun : executeOne core = .ok (result, next)) :
    ∃ k mid, OpcodeAt core k ∧ dispatch (core.byteAt k) (core.atRound k) = .ok (result, mid) ∧
      next = mid.counted := by
  rw [← executeOneWithin_prefixFuel, executeOneWithin_of_running _ hrunning] at hrun
  rcases bind_eq_ok hrun with ⟨opcode, fetched, hfetch, hrest⟩
  by_cases hall : ∀ k, Skipped (core.byteAt k)
  · rw [fetchOpcodeWithin_of_all_skipped _ hall] at hfetch
    cases hfetch
  · rcases opcodeAt_of_not_skipped (not_forall.mp hall) with ⟨k, hopcode⟩
    rw [fetchOpcodeWithin_of_opcodeAt hopcode hopcode.lt_prefixFuel] at hfetch
    cases hfetch
    rcases bind_eq_ok hrest with ⟨result', mid, hdispatch, hlast⟩
    cases hlast
    exact ⟨k, mid, hopcode, hdispatch, rfl⟩

theorem executeOne_of_halted {core : Core} (hhalted : core.halted = true) :
    executeOne core = .ok (.halt, core) :=
  executeOneWithin_of_halted prefixFuel hhalted

/-! ## The prefix loop ends -/

/-- Some bound on the rounds of the loop is enough. -/
def InstructionEnds (core : Core) : Prop := ∃ fuel, executeOneWithin fuel core ≠ .error .hang

theorem dispatch_ne_hang (opcode : U8) (core : Core) : dispatch opcode core ≠ .error .hang := by
  intro hrun
  rcases dispatch_fails hrun with hoverflow | ⟨-, hgroup⟩
  · cases hoverflow
  · have hobeys : Obeys Tame (· = .unreachable) groupFF := inferInstance
    cases hobeys.fails hgroup

theorem executeOneWithin_ne_hang
    {core : Core} {k fuel : ℕ} (hopcode : OpcodeAt core k) (hfuel : k < fuel) :
    executeOneWithin fuel core ≠ .error .hang := by
  intro hrun
  cases hhalted : core.halted with
  | true =>
      rw [executeOneWithin_of_halted fuel hhalted] at hrun
      cases hrun
  | false =>
      have hdispatch := (executeOneWithin_fails_iff hhalted hopcode hfuel).mp hrun
      exact dispatch_ne_hang _ _ hdispatch

theorem executeOneWithin_of_onlyPrefixes
    {core : Core} (fuel : ℕ) (hrunning : core.halted = false) (honly : OnlyPrefixes core) :
    executeOneWithin fuel core = .error .hang := by
  have hskipped := (onlyPrefixes_iff core).mp honly
  rw [executeOneWithin_of_running fuel hrunning]
  exact bind_error (fetchOpcodeWithin_of_all_skipped fuel hskipped)

theorem opcodeAt_of_not_onlyPrefixes {core : Core} (hnot : ¬ OnlyPrefixes core) :
    ∃ k, OpcodeAt core k := by
  apply opcodeAt_of_not_skipped
  by_contra hnone
  apply hnot
  rw [onlyPrefixes_iff]
  intro k
  by_contra hfound
  exact hnone ⟨k, hfound⟩

theorem instruction_ends_iff (core : Core) :
    InstructionEnds core ↔ core.halted = true ∨ ¬ OnlyPrefixes core := by
  constructor
  · rintro ⟨fuel, hends⟩
    cases hhalted : core.halted with
    | true => exact .inl rfl
    | false =>
        right
        intro honly
        exact hends (executeOneWithin_of_onlyPrefixes fuel hhalted honly)
  · rintro (hhalted | hnot)
    · refine ⟨0, ?_⟩
      rw [executeOneWithin_of_halted 0 hhalted]
      simp
    · rcases opcodeAt_of_not_onlyPrefixes hnot with ⟨k, hopcode⟩
      exact ⟨k + 1, executeOneWithin_ne_hang hopcode (Nat.lt_succ_self k)⟩

/-- One round for each byte of the segment, and one more, are always enough. -/
theorem executeOne_hangs_iff (core : Core) :
    executeOne core = .error .hang ↔ ¬ InstructionEnds core := by
  rw [← executeOneWithin_prefixFuel]
  constructor
  · intro hhang hends
    rcases (instruction_ends_iff core).mp hends with hhalted | hnot
    · rw [executeOneWithin_of_halted _ hhalted] at hhang
      cases hhang
    · rcases opcodeAt_of_not_onlyPrefixes hnot with ⟨k, hopcode⟩
      exact executeOneWithin_ne_hang hopcode hopcode.lt_prefixFuel hhang
  · intro hnever
    by_contra hreturns
    exact hnever ⟨prefixFuel, hreturns⟩

/-- A fresh machine in memory that holds ES: prefixes only. -/
def prefixCore : Core where
  cpu := Interpreter.new
  bus := { Bus.new none (fun _ => 0) with mem := { Memory.new with data := fun _ => 0x26 } }

theorem prefix_segment_never_ends : ¬ InstructionEnds prefixCore := by
  rintro ⟨fuel, hends⟩
  apply hends
  apply executeOneWithin_of_onlyPrefixes fuel rfl
  have hskipped : Skipped 0x26 := by decide
  exact ⟨hskipped, fun _ => hskipped⟩

/-! ## Far pointers in registers -/

theorem decodeEa16_of_register {modrm : ModRm} (hmode : modrm.mode = 3) (core : Core) :
    decodeEa16 modrm core = .error .unreachable := by
  unfold decodeEa16
  rw [bind_ok (getPrefixes_apply core), hmode]
  simp only [show ¬ (modrm.rm = 6 ∧ (3 : BitVec 2) = 0) by simp, if_false]
  rw [bind_ok (getRegs_apply core _)]
  rfl

theorem eaFromModrm_fails_iff {modrm : ModRm} {core : Core} {fault : Fault} :
    eaFromModrm modrm core = .error fault ↔
      fault = .unreachable ∧ modrm.mode = 3 ∧ core.cpu.prefixes.address32 = false := by
  constructor
  · intro hrun
    have hobeys : Obeys Tame (· = .unreachable) (eaFromModrm modrm) := inferInstance
    refine ⟨hobeys.fails hrun, ?_, ?_⟩
    · by_contra hmode
      rcases eaFromModrm_fetches hmode core with ⟨n, -, ea, hea⟩
      rw [hea] at hrun
      cases hrun
    · rw [← Bool.not_eq_true]
      intro haddress
      have hdecode : decodeEa modrm core = decodeEa32 modrm core := by
        unfold decodeEa
        rw [bind_ok (getPrefixes_apply core), if_pos haddress]
      rcases bind_eq_error hrun with hplace | ⟨place, next, -, hlast⟩
      · rw [hdecode] at hplace
        have hnever : Obeys Tame (fun _ => False) (decodeEa32 modrm) := inferInstance
        exact hnever.fails hplace
      · cases hlast
  · rintro ⟨rfl, hmode, haddress⟩
    have hdecode : decodeEa modrm core = .error .unreachable := by
      unfold decodeEa
      rw [bind_ok (getPrefixes_apply core), haddress]
      simp only [Bool.false_eq_true, if_false]
      exact bind_error (decodeEa16_of_register hmode core)
    exact bind_error hdecode

/-- The ModRM byte of the far CALL or JMP of group FF with a register in place
of the pointer. -/
def FarRegister (modrm : ModRm) : Prop := modrm.mode = 3 ∧ (modrm.reg = 3 ∨ modrm.reg = 5)

theorem readFarPointer_fails_iff {modrm : ModRm} {core : Core} {fault : Fault} :
    readFarPointer modrm core = .error fault ↔ eaFromModrm modrm core = .error fault := by
  constructor
  · intro hrun
    rcases bind_eq_error hrun with hea | ⟨ea, next, -, hlast⟩
    · exact hea
    · cases hlast
  · exact bind_error

theorem callFarMem_fails_iff {modrm : ModRm} {core : Core} {fault : Fault} :
    callFarMem modrm core = .error fault ↔ eaFromModrm modrm core = .error fault := by
  rw [← readFarPointer_fails_iff]
  constructor
  · intro hrun
    rcases bind_eq_error hrun with hread | ⟨pointer, next, -, hlast⟩
    · exact hread
    · cases hlast
  · exact bind_error

theorem jmpFarMem_fails_iff {modrm : ModRm} {core : Core} {fault : Fault} :
    jmpFarMem modrm core = .error fault ↔ eaFromModrm modrm core = .error fault := by
  rw [← readFarPointer_fails_iff]
  constructor
  · intro hrun
    rcases bind_eq_error hrun with hread | ⟨pointer, next, -, hlast⟩
    · exact hread
    · cases hlast
  · exact bind_error

theorem groupFF_member_returns
    {modrm : ModRm} {routine : Routine StepResult}
    (hmember : routine = incRm16 modrm ∨ routine = decRm16 modrm ∨ routine = callRm16 modrm ∨
      routine = jmpRm16 modrm ∨ routine = pushRm16 modrm ∨
        routine = pure (.unimplemented 0xFF)) :
    Obeys Tame (fun _ => False) routine := by
  rcases hmember with rfl | rfl | rfl | rfl | rfl | rfl
  · unfold incRm16
    infer_instance
  · unfold decRm16
    infer_instance
  · unfold callRm16
    infer_instance
  · unfold jmpRm16
    infer_instance
  · unfold pushRm16
    infer_instance
  · infer_instance

theorem groupFF_fails_iff {core : Core} {fault : Fault} :
    groupFF core = .error fault ↔
      fault = .unreachable ∧ core.cpu.prefixes.address32 = false ∧
        FarRegister (ModRm.decode (core.codeByte core.cpu.regs.ip)) := by
  have hfetch : fetchModrm core =
      .ok (ModRm.decode (core.codeByte core.cpu.regs.ip), core.skip 1) := rfl
  unfold groupFF FarRegister
  rw [bind_ok hfetch]
  generalize ModRm.decode (core.codeByte core.cpu.regs.ip) = modrm
  have hother : ∀ routine : Routine StepResult, (routine = incRm16 modrm ∨
      routine = decRm16 modrm ∨ routine = callRm16 modrm ∨ routine = jmpRm16 modrm ∨
        routine = pushRm16 modrm ∨ routine = pure (.unimplemented 0xFF)) →
      routine (core.skip 1) ≠ .error fault := by
    intro routine hmember hrun
    exact (groupFF_member_returns hmember).fails hrun
  constructor
  · intro hrun
    rcases field_cases modrm.reg with
      hreg | hreg | hreg | hreg | hreg | hreg | hreg | hreg <;> rw [hreg] at hrun
    · exact absurd hrun (hother (incRm16 modrm) (by simp))
    · exact absurd hrun (hother (decRm16 modrm) (by simp))
    · exact absurd hrun (hother (callRm16 modrm) (by simp))
    · rcases eaFromModrm_fails_iff.mp (callFarMem_fails_iff.mp hrun) with ⟨hfault, hmode, haddress⟩
      exact ⟨hfault, haddress, hmode, .inl hreg⟩
    · exact absurd hrun (hother (jmpRm16 modrm) (by simp))
    · rcases eaFromModrm_fails_iff.mp (jmpFarMem_fails_iff.mp hrun) with ⟨hfault, hmode, haddress⟩
      exact ⟨hfault, haddress, hmode, .inr hreg⟩
    · exact absurd hrun (hother (pushRm16 modrm) (by simp))
    · exact absurd hrun (hother (pure (.unimplemented 0xFF)) (by simp))
  · rintro ⟨hfault, haddress, hmode, hreg | hreg⟩
    · rw [hreg]
      exact callFarMem_fails_iff.mpr (eaFromModrm_fails_iff.mpr ⟨hfault, hmode, haddress⟩)
    · rw [hreg]
      exact jmpFarMem_fails_iff.mpr (eaFromModrm_fails_iff.mpr ⟨hfault, hmode, haddress⟩)

/-- The instruction at CS:IP is a far CALL or JMP through a register, with
16-bit addressing. -/
def FarThroughRegister (core : Core) : Prop :=
  ∃ k, OpcodeAt core k ∧ core.byteAt k = 0xFF ∧ (core.prefixesAt k).address32 = false ∧
    FarRegister (ModRm.decode (core.byteAt (k + 1)))

theorem dispatch_unreachable_iff {core : Core} {k : ℕ} :
    dispatch (core.byteAt k) (core.atRound k) = .error .unreachable ↔
      core.byteAt k = 0xFF ∧ (core.prefixesAt k).address32 = false ∧
        FarRegister (ModRm.decode (core.byteAt (k + 1))) := by
  have hbyte : (core.atRound k).codeByte (core.atRound k).cpu.regs.ip = core.byteAt (k + 1) := rfl
  have hprefixes : (core.atRound k).cpu.prefixes = core.prefixesAt k := rfl
  constructor
  · intro hrun
    rcases dispatch_fails hrun with hoverflow | ⟨hopcode, hgroup⟩
    · cases hoverflow
    · rw [groupFF_fails_iff, hbyte, hprefixes] at hgroup
      exact ⟨hopcode, hgroup.2⟩
  · rintro ⟨hopcode, hfar⟩
    have hgroup : dispatch 0xFF = groupFF := rfl
    rw [hopcode, hgroup, groupFF_fails_iff, hbyte, hprefixes]
    exact ⟨rfl, hfar⟩

theorem no_unreachable_iff (core : Core) :
    executeOne core ≠ .error .unreachable ↔
      core.halted = true ∨ ¬ FarThroughRegister core := by
  rw [← executeOneWithin_prefixFuel]
  cases hhalted : core.halted with
  | true =>
      rw [executeOneWithin_of_halted prefixFuel hhalted]
      simp
  | false =>
      constructor
      · intro hnever
        right
        rintro ⟨k, hopcode, hfar⟩
        apply hnever
        rw [executeOneWithin_fails_iff hhalted hopcode hopcode.lt_prefixFuel]
        exact dispatch_unreachable_iff.mpr hfar
      · rintro (habsurd | hnot) hrun
        · cases habsurd
        · by_cases honly : OnlyPrefixes core
          · rw [executeOneWithin_of_onlyPrefixes _ hhalted honly] at hrun
            cases hrun
          · rcases opcodeAt_of_not_onlyPrefixes honly with ⟨k, hopcode⟩
            rw [executeOneWithin_fails_iff hhalted hopcode hopcode.lt_prefixFuel] at hrun
            exact hnot ⟨k, hopcode, dispatch_unreachable_iff.mp hrun⟩

/-- A fresh machine in front of `FF D8`, a far CALL through AX. -/
def farCallCore : Core where
  cpu := Interpreter.new
  bus := { Bus.new none (fun _ => 0) with mem := Memory.new.loadBytes 0 [0xFF, 0xD8] }

theorem far_call_unreachable : executeOne farCallCore = .error .unreachable := rfl

end Kita98
