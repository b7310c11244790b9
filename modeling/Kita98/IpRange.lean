import Kita98.InstructionEnd
import Kita98.MachineTrace

/-!
# The range of IP

Fetches and jumps mask IP or extend it from 16 bits.  The near Jcc adds its
displacement to the full register, so it alone can carry IP out of the segment.
-/

namespace Kita98

open WordBits Kita98.Core Exec

variable {H : HostFiles}

/-- IP has 16 bits, and the byte that it addresses is the one at the low 16
bits of it. -/
structure IpSixteen (core : Core) : Prop where
  inSegment : core.cpu.regs.InSegment
  fetched : core.codeByte core.cpu.regs.ip =
    core.codeByte ((core.cpu.regs.ip.setWidth 16).setWidth 32)

theorem ipSixteen_iff (core : Core) : IpSixteen core ↔ core.cpu.regs.InSegment := by
  constructor
  · intro hip
    exact hip.inSegment
  · intro hin
    have hsame : (core.cpu.regs.ip.setWidth 16).setWidth 32 = core.cpu.regs.ip := by
      apply BitVec.eq_of_toNat_eq
      rw [BitVec.toNat_setWidth, BitVec.toNat_setWidth]
      unfold Regs.InSegment at hin
      omega
    exact ⟨hin, by rw [hsame]⟩

/-! ## Branches that leave the segment -/

def behindSecond (core : Core) (k : ℕ) : Core := (core.atRound k).skip 1

/-- Where the near Jcc behind `k` prefix bytes goes. -/
def branchTarget (core : Core) (k : ℕ) : U32 :=
  let fetched := behindSecond core k
  skipIp (nearSize fetched.cpu.prefixes) fetched.cpu.regs.ip + nearRel fetched

/-- The instruction at CS:IP is a near Jcc that is taken, to a target outside
the segment. -/
structure EscapesAt (core : Core) (k : ℕ) : Prop where
  running : core.halted = false
  opcode : OpcodeAt core k
  twoByte : core.byteAt k = 0x0F
  jcc : 0x80 ≤ core.byteAt (k + 1) ∧ core.byteAt (k + 1) ≤ 0x8F
  taken : core.cpu.regs.checkCond ((core.byteAt (k + 1)).setWidth 4) = true
  outside : 2 ^ 16 ≤ (branchTarget core k).toNat

def EscapingBranch (core : Core) : Prop := ∃ k, EscapesAt core k

theorem inSegment_skip {n : ℕ} (core : Core) (hpos : 0 < n) :
    (core.skip n).cpu.regs.InSegment := by
  rcases Nat.exists_eq_succ_of_ne_zero (Nat.pos_iff_ne_zero.mp hpos) with ⟨m, rfl⟩
  have hip := skipIp_toNat m core.cpu.regs.ip
  have hlt := Nat.mod_lt (core.cpu.regs.ip.toNat + (m + 1)) (Nat.two_pow_pos 16)
  exact lt_of_eq_of_lt hip hlt

theorem inSegment_atRound (core : Core) (k : ℕ) : (core.atRound k).cpu.regs.InSegment := by
  have hskip := inSegment_skip core (Nat.succ_pos k)
  exact hskip

theorem nearSize_pos (prefixes : PrefixState) : 0 < nearSize prefixes := by
  unfold nearSize
  split <;> decide

theorem inSegment_left (core : Core) : core.left.cpu.regs.InSegment := by
  have hjump := TameRegs.inSegment_jumpTo core.cpu.regs
    (core.bus.mem.segReadU16 (core.cpu.regs.getSeg .SS)
      ((core.cpu.regs.get16 .SP).setWidth 32))
  exact hjump

theorem checkCond_behindSecond (core : Core) (k : ℕ) (cond : BitVec 4) :
    (behindSecond core k).cpu.regs.checkCond cond = core.cpu.regs.checkCond cond :=
  checkCond_congr rfl cond

theorem dispatch_of_escapesAt {core : Core} {k : ℕ} (hescapes : EscapesAt core k) :
    dispatch (core.byteAt k) (core.atRound k) =
      .ok (.proceed, (behindSecond core k).setIp (branchTarget core k)) := by
  have htwo : dispatch 0x0F = dispatch0f := rfl
  have hfetch : fetchU8 (core.atRound k) = .ok (core.byteAt (k + 1), behindSecond core k) := rfl
  rw [hescapes.twoByte, htwo]
  unfold dispatch0f
  rw [bind_ok hfetch]
  unfold extendedArm
  rw [if_pos hescapes.jcc, jccNear_apply, checkCond_behindSecond, if_pos hescapes.taken]
  rfl

theorem dispatch_inSegment
    {core mid : Core} {k : ℕ} {result : StepResult} (hrunning : core.halted = false)
    (hopcode : OpcodeAt core k) (hnone : ¬ EscapingBranch core)
    (hrun : dispatch (core.byteAt k) (core.atRound k) = .ok (result, mid)) :
    mid.cpu.regs.InSegment := by
  have hround := inSegment_atRound core k
  cases dispatch_effect hrun with
  | tame htame => exact htame.inSegment hround
  | returns hcf hiret =>
      rw [iret_apply] at hiret
      cases hiret
      exact inSegment_left _
  | halts hf4 hhlt =>
      cases hhlt
      exact hround
  | branches htwo hfetch hjcc hbranch =>
      cases hfetch
      rw [jccNear_apply] at hbranch
      cases hbranch
      split
      · rename_i htaken
        by_contra hout
        apply hnone
        refine ⟨k, hrunning, hopcode, htwo, hjcc, ?_, Nat.le_of_not_lt hout⟩
        rw [← checkCond_behindSecond core k]
        exact htaken
      · exact inSegment_skip _ (nearSize_pos _)

/-! ## One step -/

theorem executeOne_inSegment_iff
    {core next : Core} {result : StepResult} (hin : core.cpu.regs.InSegment)
    (hrun : executeOne core = .ok (result, next)) :
    next.cpu.regs.InSegment ↔ ¬ EscapingBranch core := by
  constructor
  · rintro hnext ⟨k, hescapes⟩
    rcases executeOne_returns hescapes.running hrun with ⟨k', mid, hopcode, hdispatch, rfl⟩
    have hsame := hopcode.unique hescapes.opcode
    subst hsame
    rw [dispatch_of_escapesAt hescapes] at hdispatch
    cases hdispatch
    exact absurd hnext (Nat.not_lt_of_le hescapes.outside)
  · intro hnone
    cases hhalted : core.halted with
    | true =>
        rw [executeOne_of_halted hhalted] at hrun
        cases hrun
        exact hin
    | false =>
        rcases executeOne_returns hhalted hrun with ⟨k, mid, hopcode, hdispatch, rfl⟩
        have hmid := dispatch_inSegment hhalted hopcode hnone hdispatch
        exact hmid

/-- An interpreted near Jcc that leaves the segment. -/
def LeavesSegment (action : Action) (m : Machine H) : Prop :=
  action = .instruction ∧ EscapingBranch m.toCore

theorem action_inSegment_iff
    {action : Action} {m m' : Machine H} (hin : m.cpu.regs.InSegment)
    (hleads : action.Leads m m') : m'.cpu.regs.InSegment ↔ ¬ LeavesSegment action m := by
  by_cases hinstruction : action = .instruction
  · subst hinstruction
    cases Action.effect hleads with
    | instruction hrun =>
        rw [executeOne_inSegment_iff hin hrun]
        unfold LeavesSegment
        simp only [true_and]
  · have hin' : m'.cpu.regs.InSegment := by
      by_cases hleave : action = .leave
      · subst hleave
        cases Action.effect hleads with
        | leave hcore =>
            rw [hcore]
            exact inSegment_left m.toCore
      · exact (Action.keeps hleads hinstruction hleave).1 hin
    exact iff_of_true hin' fun hleaves => hinstruction hleaves.1

/-! ## Every trace -/

theorem ip_sixteen_iff
    {start m : Machine H} {past : List (Action × Machine H)} (hfresh : Fresh start)
    (htrace : MachineTrace start past m) :
    (IpSixteen m.toCore ∧ ∀ entry ∈ past, IpSixteen entry.2.toCore) ↔
      ∀ entry ∈ past, ¬ LeavesSegment entry.1 entry.2 := by
  have hstart := (ipSixteen_iff start.toCore).mpr (fresh_regs hfresh).1
  apply LabelledTrace.invariant_iff (P := fun m => IpSixteen m.toCore) (B := LeavesSegment)
    hstart _ htrace
  intro action old next hold hleads
  rw [ipSixteen_iff] at hold ⊢
  exact action_inSegment_iff hold hleads

/-! ## A branch backwards from the start of a segment -/

/-- A fresh machine with code at 0000:0000. -/
def codeMachine (code : List U8) : Machine HostFiles.none where
  cpu := Interpreter.new
  bus := { Bus.new none (fun _ => 0) with mem := Memory.new.loadBytes 0 code }
  dos := DosRuntime.new

theorem ip_sixteen_nop :
    ∃ m : Machine HostFiles.none,
      (IpSixteen m.toCore ∧ ∀ entry ∈ [(Action.instruction, codeMachine [0x90])],
        IpSixteen entry.2.toCore) ↔
          ∀ entry ∈ [(Action.instruction, codeMachine [0x90])],
            ¬ LeavesSegment entry.1 entry.2 := by
  rcases @Action.leads_of_map _ _ .instruction (codeMachine [0x90])
    (fun m => m.cpu.regs.ip) 0x1 (by decide +kernel) with ⟨m, hleads, -⟩
  exact ⟨m, ip_sixteen_iff (.new rfl) (.single hleads)⟩

/-- `JNE` from 0000:0000, sixteen bytes back. -/
theorem near_branch_leaves_segment :
    ∃ m, Fresh (codeMachine [0x0F, 0x85, 0xF0, 0xFF]) ∧
      MachineTrace (codeMachine [0x0F, 0x85, 0xF0, 0xFF])
        [(.instruction, codeMachine [0x0F, 0x85, 0xF0, 0xFF])] m ∧
          ¬ IpSixteen m.toCore := by
  rcases @Action.leads_of_map _ _ .instruction (codeMachine [0x0F, 0x85, 0xF0, 0xFF])
    (fun m => m.cpu.regs.ip) 0xFFFFFFF4 (by decide +kernel) with ⟨m, hleads, hip⟩
  refine ⟨m, .new rfl, .single hleads, ?_⟩
  intro hsixteen
  have hin : m.cpu.regs.ip.toNat < 2 ^ 16 := hsixteen.inSegment
  rw [hip] at hin
  revert hin
  decide

end Kita98
