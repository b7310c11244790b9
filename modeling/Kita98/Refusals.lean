import Kita98.ArmResults
import Kita98.InstructionEnd

/-!
# Refused instructions

A refusal changes nothing but IP, which stays behind the bytes that have been
fetched: the prefix bytes, the opcode, and in group FF the ModRM byte.  The
next instruction is fetched from there.
-/

namespace Kita98

open Exec

/-- Bytes fetched of a refused instruction whose opcode is the `k`-th byte. -/
def Core.refusedLength (core : Core) (k : ℕ) : ℕ :=
  if core.byteAt k = 0xFF then k + 2 else k + 1

/-- The registers, IP and the flags among them, and the bus are as before. -/
structure Traceless (core next : Core) : Prop where
  regs : next.cpu.regs = core.cpu.regs
  bus : next.bus = core.bus

/-- The bytes fetched of the instruction go once round the segment. -/
def FillsSegment (core : Core) : Prop :=
  core.cpu.regs.ip.toNat < 2 ^ 16 ∧ ∃ k, OpcodeAt core k ∧ core.refusedLength k = 2 ^ 16

/-! ## What a refusal leaves -/

theorem dispatch_refused_state
    {core next : Core} {k : ℕ} {op : U8}
    (hrun : dispatch (core.byteAt k) (core.atRound k) = .ok (.unimplemented op, next)) :
    op = core.byteAt k ∧ next.bus = core.bus ∧
      next.cpu.regs =
        { core.cpu.regs with ip := skipIp (core.refusedLength k) core.cpu.regs.ip } := by
  unfold Core.refusedLength
  rcases dispatch_refuses hrun with ⟨hop, ⟨hother, rfl⟩ | ⟨hgroup, modrm, hfetch, -⟩⟩
  · rw [if_neg hother]
    exact ⟨hop, rfl, rfl⟩
  · rw [if_pos hgroup]
    cases hfetch
    refine ⟨hop, rfl, ?_⟩
    have hip : skipIp (k + 2) core.cpu.regs.ip =
        skipIp 1 (skipIp (k + 1) core.cpu.regs.ip) := skipIp_add (k + 1) 1 _
    rw [hip]
    rfl

theorem executeOne_refused_state
    {core next : Core} {op : U8} (hrun : executeOne core = .ok (.unimplemented op, next)) :
    ∃ k, OpcodeAt core k ∧ op = core.byteAt k ∧ next.bus = core.bus ∧
      next.cpu.regs =
        { core.cpu.regs with ip := skipIp (core.refusedLength k) core.cpu.regs.ip } := by
  have hrunning : core.halted = false := by
    rw [← Bool.not_eq_true]
    intro hhalted
    rw [executeOne_of_halted hhalted] at hrun
    cases hrun
  rcases executeOne_returns hrunning hrun with ⟨k, mid, hopcode, hdispatch, rfl⟩
  rcases dispatch_refused_state hdispatch with ⟨hop, hbus, hregs⟩
  exact ⟨k, hopcode, hop, hbus, hregs⟩

theorem refusedLength_pos (core : Core) (k : ℕ) : 0 < core.refusedLength k := by
  unfold Core.refusedLength
  split <;> omega

theorem refusedLength_le {core : Core} {k : ℕ} (hopcode : OpcodeAt core k) :
    core.refusedLength k < 2 ^ 17 := by
  have hround := hopcode.lt_prefixFuel
  unfold prefixFuel at hround
  unfold Core.refusedLength
  split <;> omega

theorem refused_traceless_iff
    {core next : Core} {op : U8} (hrun : executeOne core = .ok (.unimplemented op, next)) :
    Traceless core next ↔ FillsSegment core := by
  rcases executeOne_refused_state hrun with ⟨k, hopcode, -, hbus, hregs⟩
  have hpos := refusedLength_pos core k
  constructor
  · rintro ⟨hsame, -⟩
    have hip : skipIp (core.refusedLength k) core.cpu.regs.ip = core.cpu.regs.ip :=
      congrArg Regs.ip (hregs.symm.trans hsame)
    rw [skipIp_eq_iff _ hpos] at hip
    have hbound := refusedLength_le hopcode
    refine ⟨hip.1, k, hopcode, ?_⟩
    omega
  · rintro ⟨hoffset, k', hopcode', hlength⟩
    cases hopcode.unique hopcode'
    constructor
    · rw [hregs, (skipIp_eq_iff _ hpos).mpr ⟨hoffset, by omega⟩]
    · exact hbus

/-! ## A repeat prefix -/

/-- A fresh machine in front of `REP MOVSB`. -/
def repCore : Core where
  cpu := Interpreter.new
  bus :=
    { Bus.new none (fun _ => 0) with mem := Memory.new.loadBytes 0 [0xF3, 0xA4] }

theorem repCore_refused :
    ∃ next, executeOne repCore = .ok (.unimplemented 0xF3, next) ∧ next.cpu.regs.ip = 1 := by
  have hrun : (executeOne repCore).toOption.map (fun last => (last.1, last.2.cpu.regs.ip)) =
      some (.unimplemented 0xF3, 1) := by
    decide +kernel
  rcases exists_of_map _ hrun with ⟨⟨result, next⟩, hexecute, hlast⟩
  obtain ⟨rfl, hip⟩ := Prod.mk.inj hlast
  exact ⟨next, hexecute, hip⟩

theorem refused_traceless_rep :
    ∃ next, executeOne repCore = .ok (.unimplemented 0xF3, next) ∧
      (Traceless repCore next ↔ FillsSegment repCore) := by
  rcases repCore_refused with ⟨next, hrun, -⟩
  exact ⟨next, hrun, refused_traceless_iff hrun⟩

/-- The next instruction is fetched behind the refused prefix. -/
theorem rep_leaves_ip_behind :
    ∃ next, executeOne repCore = .ok (.unimplemented 0xF3, next) ∧ ¬ Traceless repCore next := by
  rcases repCore_refused with ⟨next, hrun, hip⟩
  refine ⟨next, hrun, ?_⟩
  intro htraceless
  rw [htraceless.regs] at hip
  revert hip
  decide

end Kita98
