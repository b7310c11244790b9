import Kita98.Division
import Kita98.WriteBack

/-!
# NOT and NEG

Group 3 has NOT behind field 2 and NEG behind field 3.  The arms have them the
other way round, so each encoding does the other's work, on its operand and on
the flags.
-/

namespace Kita98

open WordBits ByteStore Kita98.Core Exec

/-! ## Flags of a negation -/

section Flags

variable {w : ℕ} (x : BitVec w)

theorem usubOverflow_zero : (0#w).usubOverflow x = (x != 0#w) := by
  rw [BitVec.usubOverflow_eq, Bool.eq_iff_iff, bne_iff_ne, decide_eq_true_iff, BitVec.lt_def,
    BitVec.toNat_zero, Nat.pos_iff_ne_zero, ne_eq, ne_eq, ← BitVec.toNat_inj, BitVec.toNat_zero]

theorem ssubOverflow_zero (hw : 0 < w) :
    (0#w).ssubOverflow x = (x == BitVec.intMin w) := by
  have hmin : (BitVec.intMin w).toInt = -2 ^ (w - 1) := BitVec.toInt_intMin_of_pos hw
  have hlow := BitVec.le_toInt x
  have hhigh := @BitVec.toInt_lt w x
  rw [BitVec.ssubOverflow, Bool.eq_iff_iff, beq_iff_eq, ← BitVec.toInt_inj, hmin,
    Bool.or_eq_true, decide_eq_true_iff, decide_eq_true_iff, BitVec.toInt_zero]
  omega

theorem subStatus_zero (hw : 0 < w) :
    subStatus 0#w x = resultStatus (x != 0#w) (x == BitVec.intMin w) (-x) := by
  rw [subStatus, usubOverflow_zero, ssubOverflow_zero x hw, BitVec.zero_sub]

theorem not_ne_neg (hw : 0 < w) : ~~~x ≠ -x := by
  intro hsame
  have hone : ~~~x + 1#w = ~~~x + 0#w := by
    rw [← BitVec.neg_eq_not_add, ← hsame, BitVec.add_zero]
  have hzero := congrArg BitVec.toNat ((BitVec.add_right_inj _).mp hone)
  rw [BitVec.toNat_ofNat, BitVec.toNat_ofNat, Nat.zero_mod, Nat.one_mod_two_pow hw] at hzero
  omega

end Flags

/-! ## The instructions -/

inductive UnaryOp where
  | not | neg
  deriving DecidableEq, Repr

/-- The opcode of group 3. -/
def group3Opcode : StoredWidth → U8
  | .byte => 0xF6
  | .word => 0xF7

section Lengths

variable {core : Core}

theorem operandSize_le (address32 : Bool) (modrm : ModRm) (next : U8) :
    operandSize address32 modrm next ≤ 9 := by
  unfold operandSize baseSize32 sibSize addressBytes baseBytes32 dispBytes
  split_ifs <;> omega

theorem operandSize_eq_zero (address32 : Bool) {modrm : ModRm} (next : U8)
    (hmode : modrm.mode ≠ 3) :
    operandSize address32 modrm next = 0 ↔ NoAddressBytes address32 modrm := by
  unfold operandSize baseSize32 sibSize addressBytes dispBytes NoAddressBytes
  rcases memory_mode hmode with h | h | h <;> rw [h] <;> cases address32 <;> simp
  split_ifs <;> simp_all

theorem addressAt_nil (hplain : NoAddressBytes core.cpu.prefixes.address32 core.modrm) (k : ℕ) :
    core.addressAt core.modrm k = [] := by
  have hmode : core.modrm.mode ≠ 3 := by
    rw [hplain.1]
    decide
  rw [← List.length_eq_zero_iff, addressAt_length, operandSize_eq_zero _ _ hmode]
  exact hplain

/-- IP is right behind two decodings only where there is nothing to decode. -/
theorem noAddressBytes_of_ip (hmode : core.modrm.mode ≠ 3) {k : ℕ}
    (hip : skipIp (1 + (core.addressAt core.modrm 1).length + (core.addressAt core.modrm k).length)
        core.cpu.regs.ip =
      skipIp (1 + (core.addressAt core.modrm 1).length) core.cpu.regs.ip) :
    NoAddressBytes core.cpu.prefixes.address32 core.modrm := by
  have hfirst := operandSize_le core.cpu.prefixes.address32 core.modrm (core.byteAt 1)
  have hagain := operandSize_le core.cpu.prefixes.address32 core.modrm (core.byteAt k)
  rw [← addressAt_length] at hfirst hagain
  have hsame := skipIp_inj (by omega) (by omega) (by omega) (by omega) hip
  have hzero : (core.addressAt core.modrm k).length = 0 := by omega
  rw [addressAt_length, operandSize_eq_zero _ _ hmode] at hzero
  exact hzero

end Lengths

namespace UnaryOp

/-- The field that selects the operation. -/
def field : UnaryOp → BitVec 3
  | not => 2
  | neg => 3

/-- The operation behind the other field. -/
def other : UnaryOp → UnaryOp
  | not => neg
  | neg => not

section Values

variable {w : ℕ} (op : UnaryOp) (x : BitVec w)

def result : BitVec w :=
  match op with
  | not => ~~~x
  | neg => -x

def status (prior : Status) : Status :=
  match op with
  | not => prior
  | neg => resultStatus (x != 0#w) (x == BitVec.intMin w) (-x)

theorem result_ne (hw : 0 < w) : op.other.result x ≠ op.result x := by
  cases op with
  | not => exact (not_ne_neg x hw).symm
  | neg => exact not_ne_neg x hw

end Values

variable (op : UnaryOp) (width : StoredWidth) (core : Core)

/-- The address of a memory operand. -/
def ea : U32 :=
  effectiveAddress core.cpu.prefixes core.modrm core.cpu.regs (core.addressAt core.modrm 1)

def operand : BitVec width.bits :=
  if core.modrm.mode = 3 then width.size.get core.modrm.rm core.cpu.regs
  else width.size.load core.bus.mem (ea core)

/-- The machine with the result in the operand. -/
def written : Core :=
  if core.modrm.mode = 3 then
    core.setRegs (width.size.set core.modrm.rm core.cpu.regs (op.result (operand width core)))
  else core.setMem (width.size.store core.bus.mem (ea core) (op.result (operand width core)))

/-- The operation has been done on the operand and the flags, nothing else has
changed, and IP is behind the instruction. -/
structure Leaves (after : Core) : Prop where
  gp : after.cpu.regs.gp = (op.written width core).cpu.regs.gp
  seg : after.cpu.regs.seg = (op.written width core).cpu.regs.seg
  mem : after.bus.mem = (op.written width core).bus.mem
  ip : after.cpu.regs.ip = (DivInstr.behind core).cpu.regs.ip
  status : after.cpu.regs.status = op.status (operand width core) core.cpu.regs.status

/-- The opcode does the work of `op`. -/
def Performs : Prop :=
  ∃ after, dispatch (group3Opcode width) core = .ok (.proceed, after) ∧ op.Leaves width core after

/-- The operand is a register, or memory at an address without bytes of its own. -/
def InPlace : Prop :=
  core.modrm.mode = 3 ∨ NoAddressBytes core.cpu.prefixes.address32 core.modrm

/-! ## The arms -/

/-- What happens to the flags in front of the write. -/
def update {w : ℕ} (size : AluSize w) (x : BitVec w) (regs : Regs) : Regs :=
  match op with
  | not => regs
  | neg => size.updateSub regs 0#w x (~~~x + 1#w)

section Update

variable {w : ℕ} (size : AluSize w) (x : BitVec w) (regs : Regs)

theorem update_same : SameButFlags regs (op.update size x regs) := by
  cases op with
  | not => exact .refl _
  | neg => exact size.sub_same _ _ _ _

theorem update_status (hw : 0 < w) :
    (op.update size x regs).status = op.status x regs.status := by
  cases op with
  | not => rfl
  | neg =>
      have hsub := size.sub_status regs 0#w x
      rw [subStatus_zero x hw, BitVec.zero_sub] at hsub
      rw [update, ← BitVec.neg_eq_not_add]
      exact hsub

end Update

variable {op width core}

theorem dispatch_eq (hfield : core.modrm.reg = op.field) :
    dispatch (group3Opcode width) core =
      (do
        let x ← width.size.read core.modrm
        modRegs (op.other.update width.size.toAluSize x)
        width.size.write core.modrm (op.other.result x)
        return .proceed : Routine StepResult) (core.skip 1) := by
  have hneg : ∀ x : BitVec width.bits, neg.result x = ~~~x + 1#_ := fun x =>
    BitVec.neg_eq_not_add x
  cases op with
  | not =>
      simp only [other, hneg]
      cases width with
      | byte =>
          show group3Rm8 core = _
          rw [group3Rm8_apply, hfield]
          rfl
      | word =>
          show group3Rm16 core = _
          rw [group3Rm16_apply, hfield]
          rfl
  | neg =>
      cases width with
      | byte =>
          show group3Rm8 core = _
          rw [group3Rm8_apply, hfield]
          rfl
      | word =>
          show group3Rm16 core = _
          rw [group3Rm16_apply, hfield]
          rfl

theorem dispatch_reg (hfield : core.modrm.reg = op.field) (hmode : core.modrm.mode = 3) :
    dispatch (group3Opcode width) core =
      .ok (.proceed, (core.skip 1).setRegs
        (width.size.set core.modrm.rm
          (op.other.update width.size.toAluSize (operand width core) (core.skip 1).cpu.regs)
          (op.other.result (operand width core)))) := by
  have hread : width.size.read core.modrm (core.skip 1) = .ok (operand width core, core.skip 1) := by
    rw [width.size.read_reg _ hmode, operand, if_pos hmode]
    cases width <;> rfl
  rw [dispatch_eq hfield, bind_ok hread, bind_ok (modRegs_apply _ _), width.write_reg _ hmode]
  rfl

/-- The address is decoded again for the write. -/
theorem dispatch_mem (hfield : core.modrm.reg = op.field) (hmode : core.modrm.mode ≠ 3) :
    let first := core.addressAt core.modrm 1
    let again := core.addressAt core.modrm (1 + first.length)
    ∃ after, dispatch (group3Opcode width) core = .ok (.proceed, after) ∧
      SameGpSeg core.cpu.regs after.cpu.regs ∧
      after.cpu.regs.ip = skipIp (1 + first.length + again.length) core.cpu.regs.ip ∧
      after.cpu.regs.status =
        op.other.status (operand width core) core.cpu.regs.status ∧
      after.bus.mem =
        width.size.store core.bus.mem
          (effectiveAddress core.cpu.prefixes core.modrm core.cpu.regs again)
          (op.other.result (operand width core)) := by
  intro first again
  set x := operand width core with hx
  set mid := core.skip (1 + first.length) with hmid
  set flagged := mid.setRegs (op.other.update width.size.toAluSize x mid.cpu.regs) with hflagged
  have hread : width.size.read core.modrm (core.skip 1) = .ok (x, mid) := by
    rw [width.size.read_mem _ hmode, bind_ok (eaFromModrm_at hmode core 1), hx, operand,
      if_neg hmode]
    rfl
  have hsame := op.other.update_same width.size.toAluSize x mid.cpu.regs
  have hgpSeg : SameGpSeg core.cpu.regs flagged.cpu.regs := SameGpSeg.skip hsame.gpSeg
  have hagain : flagged.addressAt core.modrm 0 = again := by
    rw [@addressAt_congr mid flagged rfl hsame.2.1 hsame.2.2 rfl, hmid, addressAt_skip, Nat.add_zero]
  have hea := eaFromModrm_address flagged hmode
  have hsameEa := effectiveAddress_congr hgpSeg core.cpu.prefixes core.modrm again
  rw [hagain] at hea
  have hwrite : width.size.write core.modrm (op.other.result x) flagged =
      .ok ((), (flagged.skip again.length).setMem (width.size.store core.bus.mem
        (effectiveAddress core.cpu.prefixes core.modrm core.cpu.regs again)
          (op.other.result x))) := by
    rw [width.size.write_mem _ _ hmode, bind_ok hea, ← hsameEa]
    rfl
  refine ⟨(flagged.skip again.length).setMem (width.size.store core.bus.mem
    (effectiveAddress core.cpu.prefixes core.modrm core.cpu.regs again) (op.other.result x)),
    ?_, hgpSeg, ?_, ?_, rfl⟩
  · rw [dispatch_eq hfield, bind_ok hread, bind_ok (modRegs_apply _ _)]
    exact bind_ok hwrite
  · calc skipIp again.length flagged.cpu.regs.ip
        = skipIp again.length mid.cpu.regs.ip := congrArg _ hsame.2.2
      _ = skipIp (1 + first.length + again.length) core.cpu.regs.ip := (skipIp_add _ _ _).symm
  · exact op.other.update_status width.size.toAluSize x mid.cpu.regs width.bits_pos

/-! ## Which operation is performed -/

theorem behind_ip (hmode : core.modrm.mode ≠ 3) :
    (DivInstr.behind core).cpu.regs.ip =
      skipIp (1 + (core.addressAt core.modrm 1).length) core.cpu.regs.ip := by
  rw [DivInstr.behind, if_neg hmode]
  rfl

/-- In place, the arm performs the operation of the other field. -/
theorem performs_other (hfield : core.modrm.reg = op.field) (hplace : InPlace core) :
    op.other.Performs width core := by
  by_cases hmode : core.modrm.mode = 3
  · set x := operand width core with hx
    set regs := op.other.update width.size.toAluSize x (core.skip 1).cpu.regs with hregs
    have hsame : SameButFlags (core.skip 1).cpu.regs regs :=
      op.other.update_same width.size.toAluSize x (core.skip 1).cpu.regs
    refine ⟨_, dispatch_reg hfield hmode, ?_⟩
    constructor
    · rw [written, if_pos hmode]
      exact width.set_gp _ _ hsame.1
    · rw [written, if_pos hmode]
      calc (width.size.set core.modrm.rm regs (op.other.result x)).seg
          = regs.seg := width.size.set_seg _ _ _
        _ = core.cpu.regs.seg := hsame.2.1
        _ = (width.size.set core.modrm.rm core.cpu.regs (op.other.result x)).seg :=
          (width.size.set_seg _ _ _).symm
    · rw [written, if_pos hmode]
      rfl
    · rw [DivInstr.behind, if_pos hmode]
      exact (width.set_ip _ _ _).trans hsame.2.2
    · exact (width.set_status _ _ _).trans
        (op.other.update_status width.size.toAluSize x _ width.bits_pos)
  · have hnone := addressAt_nil (hplace.resolve_left hmode)
    rcases @dispatch_mem op width core hfield hmode with
      ⟨after, hrun, ⟨hgp, hseg⟩, hip, hstatus, hmem⟩
    simp only [hnone] at hip hmem
    refine ⟨after, hrun, ?_⟩
    constructor
    · rw [written, if_neg hmode]
      exact hgp
    · rw [written, if_neg hmode]
      exact hseg
    · rw [written, if_neg hmode, hmem, ea, hnone]
      rfl
    · rw [hip, behind_ip hmode, hnone]
      rfl
    · exact hstatus

/-- The operation of the field itself is never performed. -/
theorem not_performs (hfield : core.modrm.reg = op.field) :
    ¬ op.Performs width core := by
  rintro ⟨after, hrun, hleaves⟩
  have hne : op.other.result (operand width core) ≠ op.result (operand width core) :=
    op.result_ne _ width.bits_pos
  have hplace : InPlace core := by
    by_cases hmode : core.modrm.mode = 3
    · exact .inl hmode
    · rcases @dispatch_mem op width core hfield hmode with ⟨after', hrun', -, hip, -, -⟩
      cases hrun.symm.trans hrun'
      exact .inr (noAddressBytes_of_ip hmode (hip.symm.trans (hleaves.ip.trans (behind_ip hmode))))
  rcases @performs_other op width core hfield hplace with ⟨after', hrun', hother⟩
  cases hrun.symm.trans hrun'
  by_cases hmode : core.modrm.mode = 3
  · have hgp := hother.gp.symm.trans hleaves.gp
    rw [written, written, if_pos hmode, if_pos hmode] at hgp
    have hget := width.get_congr core.modrm.rm hgp
    exact hne ((width.get_set _ _ _).symm.trans (hget.trans (width.get_set _ _ _)))
  · have hmem := hother.mem.symm.trans hleaves.mem
    rw [written, written, if_neg hmode, if_neg hmode] at hmem
    have hload := congrArg (fun mem => width.size.load mem (ea core)) hmem
    exact hne ((width.load_store _ _ _).symm.trans (hload.trans (width.load_store _ _ _)))

end UnaryOp

/-- The fields of NOT and NEG never do what they stand for; on an operand in place
each does what the other stands for. -/
theorem not_neg_swapped (op : UnaryOp) (width : StoredWidth) (core : Core)
    (hfield : core.modrm.reg = op.field) :
    ¬ op.Performs width core ∧ (UnaryOp.InPlace core → op.other.Performs width core) := by
  constructor
  · exact UnaryOp.not_performs hfield
  · intro hplace
    exact UnaryOp.performs_other hfield hplace

/-- `F6 D0`, NOT AL. -/
theorem not_neg_swapped_al :
    ¬ UnaryOp.not.Performs .byte (operandCore [0xD0]) ∧
      (UnaryOp.InPlace (operandCore [0xD0]) → UnaryOp.neg.Performs .byte (operandCore [0xD0])) := by
  have hfield : (operandCore [0xD0]).modrm.reg = UnaryOp.not.field := by decide
  exact not_neg_swapped .not .byte (operandCore [0xD0]) hfield

/-- NOT AL with AL = 0 leaves 0 in AL. -/
theorem not_al_negated :
    (operandCore [0xD0]).modrm.reg = UnaryOp.not.field ∧
      (dispatch 0xF6 (operandCore [0xD0])).map (fun run => run.2.cpu.regs.get8 .AL) = .ok 0 ∧
      (UnaryOp.not.result (UnaryOp.operand .byte (operandCore [0xD0]))).toNat = 0xFF ∧
      ¬ UnaryOp.not.Performs .byte (operandCore [0xD0]) := by
  have hfield : (operandCore [0xD0]).modrm.reg = UnaryOp.not.field := by decide
  exact ⟨hfield, by decide +kernel, by decide +kernel, UnaryOp.not_performs hfield⟩

end Kita98
