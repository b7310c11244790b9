import Kita98.OperandOrder

/-!
# Immediate arithmetic and its destination

The arms of group 1 drop the value that the function of the group returns, so an
operand comes out as it went in.  It holds what the instruction asks for when the
operation keeps its destination.
-/

namespace Kita98

open WordBits ByteStore Kita98.Core Exec

/-! ## Operands of one size, as they are stored -/

structure StoredSize (w : ℕ) extends AluSize w where
  set : BitVec 3 → Regs → BitVec w → Regs
  set_seg : ∀ field regs v, (set field regs v).seg = regs.seg
  set_gp_iff : ∀ field regs v, (set field regs v).gp = regs.gp ↔ v = get field regs
  store_iff : ∀ mem ea v, store mem ea v = mem ↔ v = load mem ea

theorem get8_set8_self (regs : Regs) (r : Reg8) (v : U8) : (regs.set8 r v).get8 r = v := by
  cases r <;> simp only [Regs.get8, Regs.set8, Regs.setLow8, Regs.setHigh8, Function.update_self,
    low_of_setLow, high_of_setHigh]

theorem get8_set8_of_ne (regs : Regs) {r r' : Reg8} (v : U8) (hne : r' ≠ r) :
    (regs.set8 r v).get8 r' = regs.get8 r' := by
  cases r <;> cases r' <;>
    first
      | exact absurd rfl hne
      | simp only [Regs.get8, Regs.set8, Regs.setLow8, Regs.setHigh8, Function.update_self,
          Function.update_of_ne, ne_eq, reduceCtorEq, not_false_eq_true, low_of_setHigh,
          high_of_setLow]

theorem set8_get8 (regs : Regs) (r : Reg8) : regs.set8 r (regs.get8 r) = regs := by
  cases r <;> simp only [Regs.get8, Regs.set8, Regs.setLow8, Regs.setHigh8, setLow_low,
    setHigh_high, Function.update_eq_self]

theorem get8_congr {regs regs' : Regs} (hgp : regs'.gp = regs.gp) (r : Reg8) :
    regs'.get8 r = regs.get8 r := by
  unfold Regs.get8
  rw [hgp]

theorem set8_gp_iff (r : Reg8) (regs : Regs) (v : U8) :
    (regs.set8 r v).gp = regs.gp ↔ v = regs.get8 r := by
  constructor
  · intro hgp
    rw [← get8_congr hgp, get8_set8_self]
  · intro hv
    rw [hv, set8_get8]

theorem set16_gp_iff (r : Reg16) (regs : Regs) (v : U16) :
    (regs.set16 r v).gp = regs.gp ↔ v = regs.get16 r := by
  constructor
  · intro hgp
    calc v = (regs.set16 r v).get16 r := (Regs.get16_set16_self regs r v).symm
      _ = regs.get16 r := by rw [Regs.get16, hgp, Regs.get16]
  · intro hv
    rw [hv, Regs.set16_get16]

theorem writeU8_iff (mem : Memory) (ea : U32) (v : U8) :
    mem.writeU8 ea v = mem ↔ v = mem.readU8 ea := by
  constructor
  · intro hsame
    rw [← hsame]
    exact (write_self _ _ _).symm
  · intro hv
    subst hv
    apply Memory.ext
    funext c
    by_cases hc : c = Memory.cell ea
    · subst hc
      exact write_self _ _ _
    · exact write_of_ne _ _ hc

theorem writeU16_iff (mem : Memory) (ea : U32) (v : U16) :
    mem.writeU16 ea v = mem ↔ v = mem.readU16 ea := by
  constructor
  · intro hsame
    rw [← hsame, Memory.readU16_writeU16_self]
  · intro hv
    have hlow : mem.writeU8 ea (lowByte v) = mem := by
      rw [writeU8_iff, hv, Memory.readU16, lowByte_joinBytes]
    rw [Memory.writeU16, hlow, writeU8_iff, hv, Memory.readU16, highByte_joinBytes]

def byteStored : StoredSize 8 where
  toAluSize := byteAlu
  set := fun field regs v => regs.set8 (reg8FromField field) v
  set_seg := fun _ _ _ => Regs.set8_seg _ _ _
  set_gp_iff := fun _ _ _ => set8_gp_iff _ _ _
  store_iff := writeU8_iff

def wordStored : StoredSize 16 where
  toAluSize := wordAlu
  set := fun field regs v => regs.set16 (reg16FromField field) v
  set_seg := fun _ _ _ => rfl
  set_gp_iff := fun _ _ _ => set16_gp_iff _ _ _
  store_iff := writeU16_iff

theorem status_set8 (regs : Regs) (r : Reg8) (v : U8) : (regs.set8 r v).status = regs.status := by
  simp only [Regs.status, Regs.getCf, Regs.getZf, Regs.getSf, Regs.getOf, Regs.getPf,
    Regs.flag_of_set8]

inductive StoredWidth where
  | byte | word
  deriving DecidableEq, Repr

namespace StoredWidth

def bits : StoredWidth → ℕ
  | byte => 8
  | word => 16

def size : (width : StoredWidth) → StoredSize width.bits
  | byte => byteStored
  | word => wordStored

variable (width : StoredWidth)

theorem bits_pos : 0 < width.bits := by cases width <;> decide

section Access

variable (regs : Regs) (mem : Memory) (rm : BitVec 3) (r : BitVec width.bits)

theorem write_reg {modrm : ModRm} (hmode : modrm.mode = 3) :
    width.size.write modrm r = modRegs fun regs => width.size.set modrm.rm regs r := by
  cases width <;> exact if_pos hmode

theorem get_set : width.size.get rm (width.size.set rm regs r) = r := by
  cases width with
  | byte => exact get8_set8_self _ _ _
  | word => exact Regs.get16_set16_self _ _ _

theorem load_store (ea : U32) : width.size.load (width.size.store mem ea r) ea = r := by
  cases width with
  | byte => exact write_self _ _ _
  | word => exact Memory.readU16_writeU16_self _ _ _

theorem set_ip : (width.size.set rm regs r).ip = regs.ip := by
  cases width with
  | byte => exact Regs.set8_ip _ _ _
  | word => rfl

theorem set_flags : (width.size.set rm regs r).flags = regs.flags := by
  cases width with
  | byte => exact Regs.set8_flags _ _ _
  | word => rfl

theorem set_status : (width.size.set rm regs r).status = regs.status := by
  cases width with
  | byte => exact status_set8 _ _ _
  | word => rfl

theorem set_gp {regs regs' : Regs} (hgp : regs'.gp = regs.gp) :
    (width.size.set rm regs' r).gp = (width.size.set rm regs r).gp := by
  cases width with
  | byte =>
      simp only [size, byteStored]
      cases reg8FromField rm <;> simp only [Regs.set8, Regs.setLow8, Regs.setHigh8, hgp]
  | word => simp only [size, wordStored, Regs.set16, hgp]

theorem get_congr {regs regs' : Regs} (hgp : regs'.gp = regs.gp) :
    width.size.get rm regs' = width.size.get rm regs := by
  cases width with
  | byte => exact get8_congr hgp _
  | word =>
      show regs'.get16 _ = regs.get16 _
      rw [Regs.get16, Regs.get16, hgp]

end Access

end StoredWidth

/-! ## The opcodes -/

inductive Group1Opcode where
  | op80 | op81 | op82 | op83
  deriving DecidableEq, Repr

namespace Group1Opcode

def byte : Group1Opcode → U8
  | op80 => 0x80
  | op81 => 0x81
  | op82 => 0x82
  | op83 => 0x83

def instr : Group1Opcode → ImmInstr
  | op80 | op82 => .group1Rm8Imm8
  | op81 => .group1Rm16Imm16
  | op83 => .group1Rm16Imm8

def bits : Group1Opcode → ℕ
  | op80 | op82 => 8
  | op81 | op83 => 16

def size : (op : Group1Opcode) → StoredSize op.bits
  | op80 | op82 => byteStored
  | op81 | op83 => wordStored

/-- The immediate; `83` extends its byte with the sign. -/
def immOf : (op : Group1Opcode) → List U8 → BitVec op.bits
  | op80, imm | op82, imm => byteImm imm
  | op81, imm => wordImm imm
  | op83, imm => (byteImm imm).signExtend 16

variable (op : Group1Opcode) (core : Core)

/-- The address of a memory operand, from the encoded address bytes. -/
def ea : U32 :=
  effectiveAddress core.cpu.prefixes core.modrm core.cpu.regs (op.instr.encoded core).address

def imm : BitVec op.bits := op.immOf (op.instr.encoded core).imm

def dst : BitVec op.bits :=
  if core.modrm.mode = 3 then op.size.get core.modrm.rm core.cpu.regs
  else op.size.load core.bus.mem (op.ea core)

/-- What the operand is to hold. -/
def result : BitVec op.bits :=
  group1Value core.modrm.reg (op.dst core) (op.imm core) (carry op.bits core.cpu.regs)

/-- The machine with the result in the operand. -/
def written : Core :=
  if core.modrm.mode = 3 then
    core.setRegs (op.size.set core.modrm.rm core.cpu.regs (op.result core))
  else core.setMem (op.size.store core.bus.mem (op.ea core) (op.result core))

/-- The operand holds the result, and every other register and byte of memory is
unchanged; IP and the flags are left out. -/
structure WritesBack (after : Core) : Prop where
  gp : after.cpu.regs.gp = (op.written core).cpu.regs.gp
  seg : after.cpu.regs.seg = (op.written core).cpu.regs.seg
  mem : after.bus.mem = (op.written core).bus.mem

end Group1Opcode

/-! ## Operations that keep their destination -/

section Values

variable {w : ℕ}

/-- Nothing is added or taken away, the bits of OR are in the destination already,
and those of the destination are in the mask of AND; CMP writes nothing. -/
def KeepsOperand (field : BitVec 3) (dst imm cf : BitVec w) : Prop :=
  match field with
  | 1 => imm &&& ~~~dst = 0
  | 2 | 3 => imm + cf = 0
  | 4 => dst &&& ~~~imm = 0
  | 7 => True
  | _ => imm = 0

theorem or_eq_left_iff (dst imm : BitVec w) : dst ||| imm = dst ↔ imm &&& ~~~dst = 0 := by
  constructor
  · intro hor
    calc imm &&& ~~~dst = imm &&& ~~~(dst ||| imm) := by rw [hor]
      _ = 0 := by
        ext i hi
        cases hbit : imm[i] <;> simp [hbit]
  · intro hnone
    ext i hi
    have hbit : (imm &&& ~~~dst)[i] = (0 : BitVec w)[i] := by rw [hnone]
    cases hdst : dst[i] with
    | true => simp [hdst]
    | false => simpa [hdst] using hbit

theorem and_eq_left_iff (dst imm : BitVec w) : dst &&& imm = dst ↔ dst &&& ~~~imm = 0 := by
  constructor
  · intro hand
    calc dst &&& ~~~imm = dst &&& imm &&& ~~~imm := by rw [hand]
      _ = 0 := by
        ext i hi
        cases hbit : imm[i] <;> simp [hbit]
  · intro hnone
    ext i hi
    have hbit : (dst &&& ~~~imm)[i] = (0 : BitVec w)[i] := by rw [hnone]
    cases himm : imm[i] with
    | true => simp [himm]
    | false => simpa [himm] using hbit

theorem xor_eq_left_iff (dst imm : BitVec w) : dst ^^^ imm = dst ↔ imm = 0 := by
  constructor
  · intro hxor
    calc imm = dst ^^^ (dst ^^^ imm) := by rw [← BitVec.xor_assoc, BitVec.xor_self, BitVec.zero_xor]
      _ = 0 := by rw [hxor]; exact BitVec.xor_self
  · intro hzero
    rw [hzero]
    exact BitVec.xor_zero

theorem group1Value_eq_iff (field : BitVec 3) (dst imm cf : BitVec w) :
    group1Value field dst imm cf = dst ↔ KeepsOperand field dst imm cf := by
  rcases field_cases field with h | h | h | h | h | h | h | h <;> subst h
  · exact add_eq_left
  · exact or_eq_left_iff dst imm
  · exact (add_assoc dst imm cf ▸ add_eq_left : dst + imm + cf = dst ↔ imm + cf = 0)
  · exact (sub_sub dst imm cf ▸ sub_eq_self : dst - imm - cf = dst ↔ imm + cf = 0)
  · exact and_eq_left_iff dst imm
  · exact sub_eq_self
  · exact xor_eq_left_iff dst imm
  · exact iff_of_true rfl trivial

end Values

/-! ## What the arms do -/

/-- Everything that group 1 may change is the flags and IP. -/
structure KeepsOperands (core after : Core) : Prop where
  gp : after.cpu.regs.gp = core.cpu.regs.gp
  seg : after.cpu.regs.seg = core.cpu.regs.seg
  mem : after.bus.mem = core.bus.mem

theorem KeepsOperands.of_skip {core after : Core} {n : ℕ}
    (hkeeps : KeepsOperands (core.skip n) after) : KeepsOperands core after :=
  ⟨hkeeps.gp, hkeeps.seg, hkeeps.mem⟩

theorem group1_keeps {w : ℕ} (size : AluSize w) (modrm : ModRm) (imm : BitVec w) (core : Core) :
    ∃ after, (do let _ ← size.group1 modrm imm; return .proceed : Routine StepResult) core =
      .ok (.proceed, after) ∧ KeepsOperands core after := by
  rcases size.read_returns modrm core with ⟨dst, n, hread⟩
  rcases size.group1_run imm hread with ⟨regs, ⟨hgp, hseg, -⟩, -, hrun⟩
  rw [bind_ok hrun]
  exact ⟨_, rfl, hgp, hseg, rfl⟩

namespace Group1Opcode

theorem dispatch_keeps (op : Group1Opcode) (core : Core) :
    ∃ after, dispatch op.byte core = .ok (.proceed, after) ∧ KeepsOperands core after := by
  cases op with
  | op80 | op82 =>
      rcases group1_keeps byteAlu core.modrm (byteImm (core.bytesAt 1 1)) (core.skip 2)
        with ⟨after, hrun, hkeeps⟩
      exact ⟨after, hrun, hkeeps.of_skip⟩
  | op81 =>
      rcases group1_keeps wordAlu core.modrm (wordImm (core.bytesAt 1 2)) (core.skip 3)
        with ⟨after, hrun, hkeeps⟩
      exact ⟨after, hrun, hkeeps.of_skip⟩
  | op83 =>
      rcases group1_keeps wordAlu core.modrm ((byteImm (core.bytesAt 1 1)).signExtend 16)
        (core.skip 2) with ⟨after, hrun, hkeeps⟩
      exact ⟨after, hrun, hkeeps.of_skip⟩

theorem written_iff (op : Group1Opcode) (core : Core) :
    (op.written core).cpu.regs.gp = core.cpu.regs.gp ∧
        (op.written core).bus.mem = core.bus.mem ↔ op.result core = op.dst core := by
  unfold written dst
  by_cases hmode : core.modrm.mode = 3
  · simp only [if_pos hmode]
    exact (and_iff_left rfl).trans (op.size.set_gp_iff _ _ _)
  · simp only [if_neg hmode]
    exact (and_iff_right rfl).trans (op.size.store_iff _ _ _)

theorem written_seg (op : Group1Opcode) (core : Core) :
    (op.written core).cpu.regs.seg = core.cpu.regs.seg := by
  unfold written
  by_cases hmode : core.modrm.mode = 3
  · rw [if_pos hmode]
    exact op.size.set_seg _ _ _
  · rw [if_neg hmode]
    rfl

theorem writesBack_iff_result (op : Group1Opcode) (core : Core) :
    (∃ after, dispatch op.byte core = .ok (.proceed, after) ∧ op.WritesBack core after) ↔
      op.result core = op.dst core := by
  rcases op.dispatch_keeps core with ⟨after, hrun, hkeeps⟩
  rw [← written_iff]
  constructor
  · rintro ⟨after', hrun', hwrites⟩
    cases hrun.symm.trans hrun'
    exact ⟨hwrites.gp.symm.trans hkeeps.gp, hwrites.mem.symm.trans hkeeps.mem⟩
  · rintro ⟨hgp, hmem⟩
    exact ⟨after, hrun, hkeeps.gp.trans hgp.symm, hkeeps.seg.trans (op.written_seg core).symm,
      hkeeps.mem.trans hmem.symm⟩

theorem writes_back_iff (op : Group1Opcode) (core : Core) :
    (∃ after, dispatch op.byte core = .ok (.proceed, after) ∧ op.WritesBack core after) ↔
      KeepsOperand core.modrm.reg (op.dst core) (op.imm core)
        (carry op.bits core.cpu.regs) := by
  rw [writesBack_iff_result, result, group1Value_eq_iff]

end Group1Opcode

/-- `ADD AL, 5` with AL = 0 leaves AL as it is. -/
theorem add_not_written_back :
    (dispatch 0x80 (operandCore [0xC0, 0x05])).map (fun run => run.2.cpu.regs.get8 .AL) = .ok 0 ∧
      (Group1Opcode.op80.result (operandCore [0xC0, 0x05])).toNat = 5 ∧
      ¬ ∃ after, dispatch 0x80 (operandCore [0xC0, 0x05]) = .ok (.proceed, after) ∧
        Group1Opcode.op80.WritesBack (operandCore [0xC0, 0x05]) after := by
  refine ⟨by decide +kernel, by decide +kernel, ?_⟩
  have hiff := Group1Opcode.op80.writesBack_iff_result (operandCore [0xC0, 0x05])
  rw [← BitVec.toNat_inj] at hiff
  exact mt hiff.mp (by decide +kernel)

end Kita98
