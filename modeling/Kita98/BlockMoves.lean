import Kita98.StringElements

/-!
# Repeated moves and fills

`REP MOVS` and `REP STOS` run until CX is zero.  Where the elements written do
not overlap, and none of them is a source element, each of them holds its
source element (or the accumulator) at the end, and every other cell is as it
was.
-/

namespace Kita98

open WordBits ByteStore RecordStore Kita98.Core Memory Exec

inductive BlockInstr where
  | movs
  | stos
  deriving DecidableEq, Repr

namespace BlockInstr

def opcode : BlockInstr → ElementSize → U8
  | movs, .byte => 0xA4
  | movs, .word => 0xA5
  | stos, .byte => 0xAA
  | stos, .word => 0xAB

def body : BlockInstr → ElementSize → Routine Unit
  | movs, .byte => movsb
  | movs, .word => movsw
  | stos, .byte => stosb
  | stos, .word => stosw

theorem stringOp_opcode (instr : BlockInstr) (size : ElementSize) :
    stringOp (instr.opcode size) = some (instr.body size, false) := by
  cases instr <;> cases size <;> rfl

/-- The `i`-th element, read from `data` or taken from the accumulator. -/
def element (instr : BlockInstr) (size : ElementSize) (core : Core) (data : Cell → U8) (i : ℕ) :
    BitVec size.bits :=
  match instr with
  | movs => size.read data (core.sourcePlace size i)
  | stos => size.accumulator core.cpu.regs

/-- SI after `i` elements; a fill does not have it. -/
def source (instr : BlockInstr) (size : ElementSize) (core : Core) (i : ℕ) : U16 :=
  match instr with
  | movs => core.pointer size .SI i
  | stos => core.cpu.regs.get16 .SI

/-- What the instruction does, as a function of the machine. -/
def step (instr : BlockInstr) (size : ElementSize) (core : Core) : Core :=
  let stored := core.setMem
    ⟨size.write core.bus.mem.data (core.destPlace size 0) (instr.element size core core.bus.mem.data 0)⟩
  match instr with
  | movs => stored.setRegs
      ((core.cpu.regs.strAdvance .SI size.bytes).strAdvance .DI size.bytes)
  | stos => stored.setRegs (core.cpu.regs.strAdvance .DI size.bytes)

theorem segWriteU16_eq (mem : Memory) (seg : U16) (off : U32) (v : U16) :
    mem.segWriteU16 seg off v = ⟨writeWord mem.data (cell (phys seg off)) v⟩ :=
  Memory.ext (writeU16_data mem (phys seg off) v)

theorem body_apply (instr : BlockInstr) (size : ElementSize) (core : Core) :
    instr.body size core = .ok ((), instr.step size core) := by
  cases instr with
  | movs =>
      simp only [step, element, destPlace_zero, sourcePlace_zero]
      cases size with
      | byte => rfl
      | word =>
          have hmove : movsw core = .ok ((), (core.setMem
              (core.bus.mem.segWriteU16 (core.cpu.regs.getSeg .ES)
                ((core.cpu.regs.get16 .DI).setWidth 32)
                (core.bus.mem.segReadU16
                  (core.cpu.regs.getSeg (core.cpu.prefixes.segOverride.getD .DS))
                  ((core.cpu.regs.get16 .SI).setWidth 32)))).setRegs
              ((core.cpu.regs.strAdvance .SI 2).strAdvance .DI 2)) := rfl
          rw [segWriteU16_eq, segReadU16, readU16_eq] at hmove
          exact hmove
  | stos =>
      simp only [step, element, destPlace_zero]
      cases size with
      | byte => rfl
      | word =>
          have hfill : stosw core = .ok ((), (core.setMem
              (core.bus.mem.segWriteU16 (core.cpu.regs.getSeg .ES)
                ((core.cpu.regs.get16 .DI).setWidth 32) (core.cpu.regs.get16 .AX))).setRegs
              (core.cpu.regs.strAdvance .DI 2)) := rfl
          rw [segWriteU16_eq] at hfill
          exact hfill

/-! ## Rounds -/

/-- The machine with `i` elements written and `mem` as its memory. -/
def stage (instr : BlockInstr) (size : ElementSize) (core : Core) (i : ℕ) (mem : Memory) : Core :=
  (core.setRegs (core.cpu.regs.withCounters (core.cpu.regs.get16 .CX - BitVec.ofNat 16 i)
    (instr.source size core i) (core.pointer size .DI i))).setMem mem

variable (instr : BlockInstr) (size : ElementSize) (core : Core)

theorem stage_zero : instr.stage size core 0 core.bus.mem = core := by
  have hcounters := core.cpu.regs.withCounters_self
  cases instr <;> simp [stage, source, hcounters] <;> rfl

theorem step_cx (c : Core) :
    (instr.step size c).cpu.regs.get16 .CX = c.cpu.regs.get16 .CX := by
  cases instr <;> simp [step, Regs.strAdvance_eq, Regs.get16_set16_of_ne]

theorem countedStep_stage (i : ℕ) (mem : Memory) :
    countedStep (instr.step size) (instr.stage size core i mem) =
      instr.stage size core (i + 1)
        ⟨size.write mem.data (core.destPlace size i) (instr.element size core mem.data i)⟩ := by
  cases instr with
  | movs =>
      simp [countedStep, stage, step, source, element, destPlace_zero, sourcePlace_zero,
        pointer_succ]
      rw [Regs.counter_succ]
      rfl
  | stos =>
      simp [countedStep, stage, step, source, element, destPlace_zero, pointer_succ]
      rw [Regs.counter_succ]
      rfl

/-- The cells of the source elements of a move are none of those it writes. -/
def SourceApart (n : ℕ) : Prop :=
  instr = .movs → ∀ i < n, ∀ j < n,
    Disjoint (size.cells (core.sourcePlace size i)) (size.cells (core.destPlace size j))

instance (n : ℕ) : Decidable (instr.SourceApart size core n) := by
  unfold SourceApart
  infer_instance

/-- The first `n` elements stand at ES:DI, and nothing else has changed. -/
abbrev Transferred (n : ℕ) (mem : Memory) : Prop :=
  Stored size.cells size.read (core.destPlace size)
    (instr.element size core core.bus.mem.data) n core.bus.mem.data mem.data

variable {instr size core}

theorem element_of_transferred {i n : ℕ} {mem : Memory} (hi : i < n)
    (hstored : instr.Transferred size core i mem) (hapart : instr.SourceApart size core n) :
    instr.element size core mem.data i = instr.element size core core.bus.mem.data i := by
  cases instr with
  | movs =>
      apply hstored.read_apart size.records
      intro j hj
      exact hapart rfl i hi j (Nat.lt_trans hj hi)
  | stos => rfl

theorem rounds_transfer {n : ℕ} (hfits : n * size.bytes.toNat ≤ 2 ^ 16)
    (hapart : instr.SourceApart size core n) {i : ℕ} (hi : i ≤ n) :
    ∃ mem, (countedStep (instr.step size))^[i] core = instr.stage size core i mem ∧
      instr.Transferred size core i mem := by
  induction i with
  | zero => exact ⟨core.bus.mem, (instr.stage_zero size core).symm, .zero⟩
  | succ i ih =>
      rcases ih (Nat.le_of_succ_le hi) with ⟨mem, hrounds, hstored⟩
      refine ⟨⟨size.write mem.data (core.destPlace size i)
        (instr.element size core core.bus.mem.data i)⟩, ?_, hstored.succ size.records ?_⟩
      · rw [Function.iterate_succ_apply', hrounds, countedStep_stage,
          element_of_transferred hi hstored hapart]
      · intro j hj
        apply destPlace_apart hj
        have hsize : 0 < size.bytes.toNat := by
          cases size <;> decide
        have hless := Nat.mul_lt_mul_of_pos_right hi hsize
        omega

end BlockInstr

/-- With CX = `n`, the instruction leaves CX at zero and the pointers `n`
elements on, and has written its `n` elements. -/
theorem rep_transfers_block
    {core : Core} {instr : BlockInstr} {size : ElementSize} {k n : ℕ}
    (hbehind : Behind prefixEffect core (instr.opcode size) k)
    (hcx : (core.cpu.regs.get16 .CX).toNat = n)
    (hfits : size = .word → n ≤ 32768)
    (hapart : instr.SourceApart size (core.behind prefixEffect k) n) :
    ∃ mem, dispatchString 0xF3 core =
        .ok (.proceed, ((core.behind prefixEffect k).setRegs
          ((core.behind prefixEffect k).cpu.regs.withCounters 0
            (instr.source size (core.behind prefixEffect k) n)
            ((core.behind prefixEffect k).pointer size .DI n))).setMem mem) ∧
      instr.Transferred size (core.behind prefixEffect k) n mem := by
  have hends : EndsAfter (instr.step size) (StopsOn false false)
      (core.behind prefixEffect k) n := by
    constructor
    · exact Nat.le_of_eq hcx.symm
    · intro i hpos hi hstop
      exact Bool.false_ne_true hstop.1
    · exact .inl hcx.symm
  have hrun := rep_rounds hbehind (instr.stringOp_opcode size) (instr.body_apply size)
    (instr.step_cx size) hends
  have hsize : n * size.bytes.toNat ≤ 2 ^ 16 := by
    have hbound := (core.cpu.regs.get16 .CX).isLt
    cases size with
    | byte =>
        simp only [ElementSize.bytes]
        bv_omega
    | word =>
        have hword := hfits rfl
        simp only [ElementSize.bytes]
        bv_omega
  have hzero : (core.behind prefixEffect k).cpu.regs.get16 .CX - BitVec.ofNat 16 n = 0 := by
    have hsame : (core.behind prefixEffect k).cpu.regs.get16 .CX = core.cpu.regs.get16 .CX := rfl
    rw [hsame, ← hcx, BitVec.ofNat_toNat, BitVec.setWidth_eq, BitVec.sub_self]
    rfl
  rcases BlockInstr.rounds_transfer hsize hapart (Nat.le_refl n) with ⟨mem, hrounds, hstored⟩
  refine ⟨mem, ?_, hstored⟩
  rw [hrun, hrounds, BlockInstr.stage, hzero]

/-- `CS: MOVSW` behind `REP`, two words downwards, the first at 1000:FFFF. -/
def movswCore : Core :=
  let core := operandCore [0x2E, 0xA5]
  core.setRegs ((((core.cpu.regs.withCounters 2 0x200 0xFFFF).setSeg .ES 0x1000).setSeg .DS
    0x1FFF).setDf true)

theorem movswCore_behind : Behind prefixEffect movswCore (BlockInstr.movs.opcode .word) 1 := by
  constructor
  · decide +kernel
  · decide
  · decide +kernel

theorem rep_transfers_two_words :
    ∃ mem, dispatchString 0xF3 movswCore =
        .ok (.proceed, ((movswCore.behind prefixEffect 1).setRegs
          ((movswCore.behind prefixEffect 1).cpu.regs.withCounters 0
            (BlockInstr.movs.source .word (movswCore.behind prefixEffect 1) 2)
            ((movswCore.behind prefixEffect 1).pointer .word .DI 2))).setMem mem) ∧
      BlockInstr.movs.Transferred .word (movswCore.behind prefixEffect 1) 2 mem :=
  rep_transfers_block movswCore_behind (by decide +kernel) (by decide) (by decide +kernel)

end Kita98
