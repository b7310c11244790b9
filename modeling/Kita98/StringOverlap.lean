import Kita98.BlockMoves

/-!
# Moves within one segment

A move whose destination lies `d` elements on from its source reads, from round
`d` on, what it has written itself: the first `d` elements are repeated.  With
`d` at least CX it is a plain copy, whichever of the two comes first.
-/

namespace Kita98

open WordBits ByteStore RecordStore Kita98.Core Memory Exec

section OneSegment

variable {core : Core} {size : ElementSize} {d : ℕ}

/-- DI points `d` elements on from SI, in the same segment. -/
structure Ahead (core : Core) (size : ElementSize) (d : ℕ) : Prop where
  segment : core.cpu.regs.getSeg .ES =
    core.cpu.regs.getSeg (core.cpu.prefixes.segOverride.getD .DS)
  distance : core.cpu.regs.get16 .DI = core.pointer size .SI d
  positive : 0 < d
  fits : d * size.bytes.toNat ≤ 2 ^ 16

theorem Ahead.shift (hahead : Ahead core size d) (i : ℕ) :
    core.sourcePlace size (i + d) = core.destPlace size i := by
  have hpointer : core.pointer size .SI (i + d) = core.pointer size .DI i := by
    rw [Nat.add_comm, pointer_add, ← hahead.distance]
    rfl
  unfold sourcePlace destPlace
  rw [hpointer, hahead.segment]

theorem Ahead.fresh (hahead : Ahead core size d) {i j : ℕ} (hi : i < d) (hj : j < i) :
    Disjoint (size.cells (core.sourcePlace size i)) (size.cells (core.destPlace size j)) := by
  rcases Nat.exists_eq_add_of_lt hi with ⟨m, hm⟩
  have hsteps : j + d = i + (j + m + 1) := by omega
  have hless : (j + m + 1) * size.bytes.toNat < d * size.bytes.toNat := by
    apply Nat.mul_lt_mul_of_pos_right
    · omega
    · cases size <;> decide
  have hfits := hahead.fits
  rw [← hahead.shift j, hsteps]
  unfold sourcePlace
  rw [pointer_add]
  exact elementCells_apart core.cpu.regs _ _ (Nat.succ_pos _) (by omega)

/-- The first `d` source elements stand at ES:DI again and again. -/
abbrev Replicated (core : Core) (size : ElementSize) (d n : ℕ) (mem : Memory) : Prop :=
  Stored size.cells size.read (core.destPlace size)
    (fun i => size.read core.bus.mem.data (core.sourcePlace size (i % d))) n core.bus.mem.data
      mem.data

theorem rounds_replicate (hahead : Ahead core size d) {n : ℕ}
    (hfits : n * size.bytes.toNat ≤ 2 ^ 16) :
    ∃ mem, (countedStep (BlockInstr.movs.step size))^[n] core =
        BlockInstr.movs.stage size core n mem ∧
      Replicated core size d n mem := by
  induction n with
  | zero => exact ⟨core.bus.mem, (BlockInstr.movs.stage_zero size core).symm, .zero⟩
  | succ n ih =>
      have hsize : 0 < size.bytes.toNat := by
        cases size <;> decide
      have hless : n * size.bytes.toNat < (n + 1) * size.bytes.toNat :=
        Nat.mul_lt_mul_of_pos_right (Nat.lt_succ_self n) hsize
      rcases ih (by omega) with ⟨mem, hrounds, hstored⟩
      have hread : size.read mem.data (core.sourcePlace size n) =
          size.read core.bus.mem.data (core.sourcePlace size (n % d)) :=
        hstored.read_shifted size.records hahead.positive hahead.shift fun i hi j hj =>
          hahead.fresh hi hj
      refine ⟨⟨size.write mem.data (core.destPlace size n)
        (size.read core.bus.mem.data (core.sourcePlace size (n % d)))⟩, ?_,
          hstored.succ size.records ?_⟩
      · rw [Function.iterate_succ_apply', hrounds, BlockInstr.countedStep_stage, ← hread]
        rfl
      · intro i hi
        exact destPlace_apart hi (by omega)

end OneSegment

/-- With CX = `n`, the instruction leaves CX at zero and the pointers `n`
elements on, and has repeated the `d` elements that lie between SI and DI. -/
theorem rep_replicates
    {core : Core} {size : ElementSize} {k n d : ℕ}
    (hbehind : Behind prefixEffect core (BlockInstr.movs.opcode size) k)
    (hcx : (core.cpu.regs.get16 .CX).toNat = n) (hfits : size = .word → n ≤ 32768)
    (hahead : Ahead (core.behind prefixEffect k) size d) :
    ∃ mem, dispatchString 0xF3 core =
        .ok (.proceed, ((core.behind prefixEffect k).setRegs
          ((core.behind prefixEffect k).cpu.regs.withCounters 0
            ((core.behind prefixEffect k).pointer size .SI n)
            ((core.behind prefixEffect k).pointer size .DI n))).setMem mem) ∧
      Replicated (core.behind prefixEffect k) size d n mem := by
  have hends : EndsAfter (BlockInstr.movs.step size) (StopsOn false false)
      (core.behind prefixEffect k) n := by
    constructor
    · exact Nat.le_of_eq hcx.symm
    · intro i hpos hi hstop
      exact Bool.false_ne_true hstop.1
    · exact .inl hcx.symm
  have hrun := rep_rounds hbehind (BlockInstr.movs.stringOp_opcode size)
    (BlockInstr.movs.body_apply size) (BlockInstr.movs.step_cx size) hends
  have hsize : n * size.bytes.toNat ≤ 2 ^ 16 := by
    have hbound := (core.cpu.regs.get16 .CX).isLt
    cases size with
    | byte =>
        simp only [ElementSize.bytes]
        bv_omega
    | word =>
        have hword := hfits rfl
        simp only [ElementSize.bytes]
        bv_omega
  have hzero : (core.behind prefixEffect k).cpu.regs.get16 .CX - BitVec.ofNat 16 n = 0 := by
    have hsame : (core.behind prefixEffect k).cpu.regs.get16 .CX = core.cpu.regs.get16 .CX := rfl
    rw [hsame, ← hcx, BitVec.ofNat_toNat, BitVec.setWidth_eq, BitVec.sub_self]
    rfl
  rcases rounds_replicate hahead hsize with ⟨mem, hrounds, hstored⟩
  refine ⟨mem, ?_, hstored⟩
  rw [hrun, hrounds, BlockInstr.stage, hzero]
  rfl

/-- How far on DI is from SI, as the string goes. -/
def Core.byteDistance (core : Core) : ℕ :=
  if core.cpu.regs.get16 .DI = core.cpu.regs.get16 .SI then 2 ^ 16
  else if core.cpu.regs.getDf then (core.cpu.regs.get16 .SI - core.cpu.regs.get16 .DI).toNat
  else (core.cpu.regs.get16 .DI - core.cpu.regs.get16 .SI).toNat

/-- Wherever the two pointers are, DI is some number of bytes on. -/
theorem ahead_byte {core : Core}
    (hsegment : core.cpu.regs.getSeg .ES =
      core.cpu.regs.getSeg (core.cpu.prefixes.segOverride.getD .DS)) :
    Ahead core .byte core.byteDistance := by
  have hdistance : core.cpu.regs.get16 .DI = core.pointer .byte .SI core.byteDistance ∧
      0 < core.byteDistance ∧ core.byteDistance ≤ 2 ^ 16 := by
    unfold Core.byteDistance Core.pointer Regs.stride ElementSize.bytes
    generalize core.cpu.regs.get16 .DI = di
    generalize core.cpu.regs.get16 .SI = si
    by_cases hsame : di = si
    · rw [if_pos hsame, hsame]
      refine ⟨?_, by omega, by omega⟩
      rw [show BitVec.ofNat 16 (2 ^ 16) = 0#16 by decide, BitVec.zero_mul, BitVec.add_zero]
    · rw [if_neg hsame]
      cases core.cpu.regs.getDf with
      | true =>
          simp only [if_true, BitVec.ofNat_toNat, BitVec.setWidth_eq]
          refine ⟨?_, ?_, ?_⟩
          · rw [BitVec.mul_neg, mul_one]
            bv_omega
          · bv_omega
          · bv_omega
      | false =>
          simp only [Bool.false_eq_true, if_false, BitVec.ofNat_toNat, BitVec.setWidth_eq]
          refine ⟨?_, ?_, ?_⟩
          · bv_omega
          · bv_omega
          · bv_omega
  exact ⟨hsegment, hdistance.1, hdistance.2.1, by
    rw [show ElementSize.byte.bytes.toNat = 1 by decide, Nat.mul_one]
    exact hdistance.2.2⟩

/-- `MOVSB` behind `REP`, five bytes, with DI two bytes on from SI. -/
def overlapCore : Core :=
  let core := operandCore [0xA4]
  core.setRegs ((core.cpu.regs.withCounters 5 0x200 0x202).setSeg .ES (core.cpu.regs.getSeg .DS))

theorem rep_replicates_two_bytes :
    ∃ mem, dispatchString 0xF3 overlapCore =
        .ok (.proceed, ((overlapCore.behind prefixEffect 0).setRegs
          ((overlapCore.behind prefixEffect 0).cpu.regs.withCounters 0
            ((overlapCore.behind prefixEffect 0).pointer .byte .SI 5)
            ((overlapCore.behind prefixEffect 0).pointer .byte .DI 5))).setMem mem) ∧
      Replicated (overlapCore.behind prefixEffect 0) .byte 2 5 mem := by
  have hbehind : Behind prefixEffect overlapCore (BlockInstr.movs.opcode .byte) 0 := by
    constructor
    · intro j hj
      omega
    · decide
    · decide +kernel
  have hahead := @ahead_byte (overlapCore.behind prefixEffect 0) rfl
  rw [show (overlapCore.behind prefixEffect 0).byteDistance = 2 by decide +kernel] at hahead
  exact rep_replicates hbehind (by decide +kernel) (by decide) hahead

end Kita98
