import Kita98.Runtime
import Kita98.WordStack

/-!
# The interrupt frame

An interrupt pushes FLAGS, CS and IP, runs its handler and pops the three
words again.  The words lie apart even where SP wraps, so a handler that keeps
SS and SP and stays off the six bytes of the frame returns to its caller with
the flags word the caller had.
-/

namespace Kita98

open ByteStore WordBits Memory Exec

def stackCell (regs : Regs) (off : U16) : Cell :=
  cell (phys (regs.getSeg .SS) (off.setWidth 32))

/-- Words of the stack segment that share no offset share no byte. -/
theorem stackCell_disjoint
    (regs : Regs) {off off' : U16} (hne : off' ≠ off) (hnext : off' ≠ off + 1)
    (hprev : off' + 1 ≠ off) :
    stackCell regs off' ≠ stackCell regs off ∧
      stackCell regs off' ≠ stackCell regs off + 1 ∧
        stackCell regs off' + 1 ≠ stackCell regs off ∧
          stackCell regs off' + 1 ≠ stackCell regs off + 1 := by
  unfold stackCell
  rw [cell_phys, cell_phys]
  generalize cell ((regs.getSeg .SS).setWidth 32 <<< 4) = base
  have hcell : ∀ o : U16, cell (o.setWidth 32) = o.setWidth 20 := by
    intro o
    rw [cell, BitVec.setWidth_setWidth_of_le _ (by decide)]
  rw [hcell, hcell]
  refine ⟨?_, ?_, ?_, ?_⟩ <;> bv_omega

def stackAddr (regs : Regs) (d : ℕ) : Cell :=
  stackCell regs (regs.get16 .SP - BitVec.ofNat 16 d)

theorem stackAddr_spread (regs : Regs) : WordStack.Spread (stackAddr regs) (2 ^ 16) := by
  constructor
  · intro d d' hd hbelow hfits
    have hne : regs.get16 .SP - BitVec.ofNat 16 d ≠ regs.get16 .SP - BitVec.ofNat 16 d' := by
      bv_omega
    have hnext : regs.get16 .SP - BitVec.ofNat 16 d ≠
        regs.get16 .SP - BitVec.ofNat 16 d' + 1 := by
      bv_omega
    have hprev : regs.get16 .SP - BitVec.ofNat 16 d + 1 ≠
        regs.get16 .SP - BitVec.ofNat 16 d' := by
      bv_omega
    rcases stackCell_disjoint regs hne hnext hprev with ⟨hsame, hnext, hprev, -⟩
    exact ⟨hsame, hnext, hprev⟩
  · exact Memory.cell_succ_ne

/-! ## Entering -/

section Enter

variable (core : Core)

def Core.frameMem : Memory :=
  let regs := core.cpu.regs
  let ss := regs.getSeg .SS
  let sp := regs.get16 .SP
  ((core.bus.mem.segWriteU16 ss ((sp - 2).setWidth 32) (regs.flags.setWidth 16)).segWriteU16
    ss ((sp - 4).setWidth 32) (regs.getSeg .CS)).segWriteU16
      ss ((sp - 6).setWidth 32) (regs.ip.setWidth 16)

/-- The state in which a handler starts. -/
def Core.entered : Core :=
  let regs := core.cpu.regs
  (core.setRegs (((regs.set16 .SP (regs.get16 .SP - 6)).setFlag Flags.IF false).setFlag
    Flags.TF false)).setMem core.frameMem

theorem enterInterrupt_apply : enterInterrupt core = .ok ((), core.entered) := by
  have hfour : core.cpu.regs.get16 .SP - 2 - 2 = core.cpu.regs.get16 .SP - 4 := by
    bv_omega
  have hsix : core.cpu.regs.get16 .SP - 4 - 2 = core.cpu.regs.get16 .SP - 6 := by
    bv_omega
  unfold enterInterrupt push16
  simp only [bind_apply, getRegs_apply, modRegs_apply, Core.setMem_cpu, Core.setMem_mem,
    Core.setRegs_cpu_regs, Regs.get16_set16_self, Regs.set16_set16, Regs.getSeg_of_set16,
    hfour, hsix]
  rfl

end Enter

/-! ## Leaving -/

/-- The state after IP, CS and FLAGS have been popped. -/
def Core.left (core : Core) : Core :=
  let regs := core.cpu.regs
  let ss := regs.getSeg .SS
  let sp := regs.get16 .SP
  core.setRegs ((((regs.set16 .SP (sp + 6)).jumpTo
    (core.bus.mem.segReadU16 ss (sp.setWidth 32))).setSeg .CS
      (core.bus.mem.segReadU16 ss ((sp + 2).setWidth 32))).setFlags16
        (core.bus.mem.segReadU16 ss ((sp + 4).setWidth 32)))

theorem leaveInterrupt_apply (core : Core) :
    leaveInterrupt core = .ok ((), core.left) := by
  have hfour : core.cpu.regs.get16 .SP + 2 + 2 = core.cpu.regs.get16 .SP + 4 := by
    bv_omega
  have hsix : core.cpu.regs.get16 .SP + 4 + 2 = core.cpu.regs.get16 .SP + 6 := by
    bv_omega
  unfold leaveInterrupt pop16
  simp only [bind_apply, modRegs_apply, Core.setRegs_cpu_regs, Core.setRegs_bus,
    Regs.get16_set16_self, Regs.set16_set16, Regs.getSeg_of_set16, hfour, hsix]
  rfl

theorem iret_apply (core : Core) : iret core = .ok (.proceed, core.left) := by
  have hsame : iret core = (leaveInterrupt >>= fun _ => pure .proceed) core := rfl
  rw [hsame, bind_ok (leaveInterrupt_apply core)]
  rfl

/-! ## The frame survives the handler -/

def Core.stackWord (core : Core) (regs : Regs) (off : U16) : U16 :=
  readWord core.bus.mem.data (stackCell regs off)

theorem segReadU16_stack (core : Core) (off : U16) :
    core.bus.mem.segReadU16 (core.cpu.regs.getSeg .SS) (off.setWidth 32) =
      core.stackWord core.cpu.regs off := by
  rw [segReadU16, readU16_eq]
  rfl

@[simp] theorem entered_ss (core : Core) :
    core.entered.cpu.regs.getSeg .SS = core.cpu.regs.getSeg .SS := rfl

@[simp] theorem entered_sp (core : Core) :
    core.entered.cpu.regs.get16 .SP = core.cpu.regs.get16 .SP - 6 := by
  simp [Core.entered]

theorem entered_mem_data (core : Core) :
    core.entered.bus.mem.data =
      writeWord
        (writeWord
          (writeWord core.bus.mem.data
            (stackCell core.cpu.regs (core.cpu.regs.get16 .SP - 2))
            (core.cpu.regs.flags.setWidth 16))
          (stackCell core.cpu.regs (core.cpu.regs.get16 .SP - 4))
          (core.cpu.regs.getSeg .CS))
        (stackCell core.cpu.regs (core.cpu.regs.get16 .SP - 6))
        (core.cpu.regs.ip.setWidth 16) := by
  have hmem : core.entered.bus.mem = core.frameMem := rfl
  rw [hmem, Core.frameMem, segWriteU16, writeU16_data, segWriteU16, writeU16_data,
    segWriteU16, writeU16_data]
  rfl

theorem entered_word (core : Core) (i : ℕ) (hi : i < 3) :
    core.entered.stackWord core.cpu.regs
        (core.cpu.regs.get16 .SP - BitVec.ofNat 16 (0 + 2 * (i + 1))) =
      [core.cpu.regs.flags.setWidth 16, core.cpu.regs.getSeg .CS,
        core.cpu.regs.ip.setWidth 16][i] := by
  have hspread := stackAddr_spread core.cpu.regs
  have hword := @WordStack.readWord_push _ _ _ 0
    [core.cpu.regs.flags.setWidth 16, core.cpu.regs.getSeg .CS, core.cpu.regs.ip.setWidth 16]
    hspread core.bus.mem.data (by simp) i hi
  unfold Core.stackWord
  rw [entered_mem_data]
  exact hword

theorem entered_frame (core : Core) :
    core.entered.stackWord core.cpu.regs (core.cpu.regs.get16 .SP - 6) =
        core.cpu.regs.ip.setWidth 16 ∧
      core.entered.stackWord core.cpu.regs (core.cpu.regs.get16 .SP - 4) =
          core.cpu.regs.getSeg .CS ∧
        core.entered.stackWord core.cpu.regs (core.cpu.regs.get16 .SP - 2) =
          core.cpu.regs.flags.setWidth 16 := by
  constructor
  · exact entered_word core 2 (by decide)
  · constructor
    · exact entered_word core 1 (by decide)
    · exact entered_word core 0 (by decide)

/-- The six bytes of the frame are what the prologue pushed. -/
def FrameIntact (core after : Core) : Prop :=
  ∀ n ∈ ([2, 4, 6] : List U16),
    after.stackWord core.cpu.regs (core.cpu.regs.get16 .SP - n) =
      core.entered.stackWord core.cpu.regs (core.cpu.regs.get16 .SP - n)

/-- The handler keeps the stack registers and the frame. -/
structure FrameKept (core after : Core) : Prop where
  ss : after.cpu.regs.getSeg .SS = core.cpu.regs.getSeg .SS
  sp : after.cpu.regs.get16 .SP = core.cpu.regs.get16 .SP - 6
  words : FrameIntact core after

/-- Registers after a handler, with the caller's FLAGS, CS, IP and SP. -/
def Regs.returned (regs before : Regs) : Regs :=
  (((regs.set16 .SP (before.get16 .SP)).jumpTo (before.ip.setWidth 16)).setSeg .CS
    (before.getSeg .CS)).setFlags16 (before.flags.setWidth 16)

theorem left_of_frameKept {core after : Core} (hkept : FrameKept core after) :
    after.left = after.setRegs (after.cpu.regs.returned core.cpu.regs) := by
  rcases hkept with ⟨hss, hsp, hwords⟩
  rcases entered_frame core with ⟨hip, hcs, hflags⟩
  have hcell : ∀ off, after.stackWord after.cpu.regs off =
      after.stackWord core.cpu.regs off := by
    intro off
    unfold Core.stackWord stackCell
    rw [hss]
  have htop : core.cpu.regs.get16 .SP - 6 + 6 = core.cpu.regs.get16 .SP := by
    bv_omega
  have hsecond : core.cpu.regs.get16 .SP - 6 + 2 = core.cpu.regs.get16 .SP - 4 := by
    bv_omega
  have hthird : core.cpu.regs.get16 .SP - 6 + 4 = core.cpu.regs.get16 .SP - 2 := by
    bv_omega
  unfold Core.left
  simp only [segReadU16_stack, hcell, hsp, htop, hsecond, hthird]
  rw [hwords 6 (by decide), hwords 4 (by decide), hwords 2 (by decide), hip, hcs, hflags]
  rfl

namespace Regs

variable (regs before : Regs)

theorem getSeg_of_setFlags16 (value : U16) (s : SegReg) :
    (regs.setFlags16 value).getSeg s = regs.getSeg s := rfl

@[simp] theorem returned_cs : (regs.returned before).getSeg .CS = before.getSeg .CS := by
  rw [returned, getSeg_of_setFlags16, getSeg_setSeg_self]

@[simp] theorem returned_ss : (regs.returned before).getSeg .SS = regs.getSeg .SS := by
  rw [returned, getSeg_of_setFlags16, getSeg_setSeg_of_ne _ _ (by decide)]
  rfl

@[simp] theorem returned_ip :
    (regs.returned before).ip = (before.ip.setWidth 16).setWidth 32 := rfl

@[simp] theorem returned_sp : (regs.returned before).get16 .SP = before.get16 .SP :=
  get16_set16_self _ _ _

/-- The low half of the flags word is the caller's. -/
theorem returned_flags {i : ℕ} (hi : i < 16) :
    (regs.returned before).flags.getLsbD i = before.flags.getLsbD i := by
  have hi' : i < 32 := by omega
  have hhigh : (0xFFFF0000#32).getLsbD i = false := by
    rw [BitVec.getLsbD_eq_getElem hi', highHalf_getElem hi']
    simpa using hi
  have hflags : (regs.returned before).flags =
      (regs.flags &&& 0xFFFF0000#32) ||| (before.flags.setWidth 16).setWidth 32 := rfl
  rw [hflags, BitVec.getLsbD_or, BitVec.getLsbD_and, hhigh, Bool.and_false, Bool.false_or,
    BitVec.getLsbD_setWidth, BitVec.getLsbD_setWidth]
  simp [hi, hi']

end Regs

end Kita98
