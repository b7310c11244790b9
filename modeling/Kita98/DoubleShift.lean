import Kita98.WriteBack

/-!
# Double shifts

The arms of SHLD and SHRD mask the count to five bits and then take a bit of a
word with it.  Half of the masked counts have no such bit.
-/

namespace Kita98

open WordBits Kita98.Core Exec

inductive DoubleShift where
  | shldImm | shldCl | shrdImm | shrdCl
  deriving DecidableEq, Repr

namespace DoubleShift

variable (shift : DoubleShift) (core : Core)

def opcode : DoubleShift → U8
  | shldImm => 0xA4
  | shldCl => 0xA5
  | shrdImm => 0xAC
  | shrdCl => 0xAD

def toLeft : DoubleShift → Bool
  | shldImm | shldCl => true
  | shrdImm | shrdCl => false

def immediate : DoubleShift → Bool
  | shldImm | shrdImm => true
  | shldCl | shrdCl => false

/-- The count byte: behind the ModRM byte, or CL. -/
def countByte : U8 :=
  if shift.immediate then core.byteAt 1 else core.cpu.regs.get8 .CL

def count : ℕ := (shift.countByte core).toNat % 32

def behind : Core := core.skip (if shift.immediate then 2 else 1)

def dst : U16 := core.cpu.regs.get16 (reg16FromField core.modrm.rm)

def src : U16 := core.cpu.regs.get16 (reg16FromField core.modrm.reg)

/-- The half of the shifted double word that is stored. -/
def result : U16 :=
  if shift.toLeft then
    ((dst core ++ src core : BitVec 32) <<< shift.count core).extractLsb' 16 16
  else ((src core ++ dst core : BitVec 32) >>> shift.count core).extractLsb' 0 16

/-- The bit that leaves the destination in the last of the single steps. -/
def lastOut : Bool :=
  if shift.toLeft then ((dst core).toNat * 2 ^ shift.count core).testBit 16
  else ((dst core).toNat / 2 ^ (shift.count core - 1)).testBit 0

/-- The destination holds the result, the flags are those of the result, and
everything else is as it was. -/
structure Shifts (after : Core) : Prop where
  gp : after.cpu.regs.gp =
    (core.cpu.regs.set16 (reg16FromField core.modrm.rm) (shift.result core)).gp
  seg : after.cpu.regs.seg = core.cpu.regs.seg
  bus : after.bus = core.bus
  status : after.cpu.regs.status =
    resultStatus (shift.lastOut core) core.cpu.regs.getOf (shift.result core)

/-- The instruction comes to its end; with a count of zero it changes nothing. -/
def Right : Prop :=
  ∃ after, extendedArm shift.opcode core = .ok (.proceed, after) ∧
    (shift.count core = 0 → after = shift.behind core) ∧
    (1 ≤ shift.count core → shift.count core ≤ 16 → shift.Shifts core after)

/-! ## The arms -/

def carryBit : ℕ → ℕ := if shift.toLeft then shldCarry else shrdCarry

def word : U16 → U16 → ℕ → U16 := if shift.toLeft then shldWord else shrdWord

theorem masked_count (byte : U8) : (byte &&& 31).toNat = byte.toNat % 32 := by
  rw [BitVec.toNat_and]
  exact Nat.and_two_pow_sub_one_eq_mod byte.toNat 5

theorem arm_finish :
    extendedArm shift.opcode core =
      finishShift shift.carryBit shift.word core.modrm (src core) (shift.count core)
        (shift.behind core) := by
  rw [count, ← masked_count]
  cases shift with
  | shldImm | shldCl =>
      show _ = finishShift shldCarry shldWord _ _ _ _
      rw [← shldCount_eq]
      rfl
  | shrdImm | shrdCl =>
      show _ = finishShift shrdCarry shrdWord _ _ _ _
      rw [← shrdCount_eq]
      rfl

theorem arm_effect (hmode : core.modrm.mode = 3) :
    extendedArm shift.opcode core =
      (shiftEffect shift.carryBit shift.word (src core) (shift.count core) (dst core)).perform
        wordOperand core.modrm (shift.behind core) := by
  rw [arm_finish, finishShift, readModrmU16, if_pos hmode, bind_ok (getRegs_apply _ _)]
  rfl

theorem word_eq_result :
    shift.word (dst core) (src core) (shift.count core) = shift.result core := by
  unfold word result
  cases shift.toLeft with
  | true =>
      simp only [if_true, shldWord]
      rw [append_eq_or, BitVec.setWidth_ushiftRight_eq_extractLsb]
  | false =>
      simp only [Bool.false_eq_true, if_false, shrdWord]
      rw [append_eq_or, ← BitVec.setWidth_ushiftRight_eq_extractLsb, BitVec.ushiftRight_zero]

theorem low_bit (v : U16) (k : ℕ) : (v >>> k &&& 1 != 0) = v.getLsbD k := by
  rw [show (1 : U16) = 1#16 from rfl, BitVec.and_one_eq_setWidth_ofBool_getLsbD, BitVec.getLsbD_ushiftRight, Nat.add_zero]
  cases v.getLsbD k <;> decide

theorem carryBit_eq_lastOut (hsmall : shift.count core ≤ 16) :
    ((dst core) >>> shift.carryBit (shift.count core) &&& 1 != 0) = shift.lastOut core := by
  rw [low_bit, BitVec.getLsbD]
  unfold carryBit lastOut
  cases shift.toLeft with
  | true => simp [shldCarry, Nat.testBit_mul_two_pow, hsmall]
  | false =>
      simp only [Bool.false_eq_true, if_false, shrdCarry]
      rw [Nat.testBit_div_two_pow, Nat.zero_add]

theorem arm_shifts
    (hmode : core.modrm.mode = 3) (hpos : 1 ≤ shift.count core) (hsmall : shift.count core ≤ 16) :
    ∃ after, extendedArm shift.opcode core = .ok (.proceed, after) ∧ shift.Shifts core after := by
  rw [arm_effect shift core hmode, shiftEffect_store _ _ _ _ (by omega) hsmall, word_eq_result]
  set flagged := ((shift.behind core).cpu.regs.setCfBit (dst core)
    (shift.carryBit (shift.count core))).updateFlagsU16 (shift.result core) with hflagged
  have hwrite : wordOperand.write core.modrm (shift.result core) =
      modRegs fun regs => regs.set16 (reg16FromField core.modrm.rm) (shift.result core) :=
    if_pos hmode
  have hstatus : flagged.status =
      resultStatus (shift.lastOut core) core.cpu.regs.getOf (shift.result core) := by
    have hcarry := status_setCf (shift.behind core).cpu.regs
      (dst core >>> shift.carryBit (shift.count core) &&& 1 != 0)
    rw [carryBit_eq_lastOut shift core hsmall] at hcarry
    rw [hflagged, status_updateFlagsU16, Regs.setCfBit, carryBit_eq_lastOut shift core hsmall]
    exact congrArg₂ (fun cf of => resultStatus cf of (shift.result core))
      (congrArg Status.cf hcarry) (congrArg Status.of hcarry)
  rw [Effect.perform, hwrite, bind_ok (modRegs_apply _ _), bind_ok (modRegs_apply _ _)]
  exact ⟨_, rfl, rfl, rfl, rfl, hstatus⟩

theorem arm_panics (hmode : core.modrm.mode = 3) (hlarge : 16 < shift.count core) :
    extendedArm shift.opcode core = .error .overflow := by
  rw [arm_effect shift core hmode, shiftEffect_panic _ _ _ _ hlarge]
  rfl

theorem not_right_of_panics {shift : DoubleShift} {core : Core}
    (hrun : extendedArm shift.opcode core = .error .overflow) : ¬ shift.Right core := by
  rintro ⟨after, hend, -⟩
  rw [hrun] at hend
  cases hend

theorem double_shift_iff {shift : DoubleShift} {core : Core} (hmode : core.modrm.mode = 3) :
    shift.Right core ↔ shift.count core ≤ 16 := by
  constructor
  · intro hright
    by_contra hlarge
    exact not_right_of_panics (arm_panics shift core hmode (Nat.lt_of_not_le hlarge)) hright
  · intro hsmall
    rcases Nat.eq_zero_or_pos (shift.count core) with hzero | hpos
    · have hrun : extendedArm shift.opcode core = .ok (.proceed, shift.behind core) := by
        rw [arm_effect shift core hmode, hzero]
        rfl
      exact ⟨_, hrun, fun _ => rfl, fun hpos => absurd hpos (by omega)⟩
    · rcases arm_shifts shift core hmode hpos hsmall with ⟨after, hrun, hshifts⟩
      exact ⟨after, hrun, fun hzero => absurd hzero (by omega), fun _ _ => hshifts⟩

def shiftCore (cl : U8) : Core :=
  (operandCore [0xD8]).setRegs ((operandCore [0xD8]).cpu.regs.set8 .CL cl)

theorem double_shift_four : shrdCl.Right (shiftCore 4) ↔ shrdCl.count (shiftCore 4) ≤ 16 :=
  double_shift_iff rfl

/-- With a count of 17 the host subtracts below zero, or shifts a word by 16. -/
theorem seventeen_panics :
    extendedArm 0xA5 (shiftCore 17) = .error .overflow ∧ ¬ shldCl.Right (shiftCore 17) ∧
      extendedArm 0xAD (shiftCore 17) = .error .overflow ∧ ¬ shrdCl.Right (shiftCore 17) := by
  have hleft := arm_panics shldCl (shiftCore 17) rfl (by decide +kernel)
  have hright := arm_panics shrdCl (shiftCore 17) rfl (by decide +kernel)
  exact ⟨hleft, not_right_of_panics hleft, hright, not_right_of_panics hright⟩

end DoubleShift

end Kita98
