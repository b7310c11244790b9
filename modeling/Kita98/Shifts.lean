import Kita98.BitSteps
import Kita98.Complements

/-!
# Shifts and rotates

Group 2 moves a register by the masked count of bits, as if by one bit at a time,
and only the shifts set ZF, SF and PF.  The functions compute closed forms: those
of bytes leave their range and set the flags of rotations as well, those of words
leave the carry alone and know no rotation through it.
-/

namespace Kita98

open WordBits BitSteps Kita98.Core Exec

/-! ## Flags that are already as they should be -/

theorem setCf_eq_iff (regs : Regs) (v : Bool) : regs.setCf v = regs ↔ regs.getCf = v := by
  constructor
  · intro hsame
    rw [← hsame]
    exact Regs.flag_setFlag_self _ _ (by decide)
  · intro hv
    rw [← hv]
    exact regs.setFlag_flag 0

/-- ZF, SF and PF are those of `r`. -/
def Status.Shows {w : ℕ} (status : Status) (r : BitVec w) : Prop :=
  status.zf = (r == 0) ∧ status.sf = r.msb ∧ status.pf = Regs.evenParity (r.setWidth 8)

instance {w : ℕ} (status : Status) (r : BitVec w) : Decidable (status.Shows r) := by
  unfold Status.Shows
  infer_instance

def updateFlags : (width : StoredWidth) → Regs → BitVec width.bits → Regs
  | .byte => Regs.updateFlagsU8
  | .word => Regs.updateFlagsU16

section UpdateFlags

variable (width : StoredWidth) (regs : Regs) (r : BitVec width.bits)

theorem status_updateFlags :
    (updateFlags width regs r).status = resultStatus regs.getCf regs.getOf r := by
  cases width with
  | byte => exact status_updateFlagsU8 regs r
  | word => exact status_updateFlagsU16 regs r

theorem updateFlags_eq_self_iff : updateFlags width regs r = regs ↔ regs.status.Shows r := by
  constructor
  · intro hsame
    have hstatus := status_updateFlags width regs r
    rw [hsame] at hstatus
    rw [hstatus]
    exact ⟨rfl, rfl, rfl⟩
  · rintro ⟨hz, hs, hp⟩
    have hzf : regs.setZf (r == 0) = regs := hz ▸ regs.setFlag_flag 6
    have hsf : regs.setSf r.msb = regs := hs ▸ regs.setFlag_flag 7
    have hpf : regs.setPf (Regs.evenParity (r.setWidth 8)) = regs := hp ▸ regs.setFlag_flag 2
    cases width with
    | byte =>
        have hsign : (r &&& 0x80 != 0) = r.msb := and_signBit r
        have hbyte : Regs.evenParity (r.setWidth 8) = Regs.evenParity r :=
          congrArg Regs.evenParity (BitVec.setWidth_eq r)
        show ((regs.setZf (r == 0)).setSf (r &&& 0x80 != 0)).setPf (Regs.evenParity r) = regs
        rw [hzf, hsign, hsf, ← hbyte, hpf]
    | word =>
        have hsign : (r &&& 0x8000 != 0) = r.msb := and_signBit r
        show ((regs.setZf (r == 0)).setSf (r &&& 0x8000 != 0)).setPf
          (Regs.evenParity (r.setWidth 8)) = regs
        rw [hzf, hsign, hsf, hpf]

end UpdateFlags

/-! ## The functions -/

def moveField : Move → BitVec 3
  | .rol => 0
  | .ror => 1
  | .rcl => 2
  | .rcr => 3
  | .shl => 4
  | .shr => 5
  | .sar => 7

/-- Rotations leave ZF, SF and PF alone. -/
def rotates : Move → Bool
  | .rol | .ror | .rcl | .rcr => true
  | .shl | .shr | .sar => false

def maskedCount (count : U8) : ℕ := (count &&& 0x1F).toNat

theorem maskedCount_lt (count : U8) : maskedCount count < 32 := by
  have hle : maskedCount count ≤ (0x1F : U8).toNat := by
    rw [maskedCount, BitVec.toNat_and]
    exact Nat.and_le_right
  exact Nat.lt_succ_of_le hle

def shiftRm : StoredWidth → U8 → U8 → Routine Unit
  | .byte => shiftRm8
  | .word => shiftRm16

def shiftValue : (width : StoredWidth) → ModRm → BitVec width.bits → ℕ →
    Routine (BitVec width.bits)
  | .byte => shiftU8
  | .word => shiftU16

/-- The registers after `cnt` moves of one bit each. -/
def repeated (width : StoredWidth) (move : Move) (rm : BitVec 3) (cnt : ℕ) (regs : Regs) : Regs :=
  if cnt = 0 then regs
  else
    let s := move.next^[cnt] (width.size.get rm regs, regs.getCf)
    let flagged := regs.setCf s.2
    width.size.set rm (if rotates move then flagged else updateFlags width flagged s.1) s.1

/-- The function does what repeated moves do, and the host's arithmetic stays in
its range. -/
def RepeatsMoves (width : StoredWidth) (move : Move) (mb count : U8) (core : Core) : Prop :=
  shiftRm width mb count core =
    .ok ((), core.setRegs
      (repeated width move (ModRm.decode mb).rm (maskedCount count) core.cpu.regs))

section Apply

variable {width : StoredWidth} {mb count : U8} {core : Core}

theorem shiftRm_apply (hmode : (ModRm.decode mb).mode = 3) :
    shiftRm width mb count core =
      if maskedCount count = 0 then .ok ((), core)
      else
        (do
          let r ← shiftValue width (ModRm.decode mb)
            (width.size.get (ModRm.decode mb).rm core.cpu.regs) (maskedCount count)
          modRegs fun regs => updateFlags width regs r
          modRegs fun regs => width.size.set (ModRm.decode mb).rm regs r : Routine Unit) core := by
  have hread : ∀ v, width.size.get (ModRm.decode mb).rm core.cpu.regs = v →
      width.size.read (ModRm.decode mb) core = .ok (v, core) := by
    intro v hv
    rw [width.size.read_reg _ hmode, getRegs_apply, hv]
  have hwrite := fun r => width.write_reg r hmode
  unfold maskedCount
  cases width with
  | byte =>
      have hread' : readModrmU8 (ModRm.decode mb) core = _ := hread _ rfl
      have hwrite' : ∀ r, writeModrmU8 (ModRm.decode mb) r = _ := hwrite
      show shiftRm8 mb count core = _
      rw [shiftRm8, bind_ok hread']
      simp only [hwrite']
      by_cases hzero : (count &&& 0x1F).toNat = 0
      · rw [if_pos hzero, if_pos hzero]
        rfl
      · rw [if_neg hzero, if_neg hzero]
        rfl
  | word =>
      have hread' : readModrmU16 (ModRm.decode mb) core = _ := hread _ rfl
      have hwrite' : ∀ r, writeModrmU16 (ModRm.decode mb) r = _ := hwrite
      show shiftRm16 mb count core = _
      rw [shiftRm16, bind_ok hread']
      simp only [hwrite']
      by_cases hzero : (count &&& 0x1F).toNat = 0
      · rw [if_pos hzero, if_pos hzero]
        rfl
      · rw [if_neg hzero, if_neg hzero]
        rfl

theorem set_eq_iff {rm : BitVec 3} {regs regs' : Regs} (hsame : SameButFlags regs regs')
    (r r' : BitVec width.bits) :
    width.size.set rm regs' r' = width.size.set rm regs r ↔ regs' = regs ∧ r' = r := by
  constructor
  · intro hset
    have hflags := congrArg Regs.flags hset
    have hget := congrArg (width.size.get rm) hset
    rw [width.set_flags, width.set_flags] at hflags
    rw [width.get_set, width.get_set] at hget
    rcases hsame with ⟨hgp, hseg, hip⟩
    cases regs
    cases regs'
    simp only at hgp hseg hip hflags
    subst hgp hseg hip hflags
    exact ⟨rfl, hget⟩
  · rintro ⟨rfl, rfl⟩
    rfl

theorem setRegs_inj {regs regs' : Regs} : core.setRegs regs = core.setRegs regs' ↔ regs = regs' := by
  constructor
  · intro hsame
    exact congrArg (fun core => core.cpu.regs) hsame
  · intro hsame
    rw [hsame]

end Apply

/-! ## Bytes -/

def byteInRange : Move → ℕ → Prop
  | .rol, cnt | .ror, cnt => cnt ≤ 8
  | .rcl, _ | .rcr, _ => True
  | .shl, cnt | .shr, cnt | .sar, cnt => cnt ≤ 7

instance (move : Move) (cnt : ℕ) : Decidable (byteInRange move cnt) := by
  unfold byteInRange
  cases move <;> infer_instance

section Byte

variable {core : Core} {v : U8} {cnt : ℕ}

theorem bit_zero (x : U8) : (x &&& 1 != 0) = x.getLsbD 0 := testMask_twoPow x 0

theorem carry_eq (regs : Regs) : carry 8 regs = (BitVec.ofBool regs.getCf).setWidth 8 := by
  unfold carry
  cases regs.getCf <;> rfl

/-- A loop each of whose rounds moves by one bit, with the carry in the flags. -/
theorem carried_apply {move : Move} {loop : U8 → ℕ → Routine U8}
    (hzero : ∀ c core, loop c 0 core = .ok (c, core))
    (hsucc : ∀ c cnt core, loop c (cnt + 1) core =
      let s := move.next (c, core.cpu.regs.getCf)
      loop s.1 cnt (core.setRegs (core.cpu.regs.setCf s.2)))
    (c : U8) (cnt : ℕ) (core : Core) :
    loop c cnt core =
      let s := move.next^[cnt] (c, core.cpu.regs.getCf)
      .ok (s.1, core.setRegs (core.cpu.regs.setCf s.2)) := by
  induction cnt generalizing core c with
  | zero =>
      have hself := (setCf_eq_iff core.cpu.regs core.cpu.regs.getCf).mpr rfl
      rw [hzero]
      show Except.ok (c, core) =
        Except.ok (c, core.setRegs (core.cpu.regs.setCf core.cpu.regs.getCf))
      rw [hself]
      rfl
  | succ cnt ih =>
      rw [hsucc]
      dsimp only
      rw [ih, Core.setRegs_cpu_regs, Regs.getCf_setCf]
      dsimp only
      rw [setRegs_setRegs, Regs.setCf_setCf]
      rfl

theorem rclRm8_apply (c : U8) (cnt : ℕ) (core : Core) :
    rclRm8 c cnt core =
      let s := Move.rcl.next^[cnt] (c, core.cpu.regs.getCf)
      .ok (s.1, core.setRegs (core.cpu.regs.setCf s.2)) := by
  refine carried_apply (fun _ _ => rfl) (fun c cnt core => ?_) c cnt core
  have hmsb : (c &&& 0x80 != 0) = c.msb := and_signBit c
  rw [rclRm8, bind_ok (getRegs_apply _ _), bind_ok (modRegs_apply _ _), hmsb, carry_eq]
  rfl

theorem rcrRm8_apply (c : U8) (cnt : ℕ) (core : Core) :
    rcrRm8 c cnt core =
      let s := Move.rcr.next^[cnt] (c, core.cpu.regs.getCf)
      .ok (s.1, core.setRegs (core.cpu.regs.setCf s.2)) := by
  refine carried_apply (fun _ _ => rfl) (fun c cnt core => ?_) c cnt core
  rw [rcrRm8, bind_ok (getRegs_apply _ _), bind_ok (modRegs_apply _ _), bit_zero, carry_eq]
  rfl

/-- The arms that check the count, set the carry and return. -/
theorem checked_apply {tooFar inRange : Prop} [Decidable tooFar] [Decidable inRange]
    {r : U8} {out : Bool} {s : U8 × Bool} (hcheck : tooFar ↔ ¬ inRange)
    (hs : inRange → (r, out) = s) :
    (if tooFar then Exec.fail .overflow
      else do
        modRegs fun regs => regs.setCf out
        return r : Routine U8) core =
      if inRange then .ok (s.1, core.setRegs (core.cpu.regs.setCf s.2))
      else .error .overflow := by
  by_cases hrange : inRange
  · rw [if_neg fun hfar => hcheck.mp hfar hrange, if_pos hrange, ← hs hrange]
    rfl
  · rw [if_pos (hcheck.mpr hrange), if_neg hrange]
    rfl

/-- In its range the arm of a byte does what its moves do, carry included. -/
theorem shiftU8_apply {modrm : ModRm} {move : Move} (hfield : modrm.reg = moveField move)
    (hpos : 0 < cnt) :
    shiftU8 modrm v cnt core =
      if byteInRange move cnt then
        let s := move.next^[cnt] (v, core.cpu.regs.getCf)
        .ok (s.1, core.setRegs (core.cpu.regs.setCf s.2))
      else .error .overflow := by
  unfold shiftU8
  rw [hfield]
  cases move with
  | rcl => exact rclRm8_apply v cnt core
  | rcr => exact rcrRm8_apply v cnt core
  | rol =>
      rw [next_iterate (by decide) _ hpos]
      refine checked_apply Nat.not_le.symm fun hle => Prod.ext rfl ?_
      rw [bit_zero, BitVec.getLsbD_ushiftRight]
      exact (rotateLeft_low v cnt hpos hle).symm
  | ror =>
      rw [next_iterate (by decide) _ hpos]
      refine checked_apply Nat.not_le.symm fun hle => Prod.ext rfl ?_
      rw [bit_zero, BitVec.getLsbD_ushiftRight]
      exact (rotateRight_msb v cnt hpos hle).symm
  | shl =>
      rw [next_iterate (by decide) _ hpos]
      exact checked_apply Nat.not_le.symm fun hle => Prod.ext rfl (and_signBit _)
  | shr =>
      rw [next_iterate (by decide) _ hpos]
      refine checked_apply Nat.not_le.symm fun hle => Prod.ext rfl ?_
      rw [bit_zero, BitVec.getLsbD_ushiftRight]
      rfl
  | sar =>
      rw [next_iterate (by decide) _ hpos]
      exact checked_apply Nat.not_le.symm fun hle => Prod.ext rfl (bit_zero _)

/-- The count is in range, and ZF, SF and PF are already those of what a rotation
leaves. -/
def byteMovesRight (move : Move) (cnt : ℕ) (v : U8) (status : Status) : Prop :=
  match move with
  | .rol => cnt ≤ 8 ∧ status.Shows (v.rotateLeft cnt)
  | .ror => cnt ≤ 8 ∧ status.Shows (v.rotateRight cnt)
  | .rcl => status.Shows (((ring (v, status.cf)).rotateLeft cnt).setWidth 8)
  | .rcr => status.Shows (((ring (v, status.cf)).rotateRight cnt).setWidth 8)
  | .shl | .shr | .sar => cnt ≤ 7

theorem byteMovesRight_iff {move : Move} {status : Status} (hpos : 0 < cnt) :
    byteMovesRight move cnt v status ↔
      byteInRange move cnt ∧
        (rotates move = true → status.Shows (move.next^[cnt] (v, status.cf)).1) := by
  rw [next_iterate (by decide) move hpos]
  cases move with
  | rol | ror => exact and_congr_right fun _ => (imp_iff_right rfl).symm
  | rcl | rcr => exact ((and_iff_right trivial).trans (imp_iff_right rfl)).symm
  | shl | shr | sar => exact (and_iff_left fun h => absurd h Bool.false_ne_true).symm

end Byte

section Equality

variable {width : StoredWidth} (regs : Regs) (cf : Bool) (r : BitVec width.bits)

theorem updateFlags_same : SameButFlags regs (updateFlags width regs r) := by
  cases width <;> exact ⟨rfl, rfl, rfl⟩

theorem shows_setCf {w : ℕ} (r : BitVec w) : (regs.setCf cf).status.Shows r ↔ regs.status.Shows r := by
  rw [status_setCf]
  exact Iff.rfl

theorem updateFlags_eq_setCf_iff :
    updateFlags width regs r = regs.setCf cf ↔ regs.status.Shows r ∧ regs.getCf = cf := by
  constructor
  · intro hsame
    have hstatus := congrArg Regs.status hsame
    rw [status_updateFlags, status_setCf] at hstatus
    have hcf := congrArg Status.cf hstatus
    have hself := (setCf_eq_iff regs cf).mpr hcf
    rw [hself] at hsame
    exact ⟨(updateFlags_eq_self_iff width regs r).mp hsame, hcf⟩
  · rintro ⟨hshows, hcf⟩
    rw [(updateFlags_eq_self_iff width regs r).mpr hshows, (setCf_eq_iff regs cf).mpr hcf]

theorem updateFlags_setCf_iff :
    updateFlags width regs r = updateFlags width (regs.setCf cf) r ↔ regs.getCf = cf := by
  constructor
  · intro hsame
    have hstatus := congrArg Regs.status hsame
    rw [status_updateFlags, status_updateFlags, Regs.getCf_setCf] at hstatus
    exact congrArg Status.cf hstatus
  · intro hcf
    rw [(setCf_eq_iff regs cf).mpr hcf]

/-- A rotation that leaves the word alone must leave the carry alone too. -/
theorem updateFlags_kept_iff (s : BitVec width.bits × Bool) :
    updateFlags width regs r = regs.setCf s.2 ∧ r = s.1 ↔
      regs.status.Shows r ∧ s = (r, regs.getCf) := by
  rw [updateFlags_eq_setCf_iff, and_assoc]
  apply and_congr_right
  intro _
  constructor
  · rintro ⟨hcf, hr⟩
    exact Prod.ext hr.symm hcf.symm
  · intro hs
    rw [hs]
    exact ⟨rfl, rfl⟩

end Equality

section Compare

variable {width : StoredWidth} {move : Move} {mb count : U8} {core : Core}

/-- The registers that the repeated moves leave, before the operand is stored. -/
def repeatedFlags (width : StoredWidth) (move : Move) (regs : Regs) (s : BitVec width.bits × Bool) :
    Regs :=
  if rotates move then regs.setCf s.2 else updateFlags width (regs.setCf s.2) s.1

theorem repeatedFlags_same (regs : Regs) (s : BitVec width.bits × Bool) :
    SameButFlags regs (repeatedFlags width move regs s) := by
  unfold repeatedFlags
  split
  · exact ⟨rfl, rfl, rfl⟩
  · exact updateFlags_same (regs.setCf s.2) s.1

theorem repeats_iff_of_value {r : BitVec width.bits} {regs : Regs} {s : BitVec width.bits × Bool}
    (hmode : (ModRm.decode mb).mode = 3) (hpos : 0 < maskedCount count)
    (hvalue : shiftValue width (ModRm.decode mb)
      (width.size.get (ModRm.decode mb).rm core.cpu.regs) (maskedCount count) core =
        .ok (r, core.setRegs regs))
    (hsame : SameButFlags core.cpu.regs regs)
    (hs : move.next^[maskedCount count]
      (width.size.get (ModRm.decode mb).rm core.cpu.regs, core.cpu.regs.getCf) = s) :
    RepeatsMoves width move mb count core ↔
      updateFlags width regs r = repeatedFlags width move core.cpu.regs s ∧ r = s.1 := by
  have hne : ¬ maskedCount count = 0 := hpos.ne'
  subst hs
  rw [RepeatsMoves, shiftRm_apply hmode, if_neg hne, repeated, if_neg hne, bind_ok hvalue,
    bind_ok (modRegs_apply _ _), modRegs_apply]
  simp only [setRegs_setRegs, setRegs_cpu_regs, Except.ok.injEq, Prod.mk.injEq, true_and]
  rw [setRegs_inj]
  exact set_eq_iff ((repeatedFlags_same _ _).symm.trans (hsame.trans (updateFlags_same _ _))) _ _

theorem not_repeats {fault : Fault} (hmode : (ModRm.decode mb).mode = 3)
    (hpos : 0 < maskedCount count)
    (hvalue : shiftValue width (ModRm.decode mb)
      (width.size.get (ModRm.decode mb).rm core.cpu.regs) (maskedCount count) core =
        .error fault) :
    ¬ RepeatsMoves width move mb count core := by
  rw [RepeatsMoves, shiftRm_apply hmode, if_neg hpos.ne', bind_error hvalue]
  exact fun h => nomatch h

end Compare

theorem repeats_byte_iff
    {move : Move} {mb count : U8} {core : Core} (hmode : (ModRm.decode mb).mode = 3)
    (hfield : (ModRm.decode mb).reg = moveField move) (hpos : 0 < maskedCount count) :
    RepeatsMoves .byte move mb count core ↔
      byteMovesRight move (maskedCount count)
        (core.cpu.regs.get8 (reg8FromField (ModRm.decode mb).rm)) core.cpu.regs.status := by
  refine Iff.trans ?_ (byteMovesRight_iff hpos).symm
  have hvalue : shiftValue .byte (ModRm.decode mb)
      (StoredWidth.byte.size.get (ModRm.decode mb).rm core.cpu.regs) (maskedCount count) core = _ :=
    shiftU8_apply hfield hpos
  by_cases hrange : byteInRange move (maskedCount count)
  · rw [if_pos hrange] at hvalue
    have hiff := @repeats_iff_of_value .byte move mb count core _ _ _ hmode hpos hvalue
      ⟨rfl, rfl, rfl⟩ rfl
    rw [and_iff_right hrange]
    refine hiff.trans ((and_iff_left rfl).trans ?_)
    rw [repeatedFlags]
    by_cases hrotates : rotates move = true
    · rw [if_pos hrotates, imp_iff_right hrotates]
      exact (updateFlags_eq_self_iff _ _ _).trans (shows_setCf _ _ _)
    · rw [if_neg hrotates]
      exact iff_of_true rfl fun h => absurd h hrotates
  · rw [if_neg hrange] at hvalue
    exact iff_of_false (not_repeats hmode hpos hvalue) fun h => hrange h.1

/-! ## Words -/

def wordInRange : Move → ℕ → Prop
  | .rol, _ | .ror, _ | .rcl, _ | .rcr, _ => True
  | .shl, cnt | .shr, cnt | .sar, cnt => cnt ≤ 15

/-- The word that an arm in range computes. -/
def wordValue (move : Move) (v : U16) (cnt : ℕ) : U16 :=
  match move with
  | .rol => v.rotateLeft cnt
  | .ror => v.rotateRight cnt
  | .rcl | .rcr => v
  | .shl => v <<< cnt
  | .shr => v >>> cnt
  | .sar => v.sshiftRight cnt

instance (move : Move) (cnt : ℕ) : Decidable (wordInRange move cnt) := by
  unfold wordInRange
  cases move <;> infer_instance

theorem shiftU16_apply {modrm : ModRm} {move : Move} {v : U16} {cnt : ℕ} {core : Core}
    (hfield : modrm.reg = moveField move) :
    shiftU16 modrm v cnt core =
      if wordInRange move cnt then .ok (wordValue move v cnt, core) else .error .overflow := by
  unfold shiftU16
  rw [hfield]
  cases move with
  | rol | ror | rcl | rcr => rfl
  | shl | shr | sar =>
      show (if cnt ≥ 16 then _ else _ : Routine U16) core = if cnt ≤ 15 then _ else _
      by_cases hle : cnt ≤ 15
      · rw [if_neg (by omega), if_pos hle]
        rfl
      · rw [if_pos (by omega), if_neg hle]
        rfl

/-- The flags of the word that a rotation leaves are already there, and so is the
carry.  A rotation through the carry must change nothing. -/
def wordMovesRight (move : Move) (cnt : ℕ) (v : U16) (status : Status) : Prop :=
  match move with
  | .rol => status.Shows (v.rotateLeft cnt) ∧ status.cf = (v.rotateLeft cnt).getLsbD 0
  | .ror => status.Shows (v.rotateRight cnt) ∧ status.cf = (v.rotateRight cnt).msb
  | .rcl | .rcr => status.Shows v ∧ (cnt = 17 ∨ Uniform (v, status.cf))
  | .shl => cnt ≤ 15 ∧ status.cf = v.getLsbD (16 - cnt)
  | .shr | .sar => cnt ≤ 15 ∧ status.cf = v.getLsbD (cnt - 1)

theorem repeats_word_iff
    {move : Move} {mb count : U8} {core : Core} (hmode : (ModRm.decode mb).mode = 3)
    (hfield : (ModRm.decode mb).reg = moveField move) (hpos : 0 < maskedCount count) :
    RepeatsMoves .word move mb count core ↔
      wordMovesRight move (maskedCount count)
        (core.cpu.regs.get16 (reg16FromField (ModRm.decode mb).rm)) core.cpu.regs.status := by
  have hvalue : shiftValue .word (ModRm.decode mb)
      (StoredWidth.word.size.get (ModRm.decode mb).rm core.cpu.regs) (maskedCount count) core = _ :=
    shiftU16_apply hfield
  by_cases hrange : wordInRange move (maskedCount count)
  · rw [if_pos hrange] at hvalue
    have hiff := fun s => @repeats_iff_of_value .word move mb count core _ core.cpu.regs s hmode
      hpos hvalue ⟨rfl, rfl, rfl⟩
    have hafter := hiff _ (next_iterate (by decide) move hpos _)
    have hless := maskedCount_lt count
    have hround : 17 ∣ maskedCount count ↔ maskedCount count = 17 := by omega
    cases move with
    | rol | ror => exact hafter.trans ((and_iff_left rfl).trans (updateFlags_eq_setCf_iff _ _ _))
    | rcl =>
        refine (hiff _ rfl).trans ((updateFlags_kept_iff _ _ _).trans (and_congr_right fun _ => ?_))
        rw [← hround]
        exact rcl_iterate_eq_iff (by decide) (by decide) _ _
    | rcr =>
        refine (hiff _ rfl).trans ((updateFlags_kept_iff _ _ _).trans (and_congr_right fun _ => ?_))
        rw [← hround]
        exact rcr_iterate_eq_iff (by decide) (by decide) _ _
    | shl =>
        refine hafter.trans ((and_iff_left rfl).trans ((updateFlags_setCf_iff _ _ _).trans ?_))
        have hcarry := shiftLeft_msb (core.cpu.regs.get16 (reg16FromField (ModRm.decode mb).rm)) hpos
          (show maskedCount count ≤ 16 from Nat.le_succ_of_le hrange)
        refine Iff.trans ?_ (and_iff_right hrange).symm
        exact iff_of_eq (congrArg (core.cpu.regs.getCf = ·) hcarry)
    | shr =>
        refine hafter.trans ((and_iff_left rfl).trans ((updateFlags_setCf_iff _ _ _).trans ?_))
        exact (and_iff_right hrange).symm
    | sar =>
        refine hafter.trans ((and_iff_left rfl).trans ((updateFlags_setCf_iff _ _ _).trans ?_))
        have hle : maskedCount count ≤ 15 := hrange
        have hcarry := sshiftRight_low (core.cpu.regs.get16 (reg16FromField (ModRm.decode mb).rm))
          (show maskedCount count - 1 < 16 by omega)
        refine Iff.trans ?_ (and_iff_right hrange).symm
        exact iff_of_eq (congrArg (core.cpu.regs.getCf = ·) hcarry)
  · rw [if_neg hrange] at hvalue
    refine iff_of_false (not_repeats hmode hpos hvalue) ?_
    cases move with
    | rol | ror | rcl | rcr => exact absurd trivial hrange
    | shl | shr | sar => exact fun h => hrange h.1

/-! ## Both widths -/

/-- The operand and the flags before the function let it do what the moves do. -/
def MovesRight (width : StoredWidth) (move : Move) (mb count : U8) (regs : Regs) : Prop :=
  maskedCount count = 0 ∨
    match width with
    | .byte =>
        byteMovesRight move (maskedCount count)
          (regs.get8 (reg8FromField (ModRm.decode mb).rm)) regs.status
    | .word =>
        wordMovesRight move (maskedCount count)
          (regs.get16 (reg16FromField (ModRm.decode mb).rm)) regs.status

theorem shifts_repeat_iff (width : StoredWidth) (move : Move) (mb count : U8) (core : Core)
    (hmode : (ModRm.decode mb).mode = 3) (hfield : (ModRm.decode mb).reg = moveField move) :
    RepeatsMoves width move mb count core ↔ MovesRight width move mb count core.cpu.regs := by
  rcases Nat.eq_zero_or_pos (maskedCount count) with hzero | hpos
  · have hnone : RepeatsMoves width move mb count core := by
      rw [RepeatsMoves, shiftRm_apply hmode, if_pos hzero, repeated, if_pos hzero]
      rfl
    exact iff_of_true hnone (.inl hzero)
  · refine Iff.trans ?_ (or_iff_right hpos.ne').symm
    cases width with
    | byte => exact repeats_byte_iff hmode hfield hpos
    | word => exact repeats_word_iff hmode hfield hpos

/-- SHL AL, 3. -/
theorem shifts_repeat_iff_shl :
    RepeatsMoves .byte .shl 0xE0 3 (operandCore []) ↔
      MovesRight .byte .shl 0xE0 3 (operandCore []).cpu.regs :=
  shifts_repeat_iff .byte .shl 0xE0 3 (operandCore []) (by decide) (by decide)

/-- SHL AL, 8 shifts a byte by its width. -/
theorem shl_by_width :
    shiftRm .byte 0xE0 8 (operandCore []) = .error .overflow ∧
      ¬ RepeatsMoves .byte .shl 0xE0 8 (operandCore []) := by
  have hfault : shiftRm .byte 0xE0 8 (operandCore []) = .error .overflow := rfl
  refine ⟨hfault, ?_⟩
  rw [RepeatsMoves, hfault]
  exact fun h => nomatch h

end Kita98
