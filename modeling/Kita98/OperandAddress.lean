import Kita98.ModRm

/-!
# What decoding an operand consumes

Computing the address of a memory operand only moves IP, by the SIB and
displacement bytes of the operand.  An operand without such bytes has an
address that the registers alone determine.
-/

namespace Kita98

open WordBits Kita98.Core

/-! ## Routines that only fetch -/

/-- The routine returns and only moves IP, by a number of bytes in `counts`. -/
def Fetches {α : Type} (counts : ℕ → Prop) (routine : Routine α) : Prop :=
  ∀ core, ∃ n, counts n ∧ ∃ a, routine core = .ok (a, core.skip n)

namespace Fetches

variable {α β : Type} {P Q R : ℕ → Prop}

theorem pure (a : α) : Fetches (· = 0) (Pure.pure a : Routine α) := fun _ => ⟨0, rfl, a, rfl⟩

theorem read (f : Core → α) : Fetches (· = 0) (Exec.read f : Routine α) :=
  fun core => ⟨0, rfl, f core, rfl⟩

theorem fetchU8 : Fetches (· = 1) Kita98.fetchU8 := fun _ => ⟨1, rfl, _, rfl⟩

theorem fetchU16 : Fetches (· = 2) Kita98.fetchU16 := fun _ => ⟨2, rfl, _, rfl⟩

theorem fetchU32 : Fetches (· = 4) Kita98.fetchU32 := fun _ => ⟨4, rfl, _, rfl⟩

theorem mono {x : Routine α} (hx : Fetches P x) (hsub : ∀ n, P n → Q n) : Fetches Q x := by
  intro core
  obtain ⟨n, hn, a, hrun⟩ := hx core
  exact ⟨n, hsub n hn, a, hrun⟩

theorem read_bind {f : Core → α} {g : α → Routine β} (hg : ∀ a, Fetches P (g a)) :
    Fetches P (Exec.read f >>= g) := by
  intro core
  obtain ⟨n, hn, b, hrun⟩ := hg (f core) core
  exact ⟨n, hn, b, hrun⟩

theorem bind_pure {x : Routine α} (hx : Fetches P x) (f : α → β) :
    Fetches P (x >>= fun a => Pure.pure (f a)) := by
  intro core
  obtain ⟨n, hn, a, hrun⟩ := hx core
  exact ⟨n, hn, f a, Exec.bind_ok hrun⟩

theorem bind {x : Routine α} {f : α → Routine β} (hx : Fetches P x)
    (hf : ∀ a, Fetches Q (f a)) (hsum : ∀ m n, P m → Q n → R (m + n)) :
    Fetches R (x >>= f) := by
  intro core
  obtain ⟨m, hm, a, hfirst⟩ := hx core
  obtain ⟨n, hn, b, hsecond⟩ := hf a (core.skip m)
  refine ⟨m + n, hsum m n hm hn, b, ?_⟩
  rw [Exec.bind_ok hfirst, hsecond, Core.skip_skip]

end Fetches

/-! ## Operands -/

/-- The operand has neither SIB nor displacement bytes. -/
def NoAddressBytes (address32 : Bool) (modrm : ModRm) : Prop :=
  modrm.mode = 0 ∧ if address32 then modrm.rm ≠ 4 ∧ modrm.rm ≠ 5 else modrm.rm ≠ 6

instance (address32 : Bool) (modrm : ModRm) : Decidable (NoAddressBytes address32 modrm) := by
  unfold NoAddressBytes
  infer_instance

/-- Displacement bytes in the modes that have them; mode 2 has `long`. -/
def dispBytes (long : ℕ) (mode : BitVec 2) : ℕ :=
  if mode = 1 then 1 else if mode = 2 then long else 0

/-- Bytes that stand for the base, or hold it. -/
def baseBytes32 (modrm : ModRm) : ℕ :=
  if modrm.rm = 4 then 1 else if modrm.rm = 5 ∧ modrm.mode = 0 then 4 else 0

/-- The SIB and displacement bytes that the ModRM byte calls for. -/
def addressBytes (address32 : Bool) (modrm : ModRm) : ℕ :=
  if address32 then baseBytes32 modrm + dispBytes 4 modrm.mode
  else (if modrm.rm = 6 ∧ modrm.mode = 0 then 2 else 0) + dispBytes 2 modrm.mode

/-- The bytes consumed where the ModRM byte calls for `k`: a lone SIB byte can
call for four more. -/
def Counts (k n : ℕ) : Prop := n = k ∨ (k = 1 ∧ n = 5)

theorem Counts.le {k n : ℕ} (hcounts : Counts k n) : n ≤ k + 4 := by
  rcases hcounts with rfl | ⟨rfl, rfl⟩ <;> omega

theorem memory_mode {modrm : ModRm} (hmode : modrm.mode ≠ 3) :
    modrm.mode = 0 ∨ modrm.mode = 1 ∨ modrm.mode = 2 := by
  bv_omega

theorem addressBytes_le (address32 : Bool) (modrm : ModRm) : addressBytes address32 modrm ≤ 8 := by
  unfold addressBytes baseBytes32 dispBytes
  split_ifs <;> omega

theorem addressBytes_eq_zero {address32 : Bool} {modrm : ModRm} (hmode : modrm.mode ≠ 3) :
    addressBytes address32 modrm = 0 ↔ NoAddressBytes address32 modrm := by
  unfold addressBytes baseBytes32 dispBytes NoAddressBytes
  rcases memory_mode hmode with h | h | h <;> rw [h] <;> cases address32 <;> simp
  split_ifs <;> simp_all

theorem decodeEa16_fetches {modrm : ModRm} (hmode : modrm.mode ≠ 3) :
    Fetches (· = addressBytes false modrm) (decodeEa16 modrm) := by
  unfold decodeEa16 addressBytes
  refine .read_bind fun prefixes => ?_
  by_cases hdirect : modrm.rm = 6 ∧ modrm.mode = 0
  · simp only [if_pos hdirect, Bool.false_eq_true, if_false]
    rw [hdirect.2]
    exact Fetches.fetchU16.bind_pure _
  · simp only [if_neg hdirect, Bool.false_eq_true, if_false, Nat.zero_add]
    refine .read_bind fun base => ?_
    rcases memory_mode hmode with h | h | h <;> rw [h]
    · exact .pure _
    · exact Fetches.fetchU8.bind_pure _
    · exact Fetches.fetchU16.bind_pure _

theorem sibOffset_fetches (mode : BitVec 2) :
    Fetches (fun n => n = 1 ∨ (mode = 0 ∧ n = 5)) (sibOffset mode) := by
  unfold sibOffset
  refine @Fetches.bind _ _ _ (fun n => n = 0 ∨ (mode = 0 ∧ n = 4)) _ _ _ .fetchU8
    (fun sib => ?_) ?_
  · simp only
    split
    · next hlong =>
        refine @Fetches.bind _ _ _ (· = 0) _ _ _ .fetchU32 (fun val => ?_) ?_
        · exact .read_bind fun idx => .pure _
        · rintro m n rfl rfl
          exact .inr ⟨hlong.2, rfl⟩
    · refine .read_bind fun val => .read_bind fun idx => (Fetches.pure _).mono ?_
      rintro n rfl
      exact .inl rfl
  · rintro m n rfl (rfl | ⟨hmode, rfl⟩)
    · exact .inl rfl
    · exact .inr ⟨hmode, rfl⟩

theorem displacement32_fetches {mode : BitVec 2} (hmode : mode = 0 ∨ mode = 1 ∨ mode = 2) :
    Fetches (· = dispBytes 4 mode) (displacement32 mode) := by
  unfold displacement32
  rcases hmode with rfl | rfl | rfl
  · exact .pure _
  · exact Fetches.fetchU8.bind_pure _
  · exact .fetchU32

theorem baseOffset32_fetches (modrm : ModRm) :
    Fetches (fun n => n = baseBytes32 modrm ∨ (modrm.rm = 4 ∧ modrm.mode = 0 ∧ n = 5))
      (baseOffset32 modrm) := by
  unfold baseOffset32 baseBytes32
  by_cases hsib : modrm.rm = 4
  · simp only [if_pos hsib]
    refine (sibOffset_fetches _).mono ?_
    rintro n (rfl | ⟨hmode, rfl⟩)
    · exact .inl rfl
    · exact .inr ⟨hsib, hmode, rfl⟩
  · simp only [if_neg hsib]
    by_cases hdirect : modrm.rm = 5 ∧ modrm.mode = 0
    · simp only [if_pos hdirect]
      exact (Fetches.fetchU32.bind_pure _).mono fun n hn => .inl hn
    · simp only [if_neg hdirect]
      exact .read_bind fun offset => (Fetches.pure _).mono fun n hn => .inl hn

theorem decodeEa32_fetches {modrm : ModRm} (hmode : modrm.mode ≠ 3) :
    Fetches (Counts (addressBytes true modrm)) (decodeEa32 modrm) := by
  unfold decodeEa32
  refine @Fetches.bind _ _ _ (· = dispBytes 4 modrm.mode) _ _ _
    (baseOffset32_fetches modrm) (fun pair => ?_) ?_
  · refine @Fetches.bind _ _ _ (· = 0) _ _ _ (displacement32_fetches (memory_mode hmode))
      (fun disp => ?_) ?_
    · exact .read_bind fun prefixes => .pure _
    · rintro m n hm rfl
      exact hm
  · rintro m n (rfl | ⟨hsib, hmode, rfl⟩) rfl
    · left
      rfl
    · right
      simp [addressBytes, baseBytes32, dispBytes, hsib, hmode]

theorem decodeEa_fetches {modrm : ModRm} (hmode : modrm.mode ≠ 3) (core : Core) :
    ∃ n, Counts (addressBytes core.cpu.prefixes.address32 modrm) n ∧
      ∃ a, decodeEa modrm core = .ok (a, core.skip n) := by
  unfold decodeEa
  rw [Exec.bind_ok (getPrefixes_apply core)]
  cases haddress : core.cpu.prefixes.address32 with
  | true =>
      obtain ⟨n, hn, a, hrun⟩ := decodeEa32_fetches hmode core
      refine ⟨n, hn, a, ?_⟩
      simpa [haddress] using hrun
  | false =>
      obtain ⟨n, hn, ⟨seg, off⟩, hrun⟩ := decodeEa16_fetches hmode core
      refine ⟨n, .inl hn, (seg, off.setWidth 32), ?_⟩
      simp only [Bool.false_eq_true, if_false]
      rw [Exec.bind_ok hrun]
      rfl

theorem eaFromModrm_fetches {modrm : ModRm} (hmode : modrm.mode ≠ 3) (core : Core) :
    ∃ n, Counts (addressBytes core.cpu.prefixes.address32 modrm) n ∧
      ∃ ea, eaFromModrm modrm core = .ok (ea, core.skip n) := by
  obtain ⟨n, hn, ⟨seg, off⟩, hrun⟩ := decodeEa_fetches hmode core
  refine ⟨n, hn, Memory.phys ((core.skip n).cpu.regs.getSeg seg) off, ?_⟩
  unfold eaFromModrm
  rw [Exec.bind_ok hrun]
  rfl

def plainEa (prefixes : PrefixState) (modrm : ModRm) (regs : Regs) : U32 :=
  if prefixes.address32 then
    Memory.phys (regs.getSeg (prefixes.segOverride.getD .DS))
      (regs.get32 (reg16FromField modrm.rm))
  else
    Memory.phys (regs.getSeg (prefixes.segOverride.getD (defaultSeg16 modrm)))
      ((baseRegs16 regs modrm.rm).setWidth 32)

theorem eaFromModrm_plain
    {core : Core} {modrm : ModRm} (hplain : NoAddressBytes core.cpu.prefixes.address32 modrm) :
    eaFromModrm modrm core = .ok (plainEa core.cpu.prefixes modrm core.cpu.regs, core) := by
  obtain ⟨hmode, hrm⟩ := hplain
  unfold plainEa
  cases haddress : core.cpu.prefixes.address32 with
  | true =>
      simp only [haddress, if_true] at hrm
      have hdirect : ¬ (modrm.rm = 5 ∧ modrm.mode = 0) := fun hboth => hrm.2 hboth.1
      have hbase : baseOffset32 modrm core =
          .ok ((.DS, core.cpu.regs.get32 (reg16FromField modrm.rm)), core) := by
        unfold baseOffset32
        rw [if_neg hrm.1, if_neg hdirect]
        simp only [if_neg hrm.2]
        rfl
      have hdisp : displacement32 modrm.mode core = .ok (0, core) := by
        rw [hmode]
        rfl
      unfold eaFromModrm decodeEa
      rw [Exec.bind_apply, Exec.bind_ok (getPrefixes_apply core), if_pos haddress]
      unfold decodeEa32
      rw [Exec.bind_ok hbase]
      dsimp only
      rw [Exec.bind_ok hdisp, Exec.bind_ok (getPrefixes_apply core)]
      simp
  | false =>
      simp only [haddress, Bool.false_eq_true, if_false] at hrm
      have hdirect : ¬ (modrm.rm = 6 ∧ modrm.mode = 0) := fun hboth => hrm hboth.1
      have hdecode : decodeEa16 modrm core =
          .ok ((core.cpu.prefixes.segOverride.getD (defaultSeg16 modrm),
            baseRegs16 core.cpu.regs modrm.rm), core) := by
        unfold decodeEa16
        rw [Exec.bind_ok (getPrefixes_apply core)]
        simp only [if_neg hdirect]
        rw [Exec.bind_ok (getRegs_apply core _), hmode]
        rfl
      unfold eaFromModrm decodeEa
      rw [Exec.bind_apply, Exec.bind_ok (getPrefixes_apply core), haddress]
      simp only [Bool.false_eq_true, if_false]
      rw [Exec.bind_ok hdecode]
      rfl

/-! ## How many bytes they are -/

/-- A SIB byte, and the displacement that can stand for its base. -/
def sibSize (mode : BitVec 2) (sib : U8) : ℕ :=
  if sib.setWidth 3 = (5 : BitVec 3) ∧ mode = 0 then 5 else 1

def baseSize32 (modrm : ModRm) (next : U8) : ℕ :=
  if modrm.rm = 4 then sibSize modrm.mode next
  else if modrm.rm = 5 ∧ modrm.mode = 0 then 4 else 0

/-- The SIB and displacement bytes of an operand; `next` is the byte behind the
ModRM byte. -/
def operandSize (address32 : Bool) (modrm : ModRm) (next : U8) : ℕ :=
  if modrm.mode = 3 then 0
  else if address32 then baseSize32 modrm next + dispBytes 4 modrm.mode
  else addressBytes false modrm

theorem sibOffset_size (mode : BitVec 2) (core : Core) :
    ∃ a, sibOffset mode core =
      .ok (a, core.skip (sibSize mode (core.codeByte core.cpu.regs.ip))) := by
  unfold sibOffset
  rw [Exec.bind_ok (fetchU8_apply core)]
  unfold sibSize
  by_cases hlong : (core.codeByte core.cpu.regs.ip).setWidth 3 = (5 : BitVec 3) ∧ mode = 0
  · simp only [if_pos hlong]
    exact ⟨_, rfl⟩
  · simp only [if_neg hlong]
    exact ⟨_, rfl⟩

theorem baseOffset32_size (modrm : ModRm) (core : Core) :
    ∃ a, baseOffset32 modrm core =
      .ok (a, core.skip (baseSize32 modrm (core.codeByte core.cpu.regs.ip))) := by
  unfold baseOffset32 baseSize32
  by_cases hsib : modrm.rm = 4
  · simp only [if_pos hsib]
    exact sibOffset_size _ core
  · simp only [if_neg hsib]
    by_cases hdirect : modrm.rm = 5 ∧ modrm.mode = 0
    · simp only [if_pos hdirect]
      exact ⟨_, rfl⟩
    · simp only [if_neg hdirect]
      exact ⟨_, rfl⟩

theorem decodeEa_size {modrm : ModRm} (hmode : modrm.mode ≠ 3) (core : Core) :
    ∃ a, decodeEa modrm core =
      .ok (a, core.skip (operandSize core.cpu.prefixes.address32 modrm
        (core.codeByte core.cpu.regs.ip))) := by
  unfold decodeEa operandSize
  rw [Exec.bind_ok (getPrefixes_apply core), if_neg hmode]
  cases haddress : core.cpu.prefixes.address32 with
  | true =>
      rcases baseOffset32_size modrm core with ⟨base, hbase⟩
      rcases displacement32_fetches (memory_mode hmode)
        (core.skip (baseSize32 modrm (core.codeByte core.cpu.regs.ip))) with ⟨n, rfl, disp, hdisp⟩
      rw [Core.skip_skip] at hdisp
      simp only [if_true]
      unfold decodeEa32
      rw [Exec.bind_ok hbase]
      simp only
      rw [Exec.bind_ok hdisp]
      exact ⟨_, rfl⟩
  | false =>
      rcases decodeEa16_fetches hmode core with ⟨n, rfl, pair, hrun⟩
      simp only [Bool.false_eq_true, if_false]
      rw [Exec.bind_ok hrun]
      exact ⟨_, rfl⟩

theorem eaFromModrm_size {modrm : ModRm} (hmode : modrm.mode ≠ 3) (core : Core) :
    ∃ ea, eaFromModrm modrm core =
      .ok (ea, core.skip (operandSize core.cpu.prefixes.address32 modrm
        (core.codeByte core.cpu.regs.ip))) := by
  rcases decodeEa_size hmode core with ⟨pair, hrun⟩
  unfold eaFromModrm
  rw [Exec.bind_ok hrun]
  exact ⟨_, rfl⟩

theorem readModrmU16_size (modrm : ModRm) (core : Core) :
    ∃ v, readModrmU16 modrm core =
      .ok (v, core.skip (operandSize core.cpu.prefixes.address32 modrm
        (core.codeByte core.cpu.regs.ip))) := by
  unfold readModrmU16
  by_cases hmode : modrm.mode = 3
  · unfold operandSize
    rw [if_pos hmode, if_pos hmode]
    exact ⟨_, rfl⟩
  · rcases eaFromModrm_size hmode core with ⟨ea, hea⟩
    rw [if_neg hmode, Exec.bind_ok hea]
    exact ⟨_, rfl⟩

end Kita98
