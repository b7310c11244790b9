import Kita98.Group1
import Kita98.PrefixLoop
import Kita98.SwappedBlocks

/-!
# Operand and immediate in the order of the encoding

Behind the ModRM byte stand the SIB byte and the displacement of the operand,
and behind these the immediate.  The arms with both fetch the immediate first
and decode the address from the bytes that are left, so the two come out as they
stand only in texts that repeat themselves.
-/

namespace Kita98

open WordBits SwappedBlocks Kita98.Core Exec

/-! ## Addresses from their bytes -/

section Address

/-- The displacement among the address bytes; a SIB byte stands in front of it. -/
def displacement (address32 : Bool) (modrm : ModRm) (address : List U8) : List U8 :=
  if address32 ∧ modrm.rm = 4 then address.tail else address

def disp16 : List U8 → U16
  | [] => 0
  | [byte] => byte.signExtend 16
  | low :: high :: _ => joinBytes low high

def disp32 : List U8 → U32
  | [b₀, b₁, b₂, b₃] =>
      (joinBytes b₀ b₁).setWidth 32 ||| ((joinBytes b₂ b₃).setWidth 32 <<< 16)
  | byte :: _ => byte.signExtend 32
  | [] => 0

def base16 (modrm : ModRm) (regs : Regs) : U16 :=
  if modrm.rm = 6 ∧ modrm.mode = 0 then 0 else baseRegs16 regs modrm.rm

def sibIndex (sib : U8) (regs : Regs) : U32 :=
  let index : BitVec 3 := (sib >>> 3).setWidth 3
  if index ≠ 4 then regs.get32 (reg16FromField index) <<< ((sib >>> 6).setWidth 2 : BitVec 2).toNat
  else 0

/-- The registers of a 32-bit address and the segment that they imply. -/
def base32 (modrm : ModRm) (sib : U8) (regs : Regs) : SegReg × U32 :=
  let base : BitVec 3 := if modrm.rm = 4 then sib.setWidth 3 else modrm.rm
  let index := if modrm.rm = 4 then sibIndex sib regs else 0
  if base = 5 ∧ modrm.mode = 0 then (.DS, index)
  else
    (if (modrm.rm = 4 ∧ base = 4) ∨ base = 5 then .SS else .DS,
      regs.get32 (reg16FromField base) + index)

/-- The physical address that the address bytes stand for. -/
def effectiveAddress (prefixes : PrefixState) (modrm : ModRm) (regs : Regs) (address : List U8) :
    U32 :=
  let disp := displacement prefixes.address32 modrm address
  if prefixes.address32 then
    let (seg, base) := base32 modrm (address.headD 0) regs
    Memory.phys (regs.getSeg (prefixes.segOverride.getD seg)) (base + disp32 disp)
  else
    Memory.phys (regs.getSeg (prefixes.segOverride.getD (defaultSeg16 modrm)))
      ((base16 modrm regs + disp16 disp).setWidth 32)

/-- The address bytes of an operand whose first one is the `k`-th from CS:IP on. -/
def Core.addressAt (core : Core) (modrm : ModRm) (k : ℕ) : List U8 :=
  (List.range (operandSize core.cpu.prefixes.address32 modrm (core.byteAt k))).map fun i =>
    core.byteAt (k + i)

variable {modrm : ModRm} {core : Core}

theorem decodeEa16_address
    (hmode : modrm.mode ≠ 3) (haddress : core.cpu.prefixes.address32 = false) :
    decodeEa16 modrm core =
      .ok ((core.cpu.prefixes.segOverride.getD (defaultSeg16 modrm),
          base16 modrm core.cpu.regs + disp16 (core.addressAt modrm 0)),
        core.skip (core.addressAt modrm 0).length) := by
  unfold decodeEa16 Core.addressAt operandSize
  rw [bind_ok (getPrefixes_apply core), if_neg hmode, haddress]
  by_cases hdirect : modrm.rm = 6 ∧ modrm.mode = 0
  · simp only [if_pos hdirect, Bool.false_eq_true, if_false, addressBytes, base16]
    rw [bind_ok (fetchU16_apply core), hdirect.2]
    simp [dispBytes, List.range_succ, disp16, byteAt]
    exact ⟨rfl, rfl⟩
  · simp only [if_neg hdirect, Bool.false_eq_true, if_false, addressBytes, base16]
    rw [bind_ok (getRegs_apply core _)]
    rcases memory_mode hmode with h | h | h <;> rw [h]
    · simp [dispBytes, disp16]
      rfl
    · rfl
    · rfl

theorem sibOffset_address (hsib : modrm.rm = 4) :
    sibOffset modrm.mode core =
      .ok (((base32 modrm (core.byteAt 0) core.cpu.regs).1,
          if (core.byteAt 0).setWidth 3 = (5 : BitVec 3) ∧ modrm.mode = 0 then
            disp32 [core.byteAt 1, core.byteAt 2, core.byteAt 3, core.byteAt 4] +
              (base32 modrm (core.byteAt 0) core.cpu.regs).2
          else (base32 modrm (core.byteAt 0) core.cpu.regs).2),
        core.skip (sibSize modrm.mode (core.byteAt 0))) := by
  unfold sibOffset sibSize base32 sibIndex
  rw [bind_ok (fetchU8_apply core), if_pos hsib, if_pos hsib]
  by_cases hlong : (core.byteAt 0).setWidth 3 = (5 : BitVec 3) ∧ modrm.mode = 0
  · have hlong' : (core.codeByte core.cpu.regs.ip).setWidth 3 = (5 : BitVec 3) ∧ modrm.mode = 0 :=
      hlong
    simp only [if_pos hlong, if_pos hlong']
    rfl
  · have hlong' : ¬ ((core.codeByte core.cpu.regs.ip).setWidth 3 = (5 : BitVec 3) ∧
        modrm.mode = 0) := hlong
    simp only [if_neg hlong, if_neg hlong', hsib, true_and]
    rfl

theorem byteAt_skip (core : Core) (k i : ℕ) : (core.skip k).byteAt i = core.byteAt (k + i) := by
  unfold Core.byteAt
  rw [skipIp_add]
  rfl

theorem displacement32_address (core : Core) (hmode : modrm.mode ≠ 3) (k : ℕ) :
    displacement32 modrm.mode (core.skip k) =
      .ok (disp32 ((List.range (dispBytes 4 modrm.mode)).map fun i => core.byteAt (k + i)),
        core.skip (k + dispBytes 4 modrm.mode)) := by
  simp only [← byteAt_skip, ← Core.skip_skip]
  rcases memory_mode hmode with h | h | h <;> rw [h] <;> rfl

theorem tail_map_range (bytes : ℕ → U8) (n : ℕ) :
    ((List.range (1 + n)).map bytes).tail = (List.range n).map fun i => bytes (1 + i) := by
  rw [Nat.add_comm 1 n, List.range_succ_eq_map, List.map_cons, List.tail_cons, List.map_map]
  apply List.map_congr_left
  intro i _
  rw [Function.comp_apply, Nat.succ_eq_one_add]

theorem decodeEa32_address
    (hmode : modrm.mode ≠ 3) (haddress : core.cpu.prefixes.address32 = true) :
    decodeEa32 modrm core =
      .ok ((core.cpu.prefixes.segOverride.getD (base32 modrm (core.byteAt 0) core.cpu.regs).1,
          (base32 modrm (core.byteAt 0) core.cpu.regs).2 +
            disp32 (displacement true modrm (core.addressAt modrm 0))),
        core.skip (core.addressAt modrm 0).length) := by
  have hdisp := fun k => displacement32_address core hmode k
  unfold decodeEa32 baseOffset32 Core.addressAt operandSize baseSize32 displacement
  rw [if_neg hmode, haddress]
  simp only [Nat.zero_add, List.length_map, List.length_range, true_and, if_true]
  by_cases hsib : modrm.rm = 4
  · simp only [if_pos hsib]
    rw [bind_ok (sibOffset_address hsib)]
    simp only
    rw [bind_ok (hdisp _)]
    unfold sibSize
    by_cases hlong : (core.byteAt 0).setWidth 3 = (5 : BitVec 3) ∧ modrm.mode = 0
    · simp only [if_pos hlong]
      rw [hlong.2]
      have hsum : ∀ disp index : U32, disp + index + disp32 [] = index + disp := by
        intro disp index
        have hnone : disp32 [] = 0 := rfl
        rw [hnone, add_zero, add_comm]
      exact congrArg (fun offset => Except.ok ((_, offset), core.skip 5)) (hsum _ _)
    · simp only [if_neg hlong, tail_map_range]
      rfl
  · simp only [if_neg hsib]
    by_cases hdirect : modrm.rm = 5 ∧ modrm.mode = 0
    · have hbase : base32 modrm (core.byteAt 0) core.cpu.regs = (.DS, 0) := by
        unfold base32
        rw [if_neg hsib, if_neg hsib, if_pos hdirect]
      rw [if_pos hdirect, hbase, if_pos hdirect, hdirect.2]
      have hsum : ∀ disp : U32, disp + 0 = 0 + disp := by
        intro disp
        rw [add_zero, zero_add]
      exact congrArg (fun offset => Except.ok ((_, offset), core.skip 4)) (hsum _)
    · have hbase : base32 modrm (core.byteAt 0) core.cpu.regs =
          (if modrm.rm = 5 then .SS else .DS, core.cpu.regs.get32 (reg16FromField modrm.rm)) := by
        unfold base32
        simp only [hsib, if_false, false_and, false_or, if_neg hdirect, add_zero]
      rw [if_neg hdirect, hbase, if_neg hdirect, Nat.zero_add]
      rcases memory_mode hmode with h | h | h <;> rw [h] <;> rfl

theorem base32_head (hmode : modrm.mode ≠ 3) (haddress : core.cpu.prefixes.address32 = true) :
    base32 modrm ((core.addressAt modrm 0).headD 0) core.cpu.regs =
      base32 modrm (core.byteAt 0) core.cpu.regs := by
  by_cases hsib : modrm.rm = 4
  · have hsome : ∃ n, operandSize core.cpu.prefixes.address32 modrm (core.byteAt 0) = n + 1 := by
      unfold operandSize baseSize32 sibSize
      rw [if_neg hmode, haddress, if_pos rfl, if_pos hsib]
      split_ifs
      · exact ⟨4 + dispBytes 4 modrm.mode, by omega⟩
      · exact ⟨dispBytes 4 modrm.mode, by omega⟩
    rcases hsome with ⟨n, hn⟩
    rw [Core.addressAt, hn, List.range_succ_eq_map]
    rfl
  · unfold base32
    simp only [hsib, if_false]

theorem eaFromModrm_address (core : Core) (hmode : modrm.mode ≠ 3) :
    eaFromModrm modrm core =
      .ok (effectiveAddress core.cpu.prefixes modrm core.cpu.regs (core.addressAt modrm 0),
        core.skip (core.addressAt modrm 0).length) := by
  unfold eaFromModrm decodeEa effectiveAddress
  rw [bind_apply, bind_ok (getPrefixes_apply core)]
  cases haddress : core.cpu.prefixes.address32 with
  | true =>
      simp only [if_true]
      rw [decodeEa32_address hmode haddress, base32_head hmode haddress]
      rfl
  | false =>
      simp only [Bool.false_eq_true, if_false]
      rw [bind_ok (decodeEa16_address hmode haddress)]
      rfl

theorem addressAt_skip (core : Core) (modrm : ModRm) (n k : ℕ) :
    (core.skip n).addressAt modrm k = core.addressAt modrm (n + k) := by
  unfold Core.addressAt
  simp only [byteAt_skip, Core.skip_prefixes, Nat.add_assoc]

theorem addressAt_congr {core core' : Core}
    (hprefixes : core'.cpu.prefixes = core.cpu.prefixes)
    (hseg : core'.cpu.regs.seg = core.cpu.regs.seg) (hip : core'.cpu.regs.ip = core.cpu.regs.ip)
    (hmem : core'.bus.mem = core.bus.mem) (modrm : ModRm) (k : ℕ) :
    core'.addressAt modrm k = core.addressAt modrm k := by
  have hbyte : ∀ i, core'.byteAt i = core.byteAt i := by
    intro i
    rw [byteAt, byteAt, codeByte, codeByte, hmem, hip, Regs.getSeg, Regs.getSeg, hseg]
  unfold Core.addressAt
  simp only [hprefixes, hbyte]

theorem effectiveAddress_congr {regs regs' : Regs} (hsame : SameGpSeg regs regs')
    (prefixes : PrefixState) (modrm : ModRm) (address : List U8) :
    effectiveAddress prefixes modrm regs' address = effectiveAddress prefixes modrm regs address := by
  rcases hsame with ⟨hgp, hseg⟩
  unfold effectiveAddress base32 sibIndex base16 baseRegs16 Regs.getSeg Regs.get32 Regs.get16
  rw [hgp, hseg]

end Address

/-! ## Instructions with an immediate -/

/-- `80` and `82`, `81`, `83`; TEST in `F6` and `F7`; `C6` and `C7`; `0F A4` and
`0F AC`. -/
inductive ImmInstr where
  | group1Rm8Imm8 | group1Rm16Imm16 | group1Rm16Imm8
  | testRm8 | testRm16
  | movRm8Imm | movRm16Imm
  | shldImm | shrdImm
  deriving DecidableEq, Repr

/-- Bytes that an instruction takes for its operands.  A double shift decodes its
address once more for the write. -/
@[ext] structure Operands where
  imm : List U8
  address : List U8
  again : Option (List U8)
  deriving DecidableEq, Repr

def Core.bytesAt (core : Core) (k n : ℕ) : List U8 :=
  (List.range n).map fun i => core.byteAt (k + i)

def byteImm (imm : List U8) : U8 := imm.headD 0

def wordImm : List U8 → U16
  | low :: high :: _ => joinBytes low high
  | _ => 0

def AluSize.group1At {w : ℕ} (size : AluSize w) (modrm : ModRm) (ea : U32) (imm : BitVec w) :
    Routine StepResult := do
  let _ ← group1With (fun _ => getMem fun mem => size.load mem ea) size.updateAdd size.updateSub
    size.logicFlags modrm imm
  return .proceed

/-- What follows from the operand of a double shift, with the address of the write. -/
def performAt (again : U32) : Effect U16 → Routine StepResult
  | .keep => return .proceed
  | .panic => Exec.fail .overflow
  | .store update result => do
      modRegs update
      modMem fun mem => mem.writeU16 again result
      return .proceed

def shiftAt (carry : ℕ → ℕ) (shift : U16 → U16 → ℕ → U16) (modrm : ModRm) (imm : List U8)
    (ea again : U32) : Routine StepResult := do
  let src ← getRegs fun regs => regs.get16 (reg16FromField modrm.reg)
  let dst ← getMem fun mem => mem.readU16 ea
  performAt again (shiftEffect carry shift src (byteImm imm &&& 31).toNat dst)

namespace ImmInstr

def arm : ImmInstr → Routine StepResult
  | group1Rm8Imm8 => Kita98.group1Rm8Imm8
  | group1Rm16Imm16 => Kita98.group1Rm16Imm16
  | group1Rm16Imm8 => Kita98.group1Rm16Imm8
  | testRm8 => group3Rm8
  | testRm16 => group3Rm16
  | movRm8Imm => Kita98.movRm8Imm
  | movRm16Imm => Kita98.movRm16Imm
  | shldImm => Kita98.shldImm
  | shrdImm => Kita98.shrdImm

def Selected (instr : ImmInstr) (field : BitVec 3) : Prop :=
  match instr with
  | testRm8 | testRm16 => field = 0 ∨ field = 1
  | _ => True

def immSize : ImmInstr → ℕ
  | group1Rm16Imm16 | testRm16 | movRm16Imm => 2
  | _ => 1

def decodesAgain (instr : ImmInstr) (imm : List U8) : Bool :=
  match instr with
  | shldImm | shrdImm => 0 < (byteImm imm &&& 31).toNat ∧ (byteImm imm &&& 31).toNat ≤ 16
  | _ => false

/-- The instruction behind all of its bytes. -/
def act (instr : ImmInstr) (modrm : ModRm) (imm : List U8) (ea again : U32) : Routine StepResult :=
  match instr with
  | group1Rm8Imm8 => byteAlu.group1At modrm ea (byteImm imm)
  | group1Rm16Imm16 => wordAlu.group1At modrm ea (wordImm imm)
  | group1Rm16Imm8 => wordAlu.group1At modrm ea ((byteImm imm).signExtend 16)
  | testRm8 => do
      let val ← getMem fun mem => mem.readU8 ea
      modRegs fun regs => regs.logicFlags8 (val &&& byteImm imm)
      return .proceed
  | testRm16 => do
      let val ← getMem fun mem => mem.readU16 ea
      modRegs fun regs => regs.logicFlags16 (val &&& wordImm imm)
      return .proceed
  | movRm8Imm => do
      modMem fun mem => mem.writeU8 ea (byteImm imm)
      return .proceed
  | movRm16Imm => do
      modMem fun mem => mem.writeU16 ea (wordImm imm)
      return .proceed
  | shldImm => shiftAt shldCarry shldWord modrm imm ea again
  | shrdImm => shiftAt shrdCarry shrdWord modrm imm ea again

/-- The bytes that the arm takes: the immediate directly behind the ModRM byte. -/
def used (instr : ImmInstr) (core : Core) : Operands :=
  let imm := core.bytesAt 1 instr.immSize
  let address := core.addressAt core.modrm (1 + instr.immSize)
  ⟨imm, address,
    if instr.decodesAgain imm then
      some (core.addressAt core.modrm (1 + instr.immSize + address.length))
    else none⟩

/-- The bytes of the encoding: the immediate behind the displacement. -/
def encoded (instr : ImmInstr) (core : Core) : Operands :=
  let address := core.addressAt core.modrm 1
  let imm := core.bytesAt (1 + address.length) instr.immSize
  ⟨imm, address, if instr.decodesAgain imm then some address else none⟩

def perform (instr : ImmInstr) (core : Core) (operands : Operands) :
    Except Fault (StepResult × Core) :=
  let again := operands.again.getD []
  let addressOf := effectiveAddress core.cpu.prefixes core.modrm core.cpu.regs
  instr.act core.modrm operands.imm (addressOf operands.address) (addressOf again)
    (core.skip (1 + operands.imm.length + operands.address.length + again.length))

end ImmInstr

section Runs

variable {core : Core} {modrm : ModRm}

theorem eaFromModrm_at (hmode : modrm.mode ≠ 3) (core : Core) (k : ℕ) :
    eaFromModrm modrm (core.skip k) =
      .ok (effectiveAddress core.cpu.prefixes modrm core.cpu.regs (core.addressAt modrm k),
        core.skip (k + (core.addressAt modrm k).length)) := by
  have hrun := eaFromModrm_address (core.skip k) hmode
  rw [addressAt_skip, Core.skip_skip, Nat.add_zero] at hrun
  exact hrun

theorem fetchU8_second (core : Core) :
    fetchU8 (core.skip 1) = .ok (byteImm (core.bytesAt 1 1), core.skip 2) := rfl

theorem fetchU16_second (core : Core) :
    fetchU16 (core.skip 1) = .ok (wordImm (core.bytesAt 1 2), core.skip 3) := rfl

theorem group1_at {w : ℕ} (size : AluSize w) (imm : BitVec w) {ea : U32} {mid : Core}
    (hmode : modrm.mode ≠ 3) (hea : eaFromModrm modrm core = .ok (ea, mid)) :
    (do let _ ← size.group1 modrm imm; return .proceed : Routine StepResult) core =
      size.group1At modrm ea imm mid := by
  rw [AluSize.group1At, size.group1_eq, group1With, group1With, size.read_mem modrm hmode,
    bind_assoc, bind_assoc, bind_ok hea, bind_assoc]

/-- The flags of a double shift leave the address of its write as it was. -/
theorem store_at (base : U16) (bit : ℕ) (result : U16) (hmode : modrm.mode ≠ 3) (core : Core)
    (n : ℕ) :
    (Effect.store (fun regs => (regs.setCfBit base bit).updateFlagsU16 result) result).perform
        wordOperand modrm (core.skip n) =
      performAt (effectiveAddress core.cpu.prefixes modrm core.cpu.regs (core.addressAt modrm n))
        (.store (fun regs => (regs.setCfBit base bit).updateFlagsU16 result) result)
        (core.skip (n + (core.addressAt modrm n).length)) := by
  set flagged := (core.skip n).setRegs
    (((core.skip n).cpu.regs.setCfBit base bit).updateFlagsU16 result) with hflagged
  have haddress : flagged.addressAt modrm 0 = core.addressAt modrm n := by
    rw [← Nat.add_zero n, ← addressAt_skip]
    rfl
  have hea := eaFromModrm_address flagged hmode
  rw [haddress] at hea
  have hwrite : wordOperand.write modrm result =
      (eaFromModrm modrm >>= fun ea => modMem fun mem => mem.writeU16 ea result) :=
    wordOperand.write_mem modrm result hmode
  rw [Effect.perform, bind_ok (modRegs_apply _ _), hwrite, bind_assoc, bind_ok hea, performAt,
    bind_ok (modRegs_apply _ _)]
  unfold Core.skip
  rw [skipIp_add]
  rfl

theorem shift_at (carry : ℕ → ℕ) (shift : U16 → U16 → ℕ → U16) (src : U16) (cnt : ℕ)
    (hmode : modrm.mode ≠ 3) (core : Core) (k : ℕ) :
    let address := core.addressAt modrm k
    let again := core.addressAt modrm (k + address.length)
    let total := k + address.length + (if 0 < cnt ∧ cnt ≤ 16 then again.length else 0)
    finishShift carry shift modrm src cnt (core.skip k) =
      (do
        let dst ← getMem fun mem => mem.readU16
          (effectiveAddress core.cpu.prefixes modrm core.cpu.regs address)
        performAt (effectiveAddress core.cpu.prefixes modrm core.cpu.regs again)
          (shiftEffect carry shift src cnt dst) : Routine StepResult) (core.skip total) := by
  intro address again total
  rw [finishShift, readModrmU16, if_neg hmode, bind_assoc, bind_ok (eaFromModrm_at hmode core k),
    bind_ok (getMem_apply _ _), bind_ok (getMem_apply _ _)]
  by_cases hzero : cnt = 0
  · simp only [shiftEffect, total, hzero, Nat.lt_irrefl, false_and, if_false,
      Nat.add_zero]
    rfl
  · by_cases hlarge : 16 < cnt
    · rw [shiftEffect_panic _ _ _ _ hlarge, shiftEffect_panic _ _ _ _ hlarge]
      rfl
    · have hwrites : 0 < cnt ∧ cnt ≤ 16 := by omega
      rw [shiftEffect_store _ _ _ _ hzero hwrites.2, shiftEffect_store _ _ _ _ hzero hwrites.2,
        store_at _ _ _ hmode]
      simp only [total, if_pos hwrites]
      rfl

theorem performAt_idle (carry : ℕ → ℕ) (shift : U16 → U16 → ℕ → U16) (src dst : U16) {cnt : ℕ}
    (hidle : ¬ (0 < cnt ∧ cnt ≤ 16)) (again again' : U32) :
    performAt again (shiftEffect carry shift src cnt dst) =
      performAt again' (shiftEffect carry shift src cnt dst) := by
  by_cases hzero : cnt = 0
  · subst hzero
    rfl
  · rw [shiftEffect_panic _ _ _ _ (by omega)]
    rfl

theorem doubleShiftImm_performs (carry : ℕ → ℕ) (shift : U16 → U16 → ℕ → U16)
    (hmode : core.modrm.mode ≠ 3) :
    let imm := core.bytesAt 1 1
    let address := core.addressAt core.modrm 2
    let again :=
      if decide (0 < (byteImm imm &&& 31).toNat ∧ (byteImm imm &&& 31).toNat ≤ 16) then
        some (core.addressAt core.modrm (2 + address.length))
      else none
    let addressOf := effectiveAddress core.cpu.prefixes core.modrm core.cpu.regs
    doubleShiftImm (finishShift carry shift) core =
      shiftAt carry shift core.modrm imm (addressOf address) (addressOf (again.getD []))
        (core.skip (2 + address.length + (again.getD []).length)) := by
  intro imm address again addressOf
  rw [doubleShiftImm, bind_ok (fetchModrm_apply core), bind_ok (getRegs_apply _ _),
    bind_ok (fetchU8_second core), shift_at _ _ _ _ hmode]
  by_cases hwrites : 0 < (byteImm imm &&& 31).toNat ∧ (byteImm imm &&& 31).toNat ≤ 16
  · simp only [again, hwrites, and_self, decide_true, if_true, Option.getD_some]
    rw [if_pos hwrites]
    rfl
  · simp only [again, hwrites, decide_false, if_false, Bool.false_eq_true, Option.getD_none,
      List.length_nil]
    rw [if_neg hwrites, bind_ok (getMem_apply _ _),
      performAt_idle _ _ _ _ hwrites _ (addressOf [])]
    rfl

end Runs

theorem ImmInstr.arm_performs {instr : ImmInstr} {core : Core} (hmode : core.modrm.mode ≠ 3)
    (hfield : instr.Selected core.modrm.reg) :
    instr.arm core = instr.perform core (instr.used core) := by
  have hea := eaFromModrm_at hmode core
  cases instr with
  | group1Rm8Imm8 =>
      rw [arm, Kita98.group1Rm8Imm8, bind_ok (fetchModrm_apply core),
        bind_ok (fetchU8_second core)]
      exact group1_at byteAlu _ hmode (hea 2)
  | group1Rm16Imm16 =>
      rw [arm, Kita98.group1Rm16Imm16, bind_ok (fetchModrm_apply core),
        bind_ok (fetchU16_second core)]
      exact group1_at wordAlu _ hmode (hea 3)
  | group1Rm16Imm8 =>
      rw [arm, Kita98.group1Rm16Imm8, bind_ok (fetchModrm_apply core),
        bind_ok (fetchU8_second core)]
      exact group1_at wordAlu _ hmode (hea 2)
  | testRm8 =>
      have harm : group3Rm8 core = Kita98.testRm8 core.modrm (core.skip 1) := by
        rw [group3Rm8_apply]
        rcases hfield with h | h <;> rw [h] <;> rfl
      rw [arm, harm, Kita98.testRm8, bind_ok (fetchU8_second core), readModrmU8, if_neg hmode,
        bind_assoc, bind_ok (hea 2)]
      rfl
  | testRm16 =>
      have harm : group3Rm16 core = Kita98.testRm16 core.modrm (core.skip 1) := by
        rw [group3Rm16_apply]
        rcases hfield with h | h <;> rw [h] <;> rfl
      rw [arm, harm, Kita98.testRm16, bind_ok (fetchU16_second core), readModrmU16, if_neg hmode,
        bind_assoc, bind_ok (hea 3)]
      rfl
  | movRm8Imm =>
      rw [arm, Kita98.movRm8Imm, bind_ok (fetchModrm_apply core),
        bind_ok (fetchU8_second core), writeModrmU8, if_neg hmode, bind_apply, bind_ok (hea 2)]
      rfl
  | movRm16Imm =>
      rw [arm, Kita98.movRm16Imm, bind_ok (fetchModrm_apply core),
        bind_ok (fetchU16_second core), writeModrmU16, if_neg hmode, bind_apply, bind_ok (hea 3)]
      rfl
  | shldImm =>
      rw [arm, Kita98.shldImm, shldCount_eq]
      exact doubleShiftImm_performs _ _ hmode
  | shrdImm =>
      rw [arm, Kita98.shrdImm, shrdCount_eq]
      exact doubleShiftImm_performs _ _ hmode

/-! ## Texts in which the order does not matter -/

section Texts

variable {core : Core} {modrm : ModRm}

theorem operandSize_zero {address32 : Bool} {modrm : ModRm} {next : U8} (next' : U8)
    (hzero : operandSize address32 modrm next = 0) : operandSize address32 modrm next' = 0 := by
  unfold operandSize baseSize32 sibSize at *
  split_ifs at * <;> omega

theorem addressAt_length (core : Core) (modrm : ModRm) (k : ℕ) :
    (core.addressAt modrm k).length =
      operandSize core.cpu.prefixes.address32 modrm (core.byteAt k) := by
  rw [Core.addressAt, List.length_map, List.length_range]

theorem addressAt_eq_iff (k k' : ℕ) :
    core.addressAt modrm k' = core.addressAt modrm k ↔
      ∀ i < (core.addressAt modrm k).length, core.byteAt (k' + i) = core.byteAt (k + i) := by
  have hcongr : operandSize core.cpu.prefixes.address32 modrm (core.byteAt k') =
        operandSize core.cpu.prefixes.address32 modrm (core.byteAt k) →
      (core.addressAt modrm k' = core.addressAt modrm k ↔
        ∀ i < (core.addressAt modrm k).length, core.byteAt (k' + i) = core.byteAt (k + i)) := by
    intro hsize
    rw [addressAt_length, Core.addressAt, Core.addressAt, hsize, List.map_inj_left]
    simp only [List.mem_range]
  constructor
  · intro heq
    have hsize := congrArg List.length heq
    rw [addressAt_length, addressAt_length] at hsize
    exact (hcongr hsize).mp heq
  · intro hbytes
    have hsize : operandSize core.cpu.prefixes.address32 modrm (core.byteAt k') =
        operandSize core.cpu.prefixes.address32 modrm (core.byteAt k) := by
      rcases Nat.eq_zero_or_pos (operandSize core.cpu.prefixes.address32 modrm (core.byteAt k))
        with hzero | hpos
      · rw [hzero, operandSize_zero _ hzero]
      · rw [← addressAt_length] at hpos
        have hfirst := hbytes 0 hpos
        rw [Nat.add_zero, Nat.add_zero] at hfirst
        rw [hfirst]
    exact (hcongr hsize).mpr hbytes

theorem bytesAt_eq_iff (k k' n : ℕ) :
    core.bytesAt k' n = core.bytesAt k n ↔
      ∀ i < n, core.byteAt (k' + i) = core.byteAt (k + i) := by
  rw [Core.bytesAt, Core.bytesAt, List.map_inj_left]
  simp only [List.mem_range]

end Texts

namespace ImmInstr

/-- The bytes behind the ModRM byte that the encoding, and a second decoding of its
address, calls for. -/
def span (instr : ImmInstr) (core : Core) : ℕ :=
  let address := (instr.encoded core).address
  address.length + instr.immSize +
    if instr.decodesAgain (instr.encoded core).imm then address.length else 0

theorem immSize_pos (instr : ImmInstr) : 0 < instr.immSize := by
  cases instr <;> decide

theorem readsSame_iff (instr : ImmInstr) (core : Core) :
    (instr.used core).imm = (instr.encoded core).imm ∧
        (instr.used core).address = (instr.encoded core).address ↔
      ReadsSame (fun i => core.byteAt (1 + i)) instr.immSize
        (instr.encoded core).address.length := by
  unfold used encoded
  simp only
  rw [bytesAt_eq_iff, addressAt_eq_iff]
  simp only [Nat.add_assoc]
  constructor
  · rintro ⟨himm, haddress⟩
    exact ⟨haddress, himm⟩
  · rintro ⟨haddress, himm⟩
    exact ⟨himm, haddress⟩

theorem used_again (instr : ImmInstr) (core : Core) :
    (instr.used core).again =
      if instr.decodesAgain (instr.used core).imm then
        some (core.addressAt core.modrm
          (1 + instr.immSize + (instr.used core).address.length))
      else none := rfl

theorem encoded_again (instr : ImmInstr) (core : Core) :
    (instr.encoded core).again =
      if instr.decodesAgain (instr.encoded core).imm then some (instr.encoded core).address
      else none := rfl

/-- A second decoding finds the address bytes when they stand once more behind the
instruction. -/
theorem again_iff {instr : ImmInstr} {core : Core}
    (hagain : instr.decodesAgain (instr.encoded core).imm = true)
    (himm : (instr.used core).imm = (instr.encoded core).imm)
    (haddress : (instr.used core).address = (instr.encoded core).address) :
    (instr.used core).again = (instr.encoded core).again ↔
      ∀ i < (instr.encoded core).address.length,
        core.byteAt (1 + ((instr.encoded core).address.length + instr.immSize + i)) =
          core.byteAt (1 + i) := by
  have hencoded : (instr.encoded core).address = core.addressAt core.modrm 1 := rfl
  have hplace : ∀ i, 1 + ((instr.encoded core).address.length + instr.immSize + i) =
      1 + instr.immSize + (instr.encoded core).address.length + i := by
    intro i
    omega
  rw [used_again, encoded_again, himm, haddress, hagain, if_pos rfl, if_pos rfl, Option.some_inj]
  simp only [hplace]
  rw [hencoded, addressAt_eq_iff]

theorem used_eq_encoded_iff (instr : ImmInstr) (core : Core) :
    instr.used core = instr.encoded core ↔
      Repeats (fun i => core.byteAt (1 + i))
        (instr.immSize.gcd (instr.encoded core).address.length) (instr.span core) := by
  have hsplit : instr.used core = instr.encoded core ↔
      ((instr.used core).imm = (instr.encoded core).imm ∧
        (instr.used core).address = (instr.encoded core).address) ∧
          (instr.used core).again = (instr.encoded core).again := by
    rw [and_assoc]
    exact Operands.ext_iff
  have hlength : 0 < (instr.encoded core).address.length + instr.immSize := by
    have hpos := instr.immSize_pos
    omega
  rw [hsplit, span]
  cases hagain : instr.decodesAgain (instr.encoded core).imm with
  | false =>
      rw [and_iff_left_of_imp, readsSame_iff, SwappedBlocks.readsSame_iff hlength]
      · simp
      · rintro ⟨himm, -⟩
        rw [used_again, encoded_again, himm, hagain, if_neg Bool.false_ne_true,
          if_neg Bool.false_ne_true]
  | true =>
      have hperiod : instr.immSize.gcd (instr.encoded core).address.length ∣
          (instr.encoded core).address.length + instr.immSize :=
        Nat.dvd_add (Nat.gcd_dvd_right _ _) (Nat.gcd_dvd_left _ _)
      rw [if_pos rfl]
      constructor
      · rintro ⟨hsame, hsecond⟩
        have hrepeats := (SwappedBlocks.readsSame_iff hlength).mp
          ((instr.readsSame_iff core).mp hsame)
        exact (repeats_again_iff hperiod hrepeats).mp
          ((again_iff hagain hsame.1 hsame.2).mp hsecond)
      · intro hlong
        have hrepeats := hlong.mono (Nat.le_add_right _ (instr.encoded core).address.length)
        have hsame := (instr.readsSame_iff core).mpr
          ((SwappedBlocks.readsSame_iff hlength).mpr hrepeats)
        exact ⟨hsame, (again_iff hagain hsame.1 hsame.2).mpr
          ((repeats_again_iff hperiod hrepeats).mpr hlong)⟩

end ImmInstr

/-- Displacement and immediate are used as encoded just when the bytes repeat
themselves: all of them are the same behind a byte immediate, or a word immediate
with an odd number of address bytes; with an even number they alternate. -/
theorem displacement_first_iff
    {instr : ImmInstr} {core : Core} (hmode : core.modrm.mode ≠ 3)
    (hfield : instr.Selected core.modrm.reg) :
    instr.arm core = instr.perform core (instr.used core) ∧
      (instr.used core = instr.encoded core ↔
        Repeats (fun i => core.byteAt (1 + i))
          (instr.immSize.gcd (instr.encoded core).address.length) (instr.span core)) :=
  ⟨ImmInstr.arm_performs hmode hfield, instr.used_eq_encoded_iff core⟩

/-- `CMP BYTE [BX+10h], 20h` where the byte at 10h is 20h. -/
def cmpImmCore : Core where
  cpu := Interpreter.new
  bus :=
    { Bus.new none (fun _ => 0) with
      mem := (Memory.new.loadBytes 0 [0x80, 0x7F, 0x10, 0x20]).loadBytes 0x10 [0x20] }

theorem cmpImmCore_mode : (cmpImmCore.skip 1).modrm.mode ≠ 3 := by
  decide +kernel

theorem displacement_first_cmp :
    ImmInstr.group1Rm8Imm8.arm (cmpImmCore.skip 1) =
        ImmInstr.group1Rm8Imm8.perform (cmpImmCore.skip 1)
          (ImmInstr.group1Rm8Imm8.used (cmpImmCore.skip 1)) ∧
      (ImmInstr.group1Rm8Imm8.used (cmpImmCore.skip 1) =
          ImmInstr.group1Rm8Imm8.encoded (cmpImmCore.skip 1) ↔
        Repeats (fun i => (cmpImmCore.skip 1).byteAt (1 + i))
          (Nat.gcd 1 (ImmInstr.group1Rm8Imm8.encoded (cmpImmCore.skip 1)).address.length)
          (ImmInstr.group1Rm8Imm8.span (cmpImmCore.skip 1))) :=
  displacement_first_iff cmpImmCore_mode trivial

/-- The byte at 20h is compared with 10h: the operands are not equal. -/
theorem cmp_swaps_operands :
    ImmInstr.group1Rm8Imm8.encoded (cmpImmCore.skip 1) = ⟨[0x20], [0x10], none⟩ ∧
      ImmInstr.group1Rm8Imm8.used (cmpImmCore.skip 1) = ⟨[0x10], [0x20], none⟩ ∧
      (executeOne cmpImmCore).map
          (fun run => (run.1, run.2.bus.mem.readU8 0x10, run.2.cpu.regs.getZf)) =
        .ok (.proceed, 0x20, false) := by
  decide +kernel

end Kita98
