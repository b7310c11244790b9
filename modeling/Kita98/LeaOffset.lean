import Kita98.AddressForms

/-!
# LEA

The arm takes the address from the helper of the memory operands, which has the
segment base folded in.  The low half of a physical address is the offset just
for segments that are multiples of 1000h, and two segments give the same result
just when they agree below that.
-/

namespace Kita98

open WordBits Kita98.Core Exec

/-! ## Segment and offset of an operand -/

section Operand

variable {modrm : ModRm} {core : Core}

/-- The override, or what the base implies. -/
def Core.operandSegment (core : Core) (modrm : ModRm) : SegReg :=
  core.cpu.prefixes.segOverride.getD
    (if core.cpu.prefixes.address32 then (base32 modrm (core.byteAt 0) core.cpu.regs).1
    else defaultSeg16 modrm)

def Core.operandOffset (core : Core) (modrm : ModRm) : U32 :=
  if core.cpu.prefixes.address32 then
    (base32 modrm (core.byteAt 0) core.cpu.regs).2 +
      disp32 (displacement true modrm (core.addressAt modrm 0))
  else (base16 modrm core.cpu.regs + disp16 (core.addressAt modrm 0)).setWidth 32

theorem decodeEa_address (hmode : modrm.mode ≠ 3) :
    decodeEa modrm core =
      .ok ((core.operandSegment modrm, core.operandOffset modrm),
        core.skip (core.addressAt modrm 0).length) := by
  unfold decodeEa operandSegment operandOffset
  rw [bind_ok (getPrefixes_apply core)]
  cases haddress : core.cpu.prefixes.address32 with
  | true => simpa using decodeEa32_address hmode haddress
  | false =>
      have hrun := bind_ok (decodeEa16_address hmode haddress)
        (f := fun run => (pure (run.1, run.2.setWidth 32) : Routine (SegReg × U32)))
      simpa using hrun

end Operand

/-! ## What LEA stores -/

/-- The segment value that is added to the offset of the operand at CS:IP. -/
def Core.leaSegment (core : Core) : U16 :=
  core.cpu.regs.getSeg ((core.skip 1).operandSegment core.modrm)

def Core.leaOffset (core : Core) : U32 := (core.skip 1).operandOffset core.modrm

def Core.leaTarget (core : Core) : Reg16 := reg16FromField core.modrm.reg

/-- The destination gets the low half of the offset that `decode_ea` returns, and
apart from IP nothing else changes. -/
def LeaYieldsOffset (core : Core) : Prop :=
  ∃ seg offset behind,
    decodeEa core.modrm (core.skip 1) = .ok ((seg, offset), behind) ∧
      dispatchTransfer 0x8D core =
        .ok (.proceed,
          behind.setRegs (behind.cpu.regs.set16 core.leaTarget (offset.setWidth 16)))

/-- The same state with other segment registers and another override. -/
def Core.withSegments (core : Core) (seg : SegReg → U16) (override : Option SegReg) : Core :=
  { core with
    cpu := { core.cpu with
      regs := { core.cpu.regs with seg := seg }
      prefixes := { core.cpu.prefixes with segOverride := override } } }

/-- Both runs return, with the same value in the destination. -/
def SameLea (core core' : Core) : Prop :=
  ∃ done done', dispatchTransfer 0x8D core = .ok (.proceed, done) ∧
    dispatchTransfer 0x8D core' = .ok (.proceed, done') ∧
    done.cpu.regs.get16 core.leaTarget = done'.cpu.regs.get16 core'.leaTarget

theorem phys_low (segment : U16) (offset : U32) :
    (Memory.phys segment offset).setWidth 16 = (segment <<< 4) + offset.setWidth 16 := by
  have hones : (0xFFFFF#32).setWidth 16 = BitVec.allOnes 16 := by decide
  have hshift : (segment.setWidth 32 <<< 4 : U32).setWidth 16 = segment <<< 4 := by
    ext i hi
    simp
  rw [Memory.phys, BitVec.setWidth_and, hones, BitVec.and_allOnes,
    BitVec.setWidth_add _ _ (by decide), hshift]

theorem shifted_eq_iff (segment segment' : U16) :
    segment <<< 4 = segment' <<< 4 ↔ segment.toNat % 0x1000 = segment'.toNat % 0x1000 := by
  rw [← BitVec.toNat_inj, BitVec.toNat_shiftLeft, BitVec.toNat_shiftLeft, Nat.shiftLeft_eq,
    Nat.shiftLeft_eq]
  omega

section Lea

variable {core : Core}

theorem lea_apply (hmode : core.modrm.mode ≠ 3) :
    ∃ n, decodeEa core.modrm (core.skip 1) =
        .ok (((core.skip 1).operandSegment core.modrm, core.leaOffset), core.skip n) ∧
      dispatchTransfer 0x8D core =
        .ok (.proceed, (core.skip n).setRegs ((core.skip n).cpu.regs.set16 core.leaTarget
          ((core.leaSegment <<< 4) + core.leaOffset.setWidth 16))) := by
  have hdecode := @decodeEa_address _ (core.skip 1) hmode
  rw [Core.skip_skip] at hdecode
  refine ⟨_, hdecode, ?_⟩
  have harm : dispatchTransfer 0x8D core = lea core := rfl
  rw [harm, lea, bind_ok (fetchModrm_apply core), eaFromModrm, bind_assoc, bind_ok hdecode]
  simp only [bind_ok (getRegs_apply _ _), bind_ok (modRegs_apply _ _), phys_low]
  rfl

theorem leaYieldsOffset_iff (hmode : core.modrm.mode ≠ 3) :
    LeaYieldsOffset core ↔ core.leaSegment.toNat % 0x1000 = 0 := by
  have hzero := shifted_eq_iff core.leaSegment 0
  have hstays : ∀ low : U16, low + core.leaOffset.setWidth 16 = core.leaOffset.setWidth 16 ↔
      low = 0 := fun low => add_eq_right
  rcases lea_apply hmode with ⟨n, hdecode, hrun⟩
  constructor
  · rintro ⟨seg, offset, behind, hdecode', hrun'⟩
    rw [hdecode] at hdecode'
    cases hdecode'
    rw [hrun] at hrun'
    have hcore := congrArg (fun done : Core => done.cpu.regs.get16 core.leaTarget)
      (Prod.mk.inj (Except.ok.inj hrun')).2
    simp only [setRegs_cpu_regs, Regs.get16_set16_self] at hcore
    simpa using hzero.mp ((hstays _).mp hcore)
  · intro hsegment
    refine ⟨_, _, _, hdecode, ?_⟩
    rw [hrun, (hstays _).mpr (by simpa using hzero.mpr (by simpa using hsegment))]

theorem leaOffset_withSegments {seg : SegReg → U16} {override : Option SegReg}
    (hcode : ∀ k, (core.withSegments seg override).byteAt k = core.byteAt k) :
    (core.withSegments seg override).modrm = core.modrm ∧
      (core.withSegments seg override).leaOffset = core.leaOffset := by
  set core' := core.withSegments seg override with hcore'
  have hmodrm : core'.modrm = core.modrm := congrArg ModRm.decode (hcode 0)
  have haddress : ∀ k, core'.addressAt core.modrm k = core.addressAt core.modrm k := by
    intro k
    unfold Core.addressAt
    simp only [hcode]
    rfl
  refine ⟨hmodrm, ?_⟩
  unfold leaOffset operandOffset
  rw [hmodrm, addressAt_skip, addressAt_skip, haddress, byteAt_skip, byteAt_skip, hcode]
  rfl

theorem sameLea_iff {seg : SegReg → U16} {override : Option SegReg}
    (hmode : core.modrm.mode ≠ 3)
    (hcode : ∀ k, (core.withSegments seg override).byteAt k = core.byteAt k) :
    SameLea core (core.withSegments seg override) ↔
      core.leaSegment.toNat % 0x1000 =
        (core.withSegments seg override).leaSegment.toNat % 0x1000 := by
  set core' := core.withSegments seg override with hcore'
  rcases leaOffset_withSegments hcode with ⟨hmodrm, hoffset⟩
  rcases lea_apply hmode with ⟨n, -, hrun⟩
  rcases @lea_apply core' (by rw [hmodrm]; exact hmode) with ⟨n', -, hrun'⟩
  rw [← shifted_eq_iff]
  constructor
  · rintro ⟨done, done', hdone, hdone', hsame⟩
    rw [hrun] at hdone
    rw [hrun'] at hdone'
    cases hdone
    cases hdone'
    simp only [setRegs_cpu_regs, Regs.get16_set16_self] at hsame
    rw [hoffset] at hsame
    exact add_right_cancel hsame
  · intro hsegment
    refine ⟨_, _, hrun, hrun', ?_⟩
    simp only [setRegs_cpu_regs, Regs.get16_set16_self]
    rw [hsegment, hoffset]

end Lea

/-- The offset comes out just for segments that are multiples of 1000h; what two
segments, or an override, give is the same just when they agree below that. -/
theorem lea_yields_offset_iff {core : Core} (hmode : core.modrm.mode ≠ 3) :
    (LeaYieldsOffset core ↔ core.leaSegment.toNat % 0x1000 = 0) ∧
      ∀ (seg : SegReg → U16) (override : Option SegReg),
        (∀ k, (core.withSegments seg override).byteAt k = core.byteAt k) →
          (SameLea core (core.withSegments seg override) ↔
            core.leaSegment.toNat % 0x1000 =
              (core.withSegments seg override).leaSegment.toNat % 0x1000) :=
  ⟨leaYieldsOffset_iff hmode, fun _ _ hcode => sameLea_iff hmode hcode⟩

/-- `LEA AX, [BX]` with BX = 0 and DS = 1. -/
def leaCore : Core :=
  let core := operandCore [0x07]
  core.setRegs (core.cpu.regs.setSeg .DS 1)

theorem leaCore_mode : leaCore.modrm.mode ≠ 3 := by
  decide +kernel

theorem lea_yields_offset_bx :
    (LeaYieldsOffset leaCore ↔ leaCore.leaSegment.toNat % 0x1000 = 0) ∧
      ∀ (seg : SegReg → U16) (override : Option SegReg),
        (∀ k, (leaCore.withSegments seg override).byteAt k = leaCore.byteAt k) →
          (SameLea leaCore (leaCore.withSegments seg override) ↔
            leaCore.leaSegment.toNat % 0x1000 =
              (leaCore.withSegments seg override).leaSegment.toNat % 0x1000) :=
  lea_yields_offset_iff leaCore_mode

/-- AX becomes 10h where the offset is 0; with DS = 0 it becomes 0. -/
theorem lea_adds_segment :
    leaCore.leaOffset = 0 ∧
      (dispatchTransfer 0x8D leaCore).map (fun run => run.2.cpu.regs.get16 .AX) = .ok 0x10 ∧
      ¬ LeaYieldsOffset leaCore ∧
      ¬ SameLea leaCore (leaCore.withSegments (fun _ => 0) none) := by
  refine ⟨by decide +kernel, by decide +kernel, ?_, ?_⟩
  · rw [leaYieldsOffset_iff leaCore_mode]
    decide +kernel
  · have hcode : ∀ k, (leaCore.withSegments (fun _ => 0) none).byteAt k = leaCore.byteAt k :=
      fun _ => rfl
    rw [sameLea_iff leaCore_mode hcode]
    decide +kernel

end Kita98
