import Kita98.OperandOrder

/-!
# Addressing forms

What an assembler writes for a memory operand: the registers that are added, the
displacement and the bytes that stand for them.  The escapes of the encoding (no
base, ESP as a base, EBP without a displacement) are conditions on a form or
choices of its encoding; decoding finds the form again.
-/

namespace Kita98

open WordBits Kita98.Core Exec

/-! ## Forms -/

/-- The displacement behind the registers, as wide as it is encoded. -/
inductive Disp (w : ℕ) where
  | none
  | byte (value : U8)
  | full (value : BitVec w)

namespace Disp

variable {w : ℕ}

def toInt : Disp w → ℤ
  | none => 0
  | byte value => value.toInt
  | full value => value.toInt

def mode : Disp w → BitVec 2
  | none => 0
  | byte _ => 1
  | full _ => 2

/-- The bytes of the displacement; `bytesOf` writes a full one. -/
def bytes (bytesOf : BitVec w → List U8) : Disp w → List U8
  | none => []
  | byte value => [value]
  | full value => bytesOf value

def IsFull : Disp w → Prop
  | full _ => True
  | _ => False

theorem IsFull.exists {disp : Disp w} (hfull : disp.IsFull) : ∃ value, disp = full value := by
  cases disp with
  | full value => exact ⟨value, rfl⟩
  | _ => exact hfull.elim

theorem mode_ne_three (disp : Disp w) : disp.mode ≠ 3 := by
  cases disp <;> simp [mode]

end Disp

/-- The register combinations of a 16-bit address, in encoding order. -/
inductive Base16 where
  | bxSi | bxDi | bpSi | bpDi | si | di | bp | bx
  deriving DecidableEq, Repr

namespace Base16

def rm : Base16 → BitVec 3
  | bxSi => 0
  | bxDi => 1
  | bpSi => 2
  | bpDi => 3
  | si => 4
  | di => 5
  | bp => 6
  | bx => 7

def regs : Base16 → List Reg16
  | bxSi => [.BX, .SI]
  | bxDi => [.BX, .DI]
  | bpSi => [.BP, .SI]
  | bpDi => [.BP, .DI]
  | si => [.SI]
  | di => [.DI]
  | bp => [.BP]
  | bx => [.BX]

end Base16

/-- An index register; ESP is none. -/
structure IndexReg where
  reg : Reg16
  scale : BitVec 2
  notSp : reg ≠ .SP

/-- A 16-bit form; a lone displacement takes both bytes, and BP alone takes one. -/
structure Form16 where
  base : Option Base16
  disp : Disp 16
  lone : base = none → disp.IsFull
  needed : base = some .bp → disp.mode ≠ 0

structure Form32 where
  base : Option Reg16
  index : Option IndexReg
  disp : Disp 32
  lone : base = none → disp.IsFull
  needed : base = some .BP → disp.mode ≠ 0

/-! ### What a form means -/

namespace Form16

def address (form : Form16) (regs : Regs) : ℤ :=
  ((form.base.elim [] Base16.regs).map fun r => ((regs.get16 r).toNat : ℤ)).sum +
    form.disp.toInt

def segment (form : Form16) : SegReg :=
  if .BP ∈ form.base.elim [] Base16.regs then .SS else .DS

end Form16

namespace Form32

def indexValue (index : Option IndexReg) (regs : Regs) : ℤ :=
  index.elim 0 fun index => (regs.get32 index.reg).toNat * 2 ^ index.scale.toNat

def address (form : Form32) (regs : Regs) : ℤ :=
  (form.base.elim 0 fun r => ((regs.get32 r).toNat : ℤ)) + indexValue form.index regs +
    form.disp.toInt

def segment (form : Form32) : SegReg :=
  if form.base = some .SP ∨ form.base = some .BP then .SS else .DS

end Form32

/-! ### How a form is written -/

def fieldOf (r : Reg16) : BitVec 3 := BitVec.ofNat 3 r.index

@[simp] theorem reg16FromField_fieldOf (r : Reg16) : reg16FromField (fieldOf r) = r := by
  cases r <;> rfl

theorem fieldOf_inj {r r' : Reg16} : fieldOf r = fieldOf r' ↔ r = r' := by
  constructor
  · intro heq
    rw [← reg16FromField_fieldOf r, heq, reg16FromField_fieldOf]
  · rintro rfl
    rfl

/-- Mode or scale, register or index, operand or base. -/
def packFields (high : BitVec 2) (mid low : BitVec 3) : U8 :=
  (high ++ mid ++ low).setWidth 8

def ModRm.encode (modrm : ModRm) : U8 := packFields modrm.mode modrm.reg modrm.rm

section Fields

variable (high : BitVec 2) (mid low : BitVec 3)

@[simp] theorem packFields_high : (packFields high mid low >>> 6).setWidth 2 = high := by
  ext i hi
  simp [packFields]
  grind

@[simp] theorem packFields_mid : (packFields high mid low >>> 3).setWidth 3 = mid := by
  ext i hi
  simp [packFields]
  grind

@[simp] theorem packFields_low : (packFields high mid low).setWidth 3 = low := by
  ext i hi
  simp [packFields]
  grind

theorem ModRm.decode_encode (modrm : ModRm) : ModRm.decode modrm.encode = modrm := by
  simp [ModRm.decode, ModRm.encode]

end Fields

namespace Form16

def mode (form : Form16) : BitVec 2 := if form.base = none then 0 else form.disp.mode

def modrm (form : Form16) (reg : BitVec 3) : ModRm :=
  ⟨form.mode, reg, form.base.elim 6 Base16.rm⟩

def bytes (form : Form16) : List U8 := form.disp.bytes wordBytes

end Form16

/-- What the encoding of a 32-bit form leaves open: a SIB byte where none is
needed, and its scale where there is no index. -/
structure SibChoice where
  sib : Bool
  scale : BitVec 2

namespace Form32

def mode (form : Form32) : BitVec 2 := if form.base = none then 0 else form.disp.mode

/-- The SIB byte is needed for an index and for ESP as the base. -/
def HasSib (form : Form32) (choice : SibChoice) : Prop :=
  choice.sib = true ∨ form.index.isSome ∨ form.base = some .SP

instance (form : Form32) (choice : SibChoice) : Decidable (form.HasSib choice) := by
  unfold HasSib
  infer_instance

def baseField (form : Form32) : BitVec 3 := form.base.elim 5 fieldOf

def sib (form : Form32) (choice : SibChoice) : U8 :=
  match form.index with
  | none => packFields choice.scale 4 form.baseField
  | some index => packFields index.scale (fieldOf index.reg) form.baseField

def modrm (form : Form32) (choice : SibChoice) (reg : BitVec 3) : ModRm :=
  ⟨form.mode, reg, if form.HasSib choice then 4 else form.baseField⟩

def bytes (form : Form32) (choice : SibChoice) : List U8 :=
  (if form.HasSib choice then [form.sib choice] else []) ++ form.disp.bytes doubleBytes

end Form32

/-! ## Decoding -/

@[simp] theorem disp16_bytes (disp : Disp 16) :
    disp16 (disp.bytes wordBytes) = BitVec.ofInt 16 disp.toInt := by
  cases disp with
  | none => rfl
  | byte value => rfl
  | full value => simp [Disp.bytes, Disp.toInt, wordBytes, disp16]

@[simp] theorem disp32_bytes (disp : Disp 32) :
    disp32 (disp.bytes doubleBytes) = BitVec.ofInt 32 disp.toInt := by
  cases disp with
  | none => rfl
  | byte value => rfl
  | full value =>
      simp [Disp.bytes, Disp.toInt, doubleBytes, wordBytes, disp32]
      grind

theorem dispBytes_bytes {w : ℕ} (long : ℕ) (disp : Disp w) (bytesOf : BitVec w → List U8)
    (hlong : ∀ value, (bytesOf value).length = long) :
    dispBytes long disp.mode = (disp.bytes bytesOf).length := by
  cases disp with
  | none => rfl
  | byte value => rfl
  | full value => simp [dispBytes, Disp.mode, Disp.bytes, hlong]

namespace Form16

variable (form : Form16) (reg : BitVec 3)

theorem modrm_direct_iff :
    ((form.modrm reg).rm = 6 ∧ (form.modrm reg).mode = 0) ↔ form.base = none := by
  rcases form with ⟨base, disp, lone, needed⟩
  cases base with
  | none => simp [modrm, mode]
  | some base =>
      cases base with
      | bp => simpa [modrm, mode, Base16.rm] using needed
      | _ => simp [modrm, Base16.rm]

theorem base16_modrm (regs : Regs) :
    base16 (form.modrm reg) regs =
      BitVec.ofInt 16
        ((form.base.elim [] Base16.regs).map fun r => ((regs.get16 r).toNat : ℤ)).sum := by
  unfold base16
  rw [if_congr (form.modrm_direct_iff reg) rfl rfl]
  rcases form with ⟨base, disp, lone, needed⟩
  cases base with
  | none => simp
  | some base =>
      cases base <;> simp [modrm, Base16.rm, Base16.regs, baseRegs16, BitVec.ofInt_add]

theorem defaultSeg16_modrm : defaultSeg16 (form.modrm reg) = form.segment := by
  rcases form with ⟨base, disp, lone, needed⟩
  cases base with
  | none => simp [defaultSeg16, modrm, mode, segment]
  | some base =>
      cases base with
      | bp => simpa [defaultSeg16, modrm, mode, segment, Base16.rm, Base16.regs] using needed
      | _ => simp [defaultSeg16, modrm, segment, Base16.rm, Base16.regs]

theorem modrm_memory : (form.modrm reg).mode ≠ 3 := by
  unfold modrm mode
  split
  · simp
  · exact form.disp.mode_ne_three

theorem operandSize_modrm (next : U8) :
    operandSize false (form.modrm reg) next = form.bytes.length := by
  have hdisp := dispBytes_bytes 2 form.disp wordBytes fun _ => rfl
  unfold operandSize addressBytes bytes
  rw [if_neg (form.modrm_memory reg), ← hdisp,
    if_congr (form.modrm_direct_iff reg) rfl rfl]
  by_cases hbase : form.base = none
  · rcases (form.lone hbase).exists with ⟨value, hfull⟩
    simp [hbase, hfull, modrm, mode, dispBytes, Disp.mode]
  · simp [hbase, modrm, mode]

end Form16

namespace Form32

variable (form : Form32) (choice : SibChoice) (reg : BitVec 3)

theorem modrm_memory : (form.modrm choice reg).mode ≠ 3 := by
  unfold modrm mode
  split
  · simp
  · exact form.disp.mode_ne_three

theorem baseField_direct_iff : (form.baseField = 5 ∧ form.mode = 0) ↔ form.base = none := by
  rcases form with ⟨base, index, disp, lone, needed⟩
  cases base with
  | none => simp [baseField, mode]
  | some base =>
      cases base with
      | BP => simpa [baseField, mode, fieldOf, Reg16.index] using needed
      | _ => simp [baseField, fieldOf, Reg16.index]

theorem sib_low : (form.sib choice).setWidth 3 = form.baseField := by
  unfold sib
  cases form.index <;> simp

theorem baseField_eq_four_iff : form.baseField = 4 ↔ form.base = some .SP := by
  rcases form with ⟨base, index, disp, lone, needed⟩
  cases base with
  | none => simp [baseField]
  | some base => cases base <;> simp [baseField, fieldOf, Reg16.index]

theorem modrm_rm : (form.modrm choice reg).rm = 4 ↔ form.HasSib choice := by
  unfold modrm
  split
  · next hsib => simp [hsib]
  · next hsib =>
      have hfield : ¬ form.baseField = 4 := fun hfield =>
        hsib (.inr (.inr (form.baseField_eq_four_iff.mp hfield)))
      simpa [hsib] using hfield

theorem index_of_not_sib (hsib : ¬ form.HasSib choice) : form.index = none := by
  unfold HasSib at hsib
  simp_all

theorem head_bytes (hsib : form.HasSib choice) :
    (form.bytes choice).headD 0 = form.sib choice := by
  simp [bytes, hsib]

theorem sibIndex_sib (regs : Regs) :
    sibIndex (form.sib choice) regs = BitVec.ofInt 32 (indexValue form.index regs) := by
  unfold sibIndex sib
  cases form.index with
  | none => simp [indexValue]
  | some index =>
      have hfield : fieldOf index.reg ≠ 4 := by
        intro hfield
        exact index.notSp (fieldOf_inj.mp hfield)
      have hpower : (2 : ℤ) ^ index.scale.toNat = ((2 ^ index.scale.toNat : ℕ) : ℤ) := by
        simp
      simp only [packFields_mid, packFields_high, if_pos hfield, reg16FromField_fieldOf,
        indexValue, Option.elim_some]
      rw [hpower, ← Nat.cast_mul, BitVec.ofInt_natCast]
      apply BitVec.eq_of_toNat_eq
      simp [Nat.shiftLeft_eq]

/-- The base that the fields of a form select, with the index behind it. -/
theorem base32_modrm (regs : Regs) :
    base32 (form.modrm choice reg) ((form.bytes choice).headD 0) regs =
      (form.segment, BitVec.ofInt 32
        ((form.base.elim 0 fun r => ((regs.get32 r).toNat : ℤ)) +
          indexValue form.index regs)) := by
  have hfield : (if (form.modrm choice reg).rm = 4 then ((form.bytes choice).headD 0).setWidth 3
      else (form.modrm choice reg).rm) = form.baseField := by
    rw [if_congr (form.modrm_rm choice reg) rfl rfl]
    split
    · next hsib => rw [form.head_bytes choice hsib, form.sib_low]
    · next hsib => simp [modrm, hsib]
  have hindex : (if (form.modrm choice reg).rm = 4 then
        sibIndex ((form.bytes choice).headD 0) regs else 0) =
      BitVec.ofInt 32 (indexValue form.index regs) := by
    rw [if_congr (form.modrm_rm choice reg) rfl rfl]
    split
    · next hsib => rw [form.head_bytes choice hsib, form.sibIndex_sib]
    · next hsib => simp [form.index_of_not_sib choice hsib, indexValue]
  have hmode : (form.modrm choice reg).mode = form.mode := rfl
  unfold base32
  simp only [hfield, hindex, hmode]
  rw [if_congr form.baseField_direct_iff rfl rfl]
  cases hbase : form.base with
  | none => simp [segment, hbase]
  | some base =>
      have hsib : form.base = some .SP → (form.modrm choice reg).rm = 4 := by
        intro hsp
        exact (form.modrm_rm choice reg).mpr (.inr (.inr hsp))
      have hreg : form.baseField = fieldOf base := by simp [baseField, hbase]
      rw [hbase] at hsib
      cases base <;> simp_all [segment, BitVec.ofInt_add] <;> simp [fieldOf, Reg16.index]

theorem bytes_length :
    (form.bytes choice).length =
      (if form.HasSib choice then 1 else 0) + (form.disp.bytes doubleBytes).length := by
  unfold bytes
  split
  · simp [Nat.add_comm]
  · simp

theorem operandSize_modrm :
    operandSize true (form.modrm choice reg) ((form.bytes choice).headD 0) =
      (form.bytes choice).length := by
  have hdisp := dispBytes_bytes 4 form.disp doubleBytes fun _ => rfl
  have hmode : (form.modrm choice reg).mode = form.mode := rfl
  -- without a base the mode is 0 and the four bytes count as part of the base
  have hsize : (if form.baseField = 5 ∧ form.mode = 0 then 4 else 0) + dispBytes 4 form.mode =
      dispBytes 4 form.disp.mode := by
    rw [if_congr form.baseField_direct_iff rfl rfl]
    by_cases hbase : form.base = none
    · rcases (form.lone hbase).exists with ⟨value, hfull⟩
      simp [hbase, hfull, mode, dispBytes, Disp.mode]
    · simp [hbase, mode]
  unfold operandSize baseSize32 sibSize
  rw [if_neg (form.modrm_memory choice reg), if_pos rfl, form.bytes_length, ← hdisp, ← hsize,
    hmode, if_congr (form.modrm_rm choice reg) rfl rfl]
  by_cases hsib : form.HasSib choice
  · rw [if_pos hsib, if_pos hsib, form.head_bytes choice hsib, form.sib_low]
    split <;> omega
  · have hrm : (form.modrm choice reg).rm = form.baseField := by simp [modrm, hsib]
    rw [if_neg hsib, if_neg hsib, hrm, Nat.zero_add]

theorem displacement_bytes :
    displacement true (form.modrm choice reg) (form.bytes choice) =
      form.disp.bytes doubleBytes := by
  unfold displacement bytes
  rw [if_congr (and_iff_right_of_imp fun _ => rfl) rfl rfl,
    if_congr (form.modrm_rm choice reg) rfl rfl]
  split <;> simp

end Form32

/-! ## Decoding undoes encoding -/

inductive AddressForm where
  | word (form : Form16)
  | long (form : Form32)

namespace AddressForm

def address32 : AddressForm → Bool
  | word _ => false
  | long _ => true

def modrm (choice : SibChoice) (reg : BitVec 3) : AddressForm → ModRm
  | word form => form.modrm reg
  | long form => form.modrm choice reg

def bytes (choice : SibChoice) : AddressForm → List U8
  | word form => form.bytes
  | long form => form.bytes choice

/-- The ModRM byte and what follows it. -/
def encode (choice : SibChoice) (reg : BitVec 3) (form : AddressForm) : List U8 :=
  (form.modrm choice reg).encode :: form.bytes choice

def segment : AddressForm → SegReg
  | word form => form.segment
  | long form => form.segment

/-- The named registers and the displacement, modulo 2^16 or 2^32. -/
def offset (regs : Regs) : AddressForm → U32
  | word form => (BitVec.ofInt 16 (form.address regs)).setWidth 32
  | long form => BitVec.ofInt 32 (form.address regs)

variable {form : AddressForm} {choice : SibChoice} {reg : BitVec 3}

theorem modrm_memory : (form.modrm choice reg).mode ≠ 3 := by
  cases form with
  | word form => exact form.modrm_memory reg
  | long form => exact form.modrm_memory choice reg

theorem operandSize_modrm :
    operandSize form.address32 (form.modrm choice reg) ((form.bytes choice).headD 0) =
      (form.bytes choice).length := by
  cases form with
  | word form => exact form.operandSize_modrm reg _
  | long form => exact form.operandSize_modrm choice reg

end AddressForm

/-- The bytes stand at CS:IP. -/
def Core.Reads (core : Core) (bytes : List U8) : Prop :=
  core.bytesAt 0 bytes.length = bytes

instance (core : Core) (bytes : List U8) : Decidable (core.Reads bytes) := by
  unfold Core.Reads
  infer_instance

section Decode

variable {core : Core} {form : AddressForm} {choice : SibChoice} {reg : BitVec 3}

theorem reads_cons {byte : U8} {bytes : List U8} (hreads : core.Reads (byte :: bytes)) :
    core.byteAt 0 = byte ∧ (core.skip 1).Reads bytes := by
  unfold Core.Reads Core.bytesAt at *
  rw [List.length_cons, List.range_succ_eq_map, List.map_cons, List.map_map,
    List.cons_eq_cons] at hreads
  refine ⟨by simpa using hreads.1, ?_⟩
  rw [← hreads.2, List.length_map, List.length_range]
  apply List.map_congr_left
  intro i _
  rw [byteAt_skip, Nat.zero_add, Function.comp_apply, Nat.zero_add, Nat.succ_eq_one_add]

theorem headD_of_reads {bytes : List U8} (hreads : core.Reads bytes) (hpos : bytes ≠ []) :
    bytes.headD 0 = core.byteAt 0 := by
  cases bytes with
  | nil => exact absurd rfl hpos
  | cons byte bytes => exact (reads_cons hreads).1.symm

theorem addressAt_of_reads
    (hsize : core.cpu.prefixes.address32 = form.address32)
    (hreads : core.Reads (form.bytes choice)) :
    core.addressAt (form.modrm choice reg) 0 = form.bytes choice := by
  have hlength : operandSize core.cpu.prefixes.address32 (form.modrm choice reg)
      (core.byteAt 0) = (form.bytes choice).length := by
    rw [hsize, ← @AddressForm.operandSize_modrm form choice reg]
    by_cases hempty : form.bytes choice = []
    · have hzero := @AddressForm.operandSize_modrm form choice reg
      rw [hempty, List.length_nil] at hzero
      rw [hempty, hzero, operandSize_zero _ hzero]
    · rw [headD_of_reads hreads hempty]
  unfold Core.addressAt
  rw [hlength]
  exact hreads

theorem decodeEa16_form {form : Form16}
    (hword : core.cpu.prefixes.address32 = false)
    (haddress : core.addressAt (form.modrm reg) 0 = form.bytes) :
    decodeEa16 (form.modrm reg) core =
      .ok ((core.cpu.prefixes.segOverride.getD form.segment,
          BitVec.ofInt 16 (form.address core.cpu.regs)), core.skip form.bytes.length) := by
  rw [decodeEa16_address (form.modrm_memory reg) hword, haddress, form.defaultSeg16_modrm,
    form.base16_modrm, Form16.bytes, disp16_bytes, ← BitVec.ofInt_add]
  rfl

theorem decodeEa32_form {form : Form32}
    (hlong : core.cpu.prefixes.address32 = true)
    (haddress : core.addressAt (form.modrm choice reg) 0 = form.bytes choice) :
    decodeEa32 (form.modrm choice reg) core =
      .ok ((core.cpu.prefixes.segOverride.getD form.segment,
          BitVec.ofInt 32 (form.address core.cpu.regs)),
        core.skip (form.bytes choice).length) := by
  have hmode := form.modrm_memory choice reg
  have hbase := form.base32_modrm choice reg core.cpu.regs
  rw [← haddress, base32_head hmode hlong] at hbase
  rw [decodeEa32_address hmode hlong, haddress, hbase, form.displacement_bytes, disp32_bytes,
    ← BitVec.ofInt_add]
  rfl

theorem decodeEa_of_reads
    (hsize : core.cpu.prefixes.address32 = form.address32)
    (hreads : core.Reads (form.bytes choice)) :
    decodeEa (form.modrm choice reg) core =
      .ok ((core.cpu.prefixes.segOverride.getD form.segment, form.offset core.cpu.regs),
        core.skip (form.bytes choice).length) := by
  have haddress := @addressAt_of_reads _ _ _ reg hsize hreads
  unfold decodeEa
  rw [bind_ok (getPrefixes_apply core), hsize]
  cases form with
  | word form =>
      have hrun : decodeEa16 (AddressForm.modrm choice reg (.word form)) core = _ :=
        decodeEa16_form hsize haddress
      exact bind_ok hrun
  | long form => exact decodeEa32_form hsize haddress

end Decode

/-- Whatever form and encoding: the named registers and the displacement, the
segment that the base implies, and IP behind the bytes of the operand. -/
theorem decodeEa_undoes_encoding
    (form : AddressForm) (choice : SibChoice) (reg : BitVec 3) {core : Core}
    (hsize : core.cpu.prefixes.address32 = form.address32)
    (hreads : core.Reads (form.encode choice reg)) :
    let behind := core.skip 1
    fetchModrm core = .ok (form.modrm choice reg, behind) ∧
      decodeEa (form.modrm choice reg) behind =
        .ok ((core.cpu.prefixes.segOverride.getD form.segment, form.offset core.cpu.regs),
          behind.skip (form.bytes choice).length) ∧
      (behind.skip (form.bytes choice).length).cpu.regs.ip.toNat =
        (behind.cpu.regs.ip.toNat + (form.bytes choice).length) % 2 ^ 16 := by
  intro behind
  have hsplit := reads_cons hreads
  have hmodrm : core.modrm = form.modrm choice reg := by
    have hbyte : core.modrm = ModRm.decode (core.byteAt 0) := rfl
    rw [hbyte, hsplit.1, ModRm.decode_encode]
  refine ⟨by rw [fetchModrm_apply, hmodrm], decodeEa_of_reads hsize hsplit.2, ?_⟩
  have hplace : (behind.skip (form.bytes choice).length).cpu.regs.ip =
      skipIp (1 + (form.bytes choice).length) core.cpu.regs.ip := by
    rw [Core.skip_skip]
    rfl
  have hbehind : behind.cpu.regs.ip.toNat = (core.cpu.regs.ip.toNat + 1) % 2 ^ 16 :=
    skipIp_toNat 0 core.cpu.regs.ip
  rw [hplace, Nat.add_comm 1, skipIp_toNat, hbehind]
  omega

/-- `[EBP + ESI * 4 - 1]` -/
def scaledForm : AddressForm :=
  .long ⟨some .BP, some ⟨.SI, 2, by decide⟩, .byte 0xFF, nofun, fun _ => by decide⟩

def plainSib : SibChoice := ⟨false, 0⟩

/-- A machine under the 67h prefix in front of the operand. -/
def scaledCore : Core :=
  let core := operandCore [0x44, 0xB5, 0xFF]
  { core with cpu := { core.cpu with prefixes := ⟨false, true, none⟩ } }

theorem decodeEa_scaled :
    let behind := scaledCore.skip 1
    fetchModrm scaledCore = .ok (scaledForm.modrm plainSib 0, behind) ∧
      decodeEa (scaledForm.modrm plainSib 0) behind =
        .ok ((scaledCore.cpu.prefixes.segOverride.getD scaledForm.segment,
            scaledForm.offset scaledCore.cpu.regs),
          behind.skip (scaledForm.bytes plainSib).length) ∧
      (behind.skip (scaledForm.bytes plainSib).length).cpu.regs.ip.toNat =
        (behind.cpu.regs.ip.toNat + (scaledForm.bytes plainSib).length) % 2 ^ 16 :=
  decodeEa_undoes_encoding scaledForm plainSib 0 rfl (by decide +kernel)

end Kita98
