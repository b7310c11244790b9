import Kita98.OperandAddress
import Kita98.Transfer

/-!
# Instructions that read and write one operand

An arm of this kind reads its operand and writes it back, and each of the two
decodes the address anew: the bytes of the address are consumed twice, and the
second address is computed from registers that the instruction may have changed
in between.  The two decodings agree only on operands without address bytes.
-/

namespace Kita98

open WordBits Kita98.Core

/-! ## The shape of these instructions -/

/-- Access to operands of one size. -/
structure OperandSize (α : Type) where
  load : Memory → U32 → α
  store : Memory → U32 → α → Memory
  read : ModRm → Routine α
  write : ModRm → α → Routine Unit
  read_mem : ∀ modrm, modrm.mode ≠ 3 →
    read modrm = (eaFromModrm modrm >>= fun ea => getMem fun mem => load mem ea)
  write_mem : ∀ modrm val, modrm.mode ≠ 3 →
    write modrm val = (eaFromModrm modrm >>= fun ea => modMem fun mem => store mem ea val)

def byteOperand : OperandSize U8 where
  load := Memory.readU8
  store := Memory.writeU8
  read := readModrmU8
  write := writeModrmU8
  read_mem := fun _ hmode => if_neg hmode
  write_mem := fun _ _ hmode => if_neg hmode

def wordOperand : OperandSize U16 where
  load := Memory.readU16
  store := Memory.writeU16
  read := readModrmU16
  write := writeModrmU16
  read_mem := fun _ hmode => if_neg hmode
  write_mem := fun _ _ hmode => if_neg hmode

/-- What follows from the operand that was read. -/
inductive Effect (α : Type) where
  /-- Nothing is written. -/
  | keep
  /-- The arithmetic of the host overflows. -/
  | panic
  | store (update : Regs → Regs) (result : α)

def Effect.perform {α : Type} (size : OperandSize α) (modrm : ModRm) :
    Effect α → Routine StepResult
  | keep => return .proceed
  | panic => Exec.fail .overflow
  | store update result => do
      modRegs update
      size.write modrm result
      return .proceed

/-- An instruction: what its arm reads in front of the operand, what behind it,
and what follows.  Either may be an immediate byte. -/
structure Rmw where
  Val : Type
  size : OperandSize Val
  Args : Type
  args : ModRm → Routine Args
  Late : Type
  late : ModRm → Routine Late
  effect : ModRm → Args → Val → Late → Effect Val
  argBytes : ℕ
  lateBytes : ℕ
  argBytes_le : argBytes ≤ 1
  lateBytes_le : lateBytes ≤ 1
  args_fetches : ∀ modrm, Fetches (· = argBytes) (args modrm)
  late_fetches : ∀ modrm, Fetches (· = lateBytes) (late modrm)
  /-- The update leaves IP alone. -/
  update_ip : ∀ modrm a val l update result regs,
    effect modrm a val l = .store update result → (update regs).ip = regs.ip

namespace Rmw

variable (s : Rmw)

/-- The instruction as the arms perform it. -/
def run : Routine StepResult := do
  let modrm ← fetchModrm
  let a ← s.args modrm
  let val ← s.size.read modrm
  let l ← s.late modrm
  (s.effect modrm a val l).perform s.size modrm

/-- What the arm does in front of the write. -/
def scan : Routine (U32 × Effect s.Val) := do
  let modrm ← fetchModrm
  let a ← s.args modrm
  let ea ← eaFromModrm modrm
  let val ← getMem fun mem => s.size.load mem ea
  let l ← s.late modrm
  return (ea, s.effect modrm a val l)

/-- The same in the order of the encoding: the address, decoded once, stands
directly behind the ModRM byte, and an immediate byte behind the address. -/
def decoded : Routine (U32 × Effect s.Val) := do
  let modrm ← fetchModrm
  let ea ← eaFromModrm modrm
  let a ← s.args modrm
  let val ← getMem fun mem => s.size.load mem ea
  let l ← s.late modrm
  return (ea, s.effect modrm a val l)

/-- Memory after the effect on the location that was read. -/
def settle (mem : Memory) (ea : U32) : Effect s.Val → Memory
  | .store _ result => s.size.store mem ea result
  | _ => mem

/-- Run by `arm`, the instruction writes the location of its operand and no
other, and IP is behind the instruction. -/
def TouchesOneOperand (arm : Routine StepResult) (core : Core) : Prop :=
  ∃ ea effect behind after,
    s.decoded core = .ok ((ea, effect), behind) ∧
    arm core = .ok (.proceed, after) ∧
    after.cpu.regs.ip = behind.cpu.regs.ip ∧
    after.bus.mem = s.settle core.bus.mem ea effect

end Rmw

/-! ## The instructions -/

/-- `NOT` and `NEG` of groups F6 and F7, `INC` and `DEC` of group FF, `XCHG`,
`XADD`, the bit instructions with their number in a register or an immediate
byte, and the double shifts. -/
inductive RmwInstr where
  | not8 | neg8 | not16 | neg16 | inc16 | dec16
  | xchg8 | xchg16 | xadd8 | xadd16
  | bts | btr | btc | btsImm | btrImm | btcImm
  | shldImm | shldCl | shrdImm | shrdCl
  deriving DecidableEq, Repr

namespace RmwInstr

def arm : RmwInstr → Routine StepResult
  | not8 | neg8 => group3Rm8
  | not16 | neg16 => group3Rm16
  | inc16 | dec16 => groupFF
  | xchg8 => xchgRm8
  | xchg16 => xchgRm16
  | xadd8 => xaddRm8
  | xadd16 => xaddRm16
  | bts => Kita98.bts
  | btr => Kita98.btr
  | btc => Kita98.btc
  | btsImm | btrImm | btcImm => group8
  | shldImm => Kita98.shldImm
  | shldCl => Kita98.shldCl
  | shrdImm => Kita98.shrdImm
  | shrdCl => Kita98.shrdCl

/-- The register field that selects the instruction in its group. -/
def field : RmwInstr → Option (BitVec 3)
  | neg8 | neg16 => some 2
  | not8 | not16 => some 3
  | inc16 => some 0
  | dec16 => some 1
  | btsImm => some 5
  | btrImm => some 6
  | btcImm => some 7
  | _ => none

end RmwInstr

/-! ## Updates of the flags -/

/-- Only the flags may differ. -/
def SameButFlags (regs regs' : Regs) : Prop :=
  regs'.gp = regs.gp ∧ regs'.seg = regs.seg ∧ regs'.ip = regs.ip

namespace SameButFlags

variable (regs : Regs)

theorem refl : SameButFlags regs regs := ⟨rfl, rfl, rfl⟩

theorem symm {regs regs' : Regs} (hsame : SameButFlags regs regs') : SameButFlags regs' regs :=
  ⟨hsame.1.symm, hsame.2.1.symm, hsame.2.2.symm⟩

theorem trans {regs regs' regs'' : Regs} (hfirst : SameButFlags regs regs')
    (hsecond : SameButFlags regs' regs'') : SameButFlags regs regs'' :=
  ⟨hsecond.1.trans hfirst.1, hsecond.2.1.trans hfirst.2.1, hsecond.2.2.trans hfirst.2.2⟩

theorem setCf (v : Bool) {regs regs' : Regs} (hsame : SameButFlags regs regs') :
    SameButFlags regs (regs'.setCf v) := hsame

theorem setCfBit (base : U16) (bit : ℕ) : SameButFlags regs (regs.setCfBit base bit) :=
  ⟨rfl, rfl, rfl⟩

theorem updateFlagsU16 (r : U16) {regs regs' : Regs} (hsame : SameButFlags regs regs') :
    SameButFlags regs (regs'.updateFlagsU16 r) := hsame

theorem updateSub8 (a b r : U8) : SameButFlags regs (regs.updateSub8 a b r) := by
  simp [SameButFlags, Regs.updateSub8, Regs.updateFlagsU8, Regs.setCf, Regs.setZf, Regs.setSf,
    Regs.setPf, Regs.setAf, Regs.setOf]

theorem updateSub16 (a b r : U16) : SameButFlags regs (regs.updateSub16 a b r) := by
  simp [SameButFlags, Regs.updateSub16, Regs.updateFlagsU16, Regs.setCf, Regs.setZf, Regs.setSf,
    Regs.setPf, Regs.setAf, Regs.setOf]

theorem updateAdd8 (a b r : U8) : SameButFlags regs (regs.updateAdd8 a b r) := by
  simp [SameButFlags, Regs.updateAdd8, Regs.updateFlagsU8, Regs.setCf, Regs.setZf, Regs.setSf,
    Regs.setPf, Regs.setAf, Regs.setOf]

theorem updateAdd16 (a b r : U16) : SameButFlags regs (regs.updateAdd16 a b r) := by
  simp [SameButFlags, Regs.updateAdd16, Regs.updateFlagsU16, Regs.setCf, Regs.setZf, Regs.setSf,
    Regs.setPf, Regs.setAf, Regs.setOf]

end SameButFlags

/-- The registers that addresses are made of. -/
def SameGpSeg (regs regs' : Regs) : Prop := regs'.gp = regs.gp ∧ regs'.seg = regs.seg

theorem SameButFlags.gpSeg {regs regs' : Regs} (hsame : SameButFlags regs regs') :
    SameGpSeg regs regs' := ⟨hsame.1, hsame.2.1⟩

theorem SameGpSeg.skip {core : Core} {n : ℕ} {regs : Regs}
    (hsame : SameGpSeg (core.skip n).cpu.regs regs) : SameGpSeg core.cpu.regs regs := hsame

theorem plainEa_congr {regs regs' : Regs} (hsame : SameGpSeg regs regs')
    (prefixes : PrefixState) (modrm : ModRm) :
    plainEa prefixes modrm regs' = plainEa prefixes modrm regs := by
  obtain ⟨hgp, hseg⟩ := hsame
  unfold plainEa Regs.getSeg Regs.get32 baseRegs16 Regs.get16
  rw [hgp, hseg]

/-- The register operand of one size. -/
structure RegOperand (α : Type) where
  get : ModRm → Regs → α
  set : ModRm → α → Regs → Regs
  set_ip : ∀ modrm val regs, (set modrm val regs).ip = regs.ip
  get_congr : ∀ modrm regs regs', SameGpSeg regs regs' → get modrm regs' = get modrm regs
  set_congr : ∀ modrm val regs regs', SameGpSeg regs regs' →
    SameGpSeg (set modrm val regs) (set modrm val regs')

def byteReg : RegOperand U8 where
  get := fun modrm regs => regs.get8 (reg8FromField modrm.reg)
  set := fun modrm val regs => regs.set8 (reg8FromField modrm.reg) val
  set_ip := fun _ _ _ => Regs.set8_ip _ _ _
  get_congr := by
    rintro modrm regs regs' ⟨hgp, -⟩
    unfold Regs.get8
    rw [hgp]
  set_congr := by
    rintro modrm val ⟨gp, seg, flags, ip⟩ ⟨gp', seg', flags', ip'⟩ ⟨hgp, hseg⟩
    subst hgp hseg
    cases reg8FromField modrm.reg <;> exact ⟨rfl, rfl⟩

def wordReg : RegOperand U16 where
  get := fun modrm regs => regs.get16 (reg16FromField modrm.reg)
  set := fun modrm val regs => regs.set16 (reg16FromField modrm.reg) val
  set_ip := fun _ _ _ => rfl
  get_congr := by
    rintro modrm regs regs' ⟨hgp, -⟩
    unfold Regs.get16
    rw [hgp]
  set_congr := by
    rintro modrm val ⟨gp, seg, flags, ip⟩ ⟨gp', seg', flags', ip'⟩ ⟨hgp, hseg⟩
    subst hgp hseg
    exact ⟨rfl, rfl⟩

section Shapes

def noArgs (_ : ModRm) : Routine Unit := pure ()

/-- An operand is replaced by a function of itself. -/
def unary {α : Type} (size : OperandSize α) (update : α → Regs → Regs) (result : α → α)
    (hsame : ∀ val regs, SameButFlags regs (update val regs)) : Rmw where
  Val := α
  size := size
  Args := Unit
  args := noArgs
  Late := Unit
  late := noArgs
  effect := fun _ _ val _ => .store (update val) (result val)
  argBytes := 0
  lateBytes := 0
  argBytes_le := Nat.zero_le 1
  lateBytes_le := Nat.zero_le 1
  args_fetches := fun _ => .pure ()
  late_fetches := fun _ => .pure ()
  update_ip := by
    intro modrm a val l update' result' regs heffect
    cases heffect
    exact (hsame val regs).2.2

/-- The register operand receives the other one, which is replaced by a function
of both. -/
def exchange {α : Type} (size : OperandSize α) (reg : RegOperand α) (flags : α → α → Regs → Regs)
    (result : α → α → α) (hsame : ∀ src val regs, SameButFlags regs (flags src val regs)) :
    Rmw where
  Val := α
  size := size
  Args := α
  args := fun modrm => getRegs (reg.get modrm)
  Late := Unit
  late := noArgs
  effect := fun modrm src val _ =>
    .store (fun regs => reg.set modrm val (flags src val regs)) (result src val)
  argBytes := 0
  lateBytes := 0
  argBytes_le := Nat.zero_le 1
  lateBytes_le := Nat.zero_le 1
  args_fetches := fun _ => .read _
  late_fetches := fun _ => .pure ()
  update_ip := by
    intro modrm a val l update' result' regs heffect
    cases heffect
    exact (reg.set_ip modrm val _).trans (hsame a val regs).2.2

/-- A bit of the operand goes to CF; its number is read behind the operand. -/
def bitInstr (bitOf : ModRm → Routine ℕ) (bytes : ℕ) (result : U16 → ℕ → U16)
    (hbytes : bytes ≤ 1) (hbit : ∀ modrm, Fetches (· = bytes) (bitOf modrm)) : Rmw where
  Val := U16
  size := wordOperand
  Args := Unit
  args := noArgs
  Late := ℕ
  late := bitOf
  effect := fun _ _ base bit => .store (fun regs => regs.setCfBit base bit) (result base bit)
  argBytes := 0
  lateBytes := bytes
  argBytes_le := Nat.zero_le 1
  lateBytes_le := hbytes
  args_fetches := fun _ => .pure ()
  late_fetches := hbit
  update_ip := by
    intro modrm a val l update result' regs heffect
    cases heffect
    rfl

/-- The effect of a double shift with a masked count: `carry` is the number of
the bit that goes to CF. -/
def shiftEffect (carry : ℕ → ℕ) (shift : U16 → U16 → ℕ → U16) (src : U16) (cnt : ℕ) (dst : U16) :
    Effect U16 :=
  if cnt = 0 then .keep
  else if cnt > 16 then .panic
  else
    .store (fun regs => (regs.setCfBit dst (carry cnt)).updateFlagsU16 (shift dst src cnt))
      (shift dst src cnt)

def shldCarry (cnt : ℕ) : ℕ := 16 - cnt

def shldWord (dst src : U16) (cnt : ℕ) : U16 :=
  ((((dst.setWidth 32 <<< 16) ||| src.setWidth 32 : U32) <<< cnt) >>> 16).setWidth 16

def shrdCarry (cnt : ℕ) : ℕ := cnt - 1

def shrdWord (dst src : U16) (cnt : ℕ) : U16 :=
  (((src.setWidth 32 <<< 16) ||| dst.setWidth 32 : U32) >>> cnt).setWidth 16

def readCl : Routine U8 := getRegs fun regs => regs.get8 .CL

theorem shiftEffect_panic
    (carry : ℕ → ℕ) (shift : U16 → U16 → ℕ → U16) (src dst : U16) {cnt : ℕ} (hlarge : 16 < cnt) :
    shiftEffect carry shift src cnt dst = .panic := by
  unfold shiftEffect
  rw [if_neg (by omega), if_pos hlarge]

theorem shiftEffect_store
    (carry : ℕ → ℕ) (shift : U16 → U16 → ℕ → U16) (src dst : U16) {cnt : ℕ}
    (hpos : cnt ≠ 0) (hsmall : cnt ≤ 16) :
    shiftEffect carry shift src cnt dst =
      .store (fun regs => (regs.setCfBit dst (carry cnt)).updateFlagsU16 (shift dst src cnt))
        (shift dst src cnt) := by
  unfold shiftEffect
  rw [if_neg hpos, if_neg (by omega)]

def shiftArgs (countOf : Routine U8) (modrm : ModRm) : Routine (U16 × ℕ) := do
  let src ← getRegs fun regs => regs.get16 (reg16FromField modrm.reg)
  let cnt ← countOf
  return (src, (cnt &&& 31).toNat)

def doubleShift (countOf : Routine U8) (bytes : ℕ) (carry : ℕ → ℕ) (shift : U16 → U16 → ℕ → U16)
    (hbytes : bytes ≤ 1) (hcount : Fetches (· = bytes) countOf) : Rmw where
  Val := U16
  size := wordOperand
  Args := U16 × ℕ
  args := shiftArgs countOf
  Late := Unit
  late := noArgs
  effect := fun _ a dst _ => shiftEffect carry shift a.1 a.2 dst
  argBytes := bytes
  lateBytes := 0
  argBytes_le := hbytes
  lateBytes_le := Nat.zero_le 1
  args_fetches := fun _ => .read_bind fun _ => hcount.bind_pure _
  late_fetches := fun _ => .pure ()
  update_ip := by
    intro modrm a dst l update result regs heffect
    unfold shiftEffect at heffect
    split_ifs at heffect
    cases heffect
    exact (SameButFlags.updateFlagsU16 _ (.setCfBit regs _ _)).2.2

def immShift (carry : ℕ → ℕ) (shift : U16 → U16 → ℕ → U16) : Rmw :=
  doubleShift fetchU8 1 carry shift (Nat.le_refl 1) .fetchU8

def clShift (carry : ℕ → ℕ) (shift : U16 → U16 → ℕ → U16) : Rmw :=
  doubleShift readCl 0 carry shift (Nat.zero_le 1) (.read _)

def immBit (_ : ModRm) : Routine ℕ := do
  let imm ← fetchU8
  return (imm &&& 15).toNat

theorem immBit_fetches (modrm : ModRm) : Fetches (· = 1) (immBit modrm) :=
  Fetches.fetchU8.bind_pure _

/-- The bit number is in the register operand. -/
def regBitInstr (result : U16 → ℕ → U16) : Rmw :=
  bitInstr (fun modrm => getRegs (regBit modrm)) 0 result (Nat.zero_le 1) fun _ => .read _

def immBitInstr (result : U16 → ℕ → U16) : Rmw :=
  bitInstr immBit 1 result (Nat.le_refl 1) immBit_fetches

end Shapes

namespace RmwInstr

def shape : RmwInstr → Rmw
  | not8 => unary byteOperand (fun _ regs => regs) (fun val => ~~~val) fun _ => .refl
  | neg8 => unary byteOperand (fun val regs => regs.updateSub8 0 val (~~~val + 1))
      (fun val => ~~~val + 1) fun _ regs => .updateSub8 regs _ _ _
  | not16 => unary wordOperand (fun _ regs => regs) (fun val => ~~~val) fun _ => .refl
  | neg16 => unary wordOperand (fun val regs => regs.updateSub16 0 val (~~~val + 1))
      (fun val => ~~~val + 1) fun _ regs => .updateSub16 regs _ _ _
  | inc16 => unary wordOperand
      (fun val regs => (regs.updateAdd16 val 1 (val + 1)).setCf regs.getCf)
      (fun val => val + 1) fun _ regs => .setCf _ (.updateAdd16 regs _ _ _)
  | dec16 => unary wordOperand
      (fun val regs => (regs.updateSub16 val 1 (val - 1)).setCf regs.getCf)
      (fun val => val - 1) fun _ regs => .setCf _ (.updateSub16 regs _ _ _)
  | xchg8 => exchange byteOperand byteReg (fun _ _ regs => regs) (fun src _ => src)
      fun _ _ => .refl
  | xchg16 => exchange wordOperand wordReg (fun _ _ regs => regs) (fun src _ => src)
      fun _ _ => .refl
  | xadd8 => exchange byteOperand byteReg
      (fun src val regs => regs.updateAdd8 val src (val + src)) (fun src val => val + src)
      fun _ _ regs => .updateAdd8 regs _ _ _
  | xadd16 => exchange wordOperand wordReg
      (fun src val regs => regs.updateAdd16 val src (val + src)) (fun src val => val + src)
      fun _ _ regs => .updateAdd16 regs _ _ _
  | bts => regBitInstr bitSet
  | btr => regBitInstr bitReset
  | btc => regBitInstr bitComplement
  | btsImm => immBitInstr bitSet
  | btrImm => immBitInstr bitReset
  | btcImm => immBitInstr bitComplement
  | shldImm => immShift shldCarry shldWord
  | shldCl => clShift shldCarry shldWord
  | shrdImm => immShift shrdCarry shrdWord
  | shrdCl => clShift shrdCarry shrdWord

end RmwInstr

def Core.modrm (core : Core) : ModRm := ModRm.decode (core.codeByte core.cpu.regs.ip)

theorem fetchModrm_apply (core : Core) : fetchModrm core = .ok (core.modrm, core.skip 1) := rfl

/-! ## The arms have their shapes -/

section Runs

variable {α : Type} {size : OperandSize α}

theorem unary_run (update : α → Regs → Regs) (result : α → α)
    (hsame : ∀ val regs, SameButFlags regs (update val regs)) (core : Core) :
    (unary size update result hsame).run core =
      (do
        let val ← size.read core.modrm
        modRegs (update val)
        size.write core.modrm (result val)
        return .proceed : Routine StepResult) (core.skip 1) := by
  unfold Rmw.run
  rw [Exec.bind_ok (fetchModrm_apply core)]
  rfl

theorem exchange_run (reg : RegOperand α) (flags : α → α → Regs → Regs) (result : α → α → α)
    (hsame : ∀ src val regs, SameButFlags regs (flags src val regs)) (core : Core) :
    (exchange size reg flags result hsame).run core =
      (do
        let src ← getRegs (reg.get core.modrm)
        let val ← size.read core.modrm
        modRegs (flags src val)
        modRegs (reg.set core.modrm val)
        size.write core.modrm (result src val)
        return .proceed : Routine StepResult) (core.skip 1) := by
  unfold Rmw.run
  rw [Exec.bind_ok (fetchModrm_apply core)]
  rfl

theorem regBitInstr_run (result : U16 → ℕ → U16) :
    (regBitInstr result).run = bitModify result := rfl

theorem immBitInstr_run (result : U16 → ℕ → U16) (core : Core) :
    (immBitInstr result).run core =
      (do
        let base ← readModrmU16 core.modrm
        let imm ← fetchU8
        modRegs fun regs => regs.setCfBit base (imm &&& 15).toNat
        writeModrmU16 core.modrm (result base (imm &&& 15).toNat)
        return .proceed : Routine StepResult) (core.skip 1) := by
  unfold Rmw.run
  rw [Exec.bind_ok (fetchModrm_apply core)]
  rfl

def finishShift (carry : ℕ → ℕ) (shift : U16 → U16 → ℕ → U16) (modrm : ModRm) (src : U16)
    (cnt : ℕ) : Routine StepResult := do
  let dst ← readModrmU16 modrm
  (shiftEffect carry shift src cnt dst).perform wordOperand modrm

theorem doubleShift_run (countOf : Routine U8) (bytes : ℕ) (carry : ℕ → ℕ)
    (shift : U16 → U16 → ℕ → U16) (hbytes : bytes ≤ 1) (hcount : Fetches (· = bytes) countOf)
    (core : Core) :
    (doubleShift countOf bytes carry shift hbytes hcount).run core =
      (do
        let src ← getRegs fun regs => regs.get16 (reg16FromField core.modrm.reg)
        let cnt ← countOf
        finishShift carry shift core.modrm src (cnt &&& 31).toNat : Routine StepResult)
        (core.skip 1) := by
  obtain ⟨n, -, cnt, hcnt⟩ := hcount (core.skip 1)
  have hargs : shiftArgs countOf core.modrm (core.skip 1) =
      .ok ((core.cpu.regs.get16 (reg16FromField core.modrm.reg), (cnt &&& 31).toNat),
        (core.skip 1).skip n) := by
    unfold shiftArgs
    rw [Exec.bind_ok (getRegs_apply (core.skip 1) _), Exec.bind_ok hcnt]
    rfl
  unfold Rmw.run
  rw [Exec.bind_ok (fetchModrm_apply core), Exec.bind_ok (getRegs_apply (core.skip 1) _),
    Exec.bind_ok hcnt]
  exact Exec.bind_ok hargs

end Runs

theorem shldCount_eq : shldCount = finishShift shldCarry shldWord := by
  funext modrm src cnt
  unfold shldCount finishShift shiftEffect
  congr 1
  funext dst
  split_ifs <;> rfl

theorem shrdCount_eq : shrdCount = finishShift shrdCarry shrdWord := by
  funext modrm src cnt
  unfold shrdCount finishShift shiftEffect
  congr 1
  funext dst
  split_ifs <;> rfl

theorem immShift_run (carry : ℕ → ℕ) (shift : U16 → U16 → ℕ → U16) (core : Core) :
    (immShift carry shift).run core = doubleShiftImm (finishShift carry shift) core :=
  doubleShift_run ..

theorem clShift_run (carry : ℕ → ℕ) (shift : U16 → U16 → ℕ → U16) (core : Core) :
    (clShift carry shift).run core = doubleShiftCl (finishShift carry shift) core :=
  doubleShift_run ..

theorem group3Rm8_apply (core : Core) :
    group3Rm8 core =
      (match core.modrm.reg with
        | 0 | 1 => testRm8 core.modrm
        | 2 => negRm8 core.modrm
        | 3 => notRm8 core.modrm
        | 4 => mulRm8 core.modrm
        | 5 => imulRm8 core.modrm
        | 6 => divRm8 core.modrm
        | _ => idivRm8 core.modrm) (core.skip 1) := rfl

theorem group3Rm16_apply (core : Core) :
    group3Rm16 core =
      (match core.modrm.reg with
        | 0 | 1 => testRm16 core.modrm
        | 2 => negRm16 core.modrm
        | 3 => notRm16 core.modrm
        | 4 => mulRm16 core.modrm
        | 5 => imulRm16 core.modrm
        | 6 => divRm16 core.modrm
        | _ => idivRm16 core.modrm) (core.skip 1) := rfl

theorem groupFF_apply (core : Core) :
    groupFF core =
      (match core.modrm.reg with
        | 0 => incRm16 core.modrm
        | 1 => decRm16 core.modrm
        | 2 => callRm16 core.modrm
        | 3 => callFarMem core.modrm
        | 4 => jmpRm16 core.modrm
        | 5 => jmpFarMem core.modrm
        | 6 => pushRm16 core.modrm
        | _ => return .unimplemented 0xFF) (core.skip 1) := rfl

theorem arm_eq_run
    {instr : RmwInstr} {core : Core}
    (hfield : ∀ field, instr.field = some field → core.modrm.reg = field) :
    instr.arm core = instr.shape.run core := by
  cases instr with
  | not8 =>
      have hreg := hfield 3 rfl
      unfold RmwInstr.shape
      rw [unary_run, RmwInstr.arm, group3Rm8_apply, hreg]
      rfl
  | neg8 =>
      have hreg := hfield 2 rfl
      unfold RmwInstr.shape
      rw [unary_run, RmwInstr.arm, group3Rm8_apply, hreg]
      rfl
  | not16 =>
      have hreg := hfield 3 rfl
      unfold RmwInstr.shape
      rw [unary_run, RmwInstr.arm, group3Rm16_apply, hreg]
      rfl
  | neg16 =>
      have hreg := hfield 2 rfl
      unfold RmwInstr.shape
      rw [unary_run, RmwInstr.arm, group3Rm16_apply, hreg]
      rfl
  | inc16 =>
      have hreg := hfield 0 rfl
      unfold RmwInstr.shape
      rw [unary_run, RmwInstr.arm, groupFF_apply, hreg]
      rfl
  | dec16 =>
      have hreg := hfield 1 rfl
      unfold RmwInstr.shape
      rw [unary_run, RmwInstr.arm, groupFF_apply, hreg]
      rfl
  | xchg8 | xchg16 | xadd8 | xadd16 =>
      unfold RmwInstr.shape
      rw [exchange_run]
      rfl
  | bts | btr | btc =>
      unfold RmwInstr.shape
      rw [regBitInstr_run]
      rfl
  | btsImm =>
      have hreg := hfield 5 rfl
      unfold RmwInstr.shape
      rw [immBitInstr_run, RmwInstr.arm, group8, Exec.bind_ok (fetchModrm_apply core), hreg]
      rfl
  | btrImm =>
      have hreg := hfield 6 rfl
      unfold RmwInstr.shape
      rw [immBitInstr_run, RmwInstr.arm, group8, Exec.bind_ok (fetchModrm_apply core), hreg]
      rfl
  | btcImm =>
      have hreg := hfield 7 rfl
      unfold RmwInstr.shape
      rw [immBitInstr_run, RmwInstr.arm, group8, Exec.bind_ok (fetchModrm_apply core), hreg]
      rfl
  | shldImm =>
      rw [RmwInstr.arm, Kita98.shldImm, shldCount_eq]
      exact (immShift_run shldCarry shldWord core).symm
  | shldCl =>
      rw [RmwInstr.arm, Kita98.shldCl, shldCount_eq]
      exact (clShift_run shldCarry shldWord core).symm
  | shrdImm =>
      rw [RmwInstr.arm, Kita98.shrdImm, shrdCount_eq]
      exact (immShift_run shrdCarry shrdWord core).symm
  | shrdCl =>
      rw [RmwInstr.arm, Kita98.shrdCl, shrdCount_eq]
      exact (clShift_run shrdCarry shrdWord core).symm

/-! ## One decoding or two -/

theorem skipIp_inj {m n : ℕ} {ip : U32} (hm : 0 < m) (hn : 0 < n) (hmsmall : m < 2 ^ 16)
    (hnsmall : n < 2 ^ 16) (heq : skipIp m ip = skipIp n ip) : m = n := by
  obtain ⟨m, rfl⟩ := Nat.exists_eq_succ_of_ne_zero (Nat.pos_iff_ne_zero.mp hm)
  obtain ⟨n, rfl⟩ := Nat.exists_eq_succ_of_ne_zero (Nat.pos_iff_ne_zero.mp hn)
  have hnat := congrArg BitVec.toNat heq
  rw [skipIp_toNat, skipIp_toNat] at hnat
  omega

theorem Effect.perform_store
    {α : Type} {size : OperandSize α} {modrm : ModRm} {update : Regs → Regs} {result : α}
    {core last : Core} {ea : U32} (hmode : modrm.mode ≠ 3)
    (hea : eaFromModrm modrm (core.setRegs (update core.cpu.regs)) = .ok (ea, last)) :
    (Effect.store update result).perform size modrm core =
      .ok (.proceed, last.setMem (size.store last.bus.mem ea result)) := by
  have hwrite : size.write modrm result (core.setRegs (update core.cpu.regs)) =
      .ok ((), last.setMem (size.store last.bus.mem ea result)) := by
    rw [size.write_mem modrm result hmode, Exec.bind_ok hea]
    rfl
  exact (Exec.bind_ok (modRegs_apply core update)).trans (Exec.bind_ok hwrite)

namespace Rmw

variable {s : Rmw} {core : Core}

theorem run_scan (hmode : core.modrm.mode ≠ 3) :
    ∃ n a ea l,
      Counts (addressBytes core.cpu.prefixes.address32 core.modrm) n ∧
      s.args core.modrm (core.skip 1) = .ok (a, core.skip (1 + s.argBytes)) ∧
      eaFromModrm core.modrm (core.skip (1 + s.argBytes)) =
        .ok (ea, core.skip (1 + s.argBytes + n)) ∧
      s.scan core =
        .ok ((ea, s.effect core.modrm a (s.size.load core.bus.mem ea) l),
          core.skip (1 + s.argBytes + n + s.lateBytes)) ∧
      s.run core =
        (s.effect core.modrm a (s.size.load core.bus.mem ea) l).perform s.size core.modrm
          (core.skip (1 + s.argBytes + n + s.lateBytes)) := by
  obtain ⟨m, rfl, a, hargs⟩ := s.args_fetches core.modrm (core.skip 1)
  rw [Core.skip_skip] at hargs
  obtain ⟨n, hn, ea, hea⟩ := eaFromModrm_fetches hmode (core.skip (1 + s.argBytes))
  rw [Core.skip_skip] at hea
  obtain ⟨m', rfl, l, hlate⟩ := s.late_fetches core.modrm (core.skip (1 + s.argBytes + n))
  rw [Core.skip_skip] at hlate
  have hread : s.size.read core.modrm (core.skip (1 + s.argBytes)) =
      .ok (s.size.load core.bus.mem ea, core.skip (1 + s.argBytes + n)) := by
    rw [s.size.read_mem core.modrm hmode, Exec.bind_ok hea]
    rfl
  refine ⟨n, a, ea, l, hn, hargs, hea, ?_, ?_⟩
  · unfold scan
    rw [Exec.bind_ok (fetchModrm_apply core), Exec.bind_ok hargs, Exec.bind_ok hea,
      Exec.bind_ok (getMem_apply _ _), Exec.bind_ok hlate]
    rfl
  · unfold run
    rw [Exec.bind_ok (fetchModrm_apply core), Exec.bind_ok hargs, Exec.bind_ok hread,
      Exec.bind_ok hlate]

theorem decoded_returns (hmode : core.modrm.mode ≠ 3) :
    ∃ n a ea l,
      Counts (addressBytes core.cpu.prefixes.address32 core.modrm) n ∧
      eaFromModrm core.modrm (core.skip 1) = .ok (ea, core.skip (1 + n)) ∧
      s.args core.modrm (core.skip (1 + n)) = .ok (a, core.skip (1 + n + s.argBytes)) ∧
      s.decoded core =
        .ok ((ea, s.effect core.modrm a (s.size.load core.bus.mem ea) l),
          core.skip (1 + n + s.argBytes + s.lateBytes)) := by
  obtain ⟨n, hn, ea, hea⟩ := eaFromModrm_fetches hmode (core.skip 1)
  rw [Core.skip_skip] at hea
  obtain ⟨m, rfl, a, hargs⟩ := s.args_fetches core.modrm (core.skip (1 + n))
  rw [Core.skip_skip] at hargs
  obtain ⟨m', rfl, l, hlate⟩ := s.late_fetches core.modrm (core.skip (1 + n + s.argBytes))
  rw [Core.skip_skip] at hlate
  refine ⟨n, a, ea, l, hn, hea, hargs, ?_⟩
  unfold decoded
  rw [Exec.bind_ok (fetchModrm_apply core), Exec.bind_ok hea, Exec.bind_ok hargs,
    Exec.bind_ok (getMem_apply _ _), Exec.bind_ok hlate]
  rfl

/-- Without address bytes the order of the encoding is the order of the arm. -/
theorem decoded_plain (hplain : NoAddressBytes core.cpu.prefixes.address32 core.modrm) :
    s.decoded core = s.scan core := by
  obtain ⟨m, rfl, a, hargs⟩ := s.args_fetches core.modrm (core.skip 1)
  have hfirst : eaFromModrm core.modrm (core.skip 1) =
      .ok (plainEa core.cpu.prefixes core.modrm core.cpu.regs, core.skip 1) :=
    eaFromModrm_plain hplain
  have hsecond : eaFromModrm core.modrm ((core.skip 1).skip s.argBytes) =
      .ok (plainEa core.cpu.prefixes core.modrm core.cpu.regs, (core.skip 1).skip s.argBytes) :=
    eaFromModrm_plain hplain
  unfold decoded scan
  rw [Exec.bind_ok (fetchModrm_apply core), Exec.bind_ok (fetchModrm_apply core),
    Exec.bind_ok hfirst, Exec.bind_ok hargs, Exec.bind_ok hargs, Exec.bind_ok hsecond]

theorem scan_plain
    {ea : U32} {effect : Effect s.Val} {ready : Core}
    (hplain : NoAddressBytes core.cpu.prefixes.address32 core.modrm)
    (hscan : s.scan core = .ok ((ea, effect), ready)) :
    ea = plainEa core.cpu.prefixes core.modrm core.cpu.regs := by
  unfold scan at hscan
  rw [Exec.bind_ok (fetchModrm_apply core)] at hscan
  obtain ⟨m, rfl, a, hargs⟩ := s.args_fetches core.modrm (core.skip 1)
  have hea : eaFromModrm core.modrm ((core.skip 1).skip s.argBytes) =
      .ok (plainEa core.cpu.prefixes core.modrm core.cpu.regs, (core.skip 1).skip s.argBytes) :=
    eaFromModrm_plain hplain
  rw [Exec.bind_ok hargs, Exec.bind_ok hea, Exec.bind_ok (getMem_apply _ _)] at hscan
  obtain ⟨l, next, -, hlast⟩ := Exec.bind_eq_ok hscan
  cases hlast
  rfl

theorem not_touches_of_panic
    {ea : U32} {ready : Core} (hmode : core.modrm.mode ≠ 3)
    (hscan : s.scan core = .ok ((ea, .panic), ready)) : ¬ s.TouchesOneOperand s.run core := by
  rintro ⟨_, _, _, after, -, harm, -, -⟩
  obtain ⟨n, a, ea', l, -, -, -, hscan', hrun⟩ := run_scan hmode
  have heq := hscan'.symm.trans hscan
  simp only [Except.ok.injEq, Prod.mk.injEq] at heq
  rw [heq.1.2] at hrun
  cases hrun.symm.trans harm

/-- An arm that writes nothing is right where nothing was to be written. -/
theorem touches_keep_iff
    {ea : U32} {ready : Core} (hmode : core.modrm.mode ≠ 3)
    (hscan : s.scan core = .ok ((ea, .keep), ready)) :
    s.TouchesOneOperand s.run core ↔
      ∃ ea' effect behind, s.decoded core = .ok ((ea', effect), behind) ∧
        behind.cpu.regs.ip = ready.cpu.regs.ip ∧
        s.settle core.bus.mem ea' effect = core.bus.mem := by
  obtain ⟨n, a, ea₀, l, -, -, -, hscan', hrun⟩ := run_scan hmode
  have heq := hscan'.symm.trans hscan
  simp only [Except.ok.injEq, Prod.mk.injEq] at heq
  obtain ⟨⟨rfl, hkeep⟩, rfl⟩ := heq
  rw [hkeep] at hrun
  constructor
  · rintro ⟨ea', effect, behind, after, hdecoded, harm, hip, hmem⟩
    cases hrun.symm.trans harm
    exact ⟨ea', effect, behind, hdecoded, hip.symm, hmem.symm⟩
  · rintro ⟨ea', effect, behind, hdecoded, hip, hmem⟩
    exact ⟨ea', effect, behind, _, hdecoded, hrun, hip.symm, hmem.symm⟩

/-- The two decodings of an arm that writes consume as much as one of them only
where there is nothing to consume. -/
theorem counts_twice {k m n n' : ℕ} (hm : Counts k m) (hn : Counts k n) (hn' : Counts k n')
    (hsum : m + n = n') : k = 0 := by
  rcases hm with rfl | ⟨rfl, rfl⟩ <;> rcases hn with rfl | ⟨hone, rfl⟩ <;>
    rcases hn' with rfl | ⟨hone', rfl⟩ <;> omega

/-- An arm that writes touches one operand exactly when there are no address
bytes and the registers it updated lead to the same write. -/
theorem touches_store_iff
    {ea : U32} {update : Regs → Regs} {result : s.Val} {ready : Core}
    (hmode : core.modrm.mode ≠ 3)
    (hscan : s.scan core = .ok ((ea, .store update result), ready)) :
    s.TouchesOneOperand s.run core ↔
      NoAddressBytes core.cpu.prefixes.address32 core.modrm ∧
        s.size.store core.bus.mem
            (plainEa core.cpu.prefixes core.modrm (update ready.cpu.regs)) result =
          s.size.store core.bus.mem (plainEa core.cpu.prefixes core.modrm core.cpu.regs)
            result := by
  obtain ⟨n, a, ea₀, l, hn, -, -, hscan', hrun⟩ := run_scan hmode
  have heq := hscan'.symm.trans hscan
  simp only [Except.ok.injEq, Prod.mk.injEq] at heq
  obtain ⟨⟨rfl, hstored⟩, rfl⟩ := heq
  have hupdated := s.update_ip core.modrm a _ l update result
    (core.skip (1 + s.argBytes + n + s.lateBytes)).cpu.regs hstored
  rw [hstored] at hrun
  obtain ⟨m, hm, ea₂, hea₂⟩ := eaFromModrm_fetches hmode
    ((core.skip (1 + s.argBytes + n + s.lateBytes)).setRegs
      (update (core.skip (1 + s.argBytes + n + s.lateBytes)).cpu.regs))
  rw [Effect.perform_store hmode hea₂] at hrun
  have hle := addressBytes_le core.cpu.prefixes.address32 core.modrm
  have hargs := s.argBytes_le
  have hlate := s.lateBytes_le
  constructor
  · rintro ⟨ea', effect, behind, after, hdecoded, harm, hafter, hmem⟩
    obtain ⟨n', a', ea₁, l', hn', -, -, hdecoded'⟩ := decoded_returns hmode
    cases hrun.symm.trans harm
    cases hdecoded.symm.trans hdecoded'
    have hbytes : 1 + s.argBytes + n + s.lateBytes + m = 1 + n' + s.argBytes + s.lateBytes := by
      have hn₁ := hn.le
      have hm₁ := hm.le
      have hn₂ := hn'.le
      refine @skipIp_inj _ _ core.cpu.regs.ip (by omega) (by omega) ?_ (by omega) ?_
      · have hm₂ : m ≤ addressBytes core.cpu.prefixes.address32 core.modrm + 4 := hm₁
        omega
      · rw [skipIp_add]
        calc skipIp m (skipIp (1 + s.argBytes + n + s.lateBytes) core.cpu.regs.ip)
            = skipIp m (update
                (core.skip (1 + s.argBytes + n + s.lateBytes)).cpu.regs).ip := by rw [hupdated]; rfl
          _ = skipIp (1 + n' + s.argBytes + s.lateBytes) core.cpu.regs.ip := hafter
    have hzero := counts_twice hn hm hn' (by omega)
    have hplain := (addressBytes_eq_zero hmode).mp hzero
    refine ⟨hplain, ?_⟩
    rw [decoded_plain hplain, hscan] at hdecoded
    simp only [Except.ok.injEq, Prod.mk.injEq] at hdecoded
    obtain ⟨⟨rfl, heffect⟩, -⟩ := hdecoded
    obtain rfl := scan_plain hplain hscan
    have hea := hea₂.symm.trans (eaFromModrm_plain hplain)
    simp only [Except.ok.injEq, Prod.mk.injEq] at hea
    rw [← heffect, hea.1] at hmem
    exact hmem
  · rintro ⟨hplain, hstore⟩
    have hdecoded := (decoded_plain hplain).trans hscan
    obtain rfl := scan_plain hplain hscan
    have hea := hea₂.symm.trans (eaFromModrm_plain hplain)
    simp only [Except.ok.injEq, Prod.mk.injEq] at hea
    rw [hea.1, hea.2] at hrun
    exact ⟨_, _, _, _, hdecoded, hrun, hupdated, hstore⟩

/-- Where only flags are updated, the second address is the first. -/
theorem touches_flags_iff
    {ea : U32} {update : Regs → Regs} {result : s.Val} {ready : Core}
    (hmode : core.modrm.mode ≠ 3)
    (hscan : s.scan core = .ok ((ea, .store update result), ready))
    (hsame : ∀ regs, SameButFlags regs (update regs)) :
    s.TouchesOneOperand s.run core ↔
      NoAddressBytes core.cpu.prefixes.address32 core.modrm := by
  obtain ⟨n, a, ea', l, -, -, -, hscan', -⟩ := run_scan hmode
  have heq := hscan'.symm.trans hscan
  simp only [Except.ok.injEq, Prod.mk.injEq] at heq
  obtain ⟨-, rfl⟩ := heq
  rw [touches_store_iff hmode hscan,
    plainEa_congr (SameGpSeg.skip (hsame _).gpSeg) core.cpu.prefixes core.modrm]
  exact and_iff_left_of_imp fun _ => rfl

end Rmw

/-! ## The instructions, one shape at a time -/

section Conditions

variable {core : Core}

/-- A write through the address that updated registers give is the write through
the address that was read. -/
def SameWrite {α : Type} (size : OperandSize α) (core : Core) (update : α → Regs → Regs)
    (result : α → α) : Prop :=
  let ea := plainEa core.cpu.prefixes core.modrm core.cpu.regs
  let val := size.load core.bus.mem ea
  size.store core.bus.mem (plainEa core.cpu.prefixes core.modrm (update val core.cpu.regs))
      (result val) =
    size.store core.bus.mem ea (result val)

theorem unary_touches_iff {α : Type} {size : OperandSize α} {update : α → Regs → Regs}
    {result : α → α} {hsame : ∀ val regs, SameButFlags regs (update val regs)}
    (hmode : core.modrm.mode ≠ 3) :
    (unary size update result hsame).TouchesOneOperand (unary size update result hsame).run core ↔
      NoAddressBytes core.cpu.prefixes.address32 core.modrm := by
  obtain ⟨n, a, ea, l, -, -, -, hscan, -⟩ := (unary size update result hsame).run_scan hmode
  exact Rmw.touches_flags_iff hmode hscan (hsame _)

theorem bitInstr_touches_iff {bitOf : ModRm → Routine ℕ} {bytes : ℕ} {result : U16 → ℕ → U16}
    {hbytes : bytes ≤ 1} {hbit : ∀ modrm, Fetches (· = bytes) (bitOf modrm)}
    (hmode : core.modrm.mode ≠ 3) :
    (bitInstr bitOf bytes result hbytes hbit).TouchesOneOperand
        (bitInstr bitOf bytes result hbytes hbit).run core ↔
      NoAddressBytes core.cpu.prefixes.address32 core.modrm := by
  obtain ⟨n, a, ea, l, -, -, -, hscan, -⟩ := (bitInstr bitOf bytes result hbytes hbit).run_scan hmode
  exact Rmw.touches_flags_iff hmode hscan fun regs => .setCfBit regs _ _

theorem exchange_touches_iff {α : Type} {size : OperandSize α} {reg : RegOperand α}
    {flags : α → α → Regs → Regs} {result : α → α → α}
    {hsame : ∀ src val regs, SameButFlags regs (flags src val regs)}
    (hmode : core.modrm.mode ≠ 3) :
    (exchange size reg flags result hsame).TouchesOneOperand
        (exchange size reg flags result hsame).run core ↔
      NoAddressBytes core.cpu.prefixes.address32 core.modrm ∧
        SameWrite size core (reg.set core.modrm) (result (reg.get core.modrm core.cpu.regs)) := by
  obtain ⟨n, a, ea, l, -, hargs, -, hscan, -⟩ :=
    (exchange size reg flags result hsame).run_scan hmode
  have hsrc : a = reg.get core.modrm core.cpu.regs := by
    have hvalue := congrArg (Except.map Prod.fst) hargs
    injection hvalue with hvalue
    exact hvalue.symm.trans (reg.get_congr core.modrm _ _ ⟨rfl, rfl⟩)
  subst hsrc
  refine (Rmw.touches_store_iff hmode hscan).trans (and_congr_right fun hplain => ?_)
  obtain rfl := Rmw.scan_plain hplain hscan
  let src := reg.get core.modrm core.cpu.regs
  let val := size.load core.bus.mem (plainEa core.cpu.prefixes core.modrm core.cpu.regs)
  have hea : ∀ k, plainEa core.cpu.prefixes core.modrm
        (reg.set core.modrm val (flags src val (core.skip k).cpu.regs)) =
      plainEa core.cpu.prefixes core.modrm (reg.set core.modrm val core.cpu.regs) := by
    intro k
    have hflags : SameGpSeg core.cpu.regs (flags src val (core.skip k).cpu.regs) :=
      SameGpSeg.skip (hsame src val _).gpSeg
    exact plainEa_congr (reg.set_congr core.modrm val _ _ hflags) _ _
  exact Eq.congr (congrArg (fun ea => size.store core.bus.mem ea (result src val)) (hea _)) rfl

def clCount (core : Core) : ℕ := (core.cpu.regs.get8 .CL &&& 31).toNat

/-- The masked count as the arm reads it, from the byte behind the ModRM byte. -/
def immCount (core : Core) : ℕ := (core.codeByte (nextIp core.cpu.regs.ip) &&& 31).toNat

theorem doubleShift_touches_iff {countOf : Routine U8} {bytes : ℕ} {carry : ℕ → ℕ}
    {shift : U16 → U16 → ℕ → U16} {hbytes : bytes ≤ 1} {hcount : Fetches (· = bytes) countOf}
    {ea : U32} {src : U16} {cnt : ℕ} {dst : U16} {ready : Core}
    (hmode : core.modrm.mode ≠ 3) (hpos : cnt ≠ 0)
    (hscan : (doubleShift countOf bytes carry shift hbytes hcount).scan core =
      .ok ((ea, shiftEffect carry shift src cnt dst), ready)) :
    (doubleShift countOf bytes carry shift hbytes hcount).TouchesOneOperand
        (doubleShift countOf bytes carry shift hbytes hcount).run core ↔
      cnt ≤ 16 ∧ NoAddressBytes core.cpu.prefixes.address32 core.modrm := by
  by_cases hsmall : cnt ≤ 16
  · rw [shiftEffect_store carry shift src dst hpos hsmall] at hscan
    rw [Rmw.touches_flags_iff hmode hscan fun regs => .updateFlagsU16 _ (.setCfBit regs _ _)]
    exact (and_iff_right hsmall).symm
  · rw [shiftEffect_panic carry shift src dst (Nat.lt_of_not_le hsmall)] at hscan
    exact iff_of_false (Rmw.not_touches_of_panic hmode hscan) fun hboth => hsmall hboth.1

theorem clShift_touches_iff (carry : ℕ → ℕ) (shift : U16 → U16 → ℕ → U16)
    (hmode : core.modrm.mode ≠ 3) :
    (clShift carry shift).TouchesOneOperand (clShift carry shift).run core ↔
      clCount core = 0 ∨
        (clCount core ≤ 16 ∧ NoAddressBytes core.cpu.prefixes.address32 core.modrm) := by
  obtain ⟨n, ⟨src, cnt⟩, ea, l, -, hargs, hea, hscan, -⟩ := (clShift carry shift).run_scan hmode
  obtain ⟨n', ⟨src', cnt'⟩, ea', l', -, hea', hargs', hdecoded⟩ :=
    (clShift carry shift).decoded_returns hmode
  have hcnt : cnt = clCount core := by
    injection hargs with hargs
    exact (congrArg (fun result => result.1.2) hargs).symm
  have hcnt' : cnt' = clCount core := by
    injection hargs' with hargs'
    exact (congrArg (fun result => result.1.2) hargs').symm
  subst hcnt hcnt'
  by_cases hzero : clCount core = 0
  · have hkeep : ∀ src dst, shiftEffect carry shift src (clCount core) dst = .keep := by
      intro src dst
      rw [hzero]
      rfl
    have hidle : (clShift carry shift).scan core =
        .ok ((ea, shiftEffect carry shift src (clCount core) (core.bus.mem.readU16 ea)),
          core.skip (1 + n)) := hscan
    have hidle' : (clShift carry shift).decoded core =
        .ok ((ea', shiftEffect carry shift src' (clCount core) (core.bus.mem.readU16 ea')),
          core.skip (1 + n')) := hdecoded
    rw [hkeep] at hidle hidle'
    refine iff_of_true ?_ (.inl hzero)
    refine (Rmw.touches_keep_iff hmode hidle).mpr ⟨ea', .keep, core.skip (1 + n'), hidle', ?_, rfl⟩
    injection hea'.symm.trans hea with hsame
    exact congrArg (fun result => result.2.cpu.regs.ip) hsame
  · rw [or_iff_right hzero]
    exact doubleShift_touches_iff hmode hzero hscan

/-- The arm reads the byte behind the ModRM byte as its count.  It is right to do
nothing where the encoded instruction has the length that the arm consumes and
would leave memory as it is. -/
def IdleEncoding (s : Rmw) (core : Core) : Prop :=
  ∃ ea effect behind ea' ready,
    s.decoded core = .ok ((ea, effect), behind) ∧
    eaFromModrm core.modrm (core.skip 2) = .ok (ea', ready) ∧
    behind.cpu.regs.ip = ready.cpu.regs.ip ∧
    s.settle core.bus.mem ea effect = core.bus.mem

theorem immShift_touches_iff (carry : ℕ → ℕ) (shift : U16 → U16 → ℕ → U16)
    (hmode : core.modrm.mode ≠ 3) :
    (immShift carry shift).TouchesOneOperand (immShift carry shift).run core ↔
      (immCount core = 0 ∧ IdleEncoding (immShift carry shift) core) ∨
        (0 < immCount core ∧ immCount core ≤ 16 ∧
          NoAddressBytes core.cpu.prefixes.address32 core.modrm) := by
  obtain ⟨n, ⟨src, cnt⟩, ea, l, -, hargs, hea, hscan, -⟩ := (immShift carry shift).run_scan hmode
  have hcnt : cnt = immCount core := by
    injection hargs with hargs
    exact (congrArg (fun result => result.1.2) hargs).symm
  subst hcnt
  by_cases hzero : immCount core = 0
  · have hidle : (immShift carry shift).scan core =
        .ok ((ea, shiftEffect carry shift src (immCount core) (core.bus.mem.readU16 ea)),
          core.skip (1 + 1 + n)) := hscan
    rw [hzero] at hidle
    rw [Rmw.touches_keep_iff hmode hidle, or_iff_left fun hpos => hpos.1.ne' hzero,
      and_iff_right hzero]
    constructor
    · rintro ⟨ea', effect, behind, hdecoded, hip, hmem⟩
      exact ⟨ea', effect, behind, ea, _, hdecoded, hea, hip, hmem⟩
    · rintro ⟨ea', effect, behind, ea₁, ready, hdecoded, hready, hip, hmem⟩
      cases hready.symm.trans hea
      exact ⟨ea', effect, behind, hdecoded, hip, hmem⟩
  · rw [or_iff_right fun hidle => hzero hidle.1, and_iff_right (Nat.pos_of_ne_zero hzero)]
    exact doubleShift_touches_iff hmode hzero hscan

end Conditions

/-! ## All of them -/

/-- The ModRM byte at CS:IP is one of the instruction with a memory operand. -/
structure AtMemoryOperand (instr : RmwInstr) (core : Core) : Prop where
  memory : core.modrm.mode ≠ 3
  field : ∀ field, instr.field = some field → core.modrm.reg = field

/-- The two decodings do as one would.  An exchange must in addition write
through the address that its updated register gives. -/
def DecodedAsOnce (instr : RmwInstr) (core : Core) : Prop :=
  let plain := NoAddressBytes core.cpu.prefixes.address32 core.modrm
  let reg8 := byteReg.get core.modrm core.cpu.regs
  let reg16 := wordReg.get core.modrm core.cpu.regs
  match instr with
  | .not8 | .neg8 | .not16 | .neg16 | .inc16 | .dec16 => plain
  | .bts | .btr | .btc | .btsImm | .btrImm | .btcImm => plain
  | .xchg8 => plain ∧ SameWrite byteOperand core (byteReg.set core.modrm) fun _ => reg8
  | .xchg16 => plain ∧ SameWrite wordOperand core (wordReg.set core.modrm) fun _ => reg16
  | .xadd8 => plain ∧ SameWrite byteOperand core (byteReg.set core.modrm) fun val => val + reg8
  | .xadd16 => plain ∧ SameWrite wordOperand core (wordReg.set core.modrm) fun val => val + reg16
  | .shldCl | .shrdCl => clCount core = 0 ∨ (clCount core ≤ 16 ∧ plain)
  | .shldImm | .shrdImm =>
      (immCount core = 0 ∧ IdleEncoding instr.shape core) ∨
        (0 < immCount core ∧ immCount core ≤ 16 ∧ plain)

theorem touches_arm_iff {instr : RmwInstr} {core : Core} (hop : AtMemoryOperand instr core) :
    instr.shape.TouchesOneOperand instr.arm core ↔
      instr.shape.TouchesOneOperand instr.shape.run core := by
  unfold Rmw.TouchesOneOperand
  rw [arm_eq_run hop.field]

theorem touchesOneOperand_iff {instr : RmwInstr} {core : Core}
    (hop : AtMemoryOperand instr core) :
    instr.shape.TouchesOneOperand instr.arm core ↔ DecodedAsOnce instr core := by
  rw [touches_arm_iff hop]
  cases instr with
  | not8 | neg8 | not16 | neg16 | inc16 | dec16 =>
      simp only [RmwInstr.shape]
      exact unary_touches_iff hop.memory
  | xchg8 | xchg16 | xadd8 | xadd16 =>
      simp only [RmwInstr.shape]
      exact exchange_touches_iff hop.memory
  | bts | btr | btc | btsImm | btrImm | btcImm => exact bitInstr_touches_iff hop.memory
  | shldImm | shrdImm => exact immShift_touches_iff _ _ hop.memory
  | shldCl | shrdCl => exact clShift_touches_iff _ _ hop.memory

/-- A fresh machine behind the opcode byte of an instruction with `bytes`. -/
def operandCore (bytes : List U8) : Core where
  cpu := Interpreter.new
  bus := { Bus.new none (fun _ => 0) with mem := Memory.new.loadBytes 0 bytes }

theorem atMemoryOperand_xchg : AtMemoryOperand .xchg16 (operandCore [0x1F]) :=
  ⟨by decide +kernel, fun _ hfield => nomatch hfield⟩

/-- `XCHG BX, [BX]` with the ModRM byte 1Fh. -/
theorem touchesOneOperand_xchg :
    RmwInstr.xchg16.shape.TouchesOneOperand RmwInstr.xchg16.arm (operandCore [0x1F]) ↔
      DecodedAsOnce .xchg16 (operandCore [0x1F]) :=
  touchesOneOperand_iff atMemoryOperand_xchg

theorem atMemoryOperand_inc : AtMemoryOperand .inc16 (operandCore [0x47, 0x10, 0x20]) := by
  refine ⟨by decide +kernel, ?_⟩
  rintro field hfield
  cases hfield
  decide +kernel

/-- `INC WORD [BX + 10h]` followed by the byte 20h: the word that is incremented
is stored at offset 20h, and IP is one byte too far. -/
theorem inc_touches_two_operands :
    AtMemoryOperand .inc16 (operandCore [0x47, 0x10, 0x20]) ∧
      (groupFF (operandCore [0x47, 0x10, 0x20])).map
          (fun run => (run.2.cpu.regs.ip, run.2.bus.mem.readU16 0x10, run.2.bus.mem.readU16 0x20)) =
        .ok (3, 0, 1) ∧
      ¬ RmwInstr.inc16.shape.TouchesOneOperand RmwInstr.inc16.arm
        (operandCore [0x47, 0x10, 0x20]) := by
  refine ⟨atMemoryOperand_inc, by decide +kernel, ?_⟩
  rw [touches_arm_iff atMemoryOperand_inc]
  simp only [RmwInstr.shape]
  rw [unary_touches_iff atMemoryOperand_inc.memory]
  decide +kernel

end Kita98
