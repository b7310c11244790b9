import Kita98.OperandAddress
import Kita98.Dispatch

/-!
# What an instruction can do

Nearly every arm that the dispatcher reaches is tame: the halt flag stays as
it is, IP stays an offset of the segment, the reserved flag stays set, and the
only fault is one of checked arithmetic.  The exceptions are `HLT`, the taken
near Jcc, `IRET`, and the far CALL and JMP of group FF, which decode an address
without a look at the mode of the operand.  The arms are followed once, for any
relation that tame updates keep to.
-/

namespace Kita98

open WordBits Kita98.Core Exec

/-! ## Tame updates of the registers -/

/-- IP is an offset of the code segment. -/
def Regs.InSegment (regs : Regs) : Prop := regs.ip.toNat < 2 ^ 16

/-- Bit 1 of the flags, always set in real hardware. -/
def Regs.reserved (regs : Regs) : Bool := regs.flags.getLsbD 1

class TameRegs (f : Regs → Regs) : Prop where
  inSegment : ∀ regs, regs.InSegment → (f regs).InSegment
  reserved : ∀ regs, regs.reserved = true → (f regs).reserved = true

namespace TameRegs

variable (f : Regs → Regs) [hf : TameRegs f]

instance same : TameRegs fun regs => regs := ⟨fun _ h => h, fun _ h => h⟩

theorem behind
    {f : Regs → Regs} (g : Regs → Regs → Regs) [hf : TameRegs f]
    (hip : ∀ regs old, (g old regs).ip = regs.ip)
    (hflag : ∀ regs old, (g old regs).reserved = regs.reserved) :
    TameRegs fun regs => g regs (f regs) := by
  constructor
  · intro regs hin
    have hbefore := hf.inSegment regs hin
    unfold Regs.InSegment at hbefore ⊢
    rw [hip]
    exact hbefore
  · intro regs hset
    rw [hflag]
    exact hf.reserved regs hset

instance set16 (r : Reg16) (v : Regs → U16) : TameRegs fun regs => (f regs).set16 r (v regs) :=
  behind (fun old regs => regs.set16 r (v old)) (fun _ _ => rfl) fun _ _ => rfl

instance set32 (r : Reg16) (v : Regs → U32) : TameRegs fun regs => (f regs).set32 r (v regs) :=
  behind (fun old regs => regs.set32 r (v old)) (fun _ _ => rfl) fun _ _ => rfl

instance set8 (r : Reg8) (v : Regs → U8) : TameRegs fun regs => (f regs).set8 r (v regs) := by
  apply behind fun old regs => regs.set8 r (v old)
  · intro regs old
    exact Regs.set8_ip _ _ _
  · intro regs old
    unfold Regs.reserved
    rw [Regs.set8_flags]

instance setSeg (s : SegReg) (v : Regs → U16) :
    TameRegs fun regs => (f regs).setSeg s (v regs) :=
  behind (fun old regs => regs.setSeg s (v old)) (fun _ _ => rfl) fun _ _ => rfl

/-! ### Flags -/

theorem reserved_setFlag {mask : U32} (hmask : mask.getLsbD 1 = false) (regs : Regs) (v : Bool) :
    (regs.setFlag mask v).reserved = regs.reserved := by
  have hbit : mask[1] = false := by simpa using hmask
  unfold Regs.reserved Regs.setFlag setMask
  cases v <;> simp [hbit]

theorem setFlag {mask : U32} (hmask : mask.getLsbD 1 = false) (v : Regs → Bool) :
    TameRegs fun regs => (f regs).setFlag mask (v regs) := by
  apply behind fun old regs => regs.setFlag mask (v old)
  · intro regs old
    rfl
  · intro regs old
    exact reserved_setFlag hmask regs (v old)

variable (v : Regs → Bool)

instance setCf : TameRegs fun regs => (f regs).setCf (v regs) := setFlag f (by decide) v

instance setZf : TameRegs fun regs => (f regs).setZf (v regs) := setFlag f (by decide) v

instance setSf : TameRegs fun regs => (f regs).setSf (v regs) := setFlag f (by decide) v

instance setOf : TameRegs fun regs => (f regs).setOf (v regs) := setFlag f (by decide) v

instance setDf : TameRegs fun regs => (f regs).setDf (v regs) := setFlag f (by decide) v

instance setPf : TameRegs fun regs => (f regs).setPf (v regs) := setFlag f (by decide) v

instance setAf : TameRegs fun regs => (f regs).setAf (v regs) := setFlag f (by decide) v

instance setIf : TameRegs fun regs => (f regs).setFlag Flags.IF (v regs) :=
  setFlag f (by decide) v

instance setTf : TameRegs fun regs => (f regs).setFlag Flags.TF (v regs) :=
  setFlag f (by decide) v

instance updateFlagsU8 (r : U8) : TameRegs fun regs => (f regs).updateFlagsU8 r := by
  unfold Regs.updateFlagsU8
  infer_instance

instance updateFlagsU16 (r : U16) : TameRegs fun regs => (f regs).updateFlagsU16 r := by
  unfold Regs.updateFlagsU16
  infer_instance

instance updateAdd8 (a b r : U8) : TameRegs fun regs => (f regs).updateAdd8 a b r := by
  unfold Regs.updateAdd8
  infer_instance

instance updateAdd16 (a b r : U16) : TameRegs fun regs => (f regs).updateAdd16 a b r := by
  unfold Regs.updateAdd16
  infer_instance

instance updateSub8 (a b r : U8) : TameRegs fun regs => (f regs).updateSub8 a b r := by
  unfold Regs.updateSub8
  infer_instance

instance updateSub16 (a b r : U16) : TameRegs fun regs => (f regs).updateSub16 a b r := by
  unfold Regs.updateSub16
  infer_instance

instance logicFlags8 (r : U8) : TameRegs fun regs => (f regs).logicFlags8 r := by
  unfold Regs.logicFlags8
  infer_instance

instance logicFlags16 (r : U16) : TameRegs fun regs => (f regs).logicFlags16 r := by
  unfold Regs.logicFlags16
  infer_instance

instance setCfBit (base : U16) (bit : ℕ) : TameRegs fun regs => (f regs).setCfBit base bit := by
  unfold Regs.setCfBit
  infer_instance

/-! ### Jumps -/

theorem inSegment_jumpRel (regs : Regs) (rel : U32) : (regs.jumpRel rel).InSegment := by
  unfold Regs.InSegment Regs.jumpRel
  rw [toNat_and_mask]
  exact Nat.mod_lt _ (by decide)

theorem inSegment_jumpTo (regs : Regs) (offset : U16) : (regs.jumpTo offset).InSegment := by
  unfold Regs.InSegment Regs.jumpTo
  rw [BitVec.toNat_setWidth]
  have hoffset := offset.isLt
  omega

instance jumpRel (rel : U32) : TameRegs fun regs => (f regs).jumpRel rel :=
  ⟨fun _ _ => inSegment_jumpRel _ rel, hf.reserved⟩

instance jumpTo (offset : U16) : TameRegs fun regs => (f regs).jumpTo offset :=
  ⟨fun _ _ => inSegment_jumpTo _ offset, hf.reserved⟩

instance jumpFar (segment offset : U16) : TameRegs fun regs => (f regs).jumpFar segment offset := by
  unfold Regs.jumpFar
  infer_instance

end TameRegs

theorem inSegment_nextIp (regs : Regs) : ({ regs with ip := nextIp regs.ip } : Regs).InSegment := by
  unfold Regs.InSegment
  rw [nextIp_toNat]
  exact Nat.mod_lt _ (by decide)

instance : TameRegs fun regs => { regs with ip := nextIp regs.ip } :=
  ⟨fun _ _ => inSegment_nextIp _, fun _ hset => hset⟩

/-! ## Tame computations -/

def Core.halted (core : Core) : Bool := core.cpu.halted

structure Tame (core next : Core) : Prop where
  halted : next.halted = core.halted
  inSegment : core.cpu.regs.InSegment → next.cpu.regs.InSegment
  reserved : core.cpu.regs.reserved = true → next.cpu.regs.reserved = true

theorem Tame.refl (core : Core) : Tame core core := ⟨rfl, fun h => h, fun h => h⟩

theorem Tame.trans {core mid next : Core} (hfirst : Tame core mid) (hrest : Tame mid next) :
    Tame core next := by
  constructor
  · exact hrest.halted.trans hfirst.halted
  · intro hin
    exact hrest.inSegment (hfirst.inSegment hin)
  · intro hset
    exact hrest.reserved (hfirst.reserved hset)

instance : IsPreorder Core Tame where
  refl := Tame.refl
  trans := fun _ _ _ => Tame.trans

theorem tame_of_same {core next : Core} (hhalted : next.halted = core.halted)
    (hregs : next.cpu.regs = core.cpu.regs) : Tame core next := by
  constructor
  · exact hhalted
  · intro hin
    rw [hregs]
    exact hin
  · intro hset
    rw [hregs]
    exact hset

theorem tame_setRegs (f : Regs → Regs) [hf : TameRegs f] (core : Core) :
    Tame core (core.setRegs (f core.cpu.regs)) :=
  ⟨rfl, hf.inSegment _, hf.reserved _⟩

/-! ## Frames -/

/-- Printing and a redraw, which leave the rest of the video controller alone. -/
class TameVideo (f : VideoController → VideoController) : Prop where
  prints : ∀ video, ∃ text dirty,
    f video = { video with console := video.console ++ text, dirty := dirty }

/-- A relation that tame updates of the registers keep to, and every change that
the arms and the services make to the rest of the machine. -/
class IsFrame (R : Core → Core → Prop) : Prop extends IsPreorder Core R where
  setRegs : ∀ (f : Regs → Regs) [TameRegs f] (core : Core),
    R core (core.setRegs (f core.cpu.regs))
  setPrefixes : ∀ (core : Core) (prefixes : PrefixState),
    R core { core with cpu := { core.cpu with prefixes := prefixes } }
  setRanges : ∀ (core : Core) (ranges : List (ℕ × ℕ)),
    R core { core with cpu := { core.cpu with validRanges := ranges } }
  setMem : ∀ (core : Core) (mem : Memory), R core (core.setMem mem)
  readPort : ∀ (core : Core) (port : U16),
    R core { core with bus := (core.bus.ioReadU8 port).2 }
  writePort : ∀ (core : Core) (port : U16) (val : U8),
    R core { core with bus := core.bus.ioWriteU8 port val }
  setVideo : ∀ (f : VideoController → VideoController) [TameVideo f] (core : Core),
    R core { core with bus := { core.bus with video := f core.bus.video } }

/-- A relation that does not look at the bus, the prefix state or the ranges of
code. -/
theorem IsFrame.of_others
    {R : Core → Core → Prop} [IsPreorder Core R]
    (setRegs : ∀ (f : Regs → Regs) [TameRegs f] (core : Core),
      R core (core.setRegs (f core.cpu.regs)))
    (others : ∀ (core : Core) (prefixes : PrefixState) (ranges : List (ℕ × ℕ)) (bus : Bus),
      R core ⟨{ core.cpu with prefixes := prefixes, validRanges := ranges }, bus⟩) :
    IsFrame R where
  setRegs := setRegs
  setPrefixes := fun core prefixes => others core prefixes core.cpu.validRanges core.bus
  setRanges := fun core ranges => others core core.cpu.prefixes ranges core.bus
  setMem := fun core _ => others core core.cpu.prefixes core.cpu.validRanges _
  readPort := fun core _ => others core core.cpu.prefixes core.cpu.validRanges _
  writePort := fun core _ _ => others core core.cpu.prefixes core.cpu.validRanges _
  setVideo := fun _ _ core => others core core.cpu.prefixes core.cpu.validRanges _

instance : IsFrame Tame :=
  .of_others (fun f _ core => tame_setRegs f core) fun _ _ _ _ => tame_of_same rfl rfl

theorem obeys_of_returns
    {R : Core → Core → Prop} {P : Fault → Prop} {α : Type} {routine : Routine α}
    {result : Core → α} {last : Core → Core}
    (hrun : ∀ core, routine core = .ok (result core, last core))
    (hkept : ∀ core, R core (last core)) : Obeys R P routine := by
  constructor
  · intro core a next hok
    rw [hrun] at hok
    cases hok
    exact hkept core
  · intro core e herror
    rw [hrun] at herror
    cases herror

variable {R : Core → Core → Prop} [frame : IsFrame R]

section Primitives

variable {α : Type} {P : Fault → Prop}

instance (f : Regs → α) : Obeys R P (getRegs f) := Obeys.read _

instance (f : Regs → Regs) [TameRegs f] : Obeys R P (modRegs f) :=
  .of_update (frame.setRegs f)

instance (f : Memory → α) : Obeys R P (getMem f) := Obeys.read _

instance (f : Memory → Memory) : Obeys R P (modMem f) :=
  .of_update fun _ => frame.setMem _ _

instance : Obeys R P getPrefixes := Obeys.read _

instance (f : PrefixState → PrefixState) : Obeys R P (modPrefixes f) :=
  .of_update fun _ => frame.setPrefixes _ _

instance (port : U16) (val : U8) : Obeys R P (ioWrite port val) :=
  .of_update fun _ => frame.writePort _ _ _

instance (port : U16) : Obeys R P (ioRead port) :=
  obeys_of_returns (fun _ => rfl) fun _ => frame.readPort _ _

instance : Obeys R P fetchU8 :=
  obeys_of_returns fetchU8_apply (frame.setRegs fun regs => { regs with ip := nextIp regs.ip })

instance : Obeys R P fetchU16 := by
  unfold fetchU16
  infer_instance

instance : Obeys R P fetchU32 := by
  unfold fetchU32
  infer_instance

instance : Obeys R P pop16 :=
  obeys_of_returns (fun _ => rfl)
    (frame.setRegs fun regs => regs.set16 .SP (regs.get16 .SP + 2))

instance (val : U16) : Obeys R P (push16 val) := by
  apply obeys_of_returns fun _ => rfl
  intro core
  exact IsTrans.trans _ _ _
    (frame.setRegs (fun regs => regs.set16 .SP (regs.get16 .SP - 2)) core)
    (frame.setMem _ _)

end Primitives

/-! ## Operands -/

section Operands

variable (modrm : ModRm) {P : Fault → Prop}

instance : Obeys R P fetchModrm := by
  unfold fetchModrm
  infer_instance

/-- Without an address of its own, a register operand is no operand of
`decode_ea_16`. -/
instance : Obeys R (· = .unreachable) (decodeEa16 modrm) := by
  unfold decodeEa16
  split
  · infer_instance
  · infer_instance
  · infer_instance
  · have hfail : Obeys R (· = .unreachable)
        (Exec.fail .unreachable : Routine (SegReg × U16)) := .of_fail rfl
    infer_instance

instance (mode : BitVec 2) : Obeys R P (sibOffset mode) := by
  unfold sibOffset
  infer_instance

instance : Obeys R P (baseOffset32 modrm) := by
  unfold baseOffset32
  infer_instance

instance (mode : BitVec 2) : Obeys R P (displacement32 mode) := by
  unfold displacement32
  split <;> infer_instance

instance : Obeys R P (decodeEa32 modrm) := by
  unfold decodeEa32
  exact Obeys.bind _ _

instance : Obeys R (· = .unreachable) (decodeEa modrm) := by
  unfold decodeEa
  infer_instance

instance : Obeys R (· = .unreachable) (eaFromModrm modrm) := by
  unfold eaFromModrm
  exact Obeys.bind _ _

theorem decodeEa_obeys {modrm : ModRm} (hmode : modrm.mode ≠ 3) :
    Obeys R P (decodeEa modrm) := by
  have htame : Obeys R (· = .unreachable) (decodeEa modrm) := inferInstance
  constructor
  · exact htame.returns
  · intro core fault hrun
    rcases decodeEa_fetches hmode core with ⟨n, -, place, hdecode⟩
    rw [hdecode] at hrun
    cases hrun

theorem eaFromModrm_obeys {modrm : ModRm} (hmode : modrm.mode ≠ 3) :
    Obeys R P (eaFromModrm modrm) := by
  have hdecode : Obeys R P (decodeEa modrm) := decodeEa_obeys hmode
  unfold eaFromModrm
  exact Obeys.bind _ _

theorem operand_obeys
    {α : Type} {inRegister : Routine α} {inMemory : U32 → Routine α}
    [Obeys R P inRegister] [∀ ea, Obeys R P (inMemory ea)] :
    Obeys R P (if modrm.mode = 3 then inRegister else eaFromModrm modrm >>= inMemory) := by
  split
  · infer_instance
  · rename_i hmode
    have hea : Obeys R P (eaFromModrm modrm) := eaFromModrm_obeys hmode
    infer_instance

instance : Obeys R P (readModrmU8 modrm) := operand_obeys modrm

instance : Obeys R P (readModrmU16 modrm) := operand_obeys modrm

instance : Obeys R P (readModrmU32 modrm) := operand_obeys modrm

instance (val : U8) : Obeys R P (writeModrmU8 modrm val) := operand_obeys modrm

instance (val : U16) : Obeys R P (writeModrmU16 modrm val) := operand_obeys modrm

instance : Obeys R P (consumeEa modrm) := by
  unfold consumeEa
  split
  · infer_instance
  · rename_i hmode
    have hdecode : Obeys R P (decodeEa modrm) := decodeEa_obeys hmode
    infer_instance

end Operands

/-! ## The arms -/

instance (modrm : ModRm) (imm : U8) {P : Fault → Prop} : Obeys R P (group1U8 modrm imm) := by
  unfold group1U8
  split <;> infer_instance

instance (modrm : ModRm) (imm : U16) {P : Fault → Prop} : Obeys R P (group1U16 modrm imm) := by
  unfold group1U16
  split <;> infer_instance

instance : Obeys R (· = .overflow) (Exec.fail .overflow : Routine StepResult) := .of_fail rfl

instance : Obeys R (· = .overflow) group3Rm8 := by
  unfold group3Rm8 testRm8 negRm8 notRm8 mulRm8 imulRm8 divRm8 idivRm8
  apply Obeys.seq
  intro modrm
  split <;> infer_instance

instance : Obeys R (· = .overflow) group3Rm16 := by
  unfold group3Rm16 testRm16 negRm16 notRm16 mulRm16 imulRm16 divRm16 idivRm16
  apply Obeys.seq
  intro modrm
  split <;> infer_instance

theorem aluArm_obeys {opcode : U8} {routine : Routine StepResult}
    (harm : aluArm opcode = some routine) : Obeys R (· = .overflow) routine := by
  unfold aluArm at harm
  split at harm <;> cases harm
  · unfold group1Rm8Imm8
    infer_instance
  · unfold group1Rm8Imm8
    infer_instance
  · unfold group1Rm16Imm16
    infer_instance
  · unfold group1Rm16Imm8
    infer_instance
  · infer_instance
  · infer_instance

section Flow

variable {P : Fault → Prop}

instance : Obeys R P decrementCx := by
  unfold decrementCx
  infer_instance

instance (opcode : U8) : Obeys R P (loopCond opcode) := by
  unfold loopCond
  split <;> infer_instance

instance : Obeys R P pushFarReturn := by
  unfold pushFarReturn
  infer_instance

instance (modrm : ModRm) : Obeys R (· = .unreachable) (readFarPointer modrm) := by
  unfold readFarPointer
  infer_instance

/-- Group FF fails only where a far pointer is read. -/
instance : Obeys R (· = .unreachable) groupFF := by
  unfold groupFF incRm16 decRm16 callRm16 callFarMem jmpRm16 jmpFarMem pushRm16
  apply Obeys.seq
  intro modrm
  split
  · infer_instance
  · infer_instance
  · infer_instance
  · exact Obeys.bind _ _
  · infer_instance
  · exact Obeys.bind _ _
  · infer_instance
  · infer_instance

theorem flowArm_obeys {opcode : U8} {routine : Routine StepResult}
    (harm : flowArm opcode = some routine) (hiret : opcode ≠ 0xCF) (hgroup : opcode ≠ 0xFF) :
    Obeys R P routine := by
  unfold flowArm at harm
  split at harm
  · cases harm
    unfold jccShort
    infer_instance
  · split at harm
    · cases harm
      unfold loopRel8
      infer_instance
    · split at harm <;> cases harm
      · unfold jmpRel8
        infer_instance
      · unfold jmpRel16
        infer_instance
      · unfold jmpFarPtr
        infer_instance
      · unfold callRel16
        infer_instance
      · unfold callFarPtr
        infer_instance
      · unfold retNearImm retNearRelease
        infer_instance
      · unfold retNear
        infer_instance
      · unfold retFarImm
        infer_instance
      · unfold retFar
        infer_instance
      · exact absurd rfl hiret
      · exact absurd rfl hgroup

end Flow

/-! ## Two-byte opcodes -/

section Extended

variable {P : Fault → Prop}

instance : Obeys R P group6 := by
  unfold group6
  apply Obeys.seq
  intro modrm
  split <;> infer_instance

instance (result : U16 → ℕ → U16) : Obeys R P (bitModify result) := by
  unfold bitModify
  infer_instance

instance (scan : U16 → U16) : Obeys R P (bitScan scan) := by
  unfold bitScan
  infer_instance

instance (modrm : ModRm) (src : U16) (cnt : ℕ) :
    Obeys R (· = .overflow) (shldCount modrm src cnt) := by
  unfold shldCount
  infer_instance

instance (modrm : ModRm) (src : U16) (cnt : ℕ) :
    Obeys R (· = .overflow) (shrdCount modrm src cnt) := by
  unfold shrdCount
  infer_instance

variable (shift : ModRm → U16 → ℕ → Routine StepResult)
  [∀ modrm src cnt, Obeys R P (shift modrm src cnt)]

instance : Obeys R P (doubleShiftImm shift) := by
  unfold doubleShiftImm
  infer_instance

instance : Obeys R P (doubleShiftCl shift) := by
  unfold doubleShiftCl
  infer_instance

instance (source : ModRm → Routine U32) [∀ modrm, Obeys R P (source modrm)] :
    Obeys R P (moveExtended source) := by
  unfold moveExtended
  infer_instance

end Extended

/-- The displacement of a near Jcc at IP, as 32 bits. -/
def nearRel (core : Core) : U32 :=
  let ip := core.cpu.regs.ip
  let low := joinBytes (core.codeByte ip) (core.codeByte (skipIp 1 ip))
  if core.cpu.prefixes.operand32 then
    low.setWidth 32 |||
      ((joinBytes (core.codeByte (skipIp 2 ip)) (core.codeByte (skipIp 3 ip))).setWidth 32 <<< 16)
  else low.signExtend 32

def nearSize (prefixes : PrefixState) : ℕ := if prefixes.operand32 then 4 else 2

theorem fetchU32_apply (core : Core) :
    fetchU32 core =
      .ok ((joinBytes (core.codeByte core.cpu.regs.ip)
            (core.codeByte (skipIp 1 core.cpu.regs.ip))).setWidth 32 |||
          ((joinBytes (core.codeByte (skipIp 2 core.cpu.regs.ip))
            (core.codeByte (skipIp 3 core.cpu.regs.ip))).setWidth 32 <<< 16),
        core.skip 4) := rfl

theorem checkCond_congr {regs regs' : Regs} (hflags : regs.flags = regs'.flags)
    (cond : BitVec 4) : regs.checkCond cond = regs'.checkCond cond := by
  unfold Regs.checkCond Regs.getCf Regs.getZf Regs.getSf Regs.getOf Regs.getPf Regs.flag
  rw [hflags]

theorem jccNear_apply (opcode : U8) (core : Core) :
    jccNear opcode core = .ok (.proceed,
      if core.cpu.regs.checkCond (opcode.setWidth 4) then
        core.setIp (skipIp (nearSize core.cpu.prefixes) core.cpu.regs.ip + nearRel core)
      else core.skip (nearSize core.cpu.prefixes)) := by
  have hbranch : ∀ (rel : U32) (fetched : Core), fetched.cpu.regs.flags = core.cpu.regs.flags →
      (do
        let taken ← getRegs fun regs => regs.checkCond (opcode.setWidth 4)
        if taken then
          modRegs fun regs => { regs with ip := regs.ip + rel }
          return .proceed
        else return .proceed : Routine StepResult) fetched = .ok (.proceed,
          if core.cpu.regs.checkCond (opcode.setWidth 4) then
            fetched.setIp (fetched.cpu.regs.ip + rel)
          else fetched) := by
    intro rel fetched hflags
    rw [bind_ok (getRegs_apply fetched _), checkCond_congr hflags]
    cases core.cpu.regs.checkCond (opcode.setWidth 4) <;> rfl
  unfold jccNear nearRel nearSize
  rw [bind_ok (getPrefixes_apply core)]
  cases core.cpu.prefixes.operand32 with
  | true =>
      simp only [if_true]
      rw [bind_ok (fetchU32_apply core)]
      exact hbranch _ _ rfl
  | false =>
      simp only [Bool.false_eq_true, if_false]
      rw [bind_ok (fetchU16_apply core), bind_ok (pure_apply _ _)]
      exact hbranch _ _ rfl

theorem extendedArm_obeys {opcode : U8} (hjcc : ¬ (0x80 ≤ opcode ∧ opcode ≤ 0x8F)) :
    Obeys R (· = .overflow) (extendedArm opcode) := by
  unfold extendedArm setcc movControl group7 larLsl readCounter imulRegRm pushSeg popSeg cpuid bt
    bts btr btc group8 bsf bsr shldImm shldCl shrdImm shrdCl movzxRm8 movzxRm16 movsxRm8
    movsxRm16 xaddRm8 xaddRm16
  rw [if_neg hjcc]
  split
  · infer_instance
  · split
    · infer_instance
    · split <;> infer_instance

/-! ## Flags, interrupts and ports -/

section Ports

variable {P : Fault → Prop} (portOf : Routine U16) [Obeys R P portOf]

instance : Obeys R P (inByte portOf) := by
  unfold inByte
  infer_instance

instance : Obeys R P (inWord portOf) := by
  unfold inWord
  infer_instance

instance : Obeys R P (outByte portOf) := by
  unfold outByte
  infer_instance

instance : Obeys R P (outWord portOf) := by
  unfold outWord
  infer_instance

instance : Obeys R P immPort := by
  unfold immPort
  infer_instance

instance : Obeys R P dxPort := by
  unfold dxPort
  infer_instance

theorem miscArm_obeys {opcode : U8} {routine : Routine StepResult}
    (harm : miscArm opcode = some routine) (hhlt : opcode ≠ 0xF4) (htwo : opcode ≠ 0x0F) :
    Obeys R P routine := by
  unfold miscArm fpuStub changeRegs skipImm8 at harm
  split at harm
  · cases harm
    infer_instance
  · split at harm <;> cases harm
    · exact absurd rfl htwo
    · infer_instance
    · exact absurd rfl hhlt
    · unfold intImm8
      infer_instance
    · infer_instance
    · unfold salc
      infer_instance
    all_goals first
      | infer_instance
      | (unfold movRm16Seg; infer_instance)
      | (unfold movSegRm16; infer_instance)

end Ports

/-! ## The dispatcher -/

inductive DispatchEffect (opcode : U8) (core : Core) (result : StepResult) (next : Core) : Prop
  | tame (htame : Tame core next)
  | returns (hopcode : opcode = 0xCF) (hrun : iret core = .ok (result, next))
  | halts (hopcode : opcode = 0xF4) (hrun : hlt core = .ok (result, next))
  | branches {second : U8} {fetched : Core} (hopcode : opcode = 0x0F)
      (hfetch : fetchU8 core = .ok (second, fetched)) (hjcc : 0x80 ≤ second ∧ second ≤ 0x8F)
      (hrun : jccNear second fetched = .ok (result, next))

/-- A fault is one of arithmetic, or group FF fails. -/
def DispatchFault (opcode : U8) (core : Core) (fault : Fault) : Prop :=
  fault = .overflow ∨ (opcode = 0xFF ∧ groupFF core = .error fault)

/-- A dispatch stays in every frame, but for four arms. -/
theorem dispatch_cases
    {motive : Prop} {opcode : U8} {core next : Core} {result : StepResult}
    (hrun : dispatch opcode core = .ok (result, next)) (kept : R core next → motive)
    (returns : opcode = 0xCF → iret core = .ok (result, next) → motive)
    (halts : opcode = 0xF4 → hlt core = .ok (result, next) → motive)
    (branches : ∀ {second fetched}, opcode = 0x0F → fetchU8 core = .ok (second, fetched) →
      0x80 ≤ second ∧ second ≤ 0x8F → jccNear second fetched = .ok (result, next) → motive) :
    motive := by
  unfold dispatch dispatchAlu at hrun
  cases halu : aluArm opcode with
  | some routine =>
      rw [halu] at hrun
      exact kept ((aluArm_obeys halu).returns hrun)
  | none =>
      rw [halu] at hrun
      unfold dispatchFlow at hrun
      cases hflow : flowArm opcode with
      | some routine =>
          rw [hflow] at hrun
          by_cases hiret : opcode = 0xCF
          · subst hiret
            cases hflow
            exact returns rfl hrun
          · by_cases hgroup : opcode = 0xFF
            · subst hgroup
              cases hflow
              have hobeys : Obeys R (· = .unreachable) groupFF := inferInstance
              exact kept (hobeys.returns hrun)
            · have hobeys : Obeys R (fun _ => True) routine := flowArm_obeys hflow hiret hgroup
              exact kept (hobeys.returns hrun)
      | none =>
          rw [hflow] at hrun
          unfold dispatchMisc at hrun
          cases hmisc : miscArm opcode with
          | none =>
              rw [hmisc] at hrun
              cases hrun
              exact kept (refl core)
          | some routine =>
              rw [hmisc] at hrun
              by_cases hhlt : opcode = 0xF4
              · subst hhlt
                cases hmisc
                exact halts rfl hrun
              · by_cases htwo : opcode = 0x0F
                · subst htwo
                  cases hmisc
                  rcases bind_eq_ok hrun with ⟨second, fetched, hfetch, hrest⟩
                  by_cases hjcc : 0x80 ≤ second ∧ second ≤ 0x8F
                  · unfold extendedArm at hrest
                    rw [if_pos hjcc] at hrest
                    exact branches rfl hfetch hjcc hrest
                  · have hfirst : Obeys R (fun _ => True) fetchU8 := inferInstance
                    exact kept (IsTrans.trans _ _ _ (hfirst.returns hfetch)
                      ((extendedArm_obeys hjcc).returns hrest))
                · have hobeys : Obeys R (fun _ => True) routine := miscArm_obeys hmisc hhlt htwo
                  exact kept (hobeys.returns hrun)

theorem dispatch_effect
    {opcode : U8} {core next : Core} {result : StepResult}
    (hrun : dispatch opcode core = .ok (result, next)) :
    DispatchEffect opcode core result next :=
  dispatch_cases hrun .tame .returns .halts .branches

theorem dispatch0f_fails {core : Core} {fault : Fault} (hrun : dispatch0f core = .error fault) :
    fault = .overflow := by
  rcases bind_eq_error hrun with hfetch | ⟨second, fetched, -, hrest⟩
  · cases hfetch
  · by_cases hjcc : 0x80 ≤ second ∧ second ≤ 0x8F
    · unfold extendedArm at hrest
      rw [if_pos hjcc, jccNear_apply] at hrest
      cases hrest
    · have hobeys : Obeys Tame (· = .overflow) (extendedArm second) := extendedArm_obeys hjcc
      exact hobeys.fails hrest

theorem dispatch_fails
    {opcode : U8} {core : Core} {fault : Fault} (hrun : dispatch opcode core = .error fault) :
    DispatchFault opcode core fault := by
  unfold dispatch dispatchAlu at hrun
  cases halu : aluArm opcode with
  | some routine =>
      rw [halu] at hrun
      have hobeys : Obeys Tame (· = .overflow) routine := aluArm_obeys halu
      exact .inl (hobeys.fails hrun)
  | none =>
      rw [halu] at hrun
      unfold dispatchFlow at hrun
      cases hflow : flowArm opcode with
      | some routine =>
          rw [hflow] at hrun
          by_cases hiret : opcode = 0xCF
          · subst hiret
            cases hflow
            cases hrun
          · by_cases hgroup : opcode = 0xFF
            · subst hgroup
              cases hflow
              exact .inr ⟨rfl, hrun⟩
            · have hobeys : Obeys Tame (· = .overflow) routine :=
                flowArm_obeys hflow hiret hgroup
              exact .inl (hobeys.fails hrun)
      | none =>
          rw [hflow] at hrun
          unfold dispatchMisc at hrun
          cases hmisc : miscArm opcode with
          | none =>
              rw [hmisc] at hrun
              cases hrun
          | some routine =>
              rw [hmisc] at hrun
              by_cases hhlt : opcode = 0xF4
              · subst hhlt
                cases hmisc
                cases hrun
              · by_cases htwo : opcode = 0x0F
                · subst htwo
                  cases hmisc
                  exact .inl (dispatch0f_fails hrun)
                · have hobeys : Obeys Tame (· = .overflow) routine :=
                    miscArm_obeys hmisc hhlt htwo
                  exact .inl (hobeys.fails hrun)

end Kita98
