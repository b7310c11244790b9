import Kita98.Bus

/-!
# Interpreter state

The methods of the interpreter are state-passing computations over the
interpreter and the bus.  Arithmetic is checked, as in a debug build: an
overflowing subtraction, shift or division is a fault of the host, not of the
guest.
-/

namespace Kita98

open WordBits

inductive StepResult where
  /-- `Continue` -/
  | proceed
  | halt
  | interrupt (num : U8)
  | unimplemented (op : U8)
  deriving DecidableEq, Repr

structure PrefixState where
  operand32 : Bool
  address32 : Bool
  segOverride : Option SegReg
  deriving DecidableEq, Repr

/-- `PrefixState::default` -/
def PrefixState.none : PrefixState := ⟨false, false, .none⟩

structure Interpreter where
  regs : Regs
  halted : Bool
  instructionsExecuted : ℕ
  prefixes : PrefixState
  validRanges : List (ℕ × ℕ)

def Interpreter.new : Interpreter := ⟨Regs.new, false, 0, PrefixState.none, []⟩

/-- The two objects an interpreter method works on: `self` and `bus`. -/
structure Core where
  cpu : Interpreter
  bus : Bus

/-- How the host fails: `unreachable!()`, a checked arithmetic operation, a
slice out of bounds, or a loop that never ends. -/
inductive Fault where
  | unreachable
  | overflow
  | bounds
  | hang
  deriving DecidableEq, Repr

abbrev Routine (α : Type) := Exec Fault Core α

namespace Core

def regs (core : Core) : Regs := core.cpu.regs

def setRegs (core : Core) (regs : Regs) : Core :=
  { core with cpu := { core.cpu with regs := regs } }

def setIp (core : Core) (ip : U32) : Core :=
  core.setRegs { core.cpu.regs with ip := ip }

def setMem (core : Core) (mem : Memory) : Core :=
  { core with bus := { core.bus with mem := mem } }

@[simp] theorem setRegs_cpu_regs (core : Core) (regs : Regs) :
    (core.setRegs regs).cpu.regs = regs := rfl

@[simp] theorem setRegs_cpu_prefixes (core : Core) (regs : Regs) :
    (core.setRegs regs).cpu.prefixes = core.cpu.prefixes := rfl

@[simp] theorem setRegs_cpu_halted (core : Core) (regs : Regs) :
    (core.setRegs regs).cpu.halted = core.cpu.halted := rfl

@[simp] theorem setRegs_bus (core : Core) (regs : Regs) :
    (core.setRegs regs).bus = core.bus := rfl

@[simp] theorem setRegs_setRegs (core : Core) (regs regs' : Regs) :
    (core.setRegs regs).setRegs regs' = core.setRegs regs' := rfl

@[simp] theorem setIp_cpu_prefixes (core : Core) (ip : U32) :
    (core.setIp ip).cpu.prefixes = core.cpu.prefixes := rfl

@[simp] theorem setIp_bus (core : Core) (ip : U32) :
    (core.setIp ip).bus = core.bus := rfl

@[simp] theorem setIp_setIp (core : Core) (ip ip' : U32) :
    (core.setIp ip).setIp ip' = core.setIp ip' := rfl

@[simp] theorem setMem_cpu (core : Core) (mem : Memory) :
    (core.setMem mem).cpu = core.cpu := rfl

@[simp] theorem setMem_mem (core : Core) (mem : Memory) :
    (core.setMem mem).bus.mem = mem := rfl

def codeByte (core : Core) (ip : U32) : U8 :=
  core.bus.mem.segReadU8 (core.cpu.regs.getSeg .CS) ip

/-- `ip.wrapping_add(1) & 0xFFFF` -/
def nextIp (ip : U32) : U32 := (ip + 1) &&& 0xFFFF#32

@[simp] theorem codeByte_setIp (core : Core) (ip ip' : U32) :
    (core.setIp ip).codeByte ip' = core.codeByte ip' := rfl

@[simp] theorem setIp_ip (core : Core) (ip : U32) :
    (core.setIp ip).cpu.regs.ip = ip := rfl

end Core

open Kita98.Core

/-! ## Access to the state -/

def getRegs {α : Type} (f : Regs → α) : Routine α := Exec.read fun core => f core.cpu.regs

def modRegs (f : Regs → Regs) : Routine Unit :=
  Exec.update fun core => core.setRegs (f core.cpu.regs)

def getMem {α : Type} (f : Memory → α) : Routine α := Exec.read fun core => f core.bus.mem

def modMem (f : Memory → Memory) : Routine Unit :=
  Exec.update fun core => core.setMem (f core.bus.mem)

def getPrefixes : Routine PrefixState := Exec.read fun core => core.cpu.prefixes

def ioRead (port : U16) : Routine U8 := fun core =>
  let (val, bus) := core.bus.ioReadU8 port
  .ok (val, { core with bus := bus })

def ioWrite (port : U16) (val : U8) : Routine Unit :=
  Exec.update fun core => { core with bus := core.bus.ioWriteU8 port val }

/-- A segment register's value and the one the prefix selects in its place. -/
def overriddenSeg (default : SegReg) : Routine U16 :=
  Exec.read fun core =>
    core.cpu.regs.getSeg (core.cpu.prefixes.segOverride.getD default)

/-! ## Instruction fetch -/

def fetchU8 : Routine U8 := fun core =>
  .ok (core.codeByte core.cpu.regs.ip, core.setIp (nextIp core.cpu.regs.ip))

def fetchU16 : Routine U16 := do
  let lo ← fetchU8
  let hi ← fetchU8
  return joinBytes lo hi

def fetchU32 : Routine U32 := do
  let lo ← fetchU16
  let hi ← fetchU16
  return lo.setWidth 32 ||| (hi.setWidth 32 <<< 16)

/-! ## Fetched bytes -/

/-- IP after `n` bytes have been fetched. -/
def skipIp : ℕ → U32 → U32
  | 0, ip => ip
  | n + 1, ip => skipIp n (nextIp ip)

theorem skipIp_add (m n : ℕ) (ip : U32) : skipIp (m + n) ip = skipIp n (skipIp m ip) := by
  induction m generalizing ip with
  | zero => rw [Nat.zero_add]; rfl
  | succ m ih =>
      rw [Nat.succ_add]
      exact ih _

def Core.skip (core : Core) (n : ℕ) : Core := core.setIp (skipIp n core.cpu.regs.ip)

@[simp] theorem Core.skip_bus (core : Core) (n : ℕ) : (core.skip n).bus = core.bus := rfl

@[simp] theorem Core.skip_prefixes (core : Core) (n : ℕ) :
    (core.skip n).cpu.prefixes = core.cpu.prefixes := rfl

theorem Core.skip_skip (core : Core) (m n : ℕ) : (core.skip m).skip n = core.skip (m + n) := by
  unfold Core.skip
  rw [skipIp_add]
  rfl

theorem toNat_and_mask (x : U32) : (x &&& 0xFFFF#32).toNat = x.toNat % 2 ^ 16 := by
  rw [BitVec.toNat_and]
  exact Nat.and_two_pow_sub_one_eq_mod x.toNat 16

theorem nextIp_toNat (ip : U32) : (nextIp ip).toNat = (ip.toNat + 1) % 2 ^ 16 := by
  unfold nextIp
  rw [toNat_and_mask, BitVec.toNat_add]
  have hone : (1 : U32).toNat = 1 := rfl
  rw [hone]
  omega

theorem skipIp_toNat (n : ℕ) (ip : U32) :
    (skipIp (n + 1) ip).toNat = (ip.toNat + (n + 1)) % 2 ^ 16 := by
  induction n generalizing ip with
  | zero => exact nextIp_toNat ip
  | succ n ih =>
      have hstep : skipIp (n + 1 + 1) ip = skipIp (n + 1) (nextIp ip) := rfl
      rw [hstep, ih, nextIp_toNat]
      omega

/-- IP comes back to an offset after whole rounds of the segment. -/
theorem skipIp_eq_iff {n : ℕ} (ip : U32) (hpos : 0 < n) :
    skipIp n ip = ip ↔ ip.toNat < 2 ^ 16 ∧ n % 2 ^ 16 = 0 := by
  rcases Nat.exists_eq_succ_of_ne_zero (Nat.pos_iff_ne_zero.mp hpos) with ⟨m, rfl⟩
  rw [← BitVec.toNat_inj, skipIp_toNat]
  omega

theorem skipIp_ne {n : ℕ} (ip : U32) (hpos : 0 < n) (hsmall : n < 2 ^ 16) :
    skipIp n ip ≠ ip := by
  intro heq
  have hround := ((skipIp_eq_iff ip hpos).mp heq).2
  omega

/-! ## Flag updates -/

namespace Regs

def updateAdd8 (regs : Regs) (a b r : U8) : Regs :=
  let regs := regs.updateFlagsU8 r
  let regs := regs.setCf (a.setWidth 16 + b.setWidth 16 > (0xFF : U16))
  let regs := regs.setAf ((a &&& 0xF) + (b &&& 0xF) > 0xF)
  regs.setOf ((a ^^^ b) &&& 0x80 == 0 && (a ^^^ r) &&& 0x80 != 0)

def updateAdd16 (regs : Regs) (a b r : U16) : Regs :=
  let regs := regs.updateFlagsU16 r
  let regs := regs.setCf (a.setWidth 32 + b.setWidth 32 > (0xFFFF : U32))
  let regs := regs.setAf ((a &&& 0xF) + (b &&& 0xF) > 0xF)
  regs.setOf ((a ^^^ b) &&& 0x8000 == 0 && (a ^^^ r) &&& 0x8000 != 0)

def updateSub8 (regs : Regs) (a b r : U8) : Regs :=
  let regs := regs.updateFlagsU8 r
  let regs := regs.setCf (a < b)
  let regs := regs.setAf (a &&& 0xF < b &&& 0xF)
  regs.setOf ((a ^^^ b) &&& 0x80 != 0 && (a ^^^ r) &&& 0x80 != 0)

def updateSub16 (regs : Regs) (a b r : U16) : Regs :=
  let regs := regs.updateFlagsU16 r
  let regs := regs.setCf (a < b)
  let regs := regs.setAf (a &&& 0xF < b &&& 0xF)
  regs.setOf ((a ^^^ b) &&& 0x8000 != 0 && (a ^^^ r) &&& 0x8000 != 0)

def updateAdd32 (regs : Regs) (a b r : U32) : Regs :=
  let regs := regs.updateFlagsU32 r
  let regs := regs.setCf (r < a)
  regs.setOf ((a ^^^ r) &&& (b ^^^ r) &&& 0x80000000 != 0)

def updateSub32 (regs : Regs) (a b r : U32) : Regs :=
  let regs := regs.updateFlagsU32 r
  let regs := regs.setCf (a < b)
  regs.setOf ((a ^^^ b) &&& (a ^^^ r) &&& 0x80000000 != 0)

def checkCond (regs : Regs) (cond : BitVec 4) : Bool :=
  match cond with
  | 0x0 => regs.getOf
  | 0x1 => !regs.getOf
  | 0x2 => regs.getCf
  | 0x3 => !regs.getCf
  | 0x4 => regs.getZf
  | 0x5 => !regs.getZf
  | 0x6 => regs.getCf || regs.getZf
  | 0x7 => !regs.getCf && !regs.getZf
  | 0x8 => regs.getSf
  | 0x9 => !regs.getSf
  | 0xA => regs.getPf
  | 0xB => !regs.getPf
  | 0xC => regs.getSf != regs.getOf
  | 0xD => regs.getSf == regs.getOf
  | 0xE => regs.getZf || (regs.getSf != regs.getOf)
  | _ => !regs.getZf && (regs.getSf == regs.getOf)

end Regs

/-! ## Equations -/

section Equations

variable (core : Core)

@[simp] theorem getRegs_apply {α : Type} (f : Regs → α) :
    getRegs f core = .ok (f core.cpu.regs, core) := rfl

@[simp] theorem modRegs_apply (f : Regs → Regs) :
    modRegs f core = .ok ((), core.setRegs (f core.cpu.regs)) := rfl

@[simp] theorem getMem_apply {α : Type} (f : Memory → α) :
    getMem f core = .ok (f core.bus.mem, core) := rfl

@[simp] theorem modMem_apply (f : Memory → Memory) :
    modMem f core = .ok ((), core.setMem (f core.bus.mem)) := rfl

@[simp] theorem getPrefixes_apply :
    getPrefixes core = .ok (core.cpu.prefixes, core) := rfl

@[simp] theorem ioWrite_apply (port : U16) (val : U8) :
    ioWrite port val core =
      .ok ((), { core with bus := core.bus.ioWriteU8 port val }) := rfl

@[simp] theorem overriddenSeg_apply (default : SegReg) :
    overriddenSeg default core =
      .ok (core.cpu.regs.getSeg (core.cpu.prefixes.segOverride.getD default), core) := rfl

theorem fetchU8_apply :
    fetchU8 core =
      .ok (core.codeByte core.cpu.regs.ip, core.setIp (nextIp core.cpu.regs.ip)) := rfl

theorem fetchU16_apply :
    fetchU16 core =
      .ok (joinBytes (core.codeByte core.cpu.regs.ip)
          (core.codeByte (nextIp core.cpu.regs.ip)),
        core.setIp (nextIp (nextIp core.cpu.regs.ip))) := rfl

end Equations

end Kita98
