import Kita98.StringElements
import Kita98.Conditions

/-!
# Repeated comparisons

`REPE` and `REPNE` compare element after element.  The loop ends behind the
first one that is different, for `REPE`, or equal, for `REPNE`, and behind the
last one that CX counts if there is none.  The flags are left by the last
comparison.
-/

namespace Kita98

open WordBits Kita98.Core Exec

/-! ## Flags of a comparison -/

theorem Regs.updateSub8_flags (regs : Regs) (a b r : U8) :
    regs.updateSub8 a b r =
      { regs with
        flags := setMasks regs.flags [(Flags.ZF, r == 0), (Flags.SF, r &&& 0x80 != 0),
          (Flags.PF, Regs.evenParity r), (Flags.CF, a < b), (Flags.AF, a &&& 0xF < b &&& 0xF),
          (Flags.OF, (a ^^^ b) &&& 0x80 != 0 && (a ^^^ r) &&& 0x80 != 0)] } := by
  unfold Regs.updateSub8
  rfl

theorem Regs.updateSub16_flags (regs : Regs) (a b r : U16) :
    regs.updateSub16 a b r =
      { regs with
        flags := setMasks regs.flags [(Flags.ZF, r == 0), (Flags.SF, r &&& 0x8000 != 0),
          (Flags.PF, Regs.evenParity (r.setWidth 8)), (Flags.CF, a < b),
          (Flags.AF, a &&& 0xF < b &&& 0xF),
          (Flags.OF, (a ^^^ b) &&& 0x8000 != 0 && (a ^^^ r) &&& 0x8000 != 0)] } := by
  unfold Regs.updateSub16
  rfl

namespace ElementSize

/-- The flags of `a - b`. -/
def compare : (size : ElementSize) → Regs → BitVec size.bits → BitVec size.bits → Regs
  | byte => fun regs a b => regs.updateSub8 a b (a - b)
  | word => fun regs a b => regs.updateSub16 a b (a - b)

variable (size : ElementSize) (regs : Regs) (a b : BitVec size.bits)

theorem compare_flags :
    ∃ z s p c af o : Bool, ∀ regs : Regs,
      size.compare regs a b =
        { regs with
          flags := setMasks regs.flags [(Flags.ZF, z), (Flags.SF, s), (Flags.PF, p),
            (Flags.CF, c), (Flags.AF, af), (Flags.OF, o)] } := by
  cases size with
  | byte => exact ⟨_, _, _, _, _, _, fun regs => regs.updateSub8_flags a b (a - b)⟩
  | word => exact ⟨_, _, _, _, _, _, fun regs => regs.updateSub16_flags a b (a - b)⟩

@[simp] theorem compare_withCounters (cx si di : U16) :
    size.compare (regs.withCounters cx si di) a b =
      (size.compare regs a b).withCounters cx si di := by
  rcases size.compare_flags a b with ⟨z, s, p, c, af, o, hflags⟩
  rw [hflags, hflags]
  rfl

@[simp] theorem compare_getSeg (s : SegReg) :
    (size.compare regs a b).getSeg s = regs.getSeg s := by
  rcases size.compare_flags a b with ⟨z, s, p, c, af, o, hflags⟩
  rw [hflags]
  rfl

@[simp] theorem compare_get16 (r : Reg16) :
    (size.compare regs a b).get16 r = regs.get16 r := by
  rcases size.compare_flags a b with ⟨z, s, p, c, af, o, hflags⟩
  rw [hflags]
  rfl

@[simp] theorem compare_accumulator :
    size.accumulator (size.compare regs a b) = size.accumulator regs := by
  rcases size.compare_flags a b with ⟨z, s, p, c, af, o, hflags⟩
  rw [hflags]
  cases size <;> rfl

@[simp] theorem compare_stride (delta : U16) :
    (size.compare regs a b).stride delta = regs.stride delta := by
  have hdf : (size.compare regs a b).getDf = regs.getDf := by
    rcases size.compare_flags a b with ⟨z, s, p, c, af, o, hflags⟩
    rw [hflags]
    simp (disch := decide) [Regs.getDf, Regs.flag, setMasks, testMask_setMask_of_disjoint]
  unfold Regs.stride
  rw [hdf]

/-- A comparison sets all the flags that one before it has set. -/
@[simp] theorem compare_compare (a' b' : BitVec size.bits) :
    size.compare (size.compare regs a b) a' b' = size.compare regs a' b' := by
  rcases size.compare_flags a b with ⟨z, s, p, c, af, o, hfirst⟩
  rcases size.compare_flags a' b' with ⟨z', s', p', c', af', o', hlast⟩
  rw [hlast, hlast, hfirst, setMasks_setMasks]
  simp

theorem compare_zf : (size.compare regs a b).getZf = decide (a = b) := by
  have hzero : ∀ {w : ℕ} (x y : BitVec w), (x - y == 0) = decide (x = y) := by
    intro w x y
    rw [beq_eq_decide, decide_eq_decide]
    exact sub_eq_zero
  cases size with
  | byte => exact (congrArg Status.zf (status_updateSub8 regs a b)).trans (hzero a b)
  | word => exact (congrArg Status.zf (status_updateSub16 regs a b)).trans (hzero a b)

end ElementSize

/-! ## The comparing instructions -/

inductive SearchInstr where
  | scas
  | cmps
  deriving DecidableEq, Repr

namespace SearchInstr

def opcode : SearchInstr → ElementSize → U8
  | scas, .byte => 0xAE
  | scas, .word => 0xAF
  | cmps, .byte => 0xA6
  | cmps, .word => 0xA7

def body : SearchInstr → ElementSize → Routine Unit
  | scas, .byte => scasb
  | scas, .word => scasw
  | cmps, .byte => cmpsb
  | cmps, .word => cmpsw

theorem stringOp_opcode (instr : SearchInstr) (size : ElementSize) :
    stringOp (instr.opcode size) = some (instr.body size, true) := by
  cases instr <;> cases size <;> rfl

/-- What the `i`-th element at ES:DI is compared with. -/
def left (instr : SearchInstr) (size : ElementSize) (core : Core) (i : ℕ) : BitVec size.bits :=
  match instr with
  | scas => size.accumulator core.cpu.regs
  | cmps => size.read core.bus.mem.data (core.sourcePlace size i)

def right (size : ElementSize) (core : Core) (i : ℕ) : BitVec size.bits :=
  size.read core.bus.mem.data (core.destPlace size i)

/-- SI after `i` elements; a scan does not have it. -/
def source (instr : SearchInstr) (size : ElementSize) (core : Core) (i : ℕ) : U16 :=
  match instr with
  | scas => core.cpu.regs.get16 .SI
  | cmps => core.pointer size .SI i

/-- What the instruction does, as a function of the machine. -/
def step (instr : SearchInstr) (size : ElementSize) (core : Core) : Core :=
  let compared := size.compare core.cpu.regs (instr.left size core 0) (right size core 0)
  match instr with
  | scas => core.setRegs (compared.strAdvance .DI size.bytes)
  | cmps => core.setRegs ((compared.strAdvance .SI size.bytes).strAdvance .DI size.bytes)

theorem readSource_byte (core : Core) :
    readSource Memory.segReadU8 core =
      .ok (ElementSize.byte.read core.bus.mem.data (core.sourcePlace .byte 0), core) := by
  rw [sourcePlace_zero]
  rfl

theorem readDest_byte (core : Core) :
    readDest Memory.segReadU8 core =
      .ok (ElementSize.byte.read core.bus.mem.data (core.destPlace .byte 0), core) := by
  rw [destPlace_zero]
  rfl

theorem readSource_word (core : Core) :
    readSource Memory.segReadU16 core =
      .ok (ElementSize.word.read core.bus.mem.data (core.sourcePlace .word 0), core) := by
  rw [sourcePlace_zero]
  exact congrArg (fun v => Except.ok (v, core)) (Memory.readU16_eq core.bus.mem _)

theorem readDest_word (core : Core) :
    readDest Memory.segReadU16 core =
      .ok (ElementSize.word.read core.bus.mem.data (core.destPlace .word 0), core) := by
  rw [destPlace_zero]
  exact congrArg (fun v => Except.ok (v, core)) (Memory.readU16_eq core.bus.mem _)

theorem body_apply (instr : SearchInstr) (size : ElementSize) (core : Core) :
    instr.body size core = .ok ((), instr.step size core) := by
  cases instr with
  | scas =>
      cases size with
      | byte => exact scasb_apply (readDest_byte core)
      | word => exact scasw_apply (readDest_word core)
  | cmps =>
      cases size with
      | byte => exact cmpsb_apply (readSource_byte core) (readDest_byte core)
      | word => exact cmpsw_apply (readSource_word core) (readDest_word core)

/-! ## Rounds -/

variable (instr : SearchInstr) (size : ElementSize) (core : Core)

/-- The registers with the flags of the last of `i` comparisons. -/
def compared : ℕ → Regs
  | 0 => core.cpu.regs
  | i + 1 => size.compare core.cpu.regs (instr.left size core i) (right size core i)

def stage (i : ℕ) : Core :=
  core.setRegs ((instr.compared size core i).withCounters
    (core.cpu.regs.get16 .CX - BitVec.ofNat 16 i) (instr.source size core i)
    (core.pointer size .DI i))

theorem stage_zero : instr.stage size core 0 = core := by
  have hcounters := core.cpu.regs.withCounters_self
  cases instr <;> simp [stage, source, compared, hcounters] <;> rfl

theorem step_cx (c : Core) :
    (instr.step size c).cpu.regs.get16 .CX = c.cpu.regs.get16 .CX := by
  cases instr <;> simp [step, Regs.strAdvance_eq, Regs.get16_set16_of_ne]

@[simp] theorem compared_getSeg (i : ℕ) (s : SegReg) :
    (instr.compared size core i).getSeg s = core.cpu.regs.getSeg s := by
  cases i <;> simp [compared]

@[simp] theorem compared_stride (i : ℕ) (delta : U16) :
    (instr.compared size core i).stride delta = core.cpu.regs.stride delta := by
  cases i <;> simp [compared]

@[simp] theorem compared_accumulator (i : ℕ) :
    size.accumulator (instr.compared size core i) = size.accumulator core.cpu.regs := by
  cases i <;> simp [compared]

@[simp] theorem compare_compared (i : ℕ) (a b : BitVec size.bits) :
    size.compare (instr.compared size core i) a b = size.compare core.cpu.regs a b := by
  cases i <;> simp [compared]

theorem countedStep_stage (i : ℕ) :
    countedStep (instr.step size) (instr.stage size core i) = instr.stage size core (i + 1) := by
  cases instr with
  | scas =>
      simp [countedStep, stage, step, source, left, right, destPlace_zero, pointer_succ]
      rw [Regs.counter_succ]
      rfl
  | cmps =>
      simp [countedStep, stage, step, source, left, right, destPlace_zero, sourcePlace_zero,
        pointer_succ]
      rw [Regs.counter_succ]
      rfl

theorem rounds_compare (i : ℕ) :
    (countedStep (instr.step size))^[i] core = instr.stage size core i := by
  induction i with
  | zero => exact (instr.stage_zero size core).symm
  | succ i ih => rw [Function.iterate_succ_apply', ih, countedStep_stage]

end SearchInstr

/-! ## The end of the search -/

inductive RepeatPrefix where
  /-- `F3` -/
  | repe
  /-- `F2` -/
  | repne
  deriving DecidableEq, Repr

namespace RepeatPrefix

def byte : RepeatPrefix → U8
  | repe => 0xF3
  | repne => 0xF2

def effect : RepeatPrefix → U8 → Option (PrefixState → PrefixState)
  | repe => prefixEffect
  | repne => repnePrefixEffect

/-- ZF at which the loop ends. -/
def stopZf : RepeatPrefix → Bool
  | repe => false
  | repne => true

/-- The two values end the search. -/
def Found {w : ℕ} (rep : RepeatPrefix) (a b : BitVec w) : Prop :=
  match rep with
  | repe => a ≠ b
  | repne => a = b

instance {w : ℕ} (rep : RepeatPrefix) (a b : BitVec w) : Decidable (rep.Found a b) := by
  cases rep <;> unfold Found <;> infer_instance

theorem found_iff {w : ℕ} (rep : RepeatPrefix) (a b : BitVec w) :
    decide (a = b) = rep.stopZf ↔ rep.Found a b := by
  cases rep <;> simp [stopZf, Found]

theorem rounds
    {core : Core} {opcode : U8} {body : Routine Unit} {step : Core → Core} {k n : ℕ}
    (rep : RepeatPrefix) (hbehind : Behind rep.effect core opcode k)
    (hop : stringOp opcode = some (body, true))
    (hbody : ∀ c, body c = .ok ((), step c))
    (hcx : ∀ c, (step c).cpu.regs.get16 .CX = c.cpu.regs.get16 .CX)
    (hends : EndsAfter step (StopsOn true rep.stopZf) (core.behind rep.effect k) n) :
    dispatchString rep.byte core =
      .ok (.proceed, (countedStep step)^[n] (core.behind rep.effect k)) := by
  cases rep with
  | repe => exact rep_rounds hbehind hop hbody hcx hends
  | repne => exact repne_rounds hbehind hop hbody hcx hends

end RepeatPrefix

section Examined

/-- How many of `n` elements are looked at, up to the first one found. -/
def examined (found : ℕ → Prop) [DecidablePred found] : ℕ → ℕ
  | 0 => 0
  | n + 1 => if found 0 then 1 else examined (fun i => found (i + 1)) n + 1

variable {found : ℕ → Prop} [DecidablePred found] {n : ℕ}

theorem examined_le : examined found n ≤ n := by
  induction n generalizing found with
  | zero => exact Nat.le_refl 0
  | succ n ih =>
      unfold examined
      split
      · omega
      · exact Nat.succ_le_succ ih

theorem examined_goes_on {i : ℕ} (hi : i + 1 < examined found n) : ¬ found i := by
  induction n generalizing found i with
  | zero => exact absurd hi (Nat.not_lt_zero _)
  | succ n ih =>
      unfold examined at hi
      split at hi
      next => omega
      next hfirst =>
        cases i with
        | zero => exact hfirst
        | succ i => exact @ih (fun i => found (i + 1)) _ i (Nat.lt_of_succ_lt_succ hi)

theorem examined_ends : examined found n = n ∨ ∃ i, examined found n = i + 1 ∧ found i := by
  induction n generalizing found with
  | zero => exact .inl rfl
  | succ n ih =>
      unfold examined
      split
      next hfirst => exact .inr ⟨0, rfl, hfirst⟩
      next =>
        rcases @ih (fun i => found (i + 1)) _ with hall | ⟨i, hlast, hfound⟩
        · exact .inl (congrArg (· + 1) hall)
        · exact .inr ⟨i + 1, congrArg (· + 1) hlast, hfound⟩

end Examined

namespace SearchInstr

variable {instr : SearchInstr} {size : ElementSize} {core : Core}

theorem stopsOn_stage (rep : RepeatPrefix) (i : ℕ) :
    StopsOn true rep.stopZf (instr.stage size core (i + 1)) ↔
      rep.Found (instr.left size core i) (right size core i) := by
  have hzf : (instr.stage size core (i + 1)).cpu.regs.getZf =
      decide (instr.left size core i = right size core i) :=
    size.compare_zf core.cpu.regs (instr.left size core i) (right size core i)
  unfold StopsOn
  rw [hzf, rep.found_iff]
  exact and_iff_right rfl

def examinedBy (instr : SearchInstr) (size : ElementSize) (rep : RepeatPrefix) (core : Core) : ℕ :=
  examined (fun i => rep.Found (instr.left size core i) (right size core i))
    (core.cpu.regs.get16 .CX).toNat

theorem endsAfter_examined (rep : RepeatPrefix) :
    EndsAfter (instr.step size) (StopsOn true rep.stopZf) core
      (instr.examinedBy size rep core) := by
  constructor
  · exact examined_le
  · intro i hpos hi
    rcases Nat.exists_eq_succ_of_ne_zero (Nat.ne_of_gt hpos) with ⟨j, rfl⟩
    rw [rounds_compare, stopsOn_stage]
    exact examined_goes_on hi
  · rcases @examined_ends (fun i => rep.Found (instr.left size core i) (right size core i)) _
      (core.cpu.regs.get16 .CX).toNat with hall | ⟨i, hlast, hfound⟩
    · exact .inl hall
    · right
      unfold examinedBy
      rw [hlast, rounds_compare, stopsOn_stage]
      exact ⟨Nat.succ_pos i, hfound⟩

end SearchInstr

/-- The loop ends behind the elements examined, with the flags of the last. -/
theorem repeat_searches
    {core : Core} {rep : RepeatPrefix} {instr : SearchInstr} {size : ElementSize} {k n : ℕ}
    (hbehind : Behind rep.effect core (instr.opcode size) k)
    (hn : n = instr.examinedBy size rep (core.behind rep.effect k)) :
    dispatchString rep.byte core =
      .ok (.proceed, (core.behind rep.effect k).setRegs
        ((instr.compared size (core.behind rep.effect k) n).withCounters
          ((core.behind rep.effect k).cpu.regs.get16 .CX - BitVec.ofNat 16 n)
          (instr.source size (core.behind rep.effect k) n)
          ((core.behind rep.effect k).pointer size .DI n))) := by
  have hrun := rep.rounds hbehind (instr.stringOp_opcode size) (instr.body_apply size)
    (instr.step_cx size) (SearchInstr.endsAfter_examined rep)
  rw [hrun, SearchInstr.rounds_compare, ← hn]
  rfl

/-- `SCASB` behind `REPNE`, three bytes from 0000:0000 on, of which the last
one is AL. -/
def scasbCore : Core :=
  let core := operandCore [0xAE, 0x00, 0x55]
  core.setRegs ((core.cpu.regs.withCounters 3 0 0).set16 .AX 0x55)

theorem scasbCore_behind :
    Behind RepeatPrefix.repne.effect scasbCore (SearchInstr.scas.opcode .byte) 0 := by
  constructor
  · intro j hj
    exact absurd hj (Nat.not_lt_zero j)
  · decide
  · decide +kernel

theorem repeat_searches_last :
    dispatchString 0xF2 scasbCore =
      .ok (.proceed, (scasbCore.behind repnePrefixEffect 0).setRegs
        ((SearchInstr.scas.compared .byte (scasbCore.behind repnePrefixEffect 0) 3).withCounters
          ((scasbCore.behind repnePrefixEffect 0).cpu.regs.get16 .CX - BitVec.ofNat 16 3)
          (SearchInstr.scas.source .byte (scasbCore.behind repnePrefixEffect 0) 3)
          ((scasbCore.behind repnePrefixEffect 0).pointer .byte .DI 3))) :=
  @repeat_searches scasbCore .repne .scas .byte 0 3 scasbCore_behind (by decide +kernel)

end Kita98
