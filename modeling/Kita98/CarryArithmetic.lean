import Kita98.CarryChains
import Kita98.Conditions

/-!
# ADC and SBB, one limb and many

ADC and SBB add the carry to their second operand before a flag helper sees it.
The value comes out right, but the helper is told of a second operand that has
wrapped around when it was all ones, and that has changed its sign when it was
the largest signed number.  In the addition or subtraction of long numbers limb
by limb the first case loses a carry.
-/

namespace Kita98

open WordBits CarryChains Kita98.Core Exec

/-! ## Sums and differences as numbers -/

/-- The two pairs of group 1: ADD with ADC, SUB with SBB. -/
inductive CarryOp where
  | add | sub
  deriving DecidableEq, Repr

namespace CarryOp

def plain : CarryOp → BitVec 3
  | add => 0
  | sub => 5

def withCarry : CarryOp → BitVec 3
  | add => 2
  | sub => 3

def total : CarryOp → ℤ → ℤ → ℤ
  | add, x, y => x + y
  | sub, x, y => x - y

end CarryOp

/-- No carry and no borrow out of the numbers below `bound`. -/
def FitsUnsigned (bound : ℕ) (t : ℤ) : Prop := 0 ≤ t ∧ t < bound

/-- No overflow out of the signed numbers of `w` bits. -/
def FitsSigned (w : ℕ) (t : ℤ) : Prop := -2 ^ (w - 1) ≤ t ∧ t < 2 ^ (w - 1)

/-- The number that is left with its carry is the one that comes out. -/
theorem wraps_iff
    (op : CarryOp) (cf : Bool) {bound x y r : ℕ} (hx : x < bound) (hy : y ≤ bound)
    (hr : r < bound) :
    ((r : ℤ) = op.total x y % bound ∧ (cf = true ↔ ¬ FitsUnsigned bound (op.total x y))) ↔
      op.total x y = op.total r (bound * cf.toNat) := by
  have hbound : (0 : ℤ) < bound := by omega
  constructor
  · rintro ⟨hmod, hcf⟩
    by_cases hfits : FitsUnsigned bound (op.total x y)
    · have hfalse : cf = false := by simpa using fun h => (hcf.mp h) hfits
      rw [Int.emod_eq_of_lt hfits.1 hfits.2] at hmod
      rw [← hmod, hfalse]
      cases op <;> simp [CarryOp.total]
    · have htrue : cf = true := hcf.mpr hfits
      subst htrue
      cases op with
      | add =>
          simp only [CarryOp.total, FitsUnsigned] at *
          have hwrap : ((x : ℤ) + y) % bound = x + y - bound := by
            rw [← Int.sub_emod_right, Int.emod_eq_of_lt] <;> omega
          simp
          omega
      | sub =>
          simp only [CarryOp.total, FitsUnsigned] at *
          have hwrap : ((x : ℤ) - y) % bound = x - y + bound := by
            rw [← Int.add_emod_right, Int.emod_eq_of_lt] <;> omega
          simp
          omega
  · intro htotal
    have hmod : (r : ℤ) % bound = r := Int.emod_eq_of_lt (by omega) (by omega)
    rw [htotal]
    cases op <;> cases cf <;> simp [CarryOp.total, FitsUnsigned, hmod] <;> omega

/-! ## One instruction -/

structure Limb (w : ℕ) where
  dst : BitVec w
  imm : BitVec w
  result : BitVec w

/-- An execution of group 1 with the given field. -/
inductive AluSize.Executes {w : ℕ} (size : AluSize w) (field : BitVec 3) :
    Core → Limb w → Core → Prop
  | intro {modrm : ModRm} {limb : Limb w} {core mid after : Core} (hfield : modrm.reg = field)
      (hread : size.read modrm core = .ok (limb.dst, mid))
      (hrun : size.group1 modrm limb.imm core = .ok (limb.result, after)) :
      Executes size field core limb after

theorem AluSize.Executes.effect
    {w : ℕ} {size : AluSize w} {field : BitVec 3} {core after : Core} {limb : Limb w}
    (h : size.Executes field core limb after) :
    limb.result = group1Value field limb.dst limb.imm (carry w core.cpu.regs) ∧
      after.cpu.regs.status =
        group1Status field limb.dst limb.imm (carry w core.cpu.regs) := by
  cases h with
  | intro hfield hread hrun =>
      rcases size.read_returns _ _ with ⟨dst, n, hskip⟩
      cases hskip.symm.trans hread
      rcases size.group1_run _ hread with ⟨regs, -, hstatus, hvalue⟩
      have heq := hvalue.symm.trans hrun
      simp only [Except.ok.injEq, Prod.mk.injEq] at heq
      rcases heq with ⟨hresult, hafter⟩
      subst hfield hafter
      exact ⟨hresult.symm, hstatus⟩

def carryIn (w : ℕ) (cf : Bool) : BitVec w := if cf then 1 else 0

section SecondOperand

variable {w : ℕ}

theorem allOnes_iff (b : BitVec w) : b = BitVec.allOnes w ↔ b.toNat + 1 = 2 ^ w := by
  have hpos := Nat.two_pow_pos w
  rw [← BitVec.toNat_inj, BitVec.toNat_allOnes]
  omega

theorem carryIn_toNat (hw : 1 < w) (cf : Bool) : (carryIn w cf).toNat = cf.toNat := by
  cases cf with
  | false => simp [carryIn]
  | true => exact BitVec.toNat_one (by omega)

theorem second_toNat (hw : 1 < w) (b : BitVec w) (cf : Bool) :
    ((b + carryIn w cf).toNat = b.toNat + cf.toNat ∧ ¬ (cf = true ∧ b = BitVec.allOnes w)) ∨
      ((b + carryIn w cf).toNat = 0 ∧ b.toNat + cf.toNat = 2 ^ w ∧ cf = true ∧
        b = BitVec.allOnes w) := by
  have hlt := b.isLt
  have hones : b = BitVec.allOnes w ↔ b.toNat = 2 ^ w - 1 := by
    rw [← BitVec.toNat_inj, BitVec.toNat_allOnes]
  rw [BitVec.toNat_add, carryIn_toNat hw, hones]
  by_cases hfits : b.toNat + cf.toNat < 2 ^ w
  · rw [Nat.mod_eq_of_lt hfits]
    refine .inl ⟨rfl, ?_⟩
    rintro ⟨rfl, hmax⟩
    simp at hfits
    omega
  · have hcf := cf.toNat_le
    have htotal : b.toNat + cf.toNat = 2 ^ w := by omega
    have hone : cf.toNat = 1 := by omega
    rw [htotal, Nat.mod_self]
    exact .inr ⟨rfl, rfl, by simpa using hone, by omega⟩

theorem second_toInt (hw : 1 < w) (b : BitVec w) (cf : Bool) :
    ((b + carryIn w cf).toInt = b.toInt + cf.toNat ∧ ¬ (cf = true ∧ b = BitVec.intMax w)) ∨
      ((b + carryIn w cf).toInt = -2 ^ (w - 1) ∧ b.toInt + cf.toNat = 2 ^ (w - 1) ∧ cf = true ∧
        b = BitVec.intMax w) := by
  cases cf with
  | false => simp [carryIn]
  | true =>
      have hmax : b = BitVec.intMax w ↔ b.toInt + 1 = 2 ^ (w - 1) := by
        rw [← BitVec.toInt_inj, BitVec.toInt_intMax]
        omega
      have hone : (carryIn w true).toInt = 1 := BitVec.toInt_one hw
      have hlow := b.le_toInt
      have hhigh := b.toInt_lt
      by_cases hlast : b = BitVec.intMax w
      · refine .inr ⟨?_, hmax.mp hlast, rfl, hlast⟩
        subst hlast
        have hmin : BitVec.intMax w + carryIn w true = BitVec.intMin w := BitVec.intMax_add_one
        rw [hmin]
        exact BitVec.toInt_intMin_of_pos (by omega)
      · refine .inl ⟨?_, by simpa using hlast⟩
        rw [BitVec.toInt_add_of_not_saddOverflow, hone]
        · rfl
        · rw [BitVec.saddOverflow, hone]
          have hne := mt hmax.mpr hlast
          simp
          omega

end SecondOperand

namespace CarryOp

/-- The flags that the helpers leave. -/
def status {w : ℕ} : CarryOp → BitVec w → BitVec w → Status
  | add => addStatus
  | sub => subStatus

variable {w : ℕ}

theorem status_cf (op : CarryOp) (a b : BitVec w) :
    (op.status a b).cf = true ↔ ¬ FitsUnsigned (2 ^ w) (op.total a.toNat b.toNat) := by
  cases op with
  | add =>
      simp [status, addStatus, resultStatus, BitVec.uaddOverflow, FitsUnsigned, total]
      norm_cast
      omega
  | sub =>
      simp [status, subStatus, resultStatus, BitVec.usubOverflow, FitsUnsigned, total]
      have hlt : (a.toNat : ℤ) < 2 ^ w := by exact_mod_cast a.isLt
      omega

theorem status_of (op : CarryOp) (a b : BitVec w) :
    (op.status a b).of = true ↔ ¬ FitsSigned w (op.total a.toInt b.toInt) := by
  cases op with
  | add =>
      simp [status, addStatus, resultStatus, BitVec.saddOverflow, FitsSigned, total]
      omega
  | sub =>
      simp [status, subStatus, resultStatus, BitVec.ssubOverflow, FitsSigned, total]
      omega

/-- The carry is lost when the second operand is all ones. -/
theorem carry_iff (hw : 1 < w) (op : CarryOp) (a b : BitVec w) (cf : Bool) :
    ((op.status a (b + carryIn w cf)).cf = true ↔
        ¬ FitsUnsigned (2 ^ w) (op.total a.toNat (b.toNat + cf.toNat))) ↔
      ¬ (cf = true ∧ b = BitVec.allOnes w) := by
  have hlt : (a.toNat : ℤ) < 2 ^ w := by exact_mod_cast a.isLt
  rw [status_cf]
  rcases second_toNat hw b cf with ⟨hsecond, hfits⟩ | ⟨hsecond, hwraps, hmax⟩
  · rw [hsecond, Nat.cast_add]
    exact iff_of_true Iff.rfl hfits
  · have hcast : (b.toNat : ℤ) + cf.toNat = 2 ^ w := by exact_mod_cast hwraps
    refine iff_of_false ?_ (not_not_intro hmax)
    rw [hsecond, hcast]
    cases op <;> simp [FitsUnsigned, total] <;> omega

/-- The overflow is wrong when the second operand is the largest signed number. -/
theorem overflow_iff (hw : 1 < w) (op : CarryOp) (a b : BitVec w) (cf : Bool) :
    ((op.status a (b + carryIn w cf)).of = true ↔
        ¬ FitsSigned w (op.total a.toInt (b.toInt + cf.toNat))) ↔
      ¬ (cf = true ∧ b = BitVec.intMax w) := by
  have hlow := a.le_toInt
  have hhigh := a.toInt_lt
  rw [status_of]
  rcases second_toInt hw b cf with ⟨hsecond, hfits⟩ | ⟨hsecond, hwraps, hmax⟩
  · rw [hsecond]
    exact iff_of_true Iff.rfl hfits
  · refine iff_of_false ?_ (not_not_intro hmax)
    rw [hsecond, hwraps]
    cases op <;> simp [FitsSigned, total] <;> omega

/-- The value is right whatever the carry. -/
theorem value_total (hw : 1 < w) (op : CarryOp) (a b : BitVec w) (cf : Bool) :
    ((group1Value op.withCarry a b (carryIn w cf)).toNat : ℤ) =
      op.total a.toNat (b.toNat + cf.toNat) % (2 ^ w : ℕ) := by
  cases op with
  | add =>
      have hvalue : group1Value add.withCarry a b (carryIn w cf) = a + b + carryIn w cf := rfl
      rw [hvalue, BitVec.toNat_add, BitVec.toNat_add, carryIn_toNat hw, total, Nat.mod_add_mod]
      push_cast
      ring_nf
  | sub =>
      have hvalue : group1Value sub.withCarry a b (carryIn w cf) = a - (b + carryIn w cf) :=
        sub_sub _ _ _
      have hwraps : ((b + carryIn w cf).toNat : ℤ) % (2 ^ w : ℕ) =
          (b.toNat + cf.toNat) % (2 ^ w : ℕ) := by
        rw [BitVec.toNat_add, carryIn_toNat hw]
        push_cast
        rw [Int.emod_emod_of_dvd _ dvd_rfl]
      have hle := (b + carryIn w cf).isLt.le
      rw [hvalue, BitVec.toNat_sub, total, Int.sub_emod, ← hwraps, ← Int.sub_emod]
      push_cast [hle]
      rw [sub_add_eq_add_sub, add_sub_assoc, Int.add_emod_left]

end CarryOp

/-- The value modulo the width, the carry or borrow out of the unbounded result and
its signed overflow. -/
structure ExactWithCarry {w : ℕ} (op : CarryOp) (before after : Regs) (limb : Limb w) : Prop where
  value : (limb.result.toNat : ℤ) =
    op.total limb.dst.toNat (limb.imm.toNat + before.getCf.toNat) % (2 ^ w : ℕ)
  carry : after.getCf = true ↔
    ¬ FitsUnsigned (2 ^ w) (op.total limb.dst.toNat (limb.imm.toNat + before.getCf.toNat))
  overflow : after.getOf = true ↔
    ¬ FitsSigned w (op.total limb.dst.toInt (limb.imm.toInt + before.getCf.toNat))

/-- The incoming carry neither wraps the second operand around nor changes its sign. -/
def CarryFits {w : ℕ} (before : Regs) (imm : BitVec w) : Prop :=
  ¬ (before.getCf = true ∧ (imm = BitVec.allOnes w ∨ imm = BitVec.intMax w))

section OneLimb

variable {w : ℕ} {size : AluSize w} {op : CarryOp} {core after : Core} {limb : Limb w}

theorem AluSize.Executes.withCarry
    (h : size.Executes op.withCarry core limb after) :
    limb.result =
        group1Value op.withCarry limb.dst limb.imm (carryIn w core.cpu.regs.getCf) ∧
      after.cpu.regs.status =
        op.status limb.dst (limb.imm + carryIn w core.cpu.regs.getCf) := by
  cases op with
  | add => exact h.effect
  | sub => exact h.effect

theorem exactWithCarry_iff
    (hw : 1 < w) (h : size.Executes op.withCarry core limb after) :
    ExactWithCarry op core.cpu.regs after.cpu.regs limb ↔ CarryFits core.cpu.regs limb.imm := by
  rcases h.withCarry with ⟨hresult, hstatus⟩
  have hcf : after.cpu.regs.getCf =
      (op.status limb.dst (limb.imm + carryIn w core.cpu.regs.getCf)).cf :=
    congrArg Status.cf hstatus
  have hof : after.cpu.regs.getOf =
      (op.status limb.dst (limb.imm + carryIn w core.cpu.regs.getCf)).of :=
    congrArg Status.of hstatus
  have hcarry := op.carry_iff hw limb.dst limb.imm core.cpu.regs.getCf
  have hover := op.overflow_iff hw limb.dst limb.imm core.cpu.regs.getCf
  rw [← hcf] at hcarry
  rw [← hof] at hover
  rw [CarryFits, and_or_left, not_or, ← hcarry, ← hover]
  constructor
  · intro hexact
    exact ⟨hexact.carry, hexact.overflow⟩
  · rintro ⟨hright, hsigned⟩
    exact ⟨hresult ▸ op.value_total hw _ _ _, hright, hsigned⟩

end OneLimb

/-! ## Limbs as columns -/

namespace CarryOp

/-- Which numbers of a column are the destination, the second operand and the
result; a difference is a sum read backwards. -/
def dstDigit {base : ℕ} : CarryOp → Column base → ℕ
  | add => Column.left
  | sub => Column.sum

def immDigit {base : ℕ} : CarryOp → Column base → ℕ
  | add => Column.right
  | sub => Column.left

def resultDigit {base : ℕ} : CarryOp → Column base → ℕ
  | add => Column.sum
  | sub => Column.right

instance (bound : ℕ) (t : ℤ) : Decidable (FitsUnsigned bound t) := by
  unfold FitsUnsigned
  infer_instance

section Column

variable {w : ℕ}

def exactCarry (op : CarryOp) (a b : BitVec w) (cf : Bool) : Bool :=
  decide (¬ FitsUnsigned (2 ^ w) (op.total a.toNat (b.toNat + cf.toNat)))

def flag (op : CarryOp) (a b : BitVec w) (cf : Bool) : Bool :=
  (op.status a (b + carryIn w cf)).cf

theorem total_exact (hw : 1 < w) (op : CarryOp) (a b : BitVec w) (cf : Bool) :
    op.total a.toNat (b.toNat + cf.toNat) =
      op.total (group1Value op.withCarry a b (carryIn w cf)).toNat
        ((2 ^ w : ℕ) * (op.exactCarry a b cf).toNat) := by
  have hsecond : b.toNat + cf.toNat ≤ 2 ^ w := by
    have hlt := b.isLt
    have hcf := cf.toNat_le
    omega
  have hwraps := wraps_iff op (op.exactCarry a b cf) a.isLt hsecond
    (group1Value op.withCarry a b (carryIn w cf)).isLt
  rw [Nat.cast_add] at hwraps
  exact hwraps.mp ⟨op.value_total hw a b cf, decide_eq_true_iff⟩

theorem flag_eq_exactCarry_iff (hw : 1 < w) (op : CarryOp) (a b : BitVec w) (cf : Bool) :
    op.flag a b cf = op.exactCarry a b cf ↔ ¬ (cf = true ∧ b = BitVec.allOnes w) := by
  rw [← op.carry_iff hw a b cf, Bool.eq_iff_iff, exactCarry, decide_eq_true_iff, flag]

theorem flag_le_exactCarry (hw : 1 < w) (op : CarryOp) (a b : BitVec w) (cf : Bool) :
    (op.flag a b cf).toNat ≤ (op.exactCarry a b cf).toNat := by
  rcases second_toNat hw b cf with ⟨-, hfits⟩ | ⟨hsecond, -, -⟩
  · rw [(op.flag_eq_exactCarry_iff hw a b cf).mpr hfits]
  · have hlt : (a.toNat : ℤ) < 2 ^ w := by exact_mod_cast a.isLt
    have hflag : op.flag a b cf = false := by
      rw [Bool.eq_false_iff, flag, ne_eq, status_cf, hsecond]
      cases op <;> simp [FitsUnsigned, total, hlt]
    simp [hflag]

def column (hw : 1 < w) (op : CarryOp) (a b : BitVec w) (cf : Bool) : Column (2 ^ w) where
  left := match op with
    | add => a.toNat
    | sub => b.toNat
  right := match op with
    | add => b.toNat
    | sub => (group1Value op.withCarry a b (carryIn w cf)).toNat
  carry := cf.toNat
  sum := match op with
    | add => (group1Value op.withCarry a b (carryIn w cf)).toNat
    | sub => a.toNat
  made := (op.exactCarry a b cf).toNat
  handed := (op.flag a b cf).toNat
  adds := by
    have htotal := op.total_exact hw a b cf
    cases op with
    | add =>
        simp only [total] at htotal
        zify
        push_cast at htotal
        linarith
    | sub =>
        simp only [total] at htotal
        zify
        push_cast at htotal
        linarith
  handed_le := op.flag_le_exactCarry hw a b cf

theorem toNat_eq_iff (x y : Bool) : x.toNat = y.toNat ↔ x = y := by
  cases x <;> cases y <;> simp

def columns (hw : 1 < w) (op : CarryOp) : Bool → List (Limb w) → List (Column (2 ^ w))
  | _, [] => []
  | cf, limb :: limbs =>
      op.column hw limb.dst limb.imm cf ::
        columns hw op (op.flag limb.dst limb.imm cf) limbs

@[simp] theorem columns_length
    (hw : 1 < w) (op : CarryOp) (cf : Bool) (limbs : List (Limb w)) :
    (op.columns hw cf limbs).length = limbs.length := by
  induction limbs generalizing cf with
  | nil => rfl
  | cons limb limbs ih => simp [columns, ih]

theorem columns_dst
    (hw : 1 < w) (op : CarryOp) (cf : Bool) (limbs : List (Limb w)) :
    (op.columns hw cf limbs).map op.dstDigit = limbs.map fun limb => limb.dst.toNat := by
  induction limbs generalizing cf with
  | nil => rfl
  | cons limb limbs ih =>
      rw [columns, List.map_cons, List.map_cons, ih]
      cases op <;> rfl

theorem columns_imm
    (hw : 1 < w) (op : CarryOp) (cf : Bool) (limbs : List (Limb w)) :
    (op.columns hw cf limbs).map op.immDigit = limbs.map fun limb => limb.imm.toNat := by
  induction limbs generalizing cf with
  | nil => rfl
  | cons limb limbs ih =>
      rw [columns, List.map_cons, List.map_cons, ih]
      cases op <;> rfl

/-- A column loses its carry only to a second operand of ones. -/
theorem columns_drop
    (hw : 1 < w) (op : CarryOp) {cf : Bool} {limbs : List (Limb w)}
    {column : Column (2 ^ w)} (hmem : column ∈ op.columns hw cf limbs) :
    column.carry ≤ 1 ∧ (column.handed = column.made ↔
      ¬ (op.immDigit column + 1 = 2 ^ w ∧ column.carry ≠ 0)) := by
  induction limbs generalizing cf with
  | nil => simp [columns] at hmem
  | cons limb limbs ih =>
      rcases List.mem_cons.mp hmem with hhere | hrest
      · have hflag := op.flag_eq_exactCarry_iff hw limb.dst limb.imm cf
        have himm : op.immDigit (op.column hw limb.dst limb.imm cf) = limb.imm.toNat := by
          cases op <;> rfl
        have hset : cf = true ↔ cf.toNat ≠ 0 := by cases cf <;> simp
        rw [hhere, himm, ← allOnes_iff]
        refine ⟨cf.toNat_le, ?_⟩
        show (op.flag limb.dst limb.imm cf).toNat = (op.exactCarry limb.dst limb.imm cf).toNat ↔
          ¬ (_ ∧ cf.toNat ≠ 0)
        rw [toNat_eq_iff, hflag, hset, and_comm]
      · exact ih hrest

end Column

end CarryOp

/-! ## Long numbers -/

section Long

variable {w : ℕ}

/-- Executions each of which finds the carry that the one before it left. -/
inductive AluSize.Chain (size : AluSize w) (field : BitVec 3) :
    Bool → List (Limb w) → Bool → Prop
  | nil (cf : Bool) : Chain size field cf [] cf
  | cons {core after : Core} {limb : Limb w} {limbs : List (Limb w)} {last : Bool}
      (hexec : size.Executes field core limb after)
      (hrest : Chain size field after.cpu.regs.getCf limbs last) :
      Chain size field core.cpu.regs.getCf (limb :: limbs) last

/-- ADD and then ADCs, or SUB and then SBBs, and the carry that is left. -/
inductive AluSize.LongRun (size : AluSize w) (op : CarryOp) : List (Limb w) → Bool → Prop
  | intro {core after : Core} {limb : Limb w} {limbs : List (Limb w)} {last : Bool}
      (hfirst : size.Executes op.plain core limb after)
      (hrest : size.Chain op.withCarry after.cpu.regs.getCf limbs last) :
      LongRun size op (limb :: limbs) last

def long (part : Limb w → BitVec w) (limbs : List (Limb w)) : ℕ :=
  Nat.ofDigits (2 ^ w) (limbs.map fun limb => (part limb).toNat)

/-- The long sum or difference, and the carry or borrow out of it. -/
structure LongExact (op : CarryOp) (limbs : List (Limb w)) (last : Bool) : Prop where
  value : (long Limb.result limbs : ℤ) =
    op.total (long Limb.dst limbs) (long Limb.imm limbs) % ((2 ^ w) ^ limbs.length : ℕ)
  carry : last = true ↔ ¬ FitsUnsigned ((2 ^ w) ^ limbs.length)
    (op.total (long Limb.dst limbs) (long Limb.imm limbs))

/-- No carry or borrow out of the lower limbs meets a second operand of ones. -/
def NoCarryIntoOnes (op : CarryOp) (limbs : List (Limb w)) : Prop :=
  ∀ i (hi : i < limbs.length), limbs[i].imm = BitVec.allOnes w →
    FitsUnsigned ((2 ^ w) ^ i)
      (op.total (long Limb.dst (limbs.take i)) (long Limb.imm (limbs.take i)))

theorem long_lt (hw : 1 < w) (part : Limb w → BitVec w) (limbs : List (Limb w)) :
    long part limbs < (2 ^ w) ^ limbs.length := by
  have hbase : 1 < 2 ^ w := Nat.one_lt_two_pow (by omega)
  have hdigits : ∀ digit ∈ limbs.map fun limb => (part limb).toNat, digit < 2 ^ w := by
    intro digit hmem
    rcases List.mem_map.mp hmem with ⟨limb, -, rfl⟩
    exact (part limb).isLt
  simpa [long] using Nat.ofDigits_lt_base_pow_length hbase hdigits

variable {size : AluSize w} {op : CarryOp} {limbs : List (Limb w)} {cf last : Bool}

theorem AluSize.Chain.columns
    (hw : 1 < w) (hchain : size.Chain op.withCarry cf limbs last) :
    Linked cf.toNat (op.columns hw cf limbs) last.toNat ∧
      (op.columns hw cf limbs).map op.resultDigit = limbs.map fun limb => limb.result.toNat := by
  induction hchain with
  | nil cf => exact ⟨.nil _, rfl⟩
  | @cons core after limb limbs last hexec hrest ih =>
      rcases hexec.withCarry with ⟨hresult, hstatus⟩
      have hflag : after.cpu.regs.getCf = op.flag limb.dst limb.imm core.cpu.regs.getCf :=
        congrArg Status.cf hstatus
      rw [hflag] at ih
      rw [CarryOp.columns, List.map_cons, List.map_cons, ih.2, hresult]
      refine ⟨@Linked.cons _ (op.column hw _ _ _) _ _ ih.1, ?_⟩
      cases op <;> rfl

theorem AluSize.Executes.plain
    {core after : Core} {limb : Limb w} (h : size.Executes op.plain core limb after) :
    limb.result = group1Value op.withCarry limb.dst limb.imm (carryIn w false) ∧
      after.cpu.regs.status = op.status limb.dst (limb.imm + carryIn w false) := by
  rcases h.effect with ⟨hresult, hstatus⟩
  rw [hresult, hstatus]
  cases op <;> simp [CarryOp.plain, CarryOp.withCarry, group1Value, group1Status,
    CarryOp.status, carryIn]

theorem AluSize.LongRun.columns
    (hw : 1 < w) (hrun : size.LongRun op limbs last) :
    Linked 0 (op.columns hw false limbs) last.toNat ∧
      (op.columns hw false limbs).map op.resultDigit =
        limbs.map fun limb => limb.result.toNat := by
  cases hrun with
  | @intro core after limb limbs last hfirst hrest =>
      rcases hfirst.plain with ⟨hresult, hstatus⟩
      have hflag : after.cpu.regs.getCf = op.flag limb.dst limb.imm false :=
        congrArg Status.cf hstatus
      rw [hflag] at hrest
      rcases hrest.columns hw with ⟨hlinked, hdigits⟩
      rw [CarryOp.columns, List.map_cons, List.map_cons, hdigits, hresult]
      refine ⟨@Linked.cons _ (op.column hw _ _ _) _ _ hlinked, ?_⟩
      cases op <;> rfl

/-- The columns add up exactly when the number and the carry that come out are right. -/
theorem adds_iff_total
    {columns : List (Column (2 ^ w))} {bound : ℕ} {carry : Bool}
    (hdst : value op.dstDigit columns < bound) (himm : value op.immDigit columns < bound)
    (hresult : value op.resultDigit columns < bound) :
    value Column.left columns + value Column.right columns =
        value Column.sum columns + bound * carry.toNat ↔
      ((value op.resultDigit columns : ℤ) =
          op.total (value op.dstDigit columns) (value op.immDigit columns) % bound ∧
        (carry = true ↔ ¬ FitsUnsigned bound
          (op.total (value op.dstDigit columns) (value op.immDigit columns)))) := by
  rw [wraps_iff op carry hdst himm.le hresult]
  cases op <;> cases carry <;> simp [CarryOp.dstDigit, CarryOp.immDigit, CarryOp.resultDigit,
    CarryOp.total] <;> omega

structure DigitsOf (op : CarryOp) (columns : List (Column (2 ^ w))) (limbs : List (Limb w)) :
    Prop where
  dst : columns.map op.dstDigit = limbs.map fun limb => limb.dst.toNat
  imm : columns.map op.immDigit = limbs.map fun limb => limb.imm.toNat
  result : columns.map op.resultDigit = limbs.map fun limb => limb.result.toNat

namespace DigitsOf

variable {columns : List (Column (2 ^ w))}

theorem length (hdigits : DigitsOf op columns limbs) : columns.length = limbs.length := by
  simpa using congrArg List.length hdigits.dst

theorem take (hdigits : DigitsOf op columns limbs) (i : ℕ) :
    DigitsOf op (columns.take i) (limbs.take i) where
  dst := by rw [List.map_take, List.map_take, hdigits.dst]
  imm := by rw [List.map_take, List.map_take, hdigits.imm]
  result := by rw [List.map_take, List.map_take, hdigits.result]

theorem imm_get
    (hdigits : DigitsOf op columns limbs) {i : ℕ} (hi : i < columns.length)
    (hi' : i < limbs.length) : op.immDigit columns[i] = limbs[i].imm.toNat := by
  have hget := congrArg (fun digits => digits[i]?) hdigits.imm
  simpa [hi, hi'] using hget

theorem adds_iff (hw : 1 < w) (hdigits : DigitsOf op columns limbs) (carry : Bool) :
    value Column.left columns + value Column.right columns =
        value Column.sum columns + (2 ^ w) ^ limbs.length * carry.toNat ↔
      LongExact op limbs carry := by
  have hdst : value op.dstDigit columns = long Limb.dst limbs := by
    rw [value, long, hdigits.dst]
  have himm : value op.immDigit columns = long Limb.imm limbs := by
    rw [value, long, hdigits.imm]
  have hresult : value op.resultDigit columns = long Limb.result limbs := by
    rw [value, long, hdigits.result]
  have hbounds := fun part => long_lt hw part limbs
  rw [adds_iff_total (hdst ▸ hbounds _) (himm ▸ hbounds _) (hresult ▸ hbounds _), hdst, himm,
    hresult]
  exact ⟨fun h => ⟨h.1, h.2⟩, fun h => ⟨h.value, h.carry⟩⟩

/-- What arrives at a column behind exact ones is the carry of the lower limbs. -/
theorem carry_iff
    (hw : 1 < w) (hdigits : DigitsOf op columns limbs) {i : ℕ} (hi : i < columns.length)
    (hbit : columns[i].carry ≤ 1)
    (hadds : value Column.left (columns.take i) + value Column.right (columns.take i) =
      value Column.sum (columns.take i) + (2 ^ w) ^ i * columns[i].carry) :
    columns[i].carry ≠ 0 ↔ ¬ FitsUnsigned ((2 ^ w) ^ i)
      (op.total (long Limb.dst (limbs.take i)) (long Limb.imm (limbs.take i))) := by
  have hlength : (limbs.take i).length = i := by
    rw [List.length_take, ← hdigits.length]
    omega
  have hcarry : columns[i].carry = (decide (columns[i].carry ≠ 0)).toNat := by
    by_cases hzero : columns[i].carry = 0
    · simp [hzero]
    · simp [hzero]
      omega
  have hlow := (hdigits.take i).adds_iff hw (decide (columns[i].carry ≠ 0))
  rw [hlength, ← hcarry] at hlow
  have hexact := (hlow.mp hadds).carry
  rwa [hlength, decide_eq_true_iff] at hexact

end DigitsOf

theorem longExact_iff
    (hw : 1 < w) (hrun : size.LongRun op limbs last) :
    LongExact op limbs last ↔ NoCarryIntoOnes op limbs := by
  rcases hrun.columns hw with ⟨hlinked, hresult⟩
  have hdigits : DigitsOf op (op.columns hw false limbs) limbs :=
    ⟨op.columns_dst hw false limbs, op.columns_imm hw false limbs, hresult⟩
  have hbase : 0 < 2 ^ w := Nat.two_pow_pos w
  have hdrop := fun column hmem =>
    @CarryOp.columns_drop w hw op false limbs column hmem
  have hwhole : LongExact op limbs last ↔ Lossless (op.columns hw false limbs) := by
    rw [← hlinked.adds_iff hbase, add_zero, hdigits.length]
    exact (hdigits.adds_iff hw last).symm
  rw [hwhole, hlinked.lossless_iff hbase (fun column hmem => (hdrop column hmem).2)
    fun i hi => hdigits.carry_iff hw hi (hdrop _ (List.getElem_mem hi)).1]
  constructor
  · intro hnever i hi hones
    have hi' := hdigits.length ▸ hi
    rw [allOnes_iff, ← hdigits.imm_get hi' hi] at hones
    exact not_not.mp (hnever i hi' hones)
  · intro hfits i hi hones
    have hi' := hdigits.length ▸ hi
    rw [hdigits.imm_get hi hi', ← allOnes_iff] at hones
    exact not_not_intro (hfits i hi' hones)

end Long

theorem Width.one_lt_bits (width : Width) : 1 < width.bits := by
  cases width <;> decide

/-- One limb comes out right when the incoming carry fits into the second operand,
and a long number when no carry runs into a limb of ones. -/
theorem carry_arithmetic_iff (width : Width) (op : CarryOp) :
    (∀ {core after : Core} {limb : Limb width.bits},
      width.alu.Executes op.withCarry core limb after →
        (ExactWithCarry op core.cpu.regs after.cpu.regs limb ↔
          CarryFits core.cpu.regs limb.imm)) ∧
      ∀ {limbs : List (Limb width.bits)} {last : Bool}, width.alu.LongRun op limbs last →
        (LongExact op limbs last ↔ NoCarryIntoOnes op limbs) :=
  ⟨fun hexec => exactWithCarry_iff width.one_lt_bits hexec,
    fun hrun => longExact_iff width.one_lt_bits hrun⟩

def carryCore (cf : Bool) (al : U8) : Core :=
  (operandCore []).setRegs (((operandCore []).cpu.regs.setCf cf).set8 .AL al)

def adcLimb : Limb 8 := ⟨0, 0xFF, 0⟩

def adcCore : Core :=
  (carryCore true 0).setRegs ((carryCore true 0).cpu.regs.updateAdd8 0 0 0)

theorem adc_executes : byteAlu.Executes 2 (carryCore true 0) adcLimb adcCore :=
  @AluSize.Executes.intro 8 byteAlu 2 (ModRm.decode 0xD0) adcLimb (carryCore true 0)
    (carryCore true 0) adcCore rfl rfl rfl

def addLimb : Limb 8 := ⟨0xFF, 1, 0⟩

def addCore : Core :=
  (carryCore false 0xFF).setRegs ((carryCore false 0xFF).cpu.regs.updateAdd8 0xFF 1 0)

theorem add_executes : byteAlu.Executes 0 (carryCore false 0xFF) addLimb addCore :=
  @AluSize.Executes.intro 8 byteAlu 0 (ModRm.decode 0xC0) addLimb (carryCore false 0xFF)
    (carryCore false 0xFF) addCore rfl rfl rfl

theorem two_limbs : byteAlu.LongRun .add [addLimb, adcLimb] false := by
  have hadd : addCore.cpu.regs.getCf = (carryCore true 0).cpu.regs.getCf := by decide +kernel
  have hadc : adcCore.cpu.regs.getCf = false := by decide +kernel
  refine .intro add_executes ?_
  rw [hadd]
  refine .cons adc_executes ?_
  rw [hadc]
  exact .nil false

theorem carry_arithmetic_byte :
    (ExactWithCarry .add (carryCore true 0).cpu.regs adcCore.cpu.regs adcLimb ↔
        CarryFits (carryCore true 0).cpu.regs adcLimb.imm) ∧
      (LongExact .add [addLimb, adcLimb] false ↔ NoCarryIntoOnes .add [addLimb, adcLimb]) :=
  ⟨(carry_arithmetic_iff .byte .add).1 adc_executes, (carry_arithmetic_iff .byte .add).2 two_limbs⟩

/-- `ADC AL, FFh` with the carry set leaves the carry clear, and so does the addition
of the limbs. -/
theorem adc_loses_carry :
    (byteAlu.Executes 2 (carryCore true 0) adcLimb adcCore ∧
        ¬ ExactWithCarry .add (carryCore true 0).cpu.regs adcCore.cpu.regs adcLimb) ∧
      byteAlu.LongRun .add [addLimb, adcLimb] false ∧
        ¬ LongExact .add [addLimb, adcLimb] false := by
  refine ⟨⟨adc_executes, ?_⟩, two_limbs, ?_⟩
  · rw [exactWithCarry_iff (by decide) adc_executes]
    intro hfits
    exact hfits ⟨by decide +kernel, .inl rfl⟩
  · rw [longExact_iff (by decide) two_limbs]
    intro hnever
    exact absurd (hnever 1 (by decide) rfl) (by decide)

end Kita98
