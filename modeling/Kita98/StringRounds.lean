import Kita98.PrefixLoop
import Kita98.ReadModifyWrite

/-!
# The rounds of a repeated string instruction

Behind `F3` or `F2` come further prefix bytes and the opcode.  The loop then
counts CX down and runs the instruction, round after round, until CX is zero
or a comparison ends it.
-/

namespace Kita98

open WordBits Kita98.Core Exec

/-! ## Prefix bytes behind the repeat prefix -/

section Behind

variable (effect : U8 → Option (PrefixState → PrefixState)) (core : Core)

structure Behind (opcode : U8) (k : ℕ) : Prop where
  passed : ∀ j < k, effect (core.byteAt j) ≠ none
  ends : effect opcode = none
  found : core.byteAt k = opcode

end Behind

section Prefixes

variable {effect : U8 → Option (PrefixState → PrefixState)} {core : Core} {opcode : U8} {k : ℕ}

theorem Behind.lt_prefixFuel (hbehind : Behind effect core opcode k) : k < prefixFuel := by
  refine @Kita98.lt_prefixFuel core (fun byte => effect byte ≠ none) k hbehind.passed ?_
  rw [hbehind.found]
  exact not_not.mpr hbehind.ends

theorem Behind.skips (hbehind : Behind effect core opcode k) :
    skipPrefixes effect prefixFuel (core.byteAt 0) (core.behind effect 0) =
      .ok (opcode, core.behind effect k) := by
  rcases Nat.exists_eq_add_of_lt hbehind.lt_prefixFuel with ⟨spare, hspare⟩
  have hrounds := skipPrefixes_rounds (spare + 1) hbehind.passed
  rw [hspare, show k + spare + 1 = spare + 1 + k by omega, hrounds, hbehind.found, skipPrefixes,
    hbehind.ends]
  rfl

end Prefixes

/-! ## The loop -/

/-- One round: CX counted down and the instruction run. -/
def countedStep (step : Core → Core) (core : Core) : Core :=
  step (core.setRegs (core.cpu.regs.set16 .CX (core.cpu.regs.get16 .CX - 1)))

/-- The loop ends with `n` rounds: with the first one that `stops`, or when CX
is used up. -/
structure EndsAfter (step : Core → Core) (stops : Core → Prop) (core : Core) (n : ℕ) : Prop where
  within : n ≤ (core.cpu.regs.get16 .CX).toNat
  goesOn : ∀ i, 0 < i → i < n → ¬ stops ((countedStep step)^[i] core)
  ends : n = (core.cpu.regs.get16 .CX).toNat ∨ 0 < n ∧ stops ((countedStep step)^[n] core)

section Loop

variable {body : Routine Unit} {compares stopZf : Bool} {step : Core → Core} {n : ℕ}

/-- A comparison found what the loop was looking for. -/
def StopsOn (compares stopZf : Bool) (core : Core) : Prop :=
  compares = true ∧ core.cpu.regs.getZf = stopZf

instance (core : Core) : Decidable (StopsOn compares stopZf core) := by
  unfold StopsOn
  infer_instance

theorem repLoop_used_up {core : Core} (fuel : ℕ) (hzero : core.cpu.regs.get16 .CX = 0) :
    repLoop body compares stopZf (fuel + 1) core = .ok ((), core) := by
  simp [repLoop, getRegs, bind_apply, hzero]

theorem repLoop_round {core : Core} (fuel : ℕ) (hbody : ∀ c, body c = .ok ((), step c))
    (hne : core.cpu.regs.get16 .CX ≠ 0) :
    repLoop body compares stopZf (fuel + 1) core =
      if StopsOn compares stopZf (countedStep step core) then .ok ((), countedStep step core)
      else repLoop body compares stopZf fuel (countedStep step core) := by
  have hcount : modRegs (fun regs => regs.set16 .CX (core.cpu.regs.get16 .CX - 1)) core =
      .ok ((), core.setRegs (core.cpu.regs.set16 .CX (core.cpu.regs.get16 .CX - 1))) := rfl
  have hround := hbody (core.setRegs (core.cpu.regs.set16 .CX (core.cpu.regs.get16 .CX - 1)))
  rw [repLoop, bind_apply]
  simp only [getRegs, read_apply, if_neg hne]
  rw [bind_ok hcount, bind_ok hround, bind_apply]
  simp only [read_apply]
  by_cases hstop : StopsOn compares stopZf (countedStep step core)
  · rw [if_pos hstop]
    exact congrFun (if_pos hstop) (countedStep step core)
  · rw [if_neg hstop]
    exact congrFun (if_neg hstop) (countedStep step core)

theorem EndsAfter.next {core : Core} {stops : Core → Prop}
    (hcx : ∀ c, (step c).cpu.regs.get16 .CX = c.cpu.regs.get16 .CX)
    (hends : EndsAfter step stops core (n + 1)) (hgoes : ¬ stops (countedStep step core)) :
    EndsAfter step stops (countedStep step core) n := by
  have hcount : ((countedStep step core).cpu.regs.get16 .CX).toNat + 1 =
      (core.cpu.regs.get16 .CX).toNat := by
    have hwithin := hends.within
    unfold countedStep
    rw [hcx, setRegs_cpu_regs, Regs.get16_set16_self]
    bv_omega
  constructor
  · have hwithin := hends.within
    omega
  · intro i hpos hi
    rw [← Function.iterate_succ_apply]
    exact hends.goesOn (i + 1) (Nat.succ_pos i) (Nat.succ_lt_succ hi)
  · rcases hends.ends with hall | ⟨-, hstop⟩
    · left
      omega
    · cases n with
      | zero => exact absurd hstop hgoes
      | succ n => exact .inr ⟨Nat.succ_pos n, hstop⟩

theorem repLoop_ends {core : Core} {fuel : ℕ}
    (hbody : ∀ c, body c = .ok ((), step c))
    (hcx : ∀ c, (step c).cpu.regs.get16 .CX = c.cpu.regs.get16 .CX)
    (hends : EndsAfter step (StopsOn compares stopZf) core n) (hfuel : n < fuel) :
    repLoop body compares stopZf fuel core = .ok ((), (countedStep step)^[n] core) := by
  induction n generalizing core fuel with
  | zero =>
      rcases Nat.exists_eq_add_of_lt hfuel with ⟨fuel, rfl⟩
      have hzero : core.cpu.regs.get16 .CX = 0 := by
        rcases hends.ends with hall | hstop
        · exact BitVec.eq_of_toNat_eq hall.symm
        · exact absurd hstop.1 (Nat.lt_irrefl 0)
      exact repLoop_used_up _ hzero
  | succ n ih =>
      rcases Nat.exists_eq_add_of_lt hfuel with ⟨fuel, rfl⟩
      have hne : core.cpu.regs.get16 .CX ≠ 0 := by
        intro hzero
        have hwithin := hends.within
        rw [hzero] at hwithin
        exact Nat.not_succ_le_zero n hwithin
      rw [repLoop_round _ hbody hne, Function.iterate_succ_apply]
      by_cases hstop : StopsOn compares stopZf (countedStep step core)
      · have hlast : n = 0 := by
          by_contra hmore
          exact hends.goesOn 1 (by decide) (by omega) hstop
        rw [if_pos hstop, hlast]
        rfl
      · rw [if_neg hstop]
        exact ih (hends.next hcx hstop) (by omega)

end Loop

section Arms

variable {core : Core} {opcode : U8} {body : Routine Unit} {step : Core → Core} {k n : ℕ}

theorem EndsAfter.lt_repFuel {stops : Core → Prop} (hends : EndsAfter step stops core n) :
    n < repFuel := by
  have hbound := (core.cpu.regs.get16 .CX).isLt
  exact Nat.lt_of_le_of_lt hends.within hbound

theorem repArm_behind {compares : Bool}
    (hbehind : Behind prefixEffect core opcode k)
    (hop : stringOp opcode = some (body, compares)) :
    repArm core = (do
      repLoop body compares false repFuel
      return .proceed : Routine StepResult) (core.behind prefixEffect k) := by
  have hfirst : fetchU8 core = .ok (core.byteAt 0, core.behind prefixEffect 0) := rfl
  rw [repArm, bind_ok hfirst, bind_ok hbehind.skips, hop]

/-- Behind `F2`, only the comparing instructions are repeated. -/
theorem repneArm_behind {compares : Bool}
    (hbehind : Behind repnePrefixEffect core opcode k)
    (hop : stringOp opcode = some (body, compares)) :
    repneArm core = (if compares then do
        repLoop body true true repFuel
        return .proceed
      else dispatch opcode : Routine StepResult) (core.behind repnePrefixEffect k) := by
  have hfirst : fetchU8 core = .ok (core.byteAt 0, core.behind repnePrefixEffect 0) := rfl
  rw [repneArm, bind_ok hfirst, bind_ok hbehind.skips, hop]
  cases compares <;> rfl

theorem rep_rounds {compares : Bool}
    (hbehind : Behind prefixEffect core opcode k)
    (hop : stringOp opcode = some (body, compares))
    (hbody : ∀ c, body c = .ok ((), step c))
    (hcx : ∀ c, (step c).cpu.regs.get16 .CX = c.cpu.regs.get16 .CX)
    (hends : EndsAfter step (StopsOn compares false) (core.behind prefixEffect k) n) :
    dispatchString 0xF3 core =
      .ok (.proceed, (countedStep step)^[n] (core.behind prefixEffect k)) := by
  have hloop := repLoop_ends hbody hcx hends hends.lt_repFuel
  calc
    dispatchString 0xF3 core = repArm core := rfl
    _ = .ok (.proceed, (countedStep step)^[n] (core.behind prefixEffect k)) := by
      rw [repArm_behind hbehind hop, bind_ok hloop]
      rfl

theorem repne_rounds
    (hbehind : Behind repnePrefixEffect core opcode k)
    (hop : stringOp opcode = some (body, true))
    (hbody : ∀ c, body c = .ok ((), step c))
    (hcx : ∀ c, (step c).cpu.regs.get16 .CX = c.cpu.regs.get16 .CX)
    (hends : EndsAfter step (StopsOn true true) (core.behind repnePrefixEffect k) n) :
    dispatchString 0xF2 core =
      .ok (.proceed, (countedStep step)^[n] (core.behind repnePrefixEffect k)) := by
  have hloop := repLoop_ends hbody hcx hends hends.lt_repFuel
  calc
    dispatchString 0xF2 core = repneArm core := rfl
    _ = .ok (.proceed, (countedStep step)^[n] (core.behind repnePrefixEffect k)) := by
      rw [repneArm_behind hbehind hop, if_pos rfl, bind_ok hloop]
      rfl

end Arms

end Kita98
