import Mathlib.Logic.Basic
import Mathlib.Order.Defs.Unbundled
import Mathlib.Tactic.Common

/-!
# State-passing computations that may fail

A computation over a state `σ` either yields a value together with the next
state or ends in a fault of type `ε`; a faulting computation has no next
state.  The file collects the equations that run such a computation and three
judgements with their structural rules: what a value can be (`Returns`), which
part of the state survives (`Keeps`), and how the states before and after are
related and what the faults are (`Obeys`).
-/

abbrev Exec (ε σ α : Type) := StateT σ (Except ε) α

namespace Exec

variable {ε σ τ α β : Type}

theorem bind_apply
    (x : Exec ε σ α) (f : α → Exec ε σ β) (s : σ) :
    (x >>= f) s =
      match x s with
      | .ok (a, next) => f a next
      | .error e => .error e := by
  simp only [bind, StateT.bind, Except.bind]
  cases x s <;> rfl

@[simp] theorem pure_apply (a : α) (s : σ) :
    (pure a : Exec ε σ α) s = .ok (a, s) := rfl

theorem bind_ok
    {x : Exec ε σ α} {f : α → Exec ε σ β} {s next : σ} {a : α}
    (hx : x s = .ok (a, next)) :
    (x >>= f) s = f a next := by
  rw [bind_apply, hx]

theorem bind_error
    {x : Exec ε σ α} {f : α → Exec ε σ β} {s : σ} {e : ε}
    (hx : x s = .error e) :
    (x >>= f) s = .error e := by
  rw [bind_apply, hx]

theorem bind_eq_ok
    {x : Exec ε σ α} {f : α → Exec ε σ β} {s last : σ} {b : β}
    (hrun : (x >>= f) s = .ok (b, last)) :
    ∃ a next, x s = .ok (a, next) ∧ f a next = .ok (b, last) := by
  rw [bind_apply] at hrun
  cases hx : x s with
  | error e => simp [hx] at hrun
  | ok p =>
      obtain ⟨a, next⟩ := p
      rw [hx] at hrun
      exact ⟨a, next, rfl, hrun⟩

theorem bind_eq_error
    {x : Exec ε σ α} {f : α → Exec ε σ β} {s : σ} {e : ε}
    (hrun : (x >>= f) s = .error e) :
    x s = .error e ∨ ∃ a next, x s = .ok (a, next) ∧ f a next = .error e := by
  rw [bind_apply] at hrun
  cases hx : x s with
  | error e' =>
      rw [hx] at hrun
      cases hrun
      exact .inl rfl
  | ok p =>
      rcases p with ⟨a, next⟩
      rw [hx] at hrun
      exact .inr ⟨a, next, rfl, hrun⟩

def read (f : σ → α) : Exec ε σ α := fun s => .ok (f s, s)

def update (f : σ → σ) : Exec ε σ Unit := fun s => .ok ((), f s)

def fail (e : ε) : Exec ε σ α := fun _ => .error e

@[simp] theorem read_apply (f : σ → α) (s : σ) :
    (read f : Exec ε σ α) s = .ok (f s, s) := rfl

@[simp] theorem update_apply (f : σ → σ) (s : σ) :
    (update f : Exec ε σ Unit) s = .ok ((), f s) := rfl

@[simp] theorem fail_apply (e : ε) (s : σ) :
    (fail e : Exec ε σ α) s = .error e := rfl

/-- Run a computation over one part of a larger state. -/
def focus (get : τ → σ) (set : σ → τ → τ) (x : Exec ε σ α) : Exec ε τ α :=
  fun t =>
    match x (get t) with
    | .ok (a, s) => .ok (a, set s t)
    | .error e => .error e

theorem focus_ok
    {get : τ → σ} {set : σ → τ → τ} {x : Exec ε σ α}
    {t : τ} {a : α} {s : σ} (hx : x (get t) = .ok (a, s)) :
    focus get set x t = .ok (a, set s t) := by
  simp [focus, hx]

theorem focus_eq_ok
    {get : τ → σ} {set : σ → τ → τ} {x : Exec ε σ α} {t t' : τ} {a : α}
    (hrun : focus get set x t = .ok (a, t')) :
    ∃ s, x (get t) = .ok (a, s) ∧ t' = set s t := by
  unfold focus at hrun
  cases hx : x (get t) with
  | error e =>
      rw [hx] at hrun
      cases hrun
  | ok result =>
      obtain ⟨b, s⟩ := result
      rw [hx] at hrun
      cases hrun
      exact ⟨s, rfl, rfl⟩

theorem focus_error_iff {get : τ → σ} {set : σ → τ → τ} {x : Exec ε σ α} {t : τ} {e : ε} :
    focus get set x t = .error e ↔ x (get t) = .error e := by
  unfold focus
  cases x (get t) <;> simp

theorem eq_ok_of_toOption {x : Except ε τ} {t : τ} (hsome : x.toOption = some t) : x = .ok t := by
  cases x with
  | error e => cases hsome
  | ok t' => exact congrArg Except.ok (Option.some.inj hsome)

theorem eq_ok_ok_of_toOption {x : Except ε (Except β τ)} {t : τ}
    (hsome : x.toOption.bind Except.toOption = some t) : x = .ok (.ok t) := by
  rcases Option.bind_eq_some_iff.mp hsome with ⟨y, hx, hy⟩
  rw [eq_ok_of_toOption hx, eq_ok_of_toOption hy]

/-- What a part of the outcome is tells that there is one. -/
theorem exists_of_map
    {x : Except ε τ} (f : τ → β) {b : β} (hmap : x.toOption.map f = some b) :
    ∃ t, x = .ok t ∧ f t = b := by
  cases x with
  | error e => cases hmap
  | ok t => exact ⟨t, rfl, Option.some.inj hmap⟩

/-! ## Counted loops -/

def times (body : ℕ → Exec ε σ Unit) : ℕ → Exec ε σ Unit
  | 0 => pure ()
  | n + 1 => do
      times body n
      body n

/-- A loop whose body steps an invariant on runs through and ends in it. -/
theorem times_ok
    {body : ℕ → Exec ε σ Unit} {n : ℕ} {I : ℕ → σ → Prop} {s : σ} (hstart : I 0 s)
    (hbody : ∀ k < n, ∀ s, I k s → ∃ next, body k s = .ok ((), next) ∧ I (k + 1) next) :
    ∃ last, times body n s = .ok ((), last) ∧ I n last := by
  induction n with
  | zero => exact ⟨s, rfl, hstart⟩
  | succ n ih =>
      rcases ih fun k hk => hbody k (Nat.lt_succ_of_lt hk) with ⟨mid, hmid, hinv⟩
      rcases hbody n (Nat.lt_succ_self n) mid hinv with ⟨last, hlast, hinv'⟩
      exact ⟨last, (bind_ok hmid).trans hlast, hinv'⟩

/-- At most `n` rounds of a loop that its body leaves by yielding a value. -/
def rounds (body : Exec ε σ (Option α)) : ℕ → Exec ε σ (Option α)
  | 0 => pure none
  | n + 1 => do
      match ← body with
      | some a => pure (some a)
      | none => rounds body n

theorem rounds_of_some
    {body : Exec ε σ (Option α)} {s next : σ} {a : α} (n : ℕ)
    (hbody : body s = .ok (some a, next)) : rounds body (n + 1) s = .ok (some a, next) := by
  unfold rounds
  rw [bind_ok hbody]
  rfl

theorem rounds_of_none
    {body : Exec ε σ (Option α)} {s next : σ} (n : ℕ) (hbody : body s = .ok (none, next)) :
    rounds body (n + 1) s = rounds body n next := by
  rw [rounds, bind_ok hbody]

/-- A loop ends if each round that does not leave it steps a bounded invariant
on. -/
theorem rounds_end
    {body : Exec ε σ (Option α)} {n : ℕ} {I : ℕ → σ → Prop} {Q : α → σ → Prop}
    (hleave : ∀ k s a next, I k s → body s = .ok (some a, next) → Q a next)
    (hbody : ∀ k s, I k s → ∃ left next, body s = .ok (left, next) ∧
      (left = none → k < n ∧ I (k + 1) next))
    {k : ℕ} {s : σ} (hs : I k s) :
    ∃ a last, rounds body (n - k + 1) s = .ok (some a, last) ∧ Q a last := by
  induction hm : n - k generalizing k s with
  | zero =>
      obtain ⟨left, next, hround, hgoes⟩ := hbody k s hs
      cases left with
      | some a => exact ⟨a, next, rounds_of_some _ hround, hleave k s a next hs hround⟩
      | none =>
          obtain ⟨hlt, -⟩ := hgoes rfl
          omega
  | succ m ih =>
      obtain ⟨left, next, hround, hgoes⟩ := hbody k s hs
      cases left with
      | some a => exact ⟨a, next, rounds_of_some _ hround, hleave k s a next hs hround⟩
      | none =>
          obtain ⟨-, hnext⟩ := hgoes rfl
          obtain ⟨a, last, hlast, hq⟩ := ih hnext (by omega)
          exact ⟨a, last, (rounds_of_none _ hround).trans hlast, hq⟩

/-! ## Values a computation can return -/

/-- Every value returned normally satisfies `P`. -/
def Returns (x : Exec ε σ α) (P : α → Prop) : Prop :=
  ∀ s a next, x s = .ok (a, next) → P a

namespace Returns

variable {P : α → Prop} {Q : β → Prop}

theorem pure {a : α} (ha : P a) : Returns (Pure.pure a : Exec ε σ α) P := by
  intro s b next hrun
  cases hrun
  exact ha

theorem fail (e : ε) : Returns (Exec.fail e : Exec ε σ α) P := by
  intro s a next hrun
  cases hrun

theorem read {f : σ → α} (hf : ∀ s, P (f s)) : Returns (Exec.read f : Exec ε σ α) P := by
  intro s a next hrun
  cases hrun
  exact hf s

/-- Only the last computation of a sequence decides its value. -/
theorem bind {x : Exec ε σ α} {f : α → Exec ε σ β}
    (hf : ∀ a, Returns (f a) Q) : Returns (x >>= f) Q := by
  intro s b last hrun
  obtain ⟨a, next, -, hnext⟩ := bind_eq_ok hrun
  exact hf a next b last hnext

theorem ite {c : Prop} [Decidable c] {x y : Exec ε σ α}
    (hx : Returns x P) (hy : Returns y P) :
    Returns (if c then x else y) P := by
  split <;> assumption

end Returns

/-! ## Parts of the state a computation leaves alone -/

/-- Every normal return leaves the projection `f` of the state as it was. -/
def Keeps (f : σ → τ) (x : Exec ε σ α) : Prop :=
  ∀ s a next, x s = .ok (a, next) → f next = f s

namespace Keeps

variable {f : σ → τ}

theorem pure (a : α) : Keeps f (Pure.pure a : Exec ε σ α) := by
  intro s b next hrun
  cases hrun
  rfl

theorem fail (e : ε) : Keeps f (Exec.fail e : Exec ε σ α) := by
  intro s a next hrun
  cases hrun

theorem read (g : σ → α) : Keeps f (Exec.read g : Exec ε σ α) := by
  intro s a next hrun
  cases hrun
  rfl

theorem update {g : σ → σ} (hg : ∀ s, f (g s) = f s) :
    Keeps f (Exec.update g : Exec ε σ Unit) := by
  intro s a next hrun
  cases hrun
  exact hg s

theorem bind {x : Exec ε σ α} {g : α → Exec ε σ β}
    (hx : Keeps f x) (hg : ∀ a, Keeps f (g a)) : Keeps f (x >>= g) := by
  intro s b last hrun
  obtain ⟨a, next, hfirst, hrest⟩ := bind_eq_ok hrun
  rw [hg a next b last hrest, hx s a next hfirst]

theorem ite {c : Prop} [Decidable c] {x y : Exec ε σ α}
    (hx : Keeps f x) (hy : Keeps f y) : Keeps f (if c then x else y) := by
  split <;> assumption

end Keeps

/-- `Keeps f x`, found from the shape of `x`. -/
class Quiet (f : σ → τ) (x : Exec ε σ α) : Prop where
  keeps : Keeps f x

namespace Quiet

variable {f : σ → τ}

instance pure (a : α) : Quiet f (Pure.pure a : Exec ε σ α) := ⟨.pure a⟩

instance fail (e : ε) : Quiet f (Exec.fail e : Exec ε σ α) := ⟨.fail e⟩

instance read (g : σ → α) : Quiet f (Exec.read g : Exec ε σ α) := ⟨.read g⟩

instance bind (x : Exec ε σ α) (g : α → Exec ε σ β) [Quiet f x] [∀ a, Quiet f (g a)] :
    Quiet f (x >>= g) :=
  ⟨.bind keeps fun _ => keeps⟩

instance ite (c : Prop) [Decidable c] (x y : Exec ε σ α) [Quiet f x] [Quiet f y] :
    Quiet f (if c then x else y) :=
  ⟨.ite keeps keeps⟩

end Quiet

/-! ## What a computation does, returning or failing -/

/-- Every normal return is related to the state before by `R`, and every fault
satisfies `P`; found from the shape of `x`, as `Quiet` is. -/
class Obeys (R : σ → σ → Prop) (P : ε → Prop) (x : Exec ε σ α) : Prop where
  returns : ∀ {s a next}, x s = .ok (a, next) → R s next
  fails : ∀ {s e}, x s = .error e → P e

namespace Obeys

variable {R : σ → σ → Prop} {P Q : ε → Prop}

theorem of_update {g : σ → σ} (hg : ∀ s, R s (g s)) :
    Obeys R P (Exec.update g : Exec ε σ Unit) := by
  constructor
  · intro s a next hrun
    cases hrun
    exact hg s
  · intro s e hrun
    cases hrun

theorem of_fail {e : ε} (he : P e) : Obeys R P (Exec.fail e : Exec ε σ α) := by
  constructor
  · intro s a next hrun
    cases hrun
  · intro s e' hrun
    cases hrun
    exact he

theorem mono {x : Exec ε σ α} (hx : Obeys R P x) (hsub : ∀ e, P e → Q e) : Obeys R Q x := by
  constructor
  · exact hx.returns
  · intro s e hrun
    exact hsub e (hx.fails hrun)

section Preorder

variable [IsPreorder σ R]

instance pure (a : α) : Obeys R P (Pure.pure a : Exec ε σ α) := by
  constructor
  · intro s b next hrun
    cases hrun
    exact refl s
  · intro s e hrun
    cases hrun

instance read (g : σ → α) : Obeys R P (Exec.read g : Exec ε σ α) := by
  constructor
  · intro s a next hrun
    cases hrun
    exact refl s
  · intro s e hrun
    cases hrun

instance bind (x : Exec ε σ α) (g : α → Exec ε σ β) [hx : Obeys R P x]
    [hg : ∀ a, Obeys R P (g a)] : Obeys R P (x >>= g) := by
  constructor
  · intro s b last hrun
    rcases bind_eq_ok hrun with ⟨a, next, hfirst, hrest⟩
    exact IsTrans.trans _ _ _ (hx.returns hfirst) ((hg a).returns hrest)
  · intro s e hrun
    rcases bind_eq_error hrun with hfirst | ⟨a, next, -, hrest⟩
    · exact hx.fails hfirst
    · exact (hg a).fails hrest

theorem seq {x : Exec ε σ α} {g : α → Exec ε σ β} [Obeys R P x] (hg : ∀ a, Obeys R P (g a)) :
    Obeys R P (x >>= g) :=
  bind x g

end Preorder

instance ite (c : Prop) [Decidable c] (x y : Exec ε σ α) [Obeys R P x] [Obeys R P y] :
    Obeys R P (if c then x else y) := by
  split <;> assumption

end Obeys

/-! ## Parts of the state a computation does not see -/

/-- The computation does not depend on what `f` changes, and leaves it changed. -/
def Blind (f : σ → σ) (x : Exec ε σ α) : Prop := ∀ s, x (f s) = (x s).map (Prod.map id f)

namespace Blind

variable {f : σ → σ}

theorem pure (a : α) : Blind f (Pure.pure a : Exec ε σ α) := fun _ => rfl

theorem fail (e : ε) : Blind f (Exec.fail e : Exec ε σ α) := fun _ => rfl

theorem read {g : σ → α} (hg : ∀ s, g (f s) = g s) : Blind f (Exec.read g : Exec ε σ α) := by
  intro s
  rw [read_apply, read_apply, hg]
  rfl

theorem update {g : σ → σ} (hg : ∀ s, g (f s) = f (g s)) :
    Blind f (Exec.update g : Exec ε σ Unit) := by
  intro s
  rw [update_apply, update_apply, hg]
  rfl

theorem bind {x : Exec ε σ α} {g : α → Exec ε σ β} (hx : Blind f x) (hg : ∀ a, Blind f (g a)) :
    Blind f (x >>= g) := by
  intro s
  rw [bind_apply, bind_apply, hx s]
  cases x s with
  | error e => rfl
  | ok p => exact hg p.1 p.2

theorem ite {c : Prop} [Decidable c] {x y : Exec ε σ α} (hx : Blind f x) (hy : Blind f y) :
    Blind f (if c then x else y) := by
  split <;> assumption

/-- A part of the state does not see the rest. -/
theorem focus {get : σ → τ} {set : τ → σ → σ} (hget : ∀ s, get (f s) = get s)
    (hset : ∀ t s, set t (f s) = f (set t s)) (x : Exec ε τ α) :
    Blind f (Exec.focus get set x) := by
  intro s
  unfold Exec.focus
  rw [hget]
  cases x (get s) with
  | error e => rfl
  | ok p =>
      simp only [hset]
      rfl

end Blind

end Exec
