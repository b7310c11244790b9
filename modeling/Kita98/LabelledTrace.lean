import Mathlib.Data.List.Basic

/-!
# Traces of labelled steps

A trace lists the steps taken, latest first, each with its label and the state
it was taken in.
-/

inductive LabelledTrace {α σ : Type} (step : α → σ → σ → Prop) (start : σ) :
    List (α × σ) → σ → Prop
  | start : LabelledTrace step start [] start
  | next {past : List (α × σ)} {label : α} {s s' : σ}
      (htrace : LabelledTrace step start past s) (hstep : step label s s') :
      LabelledTrace step start ((label, s) :: past) s'

namespace LabelledTrace

variable {α σ : Type} {step : α → σ → σ → Prop} {start mid last : σ}
  {past later : List (α × σ)}

theorem single {label : α} (hstep : step label start last) :
    LabelledTrace step start [(label, start)] last :=
  .next .start hstep

theorem append
    (hfirst : LabelledTrace step start past mid) (hrest : LabelledTrace step mid later last) :
    LabelledTrace step start (later ++ past) last := by
  induction hrest with
  | start => exact hfirst
  | next hbefore hstep ih => exact .next ih hstep

/-- A preorder that each step follows relates the ends of a trace. -/
theorem related
    {R : σ → σ → Prop} [IsPreorder σ R] (hstep : ∀ label s s', step label s s' → R s s')
    (htrace : LabelledTrace step start past last) : R start last := by
  induction htrace with
  | start => exact refl_of R start
  | next hbefore hone ih => exact trans_of R ih (hstep _ _ _ hone)

/-- A property that each step keeps unless it is a step of a certain kind holds
all along a trace if and only if no step is of that kind. -/
theorem invariant_iff
    {P : σ → Prop} {B : α → σ → Prop} (hstart : P start)
    (hkeeps : ∀ label s s', P s → step label s s' → (P s' ↔ ¬ B label s))
    (htrace : LabelledTrace step start past last) :
    (P last ∧ ∀ entry ∈ past, P entry.2) ↔ ∀ entry ∈ past, ¬ B entry.1 entry.2 := by
  induction htrace with
  | start => simp [hstart]
  | @next past label s s' hbefore hstep ih =>
      constructor
      · rintro ⟨hlast, hall⟩
        have hs : P s := hall _ List.mem_cons_self
        have hpast := ih.mp ⟨hs, fun entry hentry => hall entry (List.mem_cons_of_mem _ hentry)⟩
        intro entry hentry
        rcases List.mem_cons.mp hentry with rfl | hentry
        · exact (hkeeps label s s' hs hstep).mp hlast
        · exact hpast entry hentry
      · intro hnone
        rcases ih.mpr fun entry hentry => hnone entry (List.mem_cons_of_mem _ hentry) with
          ⟨hs, hall⟩
        refine ⟨(hkeeps label s s' hs hstep).mpr (hnone _ List.mem_cons_self), ?_⟩
        intro entry hentry
        rcases List.mem_cons.mp hentry with rfl | hentry
        · exact hs
        · exact hall entry hentry

end LabelledTrace
