import Kita98.Runtime

/-!
# Runs of the machine

A run is a chain of calls of `step`, each of which returned.
-/

namespace Kita98

open Exec

variable {H : HostFiles}

/-- A run: the states, latest first, that a call of `step` left for the next
one, and the state reached. -/
inductive Run (start : Runtime H) : List (Runtime H) → Runtime H → Prop
  | start : Run start [] start
  | step {past : List (Runtime H)} {rt rt' : Runtime H} {result : Except Error StepResult}
      (hrun : Run start past rt) (hstep : step rt = .ok (result, rt')) :
      Run start (rt :: past) rt'

/-- `step` goes on to the block translator. -/
def Executes (rt : Runtime H) : Prop := rt.cpu.halted = false ∧ limitReached rt = false

instance (rt : Runtime H) : Decidable (Executes rt) := by
  unfold Executes
  infer_instance

theorem step_of_executes {rt : Runtime H} (hexecutes : Executes rt) :
    step rt = (executeNext >>= handleStepResult) rt := by
  unfold step
  rw [bind_ok (read_apply id rt)]
  simp only [id, hexecutes.1, hexecutes.2, Bool.false_eq_true, if_false]

/-- Otherwise it reports `Halt`, and the machine is halted. -/
theorem step_of_not_executes {rt : Runtime H} (hexecutes : ¬ Executes rt) :
    step rt = .ok (.ok .halt, { rt with cpu := { rt.cpu with halted := true } }) := by
  unfold step
  rw [bind_ok (read_apply id rt)]
  simp only [id]
  cases hhalted : rt.cpu.halted with
  | true =>
      rw [if_pos rfl, ← hhalted]
      rfl
  | false =>
      have hlimit : limitReached rt = true := by
        by_contra hnot
        exact hexecutes ⟨hhalted, Bool.eq_false_iff.mpr hnot⟩
      rw [if_neg Bool.false_ne_true, if_pos hlimit]
      rfl

theorem step_of_halted {rt : Runtime H} (hhalted : rt.cpu.halted = true) :
    step rt = .ok (.ok .halt, rt) := by
  have hidle : ¬ Executes rt := fun hexecutes => by simp [hexecutes.1] at hhalted
  rw [step_of_not_executes hidle, ← hhalted]

theorem step_of_limit
    {rt : Runtime H} (hlimit : limitReached rt = true) :
    ∃ rt', step rt = .ok (.ok .halt, rt') ∧ rt'.cpu.halted = true := by
  have hidle : ¬ Executes rt := fun hexecutes => by simp [hexecutes.2] at hlimit
  exact ⟨_, step_of_not_executes hidle, rfl⟩

theorem Run.reached {start rt : Runtime H} {past : List (Runtime H)} (hrun : Run start past rt) :
    ∀ old ∈ past, ∃ earlier, Run start earlier old := by
  induction hrun with
  | start =>
      intro old hold
      cases hold
  | @step past rt rt' result hrun hstep ih =>
      intro old hold
      rcases List.mem_cons.mp hold with rfl | hold
      · exact ⟨past, hrun⟩
      · exact ih old hold

/-! ## What the end of a step leaves alone -/

section Keeps

variable {τ : Type} {f : Runtime H → τ}

theorem advanceBatch_keeps
    (hindex : ∀ rt index, f { rt with currentBatchIndex := index } = f rt)
    (hstart : ∀ data, Keeps f (onMachine (onCore (startProgram data)))) :
    Keeps f advanceBatch := by
  have hload : ∀ entry, Keeps f (loadNext entry) := by
    intro entry
    unfold loadNext
    apply Keeps.bind (.read _)
    intro disk
    cases readDiskFile disk entry with
    | error e => exact .pure _
    | ok data =>
        apply Keeps.bind (hstart data)
        intro result
        cases result <;> exact .pure _
  unfold advanceBatch
  apply Keeps.bind (.update fun rt => hindex rt _)
  intro u
  apply Keeps.bind (.read _)
  intro entry
  cases entry with
  | none => exact .pure _
  | some entry => exact hload entry

theorem handleStepResult_keeps
    (hindex : ∀ rt index, f { rt with currentBatchIndex := index } = f rt)
    (hstart : ∀ data, Keeps f (onMachine (onCore (startProgram data))))
    (hservice : ∀ num, Keeps f (onMachine (serviceInterrupt num))) (result : StepResult) :
    Keeps f (handleStepResult result) := by
  cases result with
  | proceed => exact .pure _
  | halt => exact advanceBatch_keeps hindex hstart
  | interrupt num => exact .bind (hservice num) fun _ => .pure _
  | unimplemented op => exact .pure _

end Keeps

end Kita98
