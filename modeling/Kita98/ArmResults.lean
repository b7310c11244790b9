import Kita98.Dispatch

/-!
# What the arms return

No arm of the dispatchers refuses an instruction, with one exception: the
seventh member of group FF.  The stack, transfer and string arms always ask to
go on, and the others are followed once, for any property of `Continue` and
the interrupts.
-/

namespace Kita98

open Exec

def Known (result : StepResult) : Prop :=
  ∀ op : U8, result = .unimplemented op → op = 0xFF

/-- An arm that neither halts nor refuses what it was entered for. -/
def Handled (result : StepResult) : Prop := result ≠ .halt ∧ Known result

theorem handled_proceed : Handled .proceed := by
  constructor
  · intro heq
    cases heq
  · intro op heq
    cases heq

theorem handled_interrupt (num : U8) : Handled (.interrupt num) := by
  constructor
  · intro heq
    cases heq
  · intro op heq
    cases heq

theorem handled_refusal : Handled (.unimplemented 0xFF) := by
  constructor
  · intro heq
    cases heq
  · intro op heq
    cases heq
    rfl

/-- A property of `Continue` and of every interrupt. -/
class Answers (P : StepResult → Prop) : Prop where
  proceed : P .proceed
  interrupt : ∀ num, P (.interrupt num)

variable {P : StepResult → Prop} [answers : Answers P]

theorem group3Rm8_answers : Returns group3Rm8 P := by
  unfold group3Rm8
  refine .bind fun modrm => ?_
  split
  · exact .bind fun _ => .bind fun _ => .bind fun _ => .pure answers.proceed
  · exact .bind fun _ => .bind fun _ => .bind fun _ => .pure answers.proceed
  · exact .bind fun _ => .bind fun _ => .bind fun _ => .pure answers.proceed
  · exact .bind fun _ => .bind fun _ => .pure answers.proceed
  · exact .bind fun _ => .bind fun _ => .bind fun _ => .pure answers.proceed
  · exact .bind fun _ => .bind fun _ => .bind fun _ => .pure answers.proceed
  · refine .bind fun _ => .ite (.pure (answers.interrupt 0)) ?_
    exact .bind fun _ => .bind fun _ => .bind fun _ => .pure answers.proceed
  · refine .bind fun _ => .ite (.pure (answers.interrupt 0)) ?_
    refine .bind fun _ => .ite (.fail _) ?_
    exact .bind fun _ => .bind fun _ => .pure answers.proceed

theorem group3Rm16_answers : Returns group3Rm16 P := by
  unfold group3Rm16
  refine .bind fun modrm => ?_
  split
  · exact .bind fun _ => .bind fun _ => .bind fun _ => .pure answers.proceed
  · exact .bind fun _ => .bind fun _ => .bind fun _ => .pure answers.proceed
  · exact .bind fun _ => .bind fun _ => .bind fun _ => .pure answers.proceed
  · exact .bind fun _ => .bind fun _ => .pure answers.proceed
  · exact .bind fun _ => .bind fun _ => .bind fun _ => .bind fun _ => .bind fun _ =>
      .pure answers.proceed
  · exact .bind fun _ => .bind fun _ => .bind fun _ => .bind fun _ => .bind fun _ =>
      .pure answers.proceed
  · refine .bind fun _ => .ite (.pure (answers.interrupt 0)) ?_
    exact .bind fun _ => .bind fun _ => .bind fun _ => .pure answers.proceed
  · refine .bind fun _ => .ite (.pure (answers.interrupt 0)) ?_
    refine .bind fun _ => .ite (.fail _) ?_
    exact .bind fun _ => .bind fun _ => .pure answers.proceed

theorem aluArm_answers {opcode : U8} {routine : Routine StepResult}
    (harm : aluArm opcode = some routine) : Returns routine P := by
  unfold aluArm at harm
  split at harm <;> cases harm
  · exact .bind fun _ => .bind fun _ => .bind fun _ => .pure answers.proceed
  · exact .bind fun _ => .bind fun _ => .bind fun _ => .pure answers.proceed
  · exact .bind fun _ => .bind fun _ => .bind fun _ => .pure answers.proceed
  · exact .bind fun _ => .bind fun _ => .bind fun _ => .pure answers.proceed
  · exact group3Rm8_answers
  · exact group3Rm16_answers

/-- Group FF refuses its seventh member, with the ModRM byte fetched. -/
theorem groupFF_cases
    {core next : Core} {result : StepResult} (hrun : groupFF core = .ok (result, next)) :
    P result ∨ ∃ modrm, fetchModrm core = .ok (modrm, next) ∧ modrm.reg = 7 ∧
      result = .unimplemented 0xFF := by
  rcases bind_eq_ok hrun with ⟨modrm, fetched, hfetch, hmember⟩
  have hanswer : ∀ routine : Routine StepResult, Returns routine P →
      routine fetched = .ok (result, next) → P result :=
    fun routine hreturns hroutine => hreturns _ _ _ hroutine
  rcases field_cases modrm.reg with
    hreg | hreg | hreg | hreg | hreg | hreg | hreg | hreg <;> rw [hreg] at hmember
  · refine .inl (hanswer (incRm16 modrm) ?_ hmember)
    exact .bind fun _ => .bind fun _ => .bind fun _ => .pure answers.proceed
  · refine .inl (hanswer (decRm16 modrm) ?_ hmember)
    exact .bind fun _ => .bind fun _ => .bind fun _ => .pure answers.proceed
  · refine .inl (hanswer (callRm16 modrm) ?_ hmember)
    exact .bind fun _ => .bind fun _ => .bind fun _ => .bind fun _ => .pure answers.proceed
  · refine .inl (hanswer (callFarMem modrm) ?_ hmember)
    exact .bind fun _ => .bind fun _ => .bind fun _ => .pure answers.proceed
  · refine .inl (hanswer (jmpRm16 modrm) ?_ hmember)
    exact .bind fun _ => .bind fun _ => .pure answers.proceed
  · refine .inl (hanswer (jmpFarMem modrm) ?_ hmember)
    exact .bind fun _ => .bind fun _ => .pure answers.proceed
  · refine .inl (hanswer (pushRm16 modrm) ?_ hmember)
    exact .bind fun _ => .bind fun _ => .pure answers.proceed
  · cases hmember
    exact .inr ⟨modrm, hfetch, hreg, rfl⟩

theorem flowArm_answers {opcode : U8} {routine : Routine StepResult}
    (harm : flowArm opcode = some routine) (hgroup : opcode ≠ 0xFF) : Returns routine P := by
  unfold flowArm at harm
  split at harm
  · cases harm
    refine .bind fun _ => .bind fun _ => .ite ?_ ?_
    · exact .bind fun _ => .pure answers.proceed
    · exact .pure answers.proceed
  split at harm
  · cases harm
    refine .bind fun _ => .bind fun _ => .ite ?_ ?_
    · exact .bind fun _ => .pure answers.proceed
    · exact .pure answers.proceed
  split at harm <;> cases harm
  · exact .bind fun _ => .bind fun _ => .pure answers.proceed
  · exact .bind fun _ => .bind fun _ => .pure answers.proceed
  · exact .bind fun _ => .bind fun _ => .bind fun _ => .pure answers.proceed
  · exact .bind fun _ => .bind fun _ => .bind fun _ => .bind fun _ => .pure answers.proceed
  · exact .bind fun _ => .bind fun _ => .bind fun _ => .bind fun _ => .pure answers.proceed
  · exact .bind fun _ => .bind fun _ => .bind fun _ => .bind fun _ => .pure answers.proceed
  · exact .bind fun _ => .bind fun _ => .pure answers.proceed
  · exact .bind fun _ => .bind fun _ => .bind fun _ => .bind fun _ => .bind fun _ =>
      .pure answers.proceed
  · exact .bind fun _ => .bind fun _ => .bind fun _ => .pure answers.proceed
  · exact .bind fun _ => .bind fun _ => .bind fun _ => .bind fun _ => .pure answers.proceed
  · exact absurd rfl hgroup

theorem jccNear_answers (opcode : U8) : Returns (jccNear opcode) P := by
  unfold jccNear
  refine .bind fun prefixes => .ite ?_ ?_
  · refine .bind fun rel => .bind fun taken => .ite ?_ ?_
    · exact .bind fun _ => .pure answers.proceed
    · exact .pure answers.proceed
  · refine .bind fun rel => .bind fun rel => .bind fun taken => .ite ?_ ?_
    · exact .bind fun _ => .pure answers.proceed
    · exact .pure answers.proceed

theorem group6_answers : Returns group6 P := by
  unfold group6
  refine .bind fun modrm => ?_
  split
  iterate 2 exact .bind fun _ => .bind fun _ => .pure answers.proceed
  iterate 4 exact .bind fun _ => .pure answers.proceed
  exact .pure answers.proceed

theorem shldCount_answers (modrm : ModRm) (src : U16) (cnt : ℕ) :
    Returns (shldCount modrm src cnt) P := by
  unfold shldCount
  refine .bind fun dst => .ite (.pure answers.proceed) (.ite (.fail _) ?_)
  exact .bind fun _ => .bind fun _ => .pure answers.proceed

theorem shrdCount_answers (modrm : ModRm) (src : U16) (cnt : ℕ) :
    Returns (shrdCount modrm src cnt) P := by
  unfold shrdCount
  refine .bind fun dst => .ite (.pure answers.proceed) (.ite (.fail _) ?_)
  exact .bind fun _ => .bind fun _ => .pure answers.proceed

theorem moveExtended_answers (source : ModRm → Routine U32) :
    Returns (moveExtended source) P := by
  unfold moveExtended
  refine .bind fun _ => .bind fun _ => .bind fun _ => .ite ?_ ?_
  · exact .bind fun _ => .pure answers.proceed
  · exact .bind fun _ => .pure answers.proceed

theorem bitScan_answers (scan : U16 → U16) : Returns (bitScan scan) P := by
  unfold bitScan
  refine .bind fun _ => .bind fun _ => .ite ?_ ?_
  · exact .bind fun _ => .pure answers.proceed
  · exact .bind fun _ => .pure answers.proceed

theorem extendedArm_answers (opcode : U8) : Returns (extendedArm opcode) P := by
  unfold extendedArm
  refine .ite (jccNear_answers opcode) (.ite ?_ (.ite ?_ ?_))
  · exact .bind fun _ => .bind fun _ => .bind fun _ => .pure answers.proceed
  · exact .bind fun _ => .pure answers.proceed
  split
  · exact group6_answers
  · exact .bind fun _ => .bind fun _ => .pure answers.proceed
  · exact .bind fun _ => .bind fun _ => .bind fun _ => .pure answers.proceed
  · exact .bind fun _ => .bind fun _ => .bind fun _ => .pure answers.proceed
  iterate 3 exact .pure answers.proceed
  · exact .pure (answers.interrupt 6)
  · exact .pure answers.proceed
  iterate 3 exact .bind fun _ => .pure answers.proceed
  · refine .bind fun _ => .bind fun _ => .ite ?_ ?_
    · exact .bind fun _ => .bind fun _ => .bind fun _ => .pure answers.proceed
    · exact .bind fun _ => .bind fun _ => .bind fun _ => .pure answers.proceed
  · exact .bind fun _ => .bind fun _ => .pure answers.proceed
  · exact .bind fun _ => .bind fun _ => .pure answers.proceed
  · exact .bind fun _ => .pure answers.proceed
  · exact .bind fun _ => .bind fun _ => .bind fun _ => .bind fun _ => .pure answers.proceed
  · exact .bind fun _ => .bind fun _ => .bind fun _ => shldCount_answers _ _ _
  · exact .bind fun _ => .bind fun _ => .bind fun _ => shldCount_answers _ _ _
  · exact .bind fun _ => .bind fun _ => .pure answers.proceed
  · exact .bind fun _ => .bind fun _ => .pure answers.proceed
  · exact .bind fun _ => .bind fun _ => .bind fun _ => .bind fun _ => .bind fun _ =>
      .pure answers.proceed
  · exact .bind fun _ => .bind fun _ => .bind fun _ => shrdCount_answers _ _ _
  · exact .bind fun _ => .bind fun _ => .bind fun _ => shrdCount_answers _ _ _
  · exact moveExtended_answers _
  · exact moveExtended_answers _
  · refine .bind fun _ => .bind fun _ => .bind fun _ => .bind fun _ => .ite ?_ ?_
    · exact .bind fun _ => .pure answers.proceed
    · exact .pure answers.proceed
  iterate 2
    exact .bind fun _ => .bind fun _ => .bind fun _ => .bind fun _ => .bind fun _ =>
      .pure answers.proceed
  iterate 2 exact bitScan_answers _
  iterate 2 exact moveExtended_answers _
  iterate 2
    exact .bind fun _ => .bind fun _ => .bind fun _ => .bind fun _ => .bind fun _ =>
      .bind fun _ => .pure answers.proceed
  · exact .pure answers.proceed

theorem miscArm_answers {opcode : U8} {routine : Routine StepResult}
    (harm : miscArm opcode = some routine) (hhlt : opcode ≠ 0xF4) :
    Returns routine P := by
  unfold miscArm at harm
  split at harm
  · cases harm
    exact .bind fun _ => .bind fun _ => .pure answers.proceed
  split at harm <;> cases harm
  · exact .bind fun opcode => extendedArm_answers opcode
  · exact .pure answers.proceed
  · exact absurd rfl hhlt
  · exact .bind fun num => .pure (answers.interrupt num)
  · exact .pure (answers.interrupt 4)
  iterate 8 exact .bind fun _ => .pure answers.proceed
  iterate 4 exact .pure answers.proceed
  iterate 2 exact .bind fun _ => .pure answers.proceed
  all_goals
    repeat refine .bind fun _ => ?_
    exact .pure answers.proceed

instance : Answers Handled := ⟨handled_proceed, handled_interrupt⟩

theorem flowArm_handled {opcode : U8} {routine : Routine StepResult}
    (harm : flowArm opcode = some routine) : Returns routine Handled := by
  by_cases hgroup : opcode = 0xFF
  · subst hgroup
    cases harm
    intro core result next hrun
    rcases @groupFF_cases Handled _ _ _ _ hrun with hhandled | ⟨modrm, -, -, rfl⟩
    · exact hhandled
    · exact handled_refusal
  · exact flowArm_answers harm hgroup

def Accepted (result : StepResult) : Prop := ∀ op : U8, result ≠ .unimplemented op

instance : Answers Accepted where
  proceed := fun _ => StepResult.noConfusion
  interrupt := fun _ _ => StepResult.noConfusion

theorem miscArm_accepted {opcode : U8} {routine : Routine StepResult}
    (harm : miscArm opcode = some routine) : Returns routine Accepted := by
  by_cases hhlt : opcode = 0xF4
  · subst hhlt
    cases harm
    apply Returns.bind
    intro u
    apply Returns.pure
    intro op heq
    cases heq
  · exact miscArm_answers harm hhlt

/-! ## Arms outside the chain of `execute_one` -/

theorem stackArm_proceeds {opcode : U8} {routine : Routine StepResult}
    (harm : stackArm opcode = some routine) :
    Returns routine (· = .proceed) := by
  unfold stackArm at harm
  split at harm
  · cases harm
    exact .bind fun _ => .bind fun _ => .pure rfl
  split at harm
  · cases harm
    exact .bind fun _ => .bind fun _ => .pure rfl
  split at harm <;> cases harm
  all_goals
    repeat refine Returns.bind fun _ => ?_
    exact .pure rfl

theorem transferArm_proceeds {opcode : U8} {routine : Routine StepResult}
    (harm : transferArm opcode = some routine) :
    Returns routine (· = .proceed) := by
  unfold transferArm at harm
  split at harm
  · cases harm
    exact .bind fun _ => .bind fun _ => .pure rfl
  split at harm
  · cases harm
    exact .bind fun _ => .bind fun _ => .pure rfl
  split at harm
  · cases harm
    exact .pure rfl
  split at harm
  · cases harm
    exact .bind fun _ => .bind fun _ => .bind fun _ => .pure rfl
  split at harm <;> cases harm
  all_goals
    repeat refine Returns.bind fun _ => ?_
    exact .pure rfl

theorem stringArm_cases {opcode : U8} {routine : Routine StepResult}
    (harm : stringArm opcode = some routine) :
    Returns routine (· = .proceed) ∨
      opcode = 0xF3 ∧ routine = repArm ∨ opcode = 0xF2 ∧ routine = repneArm := by
  unfold stringArm at harm
  split at harm
  · cases harm
    exact .inl (.bind fun _ => .pure rfl)
  · split at harm <;> cases harm
    · exact .inr (.inl ⟨rfl, rfl⟩)
    · exact .inr (.inr ⟨rfl, rfl⟩)

/-- The chain of `execute_one` refuses an opcode only without running any of
its arms, or in group FF. -/
theorem dispatch_refuses
    {opcode op : U8} {core next : Core}
    (hrun : dispatch opcode core = .ok (.unimplemented op, next)) :
    op = opcode ∧ (opcode ≠ 0xFF ∧ next = core ∨
      opcode = 0xFF ∧ ∃ modrm, fetchModrm core = .ok (modrm, next) ∧ modrm.reg = 7) := by
  have hrefuses : ∀ routine : Routine StepResult, Returns routine Accepted →
      routine core ≠ .ok (.unimplemented op, next) :=
    fun routine hreturns hroutine => hreturns _ _ _ hroutine op rfl
  unfold dispatch dispatchAlu at hrun
  cases halu : aluArm opcode with
  | some routine =>
      rw [halu] at hrun
      exact absurd hrun (hrefuses routine (aluArm_answers halu))
  | none =>
      rw [halu] at hrun
      unfold dispatchFlow at hrun
      cases hflow : flowArm opcode with
      | some routine =>
          rw [hflow] at hrun
          by_cases hgroup : opcode = 0xFF
          · subst hgroup
            cases hflow
            rcases @groupFF_cases Accepted _ _ _ _ hrun with
              haccepted | ⟨modrm, hfetch, hreg, hop⟩
            · exact absurd rfl (haccepted op)
            · cases hop
              exact ⟨rfl, .inr ⟨rfl, modrm, hfetch, hreg⟩⟩
          · exact absurd hrun (hrefuses routine (flowArm_answers hflow hgroup))
      | none =>
          rw [hflow] at hrun
          unfold dispatchMisc at hrun
          cases hmisc : miscArm opcode with
          | some routine =>
              rw [hmisc] at hrun
              exact absurd hrun (hrefuses routine (miscArm_accepted hmisc))
          | none =>
              rw [hmisc] at hrun
              cases hrun
              refine ⟨rfl, .inl ⟨?_, rfl⟩⟩
              rintro rfl
              cases hflow

theorem dispatch_unimplemented
    {opcode op : U8} {core next : Core} (hop : op ≠ 0xFF)
    (hrun : dispatch opcode core = .ok (.unimplemented op, next)) :
    op = opcode ∧ next = core := by
  rcases dispatch_refuses hrun with ⟨rfl, ⟨-, hnext⟩ | ⟨hgroup, -⟩⟩
  · exact ⟨rfl, hnext⟩
  · exact absurd hgroup hop

theorem repArm_unimplemented
    {core next : Core} (hrun : repArm core = .ok (.unimplemented 0xF3, next)) :
    (fetchU8 >>= skipPrefixes prefixEffect prefixFuel) core = .ok (0xF3, next) := by
  unfold repArm at hrun
  rcases bind_eq_ok hrun with ⟨first, fetched, hfetch, hrest⟩
  rcases bind_eq_ok hrest with ⟨opcode, scanned, hskip, hfinal⟩
  rw [bind_ok hfetch, hskip]
  cases hstring : stringOp opcode with
  | some entry =>
      rcases entry with ⟨body, compares⟩
      rw [hstring] at hfinal
      rcases bind_eq_ok hfinal with ⟨_, _, -, hreturn⟩
      cases hreturn
  | none =>
      rw [hstring] at hfinal
      rcases dispatch_unimplemented (by decide) hfinal with ⟨hopcode, hnext⟩
      rw [hopcode, hnext]

theorem repneArm_unimplemented
    {core next : Core} (hrun : repneArm core = .ok (.unimplemented 0xF2, next)) :
    (fetchU8 >>= skipPrefixes repnePrefixEffect prefixFuel) core = .ok (0xF2, next) := by
  unfold repneArm at hrun
  rcases bind_eq_ok hrun with ⟨first, fetched, hfetch, hrest⟩
  rcases bind_eq_ok hrest with ⟨opcode, scanned, hskip, hfinal⟩
  rw [bind_ok hfetch, hskip]
  cases hstring : stringOp opcode with
  | some entry =>
      rcases entry with ⟨body, compares⟩
      rw [hstring] at hfinal
      cases compares with
      | true =>
          rcases bind_eq_ok hfinal with ⟨_, _, -, hreturn⟩
          cases hreturn
      | false =>
          rcases dispatch_unimplemented (by decide) hfinal with ⟨hopcode, hnext⟩
          rw [hopcode, hnext]
  | none =>
      rw [hstring] at hfinal
      rcases dispatch_unimplemented (by decide) hfinal with ⟨hopcode, hnext⟩
      rw [hopcode, hnext]

end Kita98
