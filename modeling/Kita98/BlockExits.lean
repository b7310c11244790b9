import Kita98.BlockCode

/-!
# The exit of a translated block

`JMP`, `INT`, `HLT` and an unknown opcode append an `Exit` operation.  The end
of the iterations and a `C6` that is not translated append none, so behind a
body they leave RAX to whatever the emitted code last put there.
-/

namespace Kita98

open WordBits

/-! ## Bodies in the code bytes -/

/-- `body` stands in the code bytes from `addr` up to `last`. -/
inductive BodyAt (mem : Memory) (cs : U16) : U32 → U32 → List BodyInstr → U32 → Prop
  | nil {currIp addr : U32} : BodyAt mem cs currIp addr [] addr
  | cons {currIp addr last : U32} {instr : BodyInstr} {body : List BodyInstr}
      (hone : decodeOne mem addr = .inl instr)
      (hrest : BodyAt mem cs (currIp + instr.size) (Memory.phys cs (currIp + instr.size))
        body last) :
      BodyAt mem cs currIp addr (instr :: body) last

section

variable {mem : Memory} {cs : U16} {currIp addr last : U32} {body : List BodyInstr}

theorem decodeBlock_of_full (hbody : BodyAt mem cs currIp addr body last) :
    decodeBlock mem cs body.length currIp addr = (body, .limit) := by
  induction hbody with
  | nil => rfl
  | cons hone hrest ih =>
      rw [List.length_cons, decodeBlock, hone]
      simp only [ih]

theorem decodeBlock_of_end
    {n : ℕ} {ending : BlockEnd} (hbody : BodyAt mem cs currIp addr body last)
    (hroom : body.length < n) (hend : decodeOne mem last = .inr ending) :
    decodeBlock mem cs n currIp addr = (body, ending) := by
  obtain ⟨m, rfl⟩ : ∃ m, n = m + 1 := ⟨n - 1, by omega⟩
  induction hbody generalizing m with
  | nil => rw [decodeBlock, hend]
  | cons hone hrest ih =>
      rw [List.length_cons] at hroom
      obtain ⟨k, rfl⟩ : ∃ k, m = k + 1 := ⟨m - 1, by omega⟩
      rw [decodeBlock, hone]
      simp only [ih hend k (by omega)]

end

theorem bodyAt_decodeBlock (mem : Memory) (cs : U16) (n : ℕ) (currIp addr : U32) :
    ∃ last, BodyAt mem cs currIp addr (decodeBlock mem cs n currIp addr).1 last ∧
      ((decodeBlock mem cs n currIp addr).1.length = n ∧
          (decodeBlock mem cs n currIp addr).2 = .limit ∨
        (decodeBlock mem cs n currIp addr).1.length < n ∧
          decodeOne mem last = .inr (decodeBlock mem cs n currIp addr).2) := by
  induction n generalizing currIp addr with
  | zero => exact ⟨addr, .nil, .inl ⟨rfl, rfl⟩⟩
  | succ n ih =>
      unfold decodeBlock
      cases hone : decodeOne mem addr with
      | inr ending => exact ⟨addr, .nil, .inr ⟨Nat.succ_pos n, hone⟩⟩
      | inl instr =>
          obtain ⟨last, hrest, hstop⟩ :=
            ih (currIp + instr.size) (Memory.phys cs (currIp + instr.size))
          refine ⟨last, .cons hone hrest, ?_⟩
          simpa using hstop

/-! ## Operations of a body -/

def bodyOps (ds : U16) : U32 → List BodyInstr → List IrOp
  | _, [] => []
  | currIp, instr :: body =>
      instr.op ds :: .syncIp ((currIp + instr.size).setWidth 16) ::
        bodyOps ds (currIp + instr.size) body

theorem assemble_ok_iff
    {ds : U16} {ending : BlockEnd} {currIp : U32} {body : List BodyInstr} {ops : List IrOp} :
    assemble ds ending currIp body = .ok ops ↔
      ∃ endOps, ending.ops (behind currIp body) = .ok endOps ∧
        ops = bodyOps ds currIp body ++ endOps := by
  induction body generalizing currIp ops with
  | nil =>
      constructor
      · intro hops
        exact ⟨ops, hops, rfl⟩
      · rintro ⟨endOps, hend, rfl⟩
        exact hend
  | cons instr body ih =>
      unfold assemble
      constructor
      · intro hops
        cases hrest : assemble ds ending (currIp + instr.size) body with
        | error e =>
            rw [hrest] at hops
            cases hops
        | ok rest =>
            rw [hrest] at hops
            cases hops
            obtain ⟨endOps, hend, rfl⟩ := ih.mp hrest
            exact ⟨endOps, hend, rfl⟩
      · rintro ⟨endOps, hend, rfl⟩
        rw [ih.mpr ⟨endOps, hend, rfl⟩]
        rfl

theorem bodyOps_eq_nil {ds : U16} {currIp : U32} {body : List BodyInstr} :
    bodyOps ds currIp body = [] ↔ body = [] := by
  cases body with
  | nil => exact ⟨fun _ => rfl, fun _ => rfl⟩
  | cons instr body => simp [bodyOps]

theorem exit_notMem_bodyOps
    (ds : U16) (currIp : U32) (body : List BodyInstr) (result : StepResult) :
    IrOp.exit result ∉ bodyOps ds currIp body := by
  induction body generalizing currIp with
  | nil => exact List.not_mem_nil
  | cons instr body ih =>
      have hop : IrOp.exit result ≠ instr.op ds := by
        cases instr <;> exact IrOp.noConfusion
      simp only [bodyOps, List.mem_cons, not_or]
      exact ⟨hop, IrOp.noConfusion, ih _⟩

/-! ## Well-formed blocks -/

/-- The last operation is an `Exit`, and no other is. -/
def EndsWithExit (ops : List IrOp) : Prop :=
  ∃ init result, ops = init ++ [.exit result] ∧ ∀ other, IrOp.exit other ∉ init

def WellFormed (ops : List IrOp) : Prop := ops = [] ∨ EndsWithExit ops

/-- The code compiled from `ops`, if any is, sets RAX before it returns. -/
def SetsResult (ops : List IrOp) : Prop :=
  ops ≠ [] → ∀ bus regs, (runCode (compileBlock ops).code bus regs).1 ≠ none

theorem BlockEnd.ops_cases
    {ending : BlockEnd} {currIp : U32} {ops : List IrOp} (hops : ending.ops currIp = .ok ops) :
    (ending = .limit ∨ ending = .unsupported) ∧ ops = [] ∨
      (ending ≠ .limit ∧ ending ≠ .unsupported) ∧ EndsWithExit ops := by
  cases ending with
  | limit =>
      cases hops
      exact .inl ⟨.inl rfl, rfl⟩
  | unsupported =>
      cases hops
      exact .inl ⟨.inr rfl, rfl⟩
  | unknown =>
      cases hops
      exact .inr ⟨by simp, [], .proceed, rfl, by simp⟩
  | jmp rel =>
      cases hops
      exact .inr ⟨by simp, [_, _], .proceed, rfl, by simp⟩
  | int num =>
      by_cases hsmall : currIp.toNat + 2 < 2 ^ 32
      · cases (if_pos hsmall).symm.trans hops
        exact .inr ⟨by simp, [_], .interrupt num, rfl, by simp⟩
      · cases (if_neg hsmall).symm.trans hops
  | hlt =>
      cases hops
      exact .inr ⟨by simp, [], .halt, rfl, by simp⟩

theorem EndsWithExit.append
    {ops : List IrOp} (hends : EndsWithExit ops) {body : List IrOp}
    (hbody : ∀ result, IrOp.exit result ∉ body) : EndsWithExit (body ++ ops) := by
  obtain ⟨init, result, rfl, hinit⟩ := hends
  refine ⟨body ++ init, result, (List.append_assoc _ _ _).symm, ?_⟩
  intro other hmem
  rcases List.mem_append.mp hmem with hleft | hright
  · exact hbody other hleft
  · exact hinit other hright

theorem EndsWithExit.exists_mem {ops : List IrOp} (hends : EndsWithExit ops) :
    ∃ result, IrOp.exit result ∈ ops := by
  obtain ⟨init, result, rfl, -⟩ := hends
  exact ⟨result, List.mem_append_right _ (List.mem_singleton_self _)⟩

/-! ## The value in RAX -/

theorem exitRax_append (code rest : List Emitted) :
    exitRax (code ++ rest) = (exitRax code).or (exitRax rest) := by
  induction code with
  | nil => rfl
  | cons instr code ih =>
      cases instr with
      | leave rax => rfl
      | _ => exact ih

theorem exitRax_emit (op : IrOp) :
    exitRax (emit op) ≠ none ↔ ∃ result, op = .exit result := by
  cases op with
  | exit result =>
      constructor
      · intro _
        exact ⟨result, rfl⟩
      · intro _
        cases result <;> exact Option.some_ne_none _
  | _ =>
      constructor
      · intro hsome
        exact absurd rfl hsome
      · rintro ⟨result, hop⟩
        cases hop

theorem exitRax_compile (ops : List IrOp) :
    exitRax (compileBlock ops).code ≠ none ↔ ∃ result, IrOp.exit result ∈ ops := by
  unfold compileBlock
  induction ops with
  | nil => simp [exitRax]
  | cons op ops ih =>
      have hcons : exitRax ((op :: ops).flatMap emit) ≠ none ↔
          exitRax (emit op) ≠ none ∨ exitRax (ops.flatMap emit) ≠ none := by
        rw [List.flatMap_cons, exitRax_append, Ne, Option.or_eq_none_iff, not_and_or]
      rw [hcons, exitRax_emit, ih]
      simp only [List.mem_cons, exists_or, eq_comm]

theorem setsResult_iff (ops : List IrOp) :
    SetsResult ops ↔ ops = [] ∨ ∃ result, IrOp.exit result ∈ ops := by
  rw [← exitRax_compile, or_iff_not_imp_left]
  unfold SetsResult
  simp only [runCode_rax]
  constructor
  · intro hsets hne
    exact hsets hne (Bus.new none fun _ => 0) Regs.new
  · intro hsets hne bus regs
    exact hsets hne

/-! ## Blocks that fall out of the loop -/

/-- Fifty instructions of the body stand at `startPhys`, or fewer but at least
one with a `C6` behind them that is not translated. -/
def FallsOut (mem : Memory) (regs : Regs) (startPhys : U32) : Prop :=
  ∃ body last, BodyAt mem (regs.getSeg .CS) regs.ip startPhys body last ∧
    (body.length = blockLimit ∨
      body ≠ [] ∧ body.length < blockLimit ∧ decodeOne mem last = .inr .unsupported)

theorem fallsOut_iff (mem : Memory) (regs : Regs) (startPhys : U32) :
    FallsOut mem regs startPhys ↔
      (decodeBlock mem (regs.getSeg .CS) blockLimit regs.ip startPhys).1 ≠ [] ∧
        ((decodeBlock mem (regs.getSeg .CS) blockLimit regs.ip startPhys).2 = .limit ∨
          (decodeBlock mem (regs.getSeg .CS) blockLimit regs.ip startPhys).2 = .unsupported) := by
  constructor
  · rintro ⟨body, last, hbody, hfull | ⟨hne, hroom, hend⟩⟩
    · have hdecode := decodeBlock_of_full hbody
      rw [hfull] at hdecode
      rw [hdecode]
      refine ⟨?_, .inl rfl⟩
      rintro rfl
      cases hfull
    · rw [decodeBlock_of_end hbody hroom hend]
      exact ⟨hne, .inr rfl⟩
  · obtain ⟨last, hbody, hstop⟩ :=
      bodyAt_decodeBlock mem (regs.getSeg .CS) blockLimit regs.ip startPhys
    rintro ⟨hne, hlimit | hunsupported⟩
    · exact ⟨_, last, hbody, .inl ((decodeBlock_length _ _ _ _ _).2 hlimit)⟩
    · rcases hstop with ⟨-, hlimit⟩ | ⟨hroom, hend⟩
      · rw [hunsupported] at hlimit
        cases hlimit
      · rw [hunsupported] at hend
        exact ⟨_, last, hbody, .inr ⟨hne, hroom, hend⟩⟩

/-- The operations that the translator returns are well formed, and their code
sets its own result. -/
def BlockWellFormed (bus : Bus) (regs : Regs) (startPhys : U32) : Prop :=
  ∀ ops, translateBlock bus regs startPhys = .ok ops → WellFormed ops ∧ SetsResult ops

theorem formed_iff
    {ds : U16} {ending : BlockEnd} {currIp : U32} {body : List BodyInstr} {endOps : List IrOp}
    (hend : ending.ops (behind currIp body) = .ok endOps) :
    WellFormed (bodyOps ds currIp body ++ endOps) ∧
        SetsResult (bodyOps ds currIp body ++ endOps) ↔
      ¬(body ≠ [] ∧ (ending = .limit ∨ ending = .unsupported)) := by
  have hno := exit_notMem_bodyOps ds currIp body
  rcases BlockEnd.ops_cases hend with ⟨hsilent, rfl⟩ | ⟨hloud, hexit⟩
  · rw [List.append_nil]
    constructor
    · rintro ⟨-, hsets⟩ ⟨hne, -⟩
      rcases (setsResult_iff _).mp hsets with hnil | ⟨result, hmem⟩
      · exact hne (bodyOps_eq_nil.mp hnil)
      · exact hno result hmem
    · intro hkept
      have hnil : body = [] := by
        by_contra hne
        exact hkept ⟨hne, hsilent⟩
      have hops := (@bodyOps_eq_nil ds currIp body).mpr hnil
      exact ⟨.inl hops, (setsResult_iff _).mpr (.inl hops)⟩
  · have hends := hexit.append hno
    constructor
    · rintro - ⟨-, hsilent⟩
      rcases hsilent with hlimit | hunsupported
      · exact hloud.1 hlimit
      · exact hloud.2 hunsupported
    · intro _
      exact ⟨.inr hends, (setsResult_iff _).mpr (.inr hends.exists_mem)⟩

theorem blocks_well_formed_iff (bus : Bus) (regs : Regs) (startPhys : U32) :
    BlockWellFormed bus regs startPhys ↔ ¬ FallsOut bus.mem regs startPhys := by
  have htranslate : translateBlock bus regs startPhys = _ :=
    translateFrom_eq_assemble _ _ (regs.getSeg .DS) _ _ _
  rw [fallsOut_iff, BlockWellFormed, htranslate]
  rcases decodeBlock bus.mem (regs.getSeg .CS) blockLimit regs.ip startPhys with ⟨body, ending⟩
  simp only
  constructor
  · rintro hformed ⟨hne, hsilent⟩
    have hend : ending.ops (behind regs.ip body) = .ok [] := by
      rcases hsilent with rfl | rfl
      · rfl
      · rfl
    have hboth := hformed _ (assemble_ok_iff.mpr ⟨[], hend, rfl⟩)
    exact (formed_iff hend).mp hboth ⟨hne, hsilent⟩
  · intro hout ops hops
    obtain ⟨endOps, hend, rfl⟩ := assemble_ok_iff.mp hops
    exact (formed_iff hend).mpr hout

/-- `MOV AX, 1234h` and `MOV BYTE [BX+SI], 0`. -/
def storeFormBus : Bus :=
  { Bus.new none (fun _ => 0) with
    mem := Memory.new.loadBytes 0 [0xB8, 0x34, 0x12, 0xC6, 0x00, 0x00] }

theorem store_form_without_exit : ¬ BlockWellFormed storeFormBus Regs.new 0 := by
  have htranslate : translateBlock storeFormBus Regs.new 0 =
      .ok [.movRegImm .AX 0x1234, .syncIp 3] := by
    rfl
  intro hformed
  obtain ⟨-, hsets⟩ := hformed _ htranslate
  exact hsets (List.cons_ne_nil _ _) storeFormBus Regs.new rfl

end Kita98
