import Kita98.RegsImage

/-!
# The code of a block

The emitted code determines the operations of the body, the low half of the
address where the body starts, and how the block ends.
-/

namespace Kita98

open WordBits

/-! ## The end of a block -/

/-- The address an end writes to IP and the value it leaves in RAX, if any. -/
structure Exit where
  sync : Option U16
  rax : Option ℕ
  deriving DecidableEq, Repr

/-- How a block ends at `currIp`; an `INT` at the very end of the 32-bit range
overflows. -/
def BlockEnd.exitAt (currIp : U32) : BlockEnd → Option Exit
  | limit => some ⟨none, none⟩
  | unsupported => some ⟨none, none⟩
  | unknown => some ⟨none, some 0⟩
  | jmp rel => some ⟨some (currIp.setWidth 16 + 2 + rel.signExtend 16), some 0⟩
  | int num =>
      if currIp.toNat + 2 < 2 ^ 32 then
        some ⟨some ((currIp + 2).setWidth 16), some (100 + num.toNat)⟩
      else none
  | hlt => some ⟨none, some 1⟩

def Exit.code (exit : Exit) : List Emitted :=
  (exit.sync.map fun ip => Emitted.movWord 24 ip).toList ++
    (exit.rax.map fun rax => Emitted.leave rax).toList

theorem Exit.code_inj {exit exit' : Exit} (hcode : exit.code = exit'.code) : exit = exit' := by
  obtain ⟨sync, rax⟩ := exit
  obtain ⟨sync', rax'⟩ := exit'
  cases sync <;> cases rax <;> cases sync' <;> cases rax' <;>
    simp_all [Exit.code]

theorem BlockEnd.ops_of_exitAt
    {ending : BlockEnd} {currIp : U32} {exit : Exit}
    (hexit : ending.exitAt currIp = some exit) :
    ∃ ops, ending.ops currIp = .ok ops ∧ ops.flatMap emit = exit.code ∧
      (ops = [] ↔ exit = ⟨none, none⟩) := by
  cases ending with
  | limit => cases hexit; exact ⟨_, rfl, rfl, by decide⟩
  | unsupported => cases hexit; exact ⟨_, rfl, rfl, by decide⟩
  | unknown => cases hexit; exact ⟨_, rfl, rfl, by decide⟩
  | jmp rel => cases hexit; exact ⟨_, rfl, rfl, by simp⟩
  | int num =>
      by_cases hsmall : currIp.toNat + 2 < 2 ^ 32
      · cases (if_pos hsmall).symm.trans hexit
        exact ⟨_, if_pos hsmall, rfl, by simp⟩
      · cases (if_neg hsmall).symm.trans hexit
  | hlt => cases hexit; exact ⟨_, rfl, rfl, by decide⟩

theorem BlockEnd.ops_of_exitAt_none
    {ending : BlockEnd} {currIp : U32} (hexit : ending.exitAt currIp = none) :
    ending.ops currIp = .error .overflow := by
  cases ending with
  | int num =>
      by_cases hsmall : currIp.toNat + 2 < 2 ^ 32
      · cases (if_pos hsmall).symm.trans hexit
      · exact if_neg hsmall
  | _ => cases hexit

/-! ## The body -/

def BodyInstr.code (ds : U16) : BodyInstr → Emitted
  | movReg r imm => .movWord (r.index * 2) imm
  | movMem disp imm => .memWriteU8 (Memory.phys ds (disp.setWidth 32)) imm
  | addAx imm => .addWord (Reg16.AX.index * 2) imm
  | out port => .ioWriteU8 (port.setWidth 16)

theorem BodyInstr.emit_op (ds : U16) (instr : BodyInstr) :
    emit (instr.op ds) = [instr.code ds] := by
  cases instr <;> rfl

theorem BodyInstr.code_eq_iff {ds ds' : U16} {instr instr' : BodyInstr} :
    instr.code ds = instr'.code ds' ↔ instr.op ds = instr'.op ds' := by
  have hindex : ∀ r r' : Reg16, r.index = r'.index ↔ r = r' := by
    intro r r'
    constructor
    · intro heq
      rw [← Regs.gpAt_index r, heq, Regs.gpAt_index]
    · intro heq
      rw [heq]
  cases instr <;> cases instr' <;> simp [BodyInstr.code, BodyInstr.op, hindex]

theorem BodyInstr.size_eq_of_op {ds ds' : U16} {instr instr' : BodyInstr}
    (hop : instr.op ds = instr'.op ds') : instr.size = instr'.size := by
  cases instr <;> cases instr' <;> first | rfl | cases hop

/-- No instruction of the body stores to the word of SI. -/
theorem BodyInstr.code_ne_sync (ds : U16) (instr : BodyInstr) (ip : U16) :
    instr.code ds ≠ .movWord 24 ip := by
  have hindex : ∀ r : Reg16, r.index * 2 ≠ 24 := by
    intro r
    cases r <;> decide
  cases instr <;> simp [BodyInstr.code, hindex]

theorem BodyInstr.code_ne_leave (ds : U16) (instr : BodyInstr) (rax : ℕ) :
    instr.code ds ≠ .leave rax := by
  cases instr <;> simp [BodyInstr.code]

def bodyCode (ds : U16) : U32 → List BodyInstr → List Emitted
  | _, [] => []
  | currIp, instr :: body =>
      instr.code ds :: .movWord 24 ((currIp + instr.size).setWidth 16) ::
        bodyCode ds (currIp + instr.size) body

/-- Address behind a body. -/
def behind : U32 → List BodyInstr → U32
  | currIp, [] => currIp
  | currIp, instr :: body => behind (currIp + instr.size) body

theorem assemble_of_exitAt
    {ds : U16} {ending : BlockEnd} {currIp : U32} {body : List BodyInstr} {exit : Exit}
    (hexit : ending.exitAt (behind currIp body) = some exit) :
    ∃ ops, assemble ds ending currIp body = .ok ops ∧
      ops.flatMap emit = bodyCode ds currIp body ++ exit.code ∧
        (ops = [] ↔ body = [] ∧ exit = ⟨none, none⟩) := by
  induction body generalizing currIp with
  | nil =>
      obtain ⟨ops, hops, hcode, hempty⟩ := BlockEnd.ops_of_exitAt hexit
      exact ⟨ops, hops, hcode, by simp [hempty]⟩
  | cons instr body ih =>
      obtain ⟨ops, hops, hcode, -⟩ := ih hexit
      refine ⟨instr.op ds :: .syncIp ((currIp + instr.size).setWidth 16) :: ops, ?_, ?_, ?_⟩
      · unfold assemble
        rw [hops]
      · rw [List.flatMap_cons, List.flatMap_cons, instr.emit_op, hcode]
        rfl
      · simp

theorem assemble_of_exitAt_none
    {ds : U16} {ending : BlockEnd} {currIp : U32} {body : List BodyInstr}
    (hexit : ending.exitAt (behind currIp body) = none) :
    assemble ds ending currIp body = .error .overflow := by
  induction body generalizing currIp with
  | nil => exact BlockEnd.ops_of_exitAt_none hexit
  | cons instr body ih =>
      unfold assemble
      rw [ih hexit]

theorem exit_code_ne (exit : Exit) (ds : U16) (instr : BodyInstr) (rest : List Emitted) :
    exit.code ≠ instr.code ds :: rest := by
  obtain ⟨sync, rax⟩ := exit
  intro hcode
  cases sync with
  | some ip =>
      have hhead := List.head_eq_of_cons_eq hcode
      exact instr.code_ne_sync ds ip hhead.symm
  | none =>
      cases rax with
      | some rax =>
          have hhead := List.head_eq_of_cons_eq hcode
          exact instr.code_ne_leave ds rax hhead.symm
      | none => cases hcode

/-- Equal code comes from equal operations at the same low half of IP. -/
theorem code_eq_iff
    {ds ds' : U16} {currIp currIp' : U32} {body body' : List BodyInstr} {exit exit' : Exit} :
    bodyCode ds currIp body ++ exit.code = bodyCode ds' currIp' body' ++ exit'.code ↔
      body.map (BodyInstr.op ds) = body'.map (BodyInstr.op ds') ∧
        (body ≠ [] → currIp.setWidth 16 = currIp'.setWidth 16) ∧ exit = exit' := by
  induction body generalizing currIp currIp' body' with
  | nil =>
      cases body' with
      | nil =>
          constructor
          · intro hcode
            exact ⟨rfl, fun hne => absurd rfl hne, Exit.code_inj hcode⟩
          · rintro ⟨-, -, rfl⟩
            rfl
      | cons instr' body' =>
          constructor
          · intro hcode
            exact absurd hcode (exit_code_ne _ _ _ _)
          · rintro ⟨hops, -, -⟩
            cases hops
  | cons instr body ih =>
      cases body' with
      | nil =>
          constructor
          · intro hcode
            exact absurd hcode.symm (exit_code_ne _ _ _ _)
          · rintro ⟨hops, -, -⟩
            cases hops
      | cons instr' body' =>
          have hlow : instr.size = instr'.size →
              ((currIp + instr.size).setWidth 16 = (currIp' + instr'.size).setWidth 16 ↔
                currIp.setWidth 16 = currIp'.setWidth 16) := by
            intro hsize
            rw [hsize, BitVec.setWidth_add _ _ (by decide), BitVec.setWidth_add _ _ (by decide)]
            exact add_left_inj _
          constructor
          · intro hcode
            obtain ⟨hhead, hsync, hrest⟩ : instr.code ds = instr'.code ds' ∧
                (currIp + instr.size).setWidth 16 = (currIp' + instr'.size).setWidth 16 ∧
                  bodyCode ds (currIp + instr.size) body ++ exit.code =
                    bodyCode ds' (currIp' + instr'.size) body' ++ exit'.code := by
              simpa [bodyCode] using hcode
            have hop := BodyInstr.code_eq_iff.mp hhead
            obtain ⟨hops, -, hexit⟩ := ih.mp hrest
            refine ⟨?_, fun _ => (hlow (BodyInstr.size_eq_of_op hop)).mp hsync, hexit⟩
            rw [List.map_cons, List.map_cons, hop, hops]
          · rintro ⟨hops, hip, hexit⟩
            obtain ⟨hop, hops'⟩ := List.cons_eq_cons.mp hops
            have hsync := (hlow (BodyInstr.size_eq_of_op hop)).mpr (hip (List.cons_ne_nil _ _))
            have hrest := ih.mpr ⟨hops', fun _ => hsync, hexit⟩
            simp only [bodyCode, List.cons_append]
            rw [BodyInstr.code_eq_iff.mpr hop, hsync, hrest]

/-! ## What is left in RAX -/

/-- What running the code leaves in RAX. -/
def exitRax : List Emitted → Option ℕ
  | [] => none
  | .leave rax :: _ => some rax
  | _ :: code => exitRax code

theorem runCode_rax (code : List Emitted) (bus : Bus) (regs : Regs) :
    (runCode code bus regs).1 = exitRax code := by
  induction code generalizing bus regs with
  | nil => rfl
  | cons instr code ih =>
      cases instr with
      | leave rax => rfl
      | movWord off imm => exact ih bus _
      | addWord off imm => exact ih bus _
      | memWriteU8 phys val => exact ih _ regs
      | ioWriteU8 port => exact ih _ regs

/-! ## The block at CS:IP -/

/-- The block that would be compiled at CS:IP, if anything is translated. -/
def freshCode (core : Core) : Option JitBlock :=
  match translateBlock core.bus core.cpu.regs (JitRuntime.physIp core.cpu.regs) with
  | .ok (op :: ops) => some (compileBlock (op :: ops))
  | _ => none

def exitOf (core : Core) : Option Exit :=
  (guestBlock core).2.exitAt (behind core.cpu.regs.ip (guestBlock core).1)

def TranslatesNothing (core : Core) : Prop :=
  (guestBlock core).1 = [] ∧ exitOf core = some ⟨none, none⟩

theorem freshCode_of_exitOf
    {core : Core} {exit : Exit} (hexit : exitOf core = some exit)
    (hsome : ¬ TranslatesNothing core) :
    freshCode core = some
      ⟨bodyCode (core.cpu.regs.getSeg .DS) core.cpu.regs.ip (guestBlock core).1 ++
        exit.code⟩ := by
  obtain ⟨ops, hops, hcode, hempty⟩ :=
    @assemble_of_exitAt (core.cpu.regs.getSeg .DS) _ _ _ _ hexit
  unfold freshCode
  rw [translateBlock_eq, hops]
  cases ops with
  | nil =>
      obtain ⟨hnil, rfl⟩ := hempty.mp rfl
      exact absurd ⟨hnil, hexit⟩ hsome
  | cons op ops =>
      rw [← hcode]
      rfl

theorem freshCode_of_translatesNothing {core : Core} (hnothing : TranslatesNothing core) :
    freshCode core = none := by
  obtain ⟨hnil, hexit⟩ := hnothing
  obtain ⟨ops, hops, -, hempty⟩ :=
    @assemble_of_exitAt (core.cpu.regs.getSeg .DS) _ _ _ _ hexit
  unfold freshCode
  rw [translateBlock_eq, hops, hempty.mpr ⟨hnil, rfl⟩]

theorem freshCode_of_exitOf_none {core : Core} (hexit : exitOf core = none) :
    freshCode core = none := by
  unfold freshCode
  rw [translateBlock_eq, assemble_of_exitAt_none hexit]

/-- Two states have the same operations at CS:IP, at the same low half of IP,
and the same end. -/
structure SameTranslation (old new : Core) : Prop where
  body : (guestBlock old).1.map (BodyInstr.op (old.cpu.regs.getSeg .DS)) =
    (guestBlock new).1.map (BodyInstr.op (new.cpu.regs.getSeg .DS))
  ip : (guestBlock old).1 ≠ [] →
    old.cpu.regs.ip.setWidth 16 = new.cpu.regs.ip.setWidth 16
  exit : exitOf old = exitOf new

theorem freshCode_eq_iff
    {old new : Core} {block : JitBlock} (hold : freshCode old = some block) :
    freshCode old = freshCode new ↔ SameTranslation old new := by
  cases hexit : exitOf old with
  | none =>
      rw [freshCode_of_exitOf_none hexit] at hold
      cases hold
  | some exit =>
      have hsome : ¬ TranslatesNothing old := by
        intro hnothing
        rw [freshCode_of_translatesNothing hnothing] at hold
        cases hold
      rw [freshCode_of_exitOf hexit hsome]
      constructor
      · intro hfresh
        cases hexit' : exitOf new with
        | none =>
            rw [freshCode_of_exitOf_none hexit'] at hfresh
            cases hfresh
        | some exit' =>
            have hsome' : ¬ TranslatesNothing new := by
              intro hnothing
              rw [freshCode_of_translatesNothing hnothing] at hfresh
              cases hfresh
            rw [freshCode_of_exitOf hexit' hsome'] at hfresh
            obtain ⟨hbody, hip, rfl⟩ := code_eq_iff.mp (JitBlock.mk.inj (Option.some.inj hfresh))
            exact ⟨hbody, hip, hexit.trans hexit'.symm⟩
      · rintro ⟨hbody, hip, hexits⟩
        have hexit' : exitOf new = some exit := hexits.symm.trans hexit
        have hsome' : ¬ TranslatesNothing new := by
          rintro ⟨hnil, hnone⟩
          rw [hnil] at hbody
          exact hsome ⟨List.map_eq_nil_iff.mp hbody, hexits.trans hnone⟩
        rw [freshCode_of_exitOf hexit' hsome', code_eq_iff.mpr ⟨hbody, hip, rfl⟩]

end Kita98
