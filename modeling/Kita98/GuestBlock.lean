import Kita98.Jit
import Kita98.Transfer

/-!
# Guest instructions of a block

What the translator recognises in the code bytes: a body of straight-line
instructions and the reason why the block ends.  The operations of the block
are assembled from these.  Interpreting the same instructions one by one, each
fetched from the memory that the one before left, is the meaning the block ought
to have.
-/

namespace Kita98

open WordBits Kita98.Core

inductive BodyInstr where
  /-- `MOV r16, imm16` -/
  | movReg (r : Reg16) (imm : U16)
  /-- `MOV BYTE [disp16], imm8` -/
  | movMem (disp : U16) (imm : U8)
  /-- `ADD AX, imm16` -/
  | addAx (imm : U16)
  /-- `OUT imm8, AL` -/
  | out (port : U8)
  deriving DecidableEq, Repr

inductive BlockEnd where
  /-- Fifty instructions have been translated. -/
  | limit
  /-- A form of `C6` that is not translated. -/
  | unsupported
  | unknown
  /-- `JMP rel8` -/
  | jmp (rel : U8)
  | int (num : U8)
  | hlt
  deriving DecidableEq, Repr

/-- The instruction that starts with these bytes: the first two, the words at 1
and at 2, and the byte at 4. -/
def decodeFields (opcode second : U8) (word word' : U16) (last : U8) : BodyInstr ⊕ BlockEnd :=
  if 0xB8 ≤ opcode ∧ opcode ≤ 0xBF then .inl (.movReg (decodeReg16 (opcode &&& 7)) word)
  else
    match opcode with
    | 0xC6 =>
        if second >>> 6 = 0 ∧ second &&& 7 = 6 then .inl (.movMem word' last)
        else .inr .unsupported
    | 0x05 => .inl (.addAx word)
    | 0xE6 => .inl (.out second)
    | 0xEB => .inr (.jmp second)
    | 0xCD => .inr (.int second)
    | 0xF4 => .inr .hlt
    | _ => .inr .unknown

/-- The translator reads on in physical memory. -/
def decodeOne (mem : Memory) (addr : U32) : BodyInstr ⊕ BlockEnd :=
  decodeFields (mem.readU8 addr) (mem.readU8 (addr + 1)) (mem.readU16 (addr + 1))
    (mem.readU16 (addr + 2)) (mem.readU8 (addr + 4))

def BodyInstr.size : BodyInstr → U32
  | movReg _ _ => 3
  | movMem _ _ => 5
  | addAx _ => 3
  | out _ => 2

/-- The body and the end of the block at `currIp`, at most `n` instructions. -/
def decodeBlock (mem : Memory) (cs : U16) : ℕ → U32 → U32 → List BodyInstr × BlockEnd
  | 0, _, _ => ([], .limit)
  | n + 1, currIp, addr =>
      match decodeOne mem addr with
      | .inl instr =>
          let currIp := currIp + instr.size
          let (body, ending) := decodeBlock mem cs n currIp (Memory.phys cs currIp)
          (instr :: body, ending)
      | .inr ending => ([], ending)

/-- Only a full block ends at the limit. -/
theorem decodeBlock_length (mem : Memory) (cs : U16) (n : ℕ) (currIp addr : U32) :
    (decodeBlock mem cs n currIp addr).1.length ≤ n ∧
      ((decodeBlock mem cs n currIp addr).2 = .limit →
        (decodeBlock mem cs n currIp addr).1.length = n) := by
  induction n generalizing currIp addr with
  | zero => exact ⟨Nat.le_refl 0, fun _ => rfl⟩
  | succ n ih =>
      unfold decodeBlock
      cases hone : decodeOne mem addr with
      | inl instr =>
          rcases ih (currIp + instr.size) (Memory.phys cs (currIp + instr.size)) with ⟨hle, hlimit⟩
          constructor
          · exact Nat.succ_le_succ hle
          · intro hend
            exact congrArg Nat.succ (hlimit hend)
      | inr ending =>
          constructor
          · exact Nat.zero_le _
          · intro hend
            exfalso
            have hnot : ending ≠ .limit := by
              unfold decodeOne decodeFields at hone
              split at hone
              · cases hone
              · split at hone
                · split at hone <;> cases hone
                  decide
                all_goals cases hone
                all_goals
                  intro hlimit
                  cases hlimit
            exact hnot hend

/-! ## The operations of a block -/

def BodyInstr.op (ds : U16) : BodyInstr → IrOp
  | movReg r imm => .movRegImm r imm
  | movMem disp imm => .movMemImm8 (Memory.phys ds (disp.setWidth 32)) imm
  | addAx imm => .addRegImm .AX imm
  | out port => .outImm8 (port.setWidth 16) .AL

def BlockEnd.ops (currIp : U32) : BlockEnd → Except Fault (List IrOp)
  | limit => .ok []
  | unsupported => .ok []
  | unknown => .ok [.exit .proceed]
  | jmp rel =>
      .ok [.jmpRelative (rel.signExtend 16),
        .syncIp (currIp.setWidth 16 + 2 + rel.signExtend 16), .exit .proceed]
  | int num =>
      if currIp.toNat + 2 < 2 ^ 32 then
        .ok [.syncIp ((currIp + 2).setWidth 16), .exit (.interrupt num)]
      else .error .overflow
  | hlt => .ok [.exit .halt]

def assemble (ds : U16) (ending : BlockEnd) : U32 → List BodyInstr → Except Fault (List IrOp)
  | currIp, [] => ending.ops currIp
  | currIp, instr :: body =>
      match assemble ds ending (currIp + instr.size) body with
      | .error e => .error e
      | .ok ops => .ok (instr.op ds :: .syncIp ((currIp + instr.size).setWidth 16) :: ops)

theorem decodeOne_of_register {mem : Memory} {addr : U32}
    (h : 0xB8 ≤ mem.readU8 addr ∧ mem.readU8 addr ≤ 0xBF) :
    decodeOne mem addr =
      .inl (.movReg (decodeReg16 (mem.readU8 addr &&& 7)) (mem.readU16 (addr + 1))) :=
  if_pos h

theorem decodeOne_of_store {mem : Memory} {addr : U32} (h : mem.readU8 addr = 0xC6) :
    decodeOne mem addr =
      if mem.readU8 (addr + 1) >>> 6 = 0 ∧ mem.readU8 (addr + 1) &&& 7 = 6 then
        .inl (.movMem (mem.readU16 (addr + 2)) (mem.readU8 (addr + 4)))
      else .inr .unsupported := by
  have hreg : ¬(0xB8 ≤ mem.readU8 addr ∧ mem.readU8 addr ≤ 0xBF) := by
    rw [h]
    decide
  unfold decodeOne decodeFields
  rw [if_neg hreg, h]
  rfl

theorem decodeOne_of_unknown {mem : Memory} {addr : U32}
    (hreg : ¬(0xB8 ≤ mem.readU8 addr ∧ mem.readU8 addr ≤ 0xBF))
    (hstore : mem.readU8 addr = 0xC6 → False) (hadd : mem.readU8 addr = 0x05 → False)
    (hout : mem.readU8 addr = 0xE6 → False) (hjmp : mem.readU8 addr = 0xEB → False)
    (hint : mem.readU8 addr = 0xCD → False) (hhlt : mem.readU8 addr = 0xF4 → False) :
    decodeOne mem addr = .inr .unknown := by
  unfold decodeOne decodeFields
  rw [if_neg hreg]
  split <;> first | rfl | contradiction

theorem translateFrom_eq_assemble (mem : Memory) (cs ds : U16) (n : ℕ) (currIp addr : U32) :
    translateFrom mem cs ds n currIp addr =
      assemble ds (decodeBlock mem cs n currIp addr).2 currIp
        (decodeBlock mem cs n currIp addr).1 := by
  induction n generalizing currIp addr with
  | zero => rfl
  | succ n ih =>
      unfold translateFrom decodeBlock
      simp only [ih]
      split
      · rename_i hreg
        rw [decodeOne_of_register hreg]
        rfl
      · rename_i hreg
        split
        · rename_i hopcode
          rw [decodeOne_of_store hopcode]
          split <;> rfl
        iterate 5
          rename_i hopcode
          unfold decodeOne decodeFields
          rw [if_neg hreg, hopcode]
          rfl
        · rw [decodeOne_of_unknown hreg] <;> first | rfl | assumption

/-- The instructions the translator finds at CS:IP. -/
def guestBlock (core : Core) : List BodyInstr × BlockEnd :=
  decodeBlock core.bus.mem (core.cpu.regs.getSeg .CS) blockLimit core.cpu.regs.ip
    (JitRuntime.physIp core.cpu.regs)

theorem translateBlock_eq (core : Core) :
    translateBlock core.bus core.cpu.regs (JitRuntime.physIp core.cpu.regs) =
      assemble (core.cpu.regs.getSeg .DS) (guestBlock core).2 core.cpu.regs.ip
        (guestBlock core).1 :=
  translateFrom_eq_assemble _ _ _ _ _ _

/-! ## Interpretation -/

/-- One instruction of a body, as the interpreter would execute it. -/
def BodyInstr.interp (core : Core) : BodyInstr → Core
  | movReg r imm =>
      let core := core.skip 3
      core.setRegs (core.cpu.regs.set16 r imm)
  | movMem disp imm =>
      let core := core.skip 5
      core.setMem (core.bus.mem.segWriteU8 (core.cpu.regs.getSeg .DS) (disp.setWidth 32) imm)
  | addAx imm =>
      let core := core.skip 3
      let ax := core.cpu.regs.get16 .AX
      core.setRegs ((core.cpu.regs.updateAdd16 ax imm (ax + imm)).set16 .AX (ax + imm))
  | out port =>
      let core := core.skip 2
      { core with
        bus := core.bus.ioWriteU8 (port.setWidth 16) (core.cpu.regs.get8 .AL) }

/-- The last instruction of a block, when it is one of the guest's. -/
def BlockEnd.interp (core : Core) : BlockEnd → StepResult × Core
  | limit => (.proceed, core)
  | unsupported => (.proceed, core)
  | unknown => (.proceed, core)
  | jmp rel =>
      let core := core.skip 2
      (.proceed, core.setRegs (core.cpu.regs.jumpRel (rel.signExtend 32)))
  | int num => (.interrupt num, core.skip 2)
  | hlt =>
      let core := core.skip 1
      (.halt, { core with cpu := { core.cpu with halted := true } })

/-- The instruction that the interpreter finds at CS:IP, fetching byte for byte
with IP modulo 65536. -/
def Core.guestInstr (core : Core) : BodyInstr ⊕ BlockEnd :=
  let byte (i : ℕ) := core.codeByte (skipIp i core.cpu.regs.ip)
  decodeFields (byte 0) (byte 1) (joinBytes (byte 1) (byte 2)) (joinBytes (byte 2) (byte 3))
    (byte 4)

/-- The interpreter meets the instructions one after the other, each in the state
that the one before left. -/
inductive InterpretsBody : List BodyInstr → Core → Core → Prop
  | nil {core : Core} : InterpretsBody [] core core
  | cons {instr : BodyInstr} {body : List BodyInstr} {core after : Core}
      (hfound : core.guestInstr = .inl instr)
      (hrest : InterpretsBody body (instr.interp core) after) :
      InterpretsBody (instr :: body) core after

/-- The block ends in an instruction of the guest. -/
def BlockEnd.IsInstr : BlockEnd → Prop
  | jmp _ => True
  | int _ => True
  | hlt => True
  | _ => False

/-- The interpreter meets the instructions of the block and leaves `after`. -/
def InterpretsBlock (block : List BodyInstr × BlockEnd) (core : Core) (result : StepResult)
    (after : Core) : Prop :=
  ∃ mid, InterpretsBody block.1 core mid ∧
    (block.2.IsInstr → mid.guestInstr = .inr block.2) ∧ (result, after) = block.2.interp mid

/-! ### The instructions in a row -/

def interpBody (body : List BodyInstr) (core : Core) : Core :=
  body.foldl BodyInstr.interp core

/-- Where each instruction is met in its turn, interpretation is the fold. -/
theorem interpretsBody_iff {body : List BodyInstr} {core after : Core} :
    InterpretsBody body core after ↔
      (∀ front instr rest, body = front ++ instr :: rest →
        (interpBody front core).guestInstr = .inl instr) ∧ after = interpBody body core := by
  induction body generalizing core with
  | nil =>
      constructor
      · intro hbody
        cases hbody
        exact ⟨by simp, rfl⟩
      · rintro ⟨-, rfl⟩
        exact .nil
  | cons first body ih =>
      constructor
      · intro hbody
        cases hbody with
        | cons hfound hrest =>
            rcases ih.mp hrest with ⟨hmet, hafter⟩
            refine ⟨?_, hafter⟩
            intro front instr rest hsplit
            cases front with
            | nil =>
                cases hsplit
                exact hfound
            | cons head front =>
                cases hsplit
                exact hmet front instr rest rfl
      · rintro ⟨hmet, hafter⟩
        refine .cons (hmet [] first body rfl) (ih.mpr ⟨?_, hafter⟩)
        intro front instr rest hsplit
        exact hmet (first :: front) instr rest (congrArg (first :: ·) hsplit)

theorem interpretsBlock_iff {block : List BodyInstr × BlockEnd} {core after : Core}
    {result : StepResult} :
    InterpretsBlock block core result after ↔
      (∀ front instr rest, block.1 = front ++ instr :: rest →
        (interpBody front core).guestInstr = .inl instr) ∧
      (block.2.IsInstr → (interpBody block.1 core).guestInstr = .inr block.2) ∧
        (result, after) = block.2.interp (interpBody block.1 core) := by
  unfold InterpretsBlock
  constructor
  · rintro ⟨mid, hbody, hlast, hafter⟩
    rcases interpretsBody_iff.mp hbody with ⟨hmet, rfl⟩
    exact ⟨hmet, hlast, hafter⟩
  · rintro ⟨hmet, hlast, hafter⟩
    exact ⟨_, interpretsBody_iff.mpr ⟨hmet, rfl⟩, hlast, hafter⟩

/-! ## The same in the dispatchers' arms

`ADD AX, imm16` has no arm, and the one for `C6` takes the immediate before
the displacement. -/

section Arms

variable (core : Core)

theorem decodeReg16_eq : ∀ opcode : U8,
    decodeReg16 (opcode &&& 7) = reg16FromField (opcode.setWidth 3) := by
  decide +kernel

theorem movReg16Imm_interp :
    let ip := core.cpu.regs.ip
    let opcode := core.codeByte ip
    let imm := joinBytes (core.codeByte (skipIp 1 ip)) (core.codeByte (skipIp 2 ip))
    (fetchU8 >>= movReg16Imm) core =
      .ok (.proceed, (BodyInstr.movReg (decodeReg16 (opcode &&& 7)) imm).interp core) := by
  intro ip opcode imm
  rw [decodeReg16_eq]
  rfl

theorem outByte_interp :
    (fetchU8 >>= fun _ => outByte immPort) core =
      .ok (.proceed,
        (BodyInstr.out (core.codeByte (skipIp 1 core.cpu.regs.ip))).interp core) :=
  rfl

theorem jmpRel8_interp :
    (fetchU8 >>= fun _ => jmpRel8) core =
      .ok ((BlockEnd.jmp (core.codeByte (skipIp 1 core.cpu.regs.ip))).interp core) :=
  rfl

theorem intImm8_interp :
    (fetchU8 >>= fun _ => intImm8) core =
      .ok ((BlockEnd.int (core.codeByte (skipIp 1 core.cpu.regs.ip))).interp core) :=
  rfl

theorem hlt_interp :
    (fetchU8 >>= fun _ => hlt) core = .ok (BlockEnd.hlt.interp core) :=
  rfl

end Arms

end Kita98
