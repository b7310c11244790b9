import Kita98.Interpreter

/-!
# The block translator

A block is translated to a list of intermediate operations, each operation is
emitted as machine code, and the code is cached under the physical address of
its first byte.  The emitted code is represented by what each emitted
instruction does to the register image: `Regs` in declaration order, `gp` at
byte 0, `seg` at 32, `ip` at 44 and `flags` at 48.
-/

namespace Kita98

open WordBits

inductive IrOp where
  | movRegImm (reg : Reg16) (imm : U16)
  | movRegReg (dst src : Reg16)
  | movMemImm8 (phys : U32) (val : U8)
  | addRegImm (reg : Reg16) (imm : U16)
  | subRegImm (reg : Reg16) (imm : U16)
  | cmpRegImm (reg : Reg16) (imm : U16)
  | jmpRelative (rel : U16)
  | int (num : U8)
  | outImm8 (port : U16) (reg : Reg8)
  | syncIp (ip : U16)
  | exit (result : StepResult)
  deriving DecidableEq, Repr

/-! ## The register image -/

/-- Register whose 32 bits start at byte `4 * i` of the image. -/
def gpAt (i : ℕ) : Reg16 :=
  match i with
  | 0 => .AX
  | 1 => .CX
  | 2 => .DX
  | 3 => .BX
  | 4 => .SP
  | 5 => .BP
  | 6 => .SI
  | _ => .DI

def segAt (i : ℕ) : SegReg :=
  match i with
  | 0 => .ES
  | 1 => .CS
  | 2 => .SS
  | 3 => .DS
  | 4 => .FS
  | _ => .GS

def halfWord (x : U32) (high : Bool) : U16 :=
  if high then (x >>> 16).setWidth 16 else x.setWidth 16

def setHalfWord (x : U32) (high : Bool) (v : U16) : U32 :=
  if high then (x &&& 0x0000FFFF#32) ||| (v.setWidth 32 <<< 16)
  else (x &&& 0xFFFF0000#32) ||| v.setWidth 32

namespace Regs

def loadWord (regs : Regs) (off : ℕ) : U16 :=
  if off < 32 then halfWord (regs.gp (gpAt (off / 4))) (off % 4 = 2)
  else if off < 44 then regs.seg (segAt ((off - 32) / 2))
  else if off < 48 then halfWord regs.ip (off % 4 = 2)
  else halfWord regs.flags (off % 4 = 2)

def storeWord (regs : Regs) (off : ℕ) (v : U16) : Regs :=
  if off < 32 then
    let r := gpAt (off / 4)
    { regs with gp := Function.update regs.gp r (setHalfWord (regs.gp r) (off % 4 = 2) v) }
  else if off < 44 then regs.setSeg (segAt ((off - 32) / 2)) v
  else if off < 48 then { regs with ip := setHalfWord regs.ip (off % 4 = 2) v }
  else { regs with flags := setHalfWord regs.flags (off % 4 = 2) v }

end Regs

/-! ## Translation -/

def decodeReg16 (val : U8) : Reg16 :=
  match val &&& 7 with
  | 0 => .AX
  | 1 => .CX
  | 2 => .DX
  | 3 => .BX
  | 4 => .SP
  | 5 => .BP
  | 6 => .SI
  | _ => .DI

/-- The translation loop, `n` instructions before its end.  `currIp` is not
masked to 16 bits; `curr_ip + 2` in the INT arm is a checked addition. -/
def translateFrom (mem : Memory) (cs ds : U16) :
    ℕ → U32 → U32 → Except Fault (List IrOp)
  | 0, _, _ => .ok []
  | n + 1, currIp, addr =>
      let opcode := mem.readU8 addr
      let advance (op : IrOp) (instrSize : U32) : Except Fault (List IrOp) :=
        let currIp := currIp + instrSize
        match translateFrom mem cs ds n currIp (Memory.phys cs currIp) with
        | .error e => .error e
        | .ok ops => .ok (op :: .syncIp (currIp.setWidth 16) :: ops)
      if 0xB8 ≤ opcode ∧ opcode ≤ 0xBF then
        advance (.movRegImm (decodeReg16 (opcode &&& 7)) (mem.readU16 (addr + 1))) 3
      else
        match opcode with
        | 0xC6 =>
            let modrm := mem.readU8 (addr + 1)
            if modrm >>> 6 = 0 ∧ modrm &&& 7 = 6 then
              let disp := mem.readU16 (addr + 2)
              let imm := mem.readU8 (addr + 4)
              advance (.movMemImm8 (Memory.phys ds (disp.setWidth 32)) imm) 5
            else .ok []
        | 0x05 => advance (.addRegImm .AX (mem.readU16 (addr + 1))) 3
        | 0xE6 => advance (.outImm8 ((mem.readU8 (addr + 1)).setWidth 16) .AL) 2
        | 0xEB =>
            let rel : U16 := (mem.readU8 (addr + 1)).signExtend 16
            .ok [.jmpRelative rel, .syncIp (currIp.setWidth 16 + 2 + rel), .exit .proceed]
        | 0xCD =>
            let num := mem.readU8 (addr + 1)
            if currIp.toNat + 2 < 2 ^ 32 then
              .ok [.syncIp ((currIp + 2).setWidth 16), .exit (.interrupt num)]
            else .error .overflow
        | 0xF4 => .ok [.exit .halt]
        | _ => .ok [.exit .proceed]

def blockLimit : ℕ := 50

def translateBlock (bus : Bus) (regs : Regs) (startPhys : U32) :
    Except Fault (List IrOp) :=
  translateFrom bus.mem (regs.getSeg .CS) (regs.getSeg .DS) blockLimit regs.ip startPhys

/-! ## Emitted code -/

inductive Emitted where
  /-- `mov WORD [r12 + off], imm` -/
  | movWord (off : ℕ) (imm : U16)
  /-- `add WORD [r12 + off], imm` -/
  | addWord (off : ℕ) (imm : U16)
  /-- A call of `Bus::mem_write_u8`. -/
  | memWriteU8 (phys : U32) (val : U8)
  /-- A call of `Bus::io_write_u8` with the byte at `[r12]`. -/
  | ioWriteU8 (port : U16)
  /-- `mov rax, r; jmp exit` -/
  | leave (rax : ℕ)
  deriving DecidableEq, Repr

structure JitBlock where
  code : List Emitted
  deriving DecidableEq, Repr

def emit : IrOp → List Emitted
  | .movRegImm reg imm => [.movWord (reg.index * 2) imm]
  | .addRegImm reg imm => [.addWord (reg.index * 2) imm]
  | .movMemImm8 phys val => [.memWriteU8 phys val]
  | .outImm8 port _ => [.ioWriteU8 port]
  | .syncIp ip => [.movWord 24 ip]
  | .exit .proceed => [.leave 0]
  | .exit .halt => [.leave 1]
  | .exit (.interrupt n) => [.leave (100 + n.toNat)]
  | .exit (.unimplemented _) => [.leave 0]
  | _ => []

def compileBlock (ops : List IrOp) : JitBlock := ⟨ops.flatMap emit⟩

/-- Run emitted code; the value is what RAX holds at the end, `none` when the
code falls through to its epilogue without setting it. -/
def runCode : List Emitted → Bus → Regs → Option ℕ × Bus × Regs
  | [], bus, regs => (none, bus, regs)
  | .movWord off imm :: code, bus, regs => runCode code bus (regs.storeWord off imm)
  | .addWord off imm :: code, bus, regs =>
      runCode code bus (regs.storeWord off (regs.loadWord off + imm))
  | .memWriteU8 phys val :: code, bus, regs =>
      runCode code (bus.memWriteU8 phys val) regs
  | .ioWriteU8 port :: code, bus, regs =>
      runCode code (bus.ioWriteU8 port (lowByte (regs.loadWord 0))) regs
  | .leave rax :: _, bus, regs => (some rax, bus, regs)

/-- `run_block` reads its result from RAX. -/
def decodeRax (rax : ℕ) : StepResult :=
  if rax = 0 then .proceed
  else if rax = 1 then .halt
  else if rax ≥ 100 then .interrupt (BitVec.ofNat 8 (rax - 100))
  else .proceed

structure JitRuntime where
  cache : U32 → Option JitBlock
  /-- What RAX happens to hold after each later block that does not set it. -/
  residue : ℕ → ℕ

namespace JitRuntime

def runBlock (jit : JitRuntime) (block : JitBlock) (bus : Bus) (regs : Regs) :
    StepResult × JitRuntime × Bus × Regs :=
  match runCode block.code bus regs with
  | (some rax, bus, regs) => (decodeRax rax, jit, bus, regs)
  | (none, bus, regs) =>
      (decodeRax (jit.residue 0),
        { jit with residue := fun n => jit.residue (n + 1) }, bus, regs)

def insert (jit : JitRuntime) (phys : U32) (block : JitBlock) : JitRuntime :=
  { jit with cache := Function.update jit.cache phys (some block) }

def emptied (jit : JitRuntime) : JitRuntime := { jit with cache := fun _ => none }

def physIp (regs : Regs) : U32 := Memory.phys (regs.getSeg .CS) regs.ip

def execute (jit : JitRuntime) (bus : Bus) (regs : Regs) :
    Except Fault (StepResult × JitRuntime × Bus × Regs) :=
  match jit.cache (physIp regs) with
  | some block => .ok (jit.runBlock block bus regs)
  | none =>
      match translateBlock bus regs (physIp regs) with
      | .error e => .error e
      | .ok [] => .ok (.proceed, jit, bus, regs)
      | .ok (op :: ops) =>
          let block := compileBlock (op :: ops)
          .ok ((jit.insert (physIp regs) block).runBlock block bus regs)

end JitRuntime

end Kita98
