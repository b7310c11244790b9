import Kita98.ByteStore
import Kita98.Regs

/-!
# The 1 MiB real-mode memory

An address is masked to 20 bits before it indexes the array, so the array
`[u8; MEM_SIZE]` is a byte store over 20-bit addresses and every access
wraps at 1 MiB.
-/

namespace Kita98

open ByteStore WordBits

/-- An index of `data: [u8; MEM_SIZE]`. -/
abbrev Cell := BitVec 20

@[ext] structure Memory where
  data : Cell → U8

namespace Memory

def new : Memory := ⟨fun _ => 0⟩

def phys (segment : U16) (offset : U32) : U32 :=
  ((segment.setWidth 32 <<< 4) + offset) &&& 0xFFFFF#32

/-- `addr & 0xF_FFFF` -/
def cell (addr : U32) : Cell := addr.setWidth 20

def readU8 (mem : Memory) (addr : U32) : U8 := mem.data (cell addr)

def writeU8 (mem : Memory) (addr : U32) (val : U8) : Memory :=
  ⟨write mem.data (cell addr) val⟩

def readU16 (mem : Memory) (addr : U32) : U16 :=
  joinBytes (mem.readU8 addr) (mem.readU8 (addr + 1))

def writeU16 (mem : Memory) (addr : U32) (val : U16) : Memory :=
  (mem.writeU8 addr (lowByte val)).writeU8 (addr + 1) (highByte val)

def readU32 (mem : Memory) (addr : U32) : U32 :=
  (mem.readU16 addr).setWidth 32 ||| ((mem.readU16 (addr + 2)).setWidth 32 <<< 16)

def writeU32 (mem : Memory) (addr : U32) (val : U32) : Memory :=
  (mem.writeU16 addr (val.setWidth 16)).writeU16 (addr + 2) ((val >>> 16).setWidth 16)

def segReadU8 (mem : Memory) (seg : U16) (off : U32) : U8 := mem.readU8 (phys seg off)

def segWriteU8 (mem : Memory) (seg : U16) (off : U32) (val : U8) : Memory :=
  mem.writeU8 (phys seg off) val

def segReadU16 (mem : Memory) (seg : U16) (off : U32) : U16 := mem.readU16 (phys seg off)

def segWriteU16 (mem : Memory) (seg : U16) (off : U32) (val : U16) : Memory :=
  mem.writeU16 (phys seg off) val

def segReadU32 (mem : Memory) (seg : U16) (off : U32) : U32 := mem.readU32 (phys seg off)

def segWriteU32 (mem : Memory) (seg : U16) (off : U32) (val : U32) : Memory :=
  mem.writeU32 (phys seg off) val

def loadBytes (mem : Memory) (addr : U32) (bytes : List U8) : Memory :=
  ⟨load mem.data (cell addr) bytes⟩

def setIvt (mem : Memory) (vector : U8) (segment offset : U16) : Memory :=
  let base := vector.setWidth 32 * 4
  (mem.writeU16 base offset).writeU16 (base + 2) segment

/-- Segment and offset of an interrupt vector. -/
def getIvt (mem : Memory) (vector : U8) : U16 × U16 :=
  let base := vector.setWidth 32 * 4
  (mem.readU16 (base + 2), mem.readU16 base)

/-! ## Addresses -/

@[simp] theorem cell_add (a b : U32) : cell (a + b) = cell a + cell b := by
  simp [cell, BitVec.setWidth_add]

@[simp] theorem cell_one : cell 1#32 = 1#20 := rfl

@[simp] theorem cell_mask (addr : U32) : cell (addr &&& 0xFFFFF#32) = cell addr := by
  have hones : (0xFFFFF#32).setWidth 20 = BitVec.allOnes 20 := by decide
  rw [cell, BitVec.setWidth_and, hones, BitVec.and_allOnes]
  rfl

theorem cell_setWidth (c : Cell) : cell (c.setWidth 32) = c := by
  rw [cell, BitVec.setWidth_setWidth_of_le _ (by decide), BitVec.setWidth_eq]

theorem cell_phys (segment : U16) (offset : U32) :
    cell (phys segment offset) = cell (segment.setWidth 32 <<< 4) + cell offset := by
  simp [phys]

theorem setWidth_cell_phys (segment : U16) (offset : U32) :
    (cell (phys segment offset)).setWidth 32 = phys segment offset := by
  have hsmall : (phys segment offset).toNat < 2 ^ 20 := by
    unfold phys
    rw [BitVec.toNat_and]
    exact Nat.lt_of_le_of_lt Nat.and_le_right (by decide)
  apply BitVec.eq_of_toNat_eq
  unfold cell
  rw [BitVec.toNat_setWidth, BitVec.toNat_setWidth, Nat.mod_eq_of_lt hsmall]
  omega

theorem cell_succ_ne (c : Cell) : c + 1 ≠ c := by
  bv_omega

/-! ## The word operations are those of the byte store -/

theorem writeU16_data (mem : Memory) (addr : U32) (val : U16) :
    (mem.writeU16 addr val).data = writeWord mem.data (cell addr) val := by
  simp [writeU16, writeU8, writeWord]

theorem readU16_eq (mem : Memory) (addr : U32) :
    mem.readU16 addr = readWord mem.data (cell addr) := by
  simp [readU16, readU8, readWord]

@[simp] theorem readU16_writeU16_self (mem : Memory) (addr : U32) (val : U16) :
    (mem.writeU16 addr val).readU16 addr = val := by
  rw [readU16_eq, writeU16_data, readWord_writeWord_self _ _ (cell_succ_ne _)]

end Memory

/-! ## Stores are loads of their bytes -/

open Memory

def wordBytes (v : U16) : List U8 := [lowByte v, highByte v]

def doubleBytes (v : U32) : List U8 :=
  wordBytes (v.setWidth 16) ++ wordBytes ((v >>> 16).setWidth 16)

theorem writeU8_eq_load (mem : Memory) (addr : U32) (val : U8) :
    mem.writeU8 addr val = ⟨load mem.data (cell addr) [val]⟩ := rfl

theorem writeU16_eq_load (mem : Memory) (addr : U32) (val : U16) :
    mem.writeU16 addr val = ⟨load mem.data (cell addr) (wordBytes val)⟩ :=
  Memory.ext (writeU16_data mem addr val)

theorem writeU32_eq_load (mem : Memory) (addr : U32) (val : U32) :
    mem.writeU32 addr val = ⟨load mem.data (cell addr) (doubleBytes val)⟩ := by
  have hcell : cell addr + cell 2 = cell addr + 1 + 1 := by
    rw [show cell 2 = 1 + 1 from rfl, add_assoc]
  rw [writeU32, writeU16_eq_load, writeU16_eq_load, cell_add, hcell]
  rfl

end Kita98
