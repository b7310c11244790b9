import Kita98.FlatBytes
import Kita98.Memory

/-!
# The memory as a flat byte store

The addresses of the source wrap at different widths: 32 bits between the bytes
of a word, 64 bits in the bulk load, 20 bits in `phys` and once more at every
byte.  All of them agree with a flat memory of `2 ^ 20` cells, in which a byte
is stored under the plain sum of its address and its place.
-/

namespace Kita98

open ByteStore WordBits FlatBytes Memory

namespace Memory

/-! ## Bulk access -/

/-- `((addr as usize).wrapping_add(i)) & 0xF_FFFF` -/
def loadIndex (addr : U32) (i : ℕ) : U64 :=
  (addr.setWidth 64 + BitVec.ofNat 64 i) &&& 0xFFFFF#64

/-- The loop of `load_bytes` from round `i` on. -/
def loadLoop (mem : Memory) (addr : U32) : ℕ → List U8 → Memory
  | _, [] => mem
  | i, byte :: bytes =>
      loadLoop ⟨write mem.data ((loadIndex addr i).setWidth 20) byte⟩ addr (i + 1) bytes

def readBytes (mem : Memory) (addr : U32) (len : ℕ) : List U8 :=
  (List.range len).map fun i => mem.readU8 (addr + BitVec.ofNat 32 i)

theorem loadIndex_cell (addr : U32) (i : ℕ) :
    (loadIndex addr i).setWidth 20 = cell addr + BitVec.ofNat 20 i := by
  have hones : (0xFFFFF#64).setWidth 20 = BitVec.allOnes 20 := by decide
  have haddr : (addr.setWidth 64).setWidth 20 = cell addr :=
    BitVec.setWidth_setWidth_of_le addr (by decide)
  have hindex : (BitVec.ofNat 64 i).setWidth 20 = BitVec.ofNat 20 i :=
    BitVec.setWidth_ofNat_of_le (by decide) i
  rw [loadIndex, BitVec.setWidth_and, hones, BitVec.and_allOnes, BitVec.setWidth_add _ _ (by decide),
    haddr, hindex]

theorem loadLoop_data (mem : Memory) (addr : U32) (i : ℕ) (bytes : List U8) :
    (mem.loadLoop addr i bytes).data = load mem.data (cell addr + BitVec.ofNat 20 i) bytes := by
  induction bytes generalizing mem i with
  | nil => rfl
  | cons byte bytes ih =>
      have hnext : cell addr + BitVec.ofNat 20 (i + 1) = cell addr + BitVec.ofNat 20 i + 1 := by
        rw [BitVec.ofNat_add, ← add_assoc]
        rfl
      rw [loadLoop, ih, loadIndex_cell, hnext]
      rfl

theorem loadLoop_eq (mem : Memory) (addr : U32) (bytes : List U8) :
    mem.loadLoop addr 0 bytes = mem.loadBytes addr bytes := by
  ext1
  rw [loadLoop_data]
  simp [loadBytes]

end Memory

/-! ## Operations -/

inductive MemOp where
  | writeU8 (addr : U32) (val : U8)
  | writeU16 (addr : U32) (val : U16)
  | writeU32 (addr val : U32)
  | segWriteU8 (seg : U16) (off : U32) (val : U8)
  | segWriteU16 (seg : U16) (off : U32) (val : U16)
  | segWriteU32 (seg : U16) (off val : U32)
  | setIvt (vector : U8) (segment offset : U16)
  | loadBytes (addr : U32) (bytes : List U8)
  deriving DecidableEq, Repr

namespace MemOp

def apply (mem : Memory) : MemOp → Memory
  | writeU8 addr val => mem.writeU8 addr val
  | writeU16 addr val => mem.writeU16 addr val
  | writeU32 addr val => mem.writeU32 addr val
  | segWriteU8 seg off val => mem.segWriteU8 seg off val
  | segWriteU16 seg off val => mem.segWriteU16 seg off val
  | segWriteU32 seg off val => mem.segWriteU32 seg off val
  | setIvt vector segment offset => mem.setIvt vector segment offset
  | loadBytes addr bytes => mem.loadLoop addr 0 bytes

/-- The address that an operation names, without any wrapping. -/
def start : MemOp → ℕ
  | writeU8 addr _ | writeU16 addr _ | writeU32 addr _ | loadBytes addr _ => addr.toNat
  | segWriteU8 seg off _ | segWriteU16 seg off _ | segWriteU32 seg off _ =>
      16 * seg.toNat + off.toNat
  | setIvt vector _ _ => 4 * vector.toNat

def bytes : MemOp → List U8
  | writeU8 _ val | segWriteU8 _ _ val => [val]
  | writeU16 _ val | segWriteU16 _ _ val => bytesOf 2 val.toNat
  | writeU32 _ val | segWriteU32 _ _ val => bytesOf 4 val.toNat
  | setIvt _ segment offset => bytesOf 2 offset.toNat ++ bytesOf 2 segment.toNat
  | loadBytes _ bytes => bytes

def writes (op : MemOp) : List (ℕ × U8) := writesFrom op.start op.bytes

/-- A byte of the operation goes to the cell. -/
def Addresses (op : MemOp) (c : Cell) : Prop :=
  ∃ i < op.bytes.length, (op.start + i) % 2 ^ 20 = c.toNat

end MemOp

/-! ## What an operation stores -/

theorem ofNat_byte_eq {a b : ℕ} (hmod : a % 256 = b % 256) :
    BitVec.ofNat 8 a = BitVec.ofNat 8 b := by
  apply BitVec.eq_of_toNat_eq
  simpa using hmod

theorem bytesOf_word (v : U16) : bytesOf 2 v.toNat = wordBytes v := by
  have hlow : BitVec.ofNat 8 v.toNat = lowByte v := by
    apply BitVec.eq_of_toNat_eq
    simp [lowByte]
  have hhigh : BitVec.ofNat 8 (v.toNat / 256) = highByte v := by
    apply BitVec.eq_of_toNat_eq
    simp [highByte, Nat.shiftRight_eq_div_pow]
  simp [bytesOf, wordBytes, hlow, hhigh]

theorem bytesOf_double (v : U32) : bytesOf 4 v.toNat = doubleBytes v := by
  have hlow : bytesOf 2 v.toNat = wordBytes (v.setWidth 16) := by
    rw [← bytesOf_word]
    simp only [bytesOf, BitVec.toNat_setWidth, List.cons.injEq, and_true]
    constructor <;> apply ofNat_byte_eq <;> omega
  have hhigh : bytesOf 2 (v.toNat / 256 / 256) = wordBytes ((v >>> 16).setWidth 16) := by
    rw [← bytesOf_word]
    simp only [bytesOf, BitVec.toNat_setWidth, BitVec.toNat_ushiftRight, Nat.shiftRight_eq_div_pow,
      List.cons.injEq, and_true]
    constructor <;> apply ofNat_byte_eq <;> omega
  rw [doubleBytes, ← hlow, ← hhigh]
  rfl

theorem cell_phys_eq_ofNat (seg : U16) (off : U32) :
    cell (phys seg off) = BitVec.ofNat 20 (16 * seg.toNat + off.toNat) := by
  apply BitVec.eq_of_toNat_eq
  rw [cell_phys]
  simp only [cell, BitVec.toNat_add, BitVec.toNat_setWidth, BitVec.toNat_shiftLeft,
    Nat.shiftLeft_eq, BitVec.toNat_ofNat]
  omega

theorem vector_toNat (vector : U8) :
    (vector.setWidth 32 * 4 : U32).toNat = 4 * vector.toNat := by
  have hsmall := vector.isLt
  rw [BitVec.toNat_mul, BitVec.toNat_setWidth]
  simp
  omega

theorem vector_cell (vector : U8) :
    cell (vector.setWidth 32 * 4) = BitVec.ofNat 20 (4 * vector.toNat) := by
  apply BitVec.eq_of_toNat_eq
  rw [cell, BitVec.toNat_setWidth, vector_toNat, BitVec.toNat_ofNat]

/-- Every operation loads its bytes into the cells from its address on. -/
theorem MemOp.apply_data (mem : Memory) (op : MemOp) :
    (op.apply mem).data = load mem.data (BitVec.ofNat 20 op.start) op.bytes := by
  cases op with
  | writeU8 addr val =>
      rw [MemOp.apply, writeU8_eq_load]
      rfl
  | writeU16 addr val =>
      rw [MemOp.apply, writeU16_eq_load, MemOp.bytes, bytesOf_word]
      rfl
  | writeU32 addr val =>
      rw [MemOp.apply, writeU32_eq_load, MemOp.bytes, bytesOf_double]
      rfl
  | segWriteU8 seg off val =>
      rw [MemOp.apply, Memory.segWriteU8, writeU8_eq_load, cell_phys_eq_ofNat]
      rfl
  | segWriteU16 seg off val =>
      rw [MemOp.apply, Memory.segWriteU16, writeU16_eq_load, cell_phys_eq_ofNat, MemOp.bytes, bytesOf_word]
      rfl
  | segWriteU32 seg off val =>
      rw [MemOp.apply, Memory.segWriteU32, writeU32_eq_load, cell_phys_eq_ofNat, MemOp.bytes,
        bytesOf_double]
      rfl
  | setIvt vector segment offset =>
      rw [MemOp.apply, Memory.setIvt, writeU16_eq_load, writeU16_eq_load, cell_add, vector_cell,
        MemOp.bytes, bytesOf_word, bytesOf_word, load_append]
      rfl
  | loadBytes addr bytes =>
      rw [MemOp.apply, loadLoop_eq]
      rfl

/-! ## What the memory holds and what is read -/

theorem MemOp.apply_holds {mem : Memory} {cells : ℕ → U8} (op : MemOp)
    (hholds : Holds mem.data cells) :
    Holds (op.apply mem).data (content (2 ^ 20) cells op.writes) := by
  rw [op.apply_data]
  exact hholds.load _ _ _ (BitVec.toNat_ofNat _ _)

/-- Along a run of operations the memory holds what its history tells. -/
theorem run_holds (mem : Memory) (ops : List MemOp) {cells : ℕ → U8}
    (hholds : Holds mem.data cells) :
    Holds (ops.foldl MemOp.apply mem).data (content (2 ^ 20) cells (ops.flatMap MemOp.writes)) := by
  induction ops generalizing mem cells with
  | nil =>
      intro c
      simpa [content, lastWritten, Nat.mod_eq_of_lt c.isLt] using hholds c
  | cons op ops ih =>
      have hrest := ih (op.apply mem) (op.apply_holds hholds)
      rw [← content_append] at hrest
      exact hrest

structure ReadsAs (mem : Memory) (cells : ℕ → U8) : Prop where
  readU8 : ∀ addr, mem.readU8 addr = cells addr.toNat
  readU16 : ∀ addr, (mem.readU16 addr).toNat = number 2 cells addr.toNat
  readU32 : ∀ addr, (mem.readU32 addr).toNat = number 4 cells addr.toNat
  segReadU8 : ∀ seg off, mem.segReadU8 seg off = cells (16 * seg.toNat + off.toNat)
  segReadU16 : ∀ seg off,
    (mem.segReadU16 seg off).toNat = number 2 cells (16 * seg.toNat + off.toNat)
  segReadU32 : ∀ seg off,
    (mem.segReadU32 seg off).toNat = number 4 cells (16 * seg.toNat + off.toNat)
  readBytes : ∀ addr len,
    mem.readBytes addr len = (List.range len).map fun i => cells (addr.toNat + i)
  getIvt : ∀ vector,
    (mem.getIvt vector).2.toNat = number 2 cells (4 * vector.toNat) ∧
      (mem.getIvt vector).1.toNat = number 2 cells (4 * vector.toNat + 2)

section Reads

variable {mem : Memory} {cells : ℕ → U8}

/-- The cells repeat with the size of the memory, as addresses do. -/
def Wraps (cells : ℕ → U8) : Prop := ∀ addr, cells (addr % 2 ^ 20) = cells addr

theorem content_wraps (initial : ℕ → U8) (history : List (ℕ × U8)) :
    Wraps (content (2 ^ 20) initial history) := by
  intro addr
  simp [content]

theorem readU8_holds (hholds : Holds mem.data cells) (hwraps : Wraps cells)
    {addr : U32} {place : ℕ} (hplace : addr.toNat % 2 ^ 20 = place % 2 ^ 20) :
    mem.readU8 addr = cells place := by
  rw [Memory.readU8, hholds, cell, BitVec.toNat_setWidth, hplace, hwraps]

theorem readU16_holds (hholds : Holds mem.data cells) (hwraps : Wraps cells)
    {addr : U32} {place : ℕ} (hplace : addr.toNat % 2 ^ 20 = place % 2 ^ 20) :
    (mem.readU16 addr).toNat = number 2 cells place := by
  have hnext : (addr + 1).toNat % 2 ^ 20 = (place + 1) % 2 ^ 20 := by
    rw [BitVec.toNat_add]
    simp
    omega
  rw [Memory.readU16, joinBytes_toNat, number_two, readU8_holds hholds hwraps hplace,
    readU8_holds hholds hwraps hnext]

theorem readU32_holds (hholds : Holds mem.data cells) (hwraps : Wraps cells)
    {addr : U32} {place : ℕ} (hplace : addr.toNat % 2 ^ 20 = place % 2 ^ 20) :
    (mem.readU32 addr).toNat = number 4 cells place := by
  have hnext : (addr + 2).toNat % 2 ^ 20 = (place + 2) % 2 ^ 20 := by
    rw [BitVec.toNat_add]
    simp
    omega
  rw [Memory.readU32, toNat_join _ _ (by decide), number_four, readU16_holds hholds hwraps hplace,
    readU16_holds hholds hwraps hnext]
  norm_num

theorem phys_place (seg : U16) (off : U32) :
    (phys seg off).toNat % 2 ^ 20 = (16 * seg.toNat + off.toNat) % 2 ^ 20 := by
  have hcell := congrArg BitVec.toNat (cell_phys_eq_ofNat seg off)
  rwa [cell, BitVec.toNat_setWidth, BitVec.toNat_ofNat] at hcell

theorem reads_of_holds (hholds : Holds mem.data cells) (hwraps : Wraps cells) :
    ReadsAs mem cells where
  readU8 := fun _ => readU8_holds hholds hwraps rfl
  readU16 := fun _ => readU16_holds hholds hwraps rfl
  readU32 := fun _ => readU32_holds hholds hwraps rfl
  segReadU8 := fun seg off => readU8_holds hholds hwraps (phys_place seg off)
  segReadU16 := fun seg off => readU16_holds hholds hwraps (phys_place seg off)
  segReadU32 := fun seg off => readU32_holds hholds hwraps (phys_place seg off)
  readBytes := by
    intro addr len
    apply List.map_congr_left
    intro i hi
    apply readU8_holds hholds hwraps
    rw [BitVec.toNat_add, BitVec.toNat_ofNat]
    omega
  getIvt := by
    intro vector
    have hbase := vector_toNat vector
    have hnext : (vector.setWidth 32 * 4 + 2 : U32).toNat = 4 * vector.toNat + 2 := by
      have hsmall := vector.isLt
      rw [BitVec.toNat_add, hbase]
      simp
      omega
    constructor
    · exact readU16_holds hholds hwraps (by rw [hbase])
    · exact readU16_holds hholds hwraps (by rw [hnext])

end Reads

/-- What the memory holds before the first operation. -/
def Memory.cells (mem : Memory) (addr : ℕ) : U8 := mem.data (BitVec.ofNat 20 addr)

theorem memory_flat (mem : Memory) (ops : List MemOp) :
    ReadsAs (ops.foldl MemOp.apply mem)
        (content (2 ^ 20) mem.cells (ops.flatMap MemOp.writes)) ∧
      ∀ c : Cell, (∃ op ∈ ops, op.Addresses c) ∨
        (ops.foldl MemOp.apply mem).data c = mem.data c := by
  have hstart : Holds mem.data mem.cells := by
    intro c
    simp [Memory.cells]
  have hholds := run_holds mem ops hstart
  constructor
  · exact reads_of_holds hholds (content_wraps _ _)
  · intro c
    by_cases haddressed : ∃ op ∈ ops, op.Addresses c
    · exact .inl haddressed
    · right
      rw [hholds c, content_of_untouched, Nat.mod_eq_of_lt c.isLt, ← hstart c]
      intro entry hentry hsame
      apply haddressed
      rcases List.mem_flatMap.mp hentry with ⟨op, hop, hwrite⟩
      rcases mem_writesFrom hwrite with ⟨i, hi, haddr⟩
      refine ⟨op, hop, i, hi, ?_⟩
      rw [← haddr, hsame, Nat.mod_eq_of_lt c.isLt]

end Kita98
