import Kita98.StringRounds
import Kita98.RecordStore

/-!
# The elements of a string instruction

An element is a byte or a word, and the next one is a step up or down the
segment, by DF.  Memory is a store of such elements: each covers its cells and
no others.
-/

namespace Kita98

open WordBits ByteStore RecordStore Kita98.Core Memory

/-! ## Pointers -/

namespace Regs

def withCounters (regs : Regs) (cx si di : U16) : Regs :=
  ((regs.set16 .CX cx).set16 .SI si).set16 .DI di

/-- What a pointer advances by in one round. -/
def stride (regs : Regs) (size : U16) : U16 := if regs.getDf then -size else size

section Counters

variable (regs : Regs) (cx si di : U16)

@[simp] theorem withCounters_cx : (regs.withCounters cx si di).get16 .CX = cx := by
  simp [withCounters, get16_set16_of_ne]

@[simp] theorem withCounters_si : (regs.withCounters cx si di).get16 .SI = si := by
  simp [withCounters, get16_set16_of_ne]

@[simp] theorem withCounters_di : (regs.withCounters cx si di).get16 .DI = di := by
  simp [withCounters]

@[simp] theorem withCounters_getSeg (s : SegReg) :
    (regs.withCounters cx si di).getSeg s = regs.getSeg s := rfl

@[simp] theorem withCounters_getDf : (regs.withCounters cx si di).getDf = regs.getDf := rfl

@[simp] theorem withCounters_set_cx (v : U16) :
    (regs.withCounters cx si di).set16 .CX v = regs.withCounters v si di := by
  ext r
  · cases r <;> simp [withCounters, set16, highHalf_of_low]
  all_goals rfl

@[simp] theorem withCounters_set_si (v : U16) :
    (regs.withCounters cx si di).set16 .SI v = regs.withCounters cx v di := by
  ext r
  · cases r <;> simp [withCounters, set16, highHalf_of_low]
  all_goals rfl

@[simp] theorem withCounters_set_di (v : U16) :
    (regs.withCounters cx si di).set16 .DI v = regs.withCounters cx si v := by
  ext r
  · cases r <;> simp [withCounters, set16, highHalf_of_low]
  all_goals rfl

@[simp] theorem withCounters_stride (size : U16) :
    (regs.withCounters cx si di).stride size = regs.stride size := rfl

theorem counter_succ (i : ℕ) : cx - BitVec.ofNat 16 i - 1#16 = cx - BitVec.ofNat 16 (i + 1) := by
  bv_omega

theorem withCounters_self :
    regs.withCounters (regs.get16 .CX) (regs.get16 .SI) (regs.get16 .DI) = regs := by
  ext r
  · cases r <;> simp [withCounters, set16, get16, setHalf_half]
  all_goals rfl

theorem strAdvance_eq (r : Reg16) (size : U16) :
    regs.strAdvance r size = regs.set16 r (regs.get16 r + regs.stride size) := by
  unfold strAdvance stride
  split
  · rw [BitVec.sub_eq_add_neg]
  · rfl

@[simp] theorem withCounters_strAdvance_si (size : U16) :
    (regs.withCounters cx si di).strAdvance .SI size =
      regs.withCounters cx (si + regs.stride size) di := by
  simp [strAdvance_eq]

@[simp] theorem withCounters_strAdvance_di (size : U16) :
    (regs.withCounters cx si di).strAdvance .DI size =
      regs.withCounters cx si (di + regs.stride size) := by
  simp [strAdvance_eq]

end Counters

end Regs

/-! ## Elements -/

inductive ElementSize where
  | byte
  | word
  deriving DecidableEq, Repr

namespace ElementSize

def bits : ElementSize → ℕ
  | byte => 8
  | word => 16

def bytes : ElementSize → U16
  | byte => 1
  | word => 2

def cells (size : ElementSize) (c : Cell) : Set Cell :=
  {a | a = c ∨ size = .word ∧ a = c + 1}

def read : (size : ElementSize) → (Cell → U8) → Cell → BitVec size.bits
  | byte => fun data c => data c
  | word => readWord

def write : (size : ElementSize) → (Cell → U8) → Cell → BitVec size.bits → Cell → U8
  | byte => ByteStore.write
  | word => writeWord

def accumulator : (size : ElementSize) → Regs → BitVec size.bits
  | byte => fun regs => regs.get8 .AL
  | word => fun regs => regs.get16 .AX

@[simp] theorem accumulator_withCounters (size : ElementSize) (regs : Regs) (cx si di : U16) :
    size.accumulator (regs.withCounters cx si di) = size.accumulator regs := by
  cases size <;> rfl

theorem records (size : ElementSize) : Records size.cells size.read size.write := by
  cases size with
  | byte =>
      constructor
      · intro store c v
        exact write_self store c v
      · intro store store' c hsame
        exact hsame c (.inl rfl)
      · intro store c v a ha
        exact write_of_ne store v fun heq => ha (.inl heq)
  | word =>
      constructor
      · intro store c v
        exact readWord_writeWord_self store v (cell_succ_ne c)
      · intro store store' c hsame
        have hlow := hsame c (.inl rfl)
        have hhigh := hsame (c + 1) (.inr ⟨rfl, rfl⟩)
        exact congrArg₂ joinBytes hlow hhigh
      · intro store c v a ha
        exact writeWord_of_ne store v (fun heq => ha (.inl heq)) fun heq => ha (.inr ⟨rfl, heq⟩)

theorem disjoint_cells_iff {size : ElementSize} {c d : Cell} :
    Disjoint (size.cells c) (size.cells d) ↔
      c ≠ d ∧ (size = .word → c ≠ d + 1 ∧ c + 1 ≠ d) := by
  rw [Set.disjoint_left]
  constructor
  · intro hapart
    refine ⟨?_, fun hsize => ⟨?_, ?_⟩⟩
    · rintro rfl
      exact hapart (.inl rfl) (.inl rfl)
    · rintro rfl
      exact hapart (.inl rfl) (.inr ⟨hsize, rfl⟩)
    · rintro rfl
      exact hapart (.inr ⟨hsize, rfl⟩) (.inl rfl)
  · rintro ⟨hne, hword⟩ a (rfl | ⟨hsize, rfl⟩) (rfl | ⟨hsize', heq⟩)
    · exact hne rfl
    · exact (hword hsize').1 heq
    · exact (hword hsize).2 rfl
    · exact hne (add_right_cancel heq)

instance (size : ElementSize) (c d : Cell) : Decidable (Disjoint (size.cells c) (size.cells d)) :=
  decidable_of_iff _ disjoint_cells_iff.symm

end ElementSize

/-! ## Places -/

namespace Core

variable (core : Core) (size : ElementSize)

/-- The pointer in `r` after `i` elements. -/
def pointer (r : Reg16) (i : ℕ) : U16 :=
  core.cpu.regs.get16 r + BitVec.ofNat 16 i * core.cpu.regs.stride size.bytes

/-- The place of the `i`-th element at the overridable DS:SI. -/
def sourcePlace (i : ℕ) : Cell :=
  cell (phys (core.cpu.regs.getSeg (core.cpu.prefixes.segOverride.getD .DS))
    ((core.pointer size .SI i).setWidth 32))

/-- The place of the `i`-th element at ES:DI. -/
def destPlace (i : ℕ) : Cell :=
  cell (phys (core.cpu.regs.getSeg .ES) ((core.pointer size .DI i).setWidth 32))

@[simp] theorem pointer_zero (r : Reg16) : core.pointer size r 0 = core.cpu.regs.get16 r := by
  simp [pointer]

theorem pointer_succ (r : Reg16) (i : ℕ) :
    core.pointer size r (i + 1) =
      core.pointer size r i + core.cpu.regs.stride size.bytes := by
  unfold pointer
  rw [BitVec.ofNat_add, BitVec.add_mul, BitVec.add_assoc]
  simp

theorem sourcePlace_zero :
    core.sourcePlace size 0 =
      cell (phys (core.cpu.regs.getSeg (core.cpu.prefixes.segOverride.getD .DS))
        ((core.cpu.regs.get16 .SI).setWidth 32)) := by
  simp [sourcePlace]

theorem destPlace_zero :
    core.destPlace size 0 =
      cell (phys (core.cpu.regs.getSeg .ES) ((core.cpu.regs.get16 .DI).setWidth 32)) := by
  simp [destPlace]

variable {core size}

/-- Steps that stay within the segment neither come back nor reach into the
word they started from. -/
theorem steps_ne {m : ℕ} (regs : Regs) (hpos : 0 < m) (hfits : m * size.bytes.toNat < 2 ^ 16) :
    BitVec.ofNat 16 m * regs.stride size.bytes ≠ 0 ∧
      (size = .word → BitVec.ofNat 16 m * regs.stride size.bytes ≠ 1 ∧
        BitVec.ofNat 16 m * regs.stride size.bytes ≠ -1) := by
  have hstride : BitVec.ofNat 16 m * regs.stride size.bytes =
      if regs.getDf then -(BitVec.ofNat 16 m * size.bytes)
      else BitVec.ofNat 16 m * size.bytes := by
    unfold Regs.stride
    split
    · rw [BitVec.mul_neg]
    · rfl
  rw [hstride]
  cases size with
  | byte =>
      simp only [ElementSize.bytes] at hfits ⊢
      refine ⟨?_, fun hword => by cases hword⟩
      split <;> bv_omega
  | word =>
      simp only [ElementSize.bytes] at hfits ⊢
      refine ⟨?_, fun _ => ⟨?_, ?_⟩⟩ <;> split <;> bv_omega

/-- Elements of one segment that fit it do not overlap. -/
theorem elementCells_apart {m : ℕ} (regs : Regs) (seg x : U16) (hpos : 0 < m)
    (hfits : m * size.bytes.toNat < 2 ^ 16) :
    Disjoint (size.cells (cell (phys seg (x.setWidth 32))))
      (size.cells (cell (phys seg
        ((x + BitVec.ofNat 16 m * regs.stride size.bytes).setWidth 32)))) := by
  rcases steps_ne regs hpos hfits with ⟨hne, hword⟩
  rw [ElementSize.disjoint_cells_iff, cell_phys, cell_phys]
  generalize BitVec.ofNat 16 m * regs.stride size.bytes = d at hne hword ⊢
  generalize cell ((seg.setWidth 32) <<< 4) = base
  unfold cell
  constructor
  · bv_omega
  · intro hsize
    have happart := hword hsize
    constructor <;> bv_omega

theorem pointer_add (r : Reg16) (i m : ℕ) :
    core.pointer size r (i + m) =
      core.pointer size r i + BitVec.ofNat 16 m * core.cpu.regs.stride size.bytes := by
  unfold pointer
  rw [BitVec.ofNat_add i, BitVec.add_mul, BitVec.add_assoc]

theorem destPlace_apart {i j : ℕ} (hij : i < j) (hfits : j * size.bytes.toNat < 2 ^ 16) :
    Disjoint (size.cells (core.destPlace size i)) (size.cells (core.destPlace size j)) := by
  rcases Nat.exists_eq_add_of_lt hij with ⟨m, hm⟩
  have hless : (m + 1) * size.bytes.toNat ≤ j * size.bytes.toNat :=
    Nat.mul_le_mul_right _ (by omega)
  unfold destPlace
  rw [hm, Nat.add_assoc, pointer_add]
  exact elementCells_apart core.cpu.regs _ _ (Nat.succ_pos m) (Nat.lt_of_le_of_lt hless hfits)

end Core

end Kita98
