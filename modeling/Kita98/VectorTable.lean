import Kita98.Memory
import Kita98.RecordStore

/-!
# The interrupt vectors in memory

The first 1 KiB holds 256 records of four bytes, offset before segment.  Setting
one leaves the others, and any store beyond them leaves them all.
-/

namespace Kita98

open WordBits ByteStore Memory RecordStore

def vectorCells (v : U8) : Set Cell := {c | c.toNat / 4 = v.toNat}

def vectorCell (v : U8) : Cell := cell (v.setWidth 32 * 4)

theorem vectorCell_toNat (v : U8) : (vectorCell v).toNat = 4 * v.toNat := by
  have hsmall := v.isLt
  simp only [vectorCell, cell, BitVec.toNat_setWidth, BitVec.toNat_mul]
  simp
  omega

theorem getIvt_eq (mem : Memory) (v : U8) :
    mem.getIvt v = (readWord mem.data (vectorCell v + 2), readWord mem.data (vectorCell v)) := by
  rw [Memory.getIvt, readU16_eq, readU16_eq, cell_add]
  rfl

theorem setIvt_data (mem : Memory) (v : U8) (segment offset : U16) :
    (mem.setIvt v segment offset).data =
      writeWord (writeWord mem.data (vectorCell v) offset) (vectorCell v + 2) segment := by
  rw [Memory.setIvt, writeU16_data, writeU16_data, cell_add]
  rfl

theorem mem_vectorCells {v : U8} {c : Cell} :
    c ∈ vectorCells v ↔
      c = vectorCell v ∨ c = vectorCell v + 1 ∨ c = vectorCell v + 2 ∨ c = vectorCell v + 2 + 1 := by
  have hsmall := v.isLt
  have hfirst := vectorCell_toNat v
  change c.toNat / 4 = v.toNat ↔ _
  generalize vectorCell v = a at hfirst
  have h1 : (a + 1).toNat = a.toNat + 1 := by bv_omega
  have h2 : (a + 2).toNat = a.toNat + 2 := by bv_omega
  have h3 : (a + 2 + 1).toNat = a.toNat + 3 := by bv_omega
  simp only [← BitVec.toNat_inj, h1, h2, h3, hfirst]
  omega

/-- Segment and offset of a vector are read and written as one record. -/
theorem vectorRecords :
    Records vectorCells (fun data v => (⟨data⟩ : Memory).getIvt v)
      fun data v (place : U16 × U16) => ((⟨data⟩ : Memory).setIvt v place.1 place.2).data where
  read_write := by
    intro data v place
    have hsegment := readWord_writeWord_self (writeWord data (vectorCell v) place.2) place.1
      (cell_succ_ne (vectorCell v + 2))
    have hoffset := readWord_writeWord_of_disjoint (writeWord data (vectorCell v) place.2) place.1
      (a := vectorCell v + 2) (b := vectorCell v) (by bv_omega) (by bv_omega) (by bv_omega)
      (by bv_omega)
    rw [getIvt_eq, setIvt_data, hsegment, hoffset,
      readWord_writeWord_self _ _ (cell_succ_ne (vectorCell v))]
  read_congr := by
    intro data data' v hsame
    simp only [mem_vectorCells, forall_eq_or_imp, forall_eq] at hsame
    rcases hsame with ⟨h0, h1, h2, h3⟩
    simp only [getIvt_eq, readWord, h0, h1, h2, h3]
  write_outside := by
    intro data v place c hc
    simp only [mem_vectorCells, not_or] at hc
    rcases hc with ⟨h0, h1, h2, h3⟩
    rw [setIvt_data, writeWord_of_ne _ _ h2 h3, writeWord_of_ne _ _ h0 h1]

theorem vectorCells_disjoint {v w : U8} (hne : v ≠ w) : Disjoint (vectorCells v) (vectorCells w) := by
  rw [Set.disjoint_left]
  intro c hv hw
  apply hne
  apply BitVec.eq_of_toNat_eq
  exact hv.symm.trans hw

namespace Memory

variable (mem : Memory)

@[simp] theorem getIvt_setIvt_self (v : U8) (segment offset : U16) :
    (mem.setIvt v segment offset).getIvt v = (segment, offset) :=
  vectorRecords.read_write mem.data v (segment, offset)

/-- The vectors are a table that a store changes at one place. -/
theorem getIvt_setIvt (v : U8) (segment offset : U16) :
    (mem.setIvt v segment offset).getIvt =
      Function.update mem.getIvt v (segment, offset) := by
  funext w
  by_cases heq : w = v
  · rw [heq, getIvt_setIvt_self, Function.update_self]
  · rw [Function.update_of_ne heq]
    exact vectorRecords.read_write_of_disjoint mem.data (segment, offset) (vectorCells_disjoint heq)

/-- A store that leaves the first 1 KiB alone leaves the vectors alone. -/
theorem getIvt_congr {mem mem' : Memory} (hsame : ∀ c : Cell, c.toNat < 0x400 →
    mem'.data c = mem.data c) : mem'.getIvt = mem.getIvt := by
  funext v
  apply vectorRecords.read_congr
  intro c hc
  have hsmall := v.isLt
  have hv : c.toNat / 4 = v.toNat := hc
  exact hsame c (by omega)

end Memory

end Kita98
