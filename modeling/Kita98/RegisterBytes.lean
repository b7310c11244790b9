import Kita98.ModRm

/-!
# Registers as bytes

Eight registers of four bytes each, stored independently.  The 8-bit names are
bytes of the first four registers, and the 16-bit names the two low bytes of
all eight.  The masks and shifts of the register file read and write just
these bytes.
-/

namespace Kita98

open WordBits BitFields

/-! ## The bytes -/

abbrev RegisterBytes := Reg16 → Fin 4 → U8

/-- The register that an 8-bit name is a part of. -/
def Reg8.parent : Reg8 → Reg16
  | .AL | .AH => .AX
  | .CL | .CH => .CX
  | .DL | .DH => .DX
  | .BL | .BH => .BX

/-- The byte of the register that it names. -/
def Reg8.place : Reg8 → Fin 4
  | .AL | .CL | .DL | .BL => 0
  | .AH | .CH | .DH | .BH => 1

namespace RegisterBytes

variable (file : RegisterBytes)

def set (r : Reg16) (i : Fin 4) (v : U8) : RegisterBytes :=
  Function.update file r (Function.update (file r) i v)

def get8 (r : Reg8) : U8 := file r.parent r.place

def get16 (r : Reg16) : U16 := file r 1 ++ file r 0

def get32 (r : Reg16) : U32 := file r 3 ++ file r 2 ++ file r 1 ++ file r 0

end RegisterBytes

/-! ## Writes -/

inductive RegWrite where
  | byte (r : Reg8) (v : U8)
  | word (r : Reg16) (v : U16)
  | double (r : Reg16) (v : U32)
  deriving DecidableEq, Repr

namespace RegWrite

def run (regs : Regs) : RegWrite → Regs
  | byte r v => regs.set8 r v
  | word r v => regs.set16 r v
  | double r v => regs.set32 r v

/-- The same write to independent bytes. -/
def store (file : RegisterBytes) : RegWrite → RegisterBytes
  | byte r v => file.set r.parent r.place v
  | word r v => (file.set r 0 (field v 0 8)).set r 1 (field v 8 8)
  | double r v =>
      (((file.set r 0 (field v 0 8)).set r 1 (field v 8 8)).set r 2 (field v 16 8)).set r 3
        (field v 24 8)

end RegWrite

/-! ## The bytes of the register file -/

def Regs.bytes (regs : Regs) : RegisterBytes := fun r i => field (regs.gp r) (8 * i) 8

namespace Regs

variable (regs : Regs)

theorem get8_eq_field (r : Reg8) : regs.get8 r = field (regs.gp r.parent) (8 * r.place) 8 := by
  cases r with
  | AL | CL | DL | BL => exact low_eq _
  | AH | CH | DH | BH => exact high_eq _

theorem set8_eq_setField (r : Reg8) (v : U8) :
    regs.set8 r v =
      { regs with
        gp := Function.update regs.gp r.parent
          (setField (regs.gp r.parent) (8 * r.place) v) } := by
  cases r <;>
    simp only [set8, setLow8, setHigh8, setLow_eq, setHigh_eq, Reg8.parent, Reg8.place] <;> rfl

theorem set16_eq_setField (r : Reg16) (v : U16) :
    regs.set16 r v =
      { regs with gp := Function.update regs.gp r (setField (regs.gp r) 0 v) } := by
  rw [set16, setHalf_eq]

theorem high_set16 (r r' : Reg16) (v : U16) :
    field ((regs.set16 r v).gp r') 16 16 = field (regs.gp r') 16 16 := by
  rw [set16_eq_setField]
  show field (Function.update regs.gp r _ r') 16 16 = _
  by_cases hr : r' = r
  · subst hr
    rw [Function.update_self, field_setField_apart v (.inr (by decide)) (by decide)]
  · rw [Function.update_of_ne hr]

theorem get8_bytes (r : Reg8) : regs.get8 r = regs.bytes.get8 r := regs.get8_eq_field r

theorem get16_bytes (r : Reg16) : regs.get16 r = regs.bytes.get16 r := by
  have hjoin := field_append (regs.gp r) 0 8 8
  exact (half_eq _).trans hjoin.symm

theorem get32_bytes (r : Reg16) : regs.get32 r = regs.bytes.get32 r := by
  set x := regs.gp r with hx
  calc regs.get32 r = field x 0 (8 + 8 + 8 + 8) := BitVec.extractLsb'_eq_self.symm
    _ = field x 8 (8 + 8 + 8) ++ field x 0 8 := (field_append x 0 (8 + 8 + 8) 8).symm
    _ = field x 16 (8 + 8) ++ field x 8 8 ++ field x 0 8 := by rw [← field_append x 8 (8 + 8) 8]
    _ = field x 24 8 ++ field x 16 8 ++ field x 8 8 ++ field x 0 8 := by
      rw [← field_append x 16 8 8]

end Regs

/-! ## Writes keep the bytes in step -/

/-- The bytes of a register with a field of whole bytes replaced. -/
theorem byte_setField
    (x : U32) {n : ℕ} (v : BitVec n) (first count : ℕ) (hn : n = 8 * count) (i : Fin 4) :
    field (setField x (8 * first) v) (8 * i) 8 =
      if first ≤ i ∧ i < first + count then field v (8 * (i - first)) 8 else field x (8 * i) 8 := by
  have hfits : 8 * (i : ℕ) + 8 ≤ 32 := by omega
  split
  · next hin =>
      rw [field_setField_inside v (by omega) (by omega) hfits, Nat.mul_sub]
  · next hout => exact field_setField_apart v (by omega) hfits

theorem bytes_update (regs : Regs) (r : Reg16) (x : U32) :
    ({ regs with gp := Function.update regs.gp r x } : Regs).bytes =
      Function.update regs.bytes r fun i => field x (8 * i) 8 := by
  funext r' i
  show field (Function.update regs.gp r x r') (8 * i) 8 = _
  by_cases hr : r' = r
  · subst hr
    rw [Function.update_self, Function.update_self]
  · rw [Function.update_of_ne hr, Function.update_of_ne hr]
    rfl

theorem RegWrite.run_bytes (regs : Regs) (write : RegWrite) :
    (write.run regs).bytes = write.store regs.bytes := by
  cases write with
  | byte r v =>
      rw [run, Regs.set8_eq_setField, bytes_update]
      show _ = Function.update regs.bytes r.parent (Function.update _ r.place v)
      congr 1
      funext i
      rw [byte_setField _ v r.place 1 rfl]
      by_cases hi : i = r.place
      · subst hi
        simp
        exact BitVec.extractLsb'_eq_self
      · have hout : ¬ ((r.place : ℕ) ≤ i ∧ (i : ℕ) < r.place + 1) := by omega
        rw [if_neg hout, Function.update_of_ne hi]
        rfl
  | word r v =>
      have hset := bytes_update regs r (setField (regs.gp r) 0 v)
      rw [run, Regs.set16_eq_setField, hset]
      simp only [store, RegisterBytes.set, Function.update_self, Function.update_idem]
      congr 1
      funext i
      have hbyte := byte_setField (regs.gp r) v 0 2 rfl i
      rw [Nat.mul_zero] at hbyte
      rw [hbyte]
      fin_cases i <;> rfl
  | double r v =>
      have hset := bytes_update regs r v
      rw [run, Regs.set32, hset]
      simp only [store, RegisterBytes.set, Function.update_self, Function.update_idem]
      congr 1
      funext i
      fin_cases i <;> rfl

def runWrites (regs : Regs) (writes : List RegWrite) : Regs := writes.foldl RegWrite.run regs

def storeWrites (file : RegisterBytes) (writes : List RegWrite) : RegisterBytes :=
  writes.foldl RegWrite.store file

theorem runWrites_bytes (regs : Regs) (writes : List RegWrite) :
    (runWrites regs writes).bytes = storeWrites regs.bytes writes := by
  induction writes generalizing regs with
  | nil => rfl
  | cons write writes ih =>
      calc (runWrites (write.run regs) writes).bytes
          = storeWrites (write.run regs).bytes writes := ih _
        _ = storeWrites (write.store regs.bytes) writes := by rw [write.run_bytes]

/-- Whatever has been written, each name reads the bytes that it stands for. -/
theorem registers_are_bytes (regs : Regs) (writes : List RegWrite) :
    let after := runWrites regs writes
    let file := storeWrites regs.bytes writes
    (∀ r, after.get8 r = file.get8 r) ∧ (∀ r, after.get16 r = file.get16 r) ∧
      ∀ r, after.get32 r = file.get32 r := by
  intro after file
  have hbytes : after.bytes = file := runWrites_bytes regs writes
  refine ⟨fun r => ?_, fun r => ?_, fun r => ?_⟩
  · rw [after.get8_bytes, hbytes]
  · rw [after.get16_bytes, hbytes]
  · rw [after.get32_bytes, hbytes]

end Kita98
