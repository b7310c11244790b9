import Kita98.WordBits

/-!
# Registers and flags

The register file of the 386-compatible core: eight 32-bit general registers
with their 16-bit and 8-bit names, six segment registers, the instruction
pointer and the flags word.
-/

namespace Kita98

abbrev U8 := BitVec 8
abbrev U16 := BitVec 16
abbrev U32 := BitVec 32
abbrev U64 := BitVec 64

open WordBits

namespace Flags

def CF : U32 := 1 <<< 0
def PF : U32 := 1 <<< 2
def AF : U32 := 1 <<< 4
def ZF : U32 := 1 <<< 6
def SF : U32 := 1 <<< 7
def TF : U32 := 1 <<< 8
def IF : U32 := 1 <<< 9
def DF : U32 := 1 <<< 10
def OF : U32 := 1 <<< 11

end Flags

/-- The 8-bit half-registers, in encoding order. -/
inductive Reg8 where
  | AL | CL | DL | BL | AH | CH | DH | BH
  deriving DecidableEq, Repr

/-- The 16-bit / 32-bit general-purpose registers, in encoding order. -/
inductive Reg16 where
  | AX | CX | DX | BX | SP | BP | SI | DI
  deriving DecidableEq, Repr

inductive SegReg where
  | ES | CS | SS | DS | FS | GS
  deriving DecidableEq, Repr

/-- `r as usize`: the place of the register in `gp`. -/
def Reg16.index : Reg16 → ℕ
  | .AX => 0 | .CX => 1 | .DX => 2 | .BX => 3
  | .SP => 4 | .BP => 5 | .SI => 6 | .DI => 7

/-- The arrays `gp: [u32; 8]` and `seg: [u16; 6]` are indexed by the
register enumerations themselves. -/
@[ext] structure Regs where
  gp : Reg16 → U32
  seg : SegReg → U16
  ip : U32
  flags : U32

namespace Regs

def get32 (regs : Regs) (r : Reg16) : U32 := regs.gp r

def set32 (regs : Regs) (r : Reg16) (v : U32) : Regs :=
  { regs with gp := Function.update regs.gp r v }

def get16 (regs : Regs) (r : Reg16) : U16 := (regs.gp r).setWidth 16

def set16 (regs : Regs) (r : Reg16) (v : U16) : Regs :=
  { regs with
    gp := Function.update regs.gp r
      ((regs.gp r &&& 0xFFFF0000#32) ||| v.setWidth 32) }

def get8 (regs : Regs) : Reg8 → U8
  | .AL => (regs.gp .AX &&& 0xFF).setWidth 8
  | .CL => (regs.gp .CX &&& 0xFF).setWidth 8
  | .DL => (regs.gp .DX &&& 0xFF).setWidth 8
  | .BL => (regs.gp .BX &&& 0xFF).setWidth 8
  | .AH => ((regs.gp .AX >>> 8) &&& 0xFF).setWidth 8
  | .CH => ((regs.gp .CX >>> 8) &&& 0xFF).setWidth 8
  | .DH => ((regs.gp .DX >>> 8) &&& 0xFF).setWidth 8
  | .BH => ((regs.gp .BX >>> 8) &&& 0xFF).setWidth 8

def setLow8 (regs : Regs) (r : Reg16) (v : U8) : Regs :=
  { regs with
    gp := Function.update regs.gp r
      ((regs.gp r &&& 0xFFFFFF00#32) ||| v.setWidth 32) }

def setHigh8 (regs : Regs) (r : Reg16) (v : U8) : Regs :=
  { regs with
    gp := Function.update regs.gp r
      ((regs.gp r &&& 0xFFFF00FF#32) ||| (v.setWidth 32 <<< 8)) }

def set8 (regs : Regs) (r : Reg8) (v : U8) : Regs :=
  match r with
  | .AL => regs.setLow8 .AX v
  | .CL => regs.setLow8 .CX v
  | .DL => regs.setLow8 .DX v
  | .BL => regs.setLow8 .BX v
  | .AH => regs.setHigh8 .AX v
  | .CH => regs.setHigh8 .CX v
  | .DH => regs.setHigh8 .DX v
  | .BH => regs.setHigh8 .BX v

def getSeg (regs : Regs) (s : SegReg) : U16 := regs.seg s

def setSeg (regs : Regs) (s : SegReg) (v : U16) : Regs :=
  { regs with seg := Function.update regs.seg s v }

def flag (regs : Regs) (f : U32) : Bool := testMask regs.flags f

def setFlag (regs : Regs) (f : U32) (v : Bool) : Regs :=
  { regs with flags := setMask regs.flags f v }

def getCf (regs : Regs) : Bool := regs.flag Flags.CF
def getZf (regs : Regs) : Bool := regs.flag Flags.ZF
def getSf (regs : Regs) : Bool := regs.flag Flags.SF
def getOf (regs : Regs) : Bool := regs.flag Flags.OF
def getDf (regs : Regs) : Bool := regs.flag Flags.DF
def getPf (regs : Regs) : Bool := regs.flag Flags.PF

def setCf (regs : Regs) (v : Bool) : Regs := regs.setFlag Flags.CF v
def setZf (regs : Regs) (v : Bool) : Regs := regs.setFlag Flags.ZF v
def setSf (regs : Regs) (v : Bool) : Regs := regs.setFlag Flags.SF v
def setOf (regs : Regs) (v : Bool) : Regs := regs.setFlag Flags.OF v
def setDf (regs : Regs) (v : Bool) : Regs := regs.setFlag Flags.DF v
def setPf (regs : Regs) (v : Bool) : Regs := regs.setFlag Flags.PF v
def setAf (regs : Regs) (v : Bool) : Regs := regs.setFlag Flags.AF v

/-- `count_ones() % 2 == 0` on a byte. -/
def evenParity (v : U8) : Bool :=
  ((List.range 8).filter fun i => v.getLsbD i).length % 2 = 0

def updateFlagsU8 (regs : Regs) (result : U8) : Regs :=
  ((regs.setZf (result == 0)).setSf (result &&& 0x80 != 0)).setPf
    (evenParity result)

def updateFlagsU16 (regs : Regs) (result : U16) : Regs :=
  ((regs.setZf (result == 0)).setSf (result &&& 0x8000 != 0)).setPf
    (evenParity (result.setWidth 8))

def updateFlagsU32 (regs : Regs) (result : U32) : Regs :=
  ((regs.setZf (result == 0)).setSf (result &&& 0x80000000 != 0)).setPf
    (evenParity (result.setWidth 8))

/-- `Regs::new`; bit 1 of the flags is always set in real hardware. -/
def new : Regs :=
  let zero : Regs := { gp := fun _ => 0, seg := fun _ => 0, ip := 0, flags := 0x0002 }
  let segments := (((((zero.setSeg .CS 0x0000).setSeg .DS 0x0000).setSeg
    .ES 0x0000).setSeg .SS 0x0000).setSeg .FS 0x0000).setSeg .GS 0x0000
  segments.set16 .SP 0xFFFE

/-! ## What each update leaves alone -/

section Frame

variable (regs : Regs)

@[simp] theorem set16_seg (r : Reg16) (v : U16) : (regs.set16 r v).seg = regs.seg := rfl
@[simp] theorem set16_ip (r : Reg16) (v : U16) : (regs.set16 r v).ip = regs.ip := rfl
@[simp] theorem set16_flags (r : Reg16) (v : U16) :
    (regs.set16 r v).flags = regs.flags := rfl

@[simp] theorem set8_seg (r : Reg8) (v : U8) : (regs.set8 r v).seg = regs.seg := by
  cases r <;> rfl

@[simp] theorem set8_ip (r : Reg8) (v : U8) : (regs.set8 r v).ip = regs.ip := by
  cases r <;> rfl

@[simp] theorem set8_flags (r : Reg8) (v : U8) : (regs.set8 r v).flags = regs.flags := by
  cases r <;> rfl

@[simp] theorem setSeg_gp (s : SegReg) (v : U16) : (regs.setSeg s v).gp = regs.gp := rfl
@[simp] theorem setSeg_ip (s : SegReg) (v : U16) : (regs.setSeg s v).ip = regs.ip := rfl
@[simp] theorem setSeg_flags (s : SegReg) (v : U16) :
    (regs.setSeg s v).flags = regs.flags := rfl

@[simp] theorem setFlag_gp (f : U32) (v : Bool) : (regs.setFlag f v).gp = regs.gp := rfl
@[simp] theorem setFlag_seg (f : U32) (v : Bool) : (regs.setFlag f v).seg = regs.seg := rfl
@[simp] theorem setFlag_ip (f : U32) (v : Bool) : (regs.setFlag f v).ip = regs.ip := rfl

end Frame

@[simp] theorem get16_set16_self (regs : Regs) (r : Reg16) (v : U16) :
    (regs.set16 r v).get16 r = v := by
  ext i hi
  simp [get16, set16]

theorem get16_set16_of_ne (regs : Regs) {r r' : Reg16} (v : U16) (hne : r' ≠ r) :
    (regs.set16 r v).get16 r' = regs.get16 r' := by
  simp [get16, set16, Function.update_of_ne hne]

theorem set16_set16 (regs : Regs) (r : Reg16) (v v' : U16) :
    (regs.set16 r v).set16 r v' = regs.set16 r v' := by
  simp [set16, highHalf_of_low]

theorem set16_get16 (regs : Regs) (r : Reg16) : regs.set16 r (regs.get16 r) = regs := by
  simp only [get16, set16, setHalf_half, Function.update_eq_self]

@[simp] theorem getSeg_setSeg_self (regs : Regs) (s : SegReg) (v : U16) :
    (regs.setSeg s v).getSeg s = v := by
  simp [getSeg, setSeg]

theorem getSeg_setSeg_of_ne (regs : Regs) {s s' : SegReg} (v : U16) (hne : s' ≠ s) :
    (regs.setSeg s v).getSeg s' = regs.getSeg s' := by
  simp [getSeg, setSeg, Function.update_of_ne hne]

@[simp] theorem flag_setFlag_self (regs : Regs) {f : U32} (v : Bool) (hf : f ≠ 0) :
    (regs.setFlag f v).flag f = v :=
  testMask_setMask v hf

theorem setFlag_flag (regs : Regs) (k : ℕ) :
    regs.setFlag (BitVec.twoPow 32 k) (regs.flag (BitVec.twoPow 32 k)) = regs := by
  rw [setFlag, flag, setMask_testMask]

theorem setCf_setCf (regs : Regs) (v v' : Bool) : (regs.setCf v).setCf v' = regs.setCf v' := by
  unfold setCf setFlag
  rw [setMask_setMask]

theorem getCf_setCf (regs : Regs) (v : Bool) : (regs.setCf v).getCf = v :=
  regs.flag_setFlag_self v (by decide)

@[simp] theorem getSeg_of_set16 (regs : Regs) (s : SegReg) (r : Reg16) (v : U16) :
    (regs.set16 r v).getSeg s = regs.getSeg s := rfl

@[simp] theorem getSeg_of_set8 (regs : Regs) (s : SegReg) (r : Reg8) (v : U8) :
    (regs.set8 r v).getSeg s = regs.getSeg s := by
  rw [getSeg, set8_seg, getSeg]

@[simp] theorem getSeg_of_setFlag (regs : Regs) (s : SegReg) (f : U32) (v : Bool) :
    (regs.setFlag f v).getSeg s = regs.getSeg s := rfl

@[simp] theorem get16_of_setFlag (regs : Regs) (r : Reg16) (f : U32) (v : Bool) :
    (regs.setFlag f v).get16 r = regs.get16 r := rfl

@[simp] theorem get16_of_setSeg (regs : Regs) (r : Reg16) (s : SegReg) (v : U16) :
    (regs.setSeg s v).get16 r = regs.get16 r := rfl

/-- No 8-bit name covers a part of SP. -/
@[simp] theorem get16_sp_of_set8 (regs : Regs) (r : Reg8) (v : U8) :
    (regs.set8 r v).get16 .SP = regs.get16 .SP := by
  cases r <;> simp [get16, set8, setLow8, setHigh8]

@[simp] theorem flag_of_set16 (regs : Regs) (f : U32) (r : Reg16) (v : U16) :
    (regs.set16 r v).flag f = regs.flag f := rfl

@[simp] theorem flag_of_set8 (regs : Regs) (f : U32) (r : Reg8) (v : U8) :
    (regs.set8 r v).flag f = regs.flag f := by
  rw [flag, set8_flags, flag]

@[simp] theorem flag_of_setSeg (regs : Regs) (f : U32) (s : SegReg) (v : U16) :
    (regs.setSeg s v).flag f = regs.flag f := rfl

theorem flag_setFlag_of_disjoint (regs : Regs) {f g : U32} (v : Bool)
    (hdisjoint : f &&& g = 0) : (regs.setFlag f v).flag g = regs.flag g :=
  testMask_setMask_of_disjoint v hdisjoint

@[simp] theorem getSeg_of_setCf (regs : Regs) (s : SegReg) (v : Bool) :
    (regs.setCf v).getSeg s = regs.getSeg s := rfl

@[simp] theorem get16_of_setCf (regs : Regs) (r : Reg16) (v : Bool) :
    (regs.setCf v).get16 r = regs.get16 r := rfl

@[simp] theorem getSeg_of_setZf (regs : Regs) (s : SegReg) (v : Bool) :
    (regs.setZf v).getSeg s = regs.getSeg s := rfl

@[simp] theorem get16_of_setZf (regs : Regs) (r : Reg16) (v : Bool) :
    (regs.setZf v).get16 r = regs.get16 r := rfl

@[simp] theorem flag_cf_of_setCf (regs : Regs) (v : Bool) :
    (regs.setCf v).flag Flags.CF = v :=
  regs.flag_setFlag_self v (by decide)

@[simp] theorem flag_zf_of_setCf (regs : Regs) (v : Bool) :
    (regs.setCf v).flag Flags.ZF = regs.flag Flags.ZF :=
  regs.flag_setFlag_of_disjoint v (by decide)

@[simp] theorem flag_zf_of_setZf (regs : Regs) (v : Bool) :
    (regs.setZf v).flag Flags.ZF = v :=
  regs.flag_setFlag_self v (by decide)

@[simp] theorem flag_cf_of_setZf (regs : Regs) (v : Bool) :
    (regs.setZf v).flag Flags.CF = regs.flag Flags.CF :=
  regs.flag_setFlag_of_disjoint v (by decide)

end Regs

end Kita98
