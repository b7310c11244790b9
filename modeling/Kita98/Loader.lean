import Kita98.Interpreter

/-!
# Program loading

COM images go to 1000:0100; MZ images go to 1000:0000, relocated by the load
segment.
-/

namespace Kita98

open WordBits Disk Kita98.Core

structure MzHeader where
  bytesOnLastPage : U16
  pagesInFile : U16
  relocations : U16
  headerParagraphs : U16
  initialSs : U16
  initialSp : U16
  initialIp : U16
  initialCs : U16
  relocTableOffset : U16
  deriving DecidableEq, Repr

def wordAt (data : List U8) (i : ℕ) : U16 :=
  joinBytes (byteAt data i) (byteAt data (i + 1))

def MzHeader.ofBytes (data : List U8) : MzHeader where
  bytesOnLastPage := wordAt data 0x02
  pagesInFile := wordAt data 0x04
  relocations := wordAt data 0x06
  headerParagraphs := wordAt data 0x08
  initialSs := wordAt data 0x0E
  initialSp := wordAt data 0x10
  initialIp := wordAt data 0x14
  initialCs := wordAt data 0x16
  relocTableOffset := wordAt data 0x18

def loadSegment : U16 := 0x1000

/-- `b"MZ"` at the start of the image. -/
def hasMzMagic (data : List U8) : Prop :=
  2 ≤ data.length ∧ byteAt data 0 = 0x4D ∧ byteAt data 1 = 0x5A

instance (data : List U8) : Decidable (hasMzMagic data) := by
  unfold hasMzMagic
  infer_instance

/-- Add the load segment to the word that entry `i` of the table names. -/
def relocate (data : List U8) (entryPtr : ℕ) (mem : Memory) : Memory :=
  let off := wordAt data entryPtr
  let seg := wordAt data (entryPtr + 2)
  let targetSeg := loadSegment + seg
  let currentVal := mem.segReadU16 targetSeg (off.setWidth 32)
  mem.segWriteU16 targetSeg (off.setWidth 32) (currentVal + loadSegment)

/-- The relocation loop, `n` entries before its end; it stops at the first
entry outside the file. -/
def relocateAll (data : List U8) : ℕ → ℕ → Memory → Memory
  | 0, _, mem => mem
  | n + 1, entryPtr, mem =>
      if entryPtr + 4 > data.length then mem
      else relocateAll data n (entryPtr + 4) (relocate data entryPtr mem)

def MzHeader.setRegs (header : MzHeader) (regs : Regs) : Regs :=
  let regs := regs.setSeg .CS (loadSegment + header.initialCs)
  let regs := { regs with ip := header.initialIp.setWidth 32 }
  let regs := regs.setSeg .SS (loadSegment + header.initialSs)
  let regs := regs.set16 .SP header.initialSp
  (regs.setSeg .DS loadSegment).setSeg .ES loadSegment

/-- `512 - bytes_on_last_page` is a checked subtraction, and the load image a
checked slice of the file. -/
def loadMz (data : List U8) : Routine (Except Error Unit) :=
  if data.length < 28 ∨ ¬ hasMzMagic data then return .error .notMz
  else
    let header := MzHeader.ofBytes data
    let headerSize := header.headerParagraphs.toNat * 16
    let lastPage := header.bytesOnLastPage.toNat
    if lastPage > 512 then Exec.fail .overflow
    else
      let fileSize :=
        header.pagesInFile.toNat * 512 - (if lastPage > 0 then 512 - lastPage else 0)
      let codeSize := fileSize - headerSize
      if headerSize > fileSize ∨ fileSize > data.length then Exec.fail .bounds
      else do
        let codeData := slice data headerSize codeSize
        let loadPhys := Memory.phys loadSegment 0
        modMem fun mem => mem.loadBytes loadPhys codeData
        Exec.update fun core =>
          { core with
            cpu := { core.cpu with
              validRanges := core.cpu.validRanges ++
                [(loadPhys.toNat, loadPhys.toNat + codeSize)] } }
        modMem (relocateAll data header.relocations.toNat header.relocTableOffset.toNat)
        modRegs header.setRegs
        return .ok ()

def Regs.setCom (regs : Regs) : Regs :=
  let regs := regs.setSeg .CS loadSegment
  let regs := { regs with ip := 0x0100 }
  (regs.setSeg .DS loadSegment).setSeg .ES loadSegment

def executeBinary (data : List U8) : Routine (Except Error Unit) :=
  if hasMzMagic data then loadMz data
  else do
    modMem fun mem => mem.loadBytes (Memory.phys loadSegment 0x0100) data
    modRegs Regs.setCom
    return .ok ()

end Kita98
