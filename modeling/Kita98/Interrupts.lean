import Kita98.Dos
import Kita98.Loader
import Kita98.Stack

/-!
# Natively handled interrupts

The BIOS and DOS services that the runtime serves itself.  Most handlers work
on the processor and the bus alone; the file services of INT 21h also use the
handle table.
-/

namespace Kita98

open WordBits

structure Machine (H : HostFiles) extends Core where
  dos : DosRuntime H

abbrev Handler (H : HostFiles) (α : Type) := Exec Fault (Machine H) α

def onCore {H : HostFiles} {α : Type} (routine : Routine α) : Handler H α :=
  Exec.focus (fun m => m.toCore) (fun core m => { m with toCore := core }) routine

def onDos {H : HostFiles} {α : Type} (routine : Exec Fault (DosRuntime H) α) :
    Handler H α :=
  Exec.focus (fun m => m.dos) (fun dos m => { m with dos := dos }) routine

@[simp] theorem onCore_getRegs_apply {H : HostFiles} {α : Type} (f : Regs → α)
    (m : Machine H) : onCore (getRegs f) m = .ok (f m.cpu.regs, m) := rfl

/-! ## BIOS services -/

def modVideo (f : VideoController → VideoController) : Routine Unit :=
  Exec.update fun core =>
    { core with bus := { core.bus with video := f core.bus.video } }

def handleInt10 : Routine Unit := do
  let ah ← getRegs fun regs => regs.get8 .AH
  let al ← getRegs fun regs => regs.get8 .AL
  modVideo fun video => video.handleInt10 ah al
  match ah with
  | 0x03 => modRegs fun regs => regs.set16 .DX 0x0000
  | 0x0F => modRegs fun regs => (regs.set8 .AL 0x03).set8 .AH 80
  | _ => pure ()

def handleInt11 : Routine Unit := modRegs fun regs => regs.set16 .AX 0x0021

def handleInt12 : Routine Unit := modRegs fun regs => regs.set16 .AX 640

def diskStatus (ah : U8) (failed : Bool) : Routine Unit :=
  modRegs fun regs => (regs.set8 .AH ah).setCf failed

def diskCylinder (regs : Regs) : U16 :=
  (regs.get8 .CH).setWidth 16 ||| (((regs.get8 .CL).setWidth 16 &&& 0xC0) <<< 2)

def requestedSectors (disk : Disk) (regs : Regs) : Except Error (List U8) :=
  let lba := disk.chsToLba (diskCylinder regs) (regs.get8 .DH) (regs.get8 .CL &&& 0x3F)
  disk.readSectors lba (regs.get8 .AL).toNat

def int13ReadSectors : Routine Unit := do
  let disk ← Exec.read fun core => core.bus.disk
  match disk with
  | none => diskStatus 0x01 true
  | some disk => do
      let regs ← getRegs id
      match requestedSectors disk regs with
      | .error _ => diskStatus 0x04 true
      | .ok data => do
          modMem fun mem =>
            mem.loadBytes (Memory.phys (regs.getSeg .ES) ((regs.get16 .BX).setWidth 32)) data
          modRegs fun regs' => ((regs'.set8 .AH 0x00).set8 .AL (regs.get8 .AL)).setCf false

def int13Parameters : Routine Unit := do
  let disk ← Exec.read fun core => core.bus.disk
  match disk with
  | none => modRegs fun regs => regs.setCf true
  | some disk => do
      let cyls : U16 := if disk.cylinders < 2 then 0 else disk.cylinders - 2
      let heads : U8 := if disk.heads < 1 then 0 else disk.heads - 1
      modRegs fun regs => regs.set8 .CH ((cyls &&& 0xFF).setWidth 8)
      modRegs fun regs => regs.set8 .CL
        ((disk.sectorsPerTrack &&& 0x3F) ||| (((cyls >>> 8) &&& 3).setWidth 8 <<< 6))
      modRegs fun regs => regs.set8 .DH heads
      modRegs fun regs => regs.set8 .DL 1
      diskStatus 0x00 false

def handleInt13 : Routine Unit := do
  let ah ← getRegs fun regs => regs.get8 .AH
  match ah with
  | 0x00 => diskStatus 0 false
  | 0x02 => int13ReadSectors
  | 0x03 | 0x04 => diskStatus 0x00 false
  | 0x08 => int13Parameters
  | 0x15 => diskStatus 0x03 false
  | _ => diskStatus 0x01 true

def handleInt15 : Routine Unit := modRegs fun regs => regs.setCf true

def handleInt16 : Routine Unit := do
  let ah ← getRegs fun regs => regs.get8 .AH
  match ah with
  | 0x00 => modRegs fun regs => regs.set16 .AX 0
  | 0x01 => modRegs fun regs => regs.setZf true
  | 0x02 => modRegs fun regs => regs.set8 .AL 0
  | _ => modRegs fun regs => regs.setCf true

def handleInt18 : Routine Unit := do
  let ah ← getRegs fun regs => regs.get8 .AH
  match ah with
  | 0x0A => modRegs fun regs => regs.set8 .AL 0x00
  | 0x40 => modVideo fun video => { video with dirty := true }
  | _ => pure ()

def setHalted : Routine Unit :=
  Exec.update fun core => { core with cpu := { core.cpu with halted := true } }

def handleInt1a : Routine Unit := do
  let ah ← getRegs fun regs => regs.get8 .AH
  match ah with
  | 0x00 => do
      let t ← Exec.read fun core => core.bus.ticks
      modRegs fun regs =>
        ((regs.set16 .CX ((t >>> 16).setWidth 16)).set16 .DX ((t &&& 0xFFFF).setWidth 16)).set8
          .AL 0
  | _ => modRegs fun regs => regs.setCf true

def handleInt1f : Routine Unit := do
  let ah ← getRegs fun regs => regs.get8 .AH
  match ah with
  | 0x01 => modRegs fun regs => regs.set16 .AX 0x1200
  | _ => pure ()

/-! ## DOS services -/

/-- The bytes at `seg:off`, `seg:off+1`, … before the first `stop`.  The
offset wraps, so a segment without a `stop` byte is scanned for ever. -/
def scanUntil (mem : Memory) (seg : U16) (stop : U8) : ℕ → U16 → Option (List U8)
  | 0, _ => none
  | fuel + 1, off =>
      let c := mem.segReadU8 seg (off.setWidth 32)
      if c = stop then some []
      else (scanUntil mem seg stop fuel (off + 1)).map (c :: ·)

def scanFuel : ℕ := 0x10000

/-- The bytes at DS:DX up to `stop`. -/
def scanDsDx (stop : U8) : Routine (List U8) := do
  let seg ← getRegs fun regs => regs.getSeg .DS
  let off ← getRegs fun regs => regs.get16 .DX
  let bytes ← getMem fun mem => scanUntil mem seg stop scanFuel off
  match bytes with
  | none => Exec.fail .hang
  | some bytes => pure bytes

/-- `c as char` and `to_uppercase`. -/
def pathText (bytes : List U8) : Text :=
  toUppercase (bytes.map fun c => Char.ofNat c.toNat)

/-- The file of the disk image with the given upper-case name: directory entry
and contents. -/
def findOnDisk (disk : Option Disk) (path : Text) : Option (DirEntry × List U8) :=
  match disk with
  | none => none
  | some disk =>
      match FatFileSystem.detect disk with
      | .error _ => none
      | .ok fs =>
          match fs.listRootDir disk with
          | .error _ => none
          | .ok entries =>
              match entries.find? fun e => toUppercase e.fullName = path with
              | none => none
              | some entry =>
                  match fs.readFile disk entry with
                  | .error _ => none
                  | .ok data => some (entry, data)

def printString : Routine Unit := do
  let bytes ← scanDsDx 0x24
  modVideo fun video => bytes.foldl VideoController.writeChar video

variable {H : HostFiles}

/-- `100 + self.dos.files.len() as u16` is a checked addition. -/
def openVirtual (data : List U8) : Handler H Unit := do
  let count ← Exec.read fun m => m.dos.files.entries.length
  let count : U16 := BitVec.ofNat 16 count
  if 100 + count.toNat < 2 ^ 16 then
    let handle : U16 := 100 + count
    onDos (Exec.update fun dos => dos.insert handle (.virt data 0))
    onCore (modRegs fun regs => (regs.set16 .AX handle).setCf false)
  else Exec.fail .overflow

def int21Open : Handler H Unit := do
  let bytes ← onCore (scanDsDx 0)
  let path := pathText bytes
  let disk ← Exec.read fun m => m.bus.disk
  match findOnDisk disk path with
  | some (_, data) => openVirtual data
  | none => do
      let result ← onDos (DosRuntime.openFile path)
      match result with
      | .ok handle => onCore (modRegs fun regs => (regs.set16 .AX handle).setCf false)
      | .error _ => onCore (modRegs fun regs => (regs.set16 .AX 2).setCf true)

def int21Read : Handler H Unit := do
  let handle ← onCore (getRegs fun regs => regs.get16 .BX)
  let count ← onCore (getRegs fun regs => (regs.get16 .CX).toNat)
  let result ← onDos (DosRuntime.read handle count)
  match result with
  | .ok bytes => onCore do
      let dest ← getRegs fun regs =>
        Memory.phys (regs.getSeg .DS) ((regs.get16 .DX).setWidth 32)
      modMem fun mem => mem.loadBytes dest bytes
      modRegs fun regs => (regs.set16 .AX (BitVec.ofNat 16 bytes.length)).setCf false
  | .error _ => onCore (modRegs fun regs => regs.setCf true)

def int21Seek : Handler H Unit := do
  let handle ← onCore (getRegs fun regs => regs.get16 .BX)
  let whence ← onCore (getRegs fun regs => regs.get8 .AL)
  let offset ← onCore (getRegs fun regs =>
    (regs.get16 .CX).toNat * 65536 + (regs.get16 .DX).toNat)
  let result ← onDos (DosRuntime.seek handle offset whence)
  match result with
  | .ok pos => onCore (modRegs fun regs =>
      ((regs.set16 .AX (BitVec.ofNat 16 pos)).set16 .DX
        (BitVec.ofNat 16 (pos / 65536))).setCf false)
  | .error _ => onCore (modRegs fun regs => regs.setCf true)

/-- The registers are reset before the loader runs and stay reset when it
reports an error. -/
def int21Exec : Routine Unit := do
  let al ← getRegs fun regs => regs.get8 .AL
  if al = 0x00 then do
    let bytes ← scanDsDx 0
    let disk ← Exec.read fun core => core.bus.disk
    match findOnDisk disk (pathText bytes) with
    | none => modRegs fun regs => (regs.set16 .AX 2).setCf true
    | some (_, data) => do
        modRegs fun _ => Regs.new
        let result ← executeBinary data
        match result with
        | .ok _ => modRegs fun regs => regs.setCf false
        | .error _ => modRegs fun regs => (regs.set16 .AX 2).setCf true
  else modRegs fun regs => regs.setCf true

/-- The services that do not touch the handle table. -/
def int21Core (ah : U8) : Routine Unit :=
  match ah with
  | 0x02 => do
      let dl ← getRegs fun regs => regs.get8 .DL
      modVideo fun video => video.writeChar dl
  | 0x09 => printString
  | 0x19 => modRegs fun regs => regs.set8 .AL 2
  | 0x1A => pure ()
  | 0x25 => do
      let regs ← getRegs id
      modMem fun mem => mem.setIvt (regs.get8 .AL) (regs.getSeg .DS) (regs.get16 .DX)
  | 0x2C => modRegs fun regs => (regs.set16 .CX 0x1200).set16 .DX 0x0000
  | 0x30 => modRegs fun regs =>
      (((regs.set8 .AL 5).set8 .AH 0).set8 .BH 0xFF).set16 .CX 0x0000
  | 0x33 => modRegs fun regs => (regs.set8 .DL 0).setCf false
  | 0x34 => modRegs fun regs => (regs.setSeg .ES 0x0000).set16 .BX 0x0000
  | 0x35 => do
      let al ← getRegs fun regs => regs.get8 .AL
      let (seg, off) ← getMem fun mem => mem.getIvt al
      modRegs fun regs => (regs.setSeg .ES seg).set16 .BX off
  | 0x44 => modRegs fun regs => regs.setCf false
  | 0x48 => modRegs fun regs => (regs.set16 .AX 0x8000).setCf false
  | 0x49 => modRegs fun regs => regs.setCf false
  | 0x4A => modRegs fun regs => regs.setCf false
  | 0x47 => do
      let regs ← getRegs id
      modMem fun mem => mem.segWriteU8 (regs.getSeg .DS) ((regs.get16 .SI).setWidth 32) 0
      modRegs fun regs => (regs.set8 .AL 0).setCf false
  | 0x4B => int21Exec
  | 0x4C => setHalted
  | _ => modRegs fun regs => regs.setCf true

def handleInt21 : Handler H Unit := do
  let ah ← onCore (getRegs fun regs => regs.get8 .AH)
  match ah with
  | 0x3D => int21Open
  | 0x3F => int21Read
  | 0x42 => int21Seek
  | ah => onCore (int21Core ah)

/-- The native handler of an interrupt, if it has one. -/
def nativeHandler (num : U8) : Option (Handler H Unit) :=
  match num with
  | 0x10 => some (onCore handleInt10)
  | 0x11 => some (onCore handleInt11)
  | 0x12 => some (onCore handleInt12)
  | 0x13 => some (onCore handleInt13)
  | 0x15 => some (onCore handleInt15)
  | 0x16 => some (onCore handleInt16)
  | 0x18 => some (onCore handleInt18)
  | 0x19 => some (onCore setHalted)
  | 0x1A => some (onCore handleInt1a)
  | 0x1F => some (onCore handleInt1f)
  | 0x20 => some (onCore setHalted)
  | 0x21 => some handleInt21
  | _ => none

/-- The Boolean tells whether the interrupt was handled natively. -/
def handleInterrupt (num : U8) : Handler H Bool :=
  match nativeHandler num with
  | some handler => do
      handler
      return true
  | none => return false

end Kita98
