import Kita98.DiskImage
import Kita98.Entrypoint
import Kita98.Runtime

/-!
# Building a machine

An EXE file of the host is loaded by itself.  Anything else is a disk image,
which starts with a file of its FAT volume, or with its first sector when it has
none.
-/

namespace Kita98

open Exec Disk

/-- What the code takes from the host and from the tables of its library. -/
structure Host where
  /-- `str::to_lowercase` -/
  lower : Text → Text
  /-- `char::to_uppercase` -/
  upper : Char → Text
  /-- `fs::read` -/
  readFile : Text → Option (List U8)
  clock : ℕ → ℕ
  residue : ℕ → ℕ

inductive BootError where
  | image (error : ImageError)
  | unreadable
  | code (error : Error)
  /-- No runnable files found on disk. -/
  | noRunnable
  deriving DecidableEq, Repr

def bootSeg : U16 := 0x0000

def bootOff : U16 := 0x7C00

def stubBiosSeg : U16 := 0xF000

def stubBiosOff : U16 := 0x0100

/-! ## The empty machine -/

/-- The first `n` rounds of the loop over the vectors. -/
def setVectors : ℕ → Memory → Memory
  | 0, mem => mem
  | n + 1, mem => (setVectors n mem).setIvt (BitVec.ofNat 8 n) stubBiosSeg stubBiosOff

def stubPhys : U32 := Memory.phys stubBiosSeg (stubBiosOff.setWidth 32)

/-- An IRET that all vectors lead to. -/
def installStub (mem : Memory) : Memory := setVectors 256 (mem.writeU8 stubPhys 0xCF)

def newCore (disk : Option Disk) (clock : ℕ → ℕ) : Core where
  cpu := Interpreter.new
  bus := { Bus.new disk clock with mem := installStub Memory.new }

def JitRuntime.new (residue : ℕ → ℕ) : JitRuntime := ⟨fun _ => none, residue⟩

/-! ## Starting from a disk -/

def Disk.readBootSector (disk : Disk) : Except Error (List U8) := disk.readSectors 0 1

def FatFileSystem.rootFiles (fs : FatFileSystem) (disk : Disk) : List DirEntry :=
  match fs.listRootDir disk with
  | .error _ => []
  | .ok root => root

/-- `final_batch_queue` -/
def FatFileSystem.startQueue (upper : Char → Text) (fs : FatFileSystem) (disk : Disk) :
    Except Error (List DirEntry) :=
  match fs.findEntrypoint upper disk with
  | .error e => .error e
  | .ok entry =>
      if upperText upper entry.ext = "BAT".toList then
        match fs.readFile disk entry with
        | .error e => .error e
        | .ok content => .ok (batchQueue upper content (fs.rootFiles disk))
      else .ok [entry]

def startFirst (fs : FatFileSystem) (disk : Disk) (queue : List DirEntry) :
    Routine (Except BootError Unit) :=
  match queue.head? with
  | none => return .error .noRunnable
  | some first =>
      match fs.readFile disk first with
      | .error e => return .error (.code e)
      | .ok data => do
          match ← executeBinary data with
          | .error e => return .error (.code e)
          | .ok _ => return .ok ()

def Regs.setBoot (regs : Regs) : Regs :=
  let regs := regs.setSeg .CS bootSeg
  let regs := { regs with ip := bootOff.setWidth 32 }
  (regs.setSeg .SS 0x0000).set16 .SP 0x7BFE

def startSector (disk : Disk) : Routine (Except BootError Unit) :=
  match disk.readBootSector with
  | .error e => return .error (.code e)
  | .ok bootSector => do
      modMem fun mem => mem.loadBytes (Memory.phys bootSeg (bootOff.setWidth 32)) bootSector
      modRegs Regs.setBoot
      return .ok ()

/-- The batch queue of the disk, with its first program loaded. -/
def startDisk (upper : Char → Text) (disk : Disk) : Routine (Except BootError (List DirEntry)) :=
  match FatFileSystem.detect disk with
  | .ok fs =>
      match fs.startQueue upper disk with
      | .error e => return .error (.code e)
      | .ok queue => do
          match ← startFirst fs disk queue with
          | .error e => return .error e
          | .ok _ => return .ok queue
  | .error _ => do
      match ← startSector disk with
      | .error e => return .error e
      | .ok _ => return .ok []

/-! ## `Runtime::new` -/

def isExeFile (host : Host) (filePath : Text) : Bool :=
  ".exe".toList.isSuffixOf (host.lower filePath)

/-- The core of the machine and its batch queue. -/
def bootExe (host : Host) (filePath : Text) : Checked (Except BootError (Core × List DirEntry)) :=
  match host.readFile filePath with
  | none => .ok (.error .unreadable)
  | some data =>
      match loadMz data (newCore none host.clock) with
      | .error fault => .error fault
      | .ok (.error e, _) => .ok (.error (.code e))
      | .ok (.ok _, core) => .ok (.ok (core, []))

def bootImage (host : Host) (filePath : Text) :
    Checked (Except BootError (Core × List DirEntry)) :=
  match Disk.load (host.readFile filePath) with
  | .error fault => .error fault
  | .ok (.error e) => .ok (.error (.image e))
  | .ok (.ok disk) =>
      match startDisk host.upper disk (newCore (some disk) host.clock) with
      | .error fault => .error fault
      | .ok (.error e, _) => .ok (.error e)
      | .ok (.ok queue, core) =>
          .ok (.ok (core.setRegs (core.cpu.regs.set8 .DL 0x80), queue))

def bootCore (host : Host) (filePath : Text) :
    Checked (Except BootError (Core × List DirEntry)) :=
  if isExeFile host filePath then bootExe host filePath else bootImage host filePath

/-- `Runtime::new` -/
def Runtime.new (H : HostFiles) (host : Host) (filePath : Text) (maxInstructions : ℕ) :
    Checked (Except BootError (Runtime H)) :=
  match bootCore host filePath with
  | .error fault => .error fault
  | .ok (.error e) => .ok (.error e)
  | .ok (.ok (core, queue)) =>
      .ok (.ok
        { toCore := core
          dos := DosRuntime.new
          jit := JitRuntime.new host.residue
          maxInstructions := maxInstructions
          batchQueue := queue
          currentBatchIndex := 0 })

/-! ## The vectors -/

/-- Every vector leads to the IRET of the stub. -/
structure Stubbed (mem : Memory) : Prop where
  vector : ∀ v : U8, mem.getIvt v = (stubBiosSeg, stubBiosOff)
  iret : mem.readU8 stubPhys = 0xCF

end Kita98
