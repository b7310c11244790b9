import Kita98.BatchProgress
import Kita98.Boot
import Kita98.ImageRelocation
import Kita98.InstructionBudget
import Kita98.MachineTrace
import Kita98.VectorTable

/-!
# The machine that is built

Each way of building a machine leaves it ready for the run loop: nothing has
been executed or translated, no file is open, and the first program of the queue
is the one that is loaded.
-/

namespace Kita98

open Exec Disk RecordStore Memory

variable {H : HostFiles}

/-! ## The vectors of an empty machine -/

theorem setVectors_stored (n : ℕ) (hn : n ≤ 256) (mem : Memory) :
    Stored vectorCells (fun data v => (⟨data⟩ : Memory).getIvt v) (BitVec.ofNat 8)
      (fun _ => (stubBiosSeg, stubBiosOff)) n mem.data (setVectors n mem).data := by
  induction n with
  | zero => exact .zero
  | succ n ih =>
      apply (ih (by omega)).succ vectorRecords
      intro i hi
      apply vectorCells_disjoint
      intro heq
      have hnat := congrArg BitVec.toNat heq
      rw [BitVec.toNat_ofNat, BitVec.toNat_ofNat] at hnat
      omega

theorem installStub_stubbed (mem : Memory) : Stubbed (installStub mem) := by
  have hstored := setVectors_stored 256 le_rfl (mem.writeU8 stubPhys 0xCF)
  constructor
  · intro v
    have hread := hstored.reads v.toNat v.isLt
    rw [BitVec.ofNat_toNat, BitVec.setWidth_eq] at hread
    exact hread
  · have hframe := hstored.frame (cell stubPhys) (by
      intro i hi hmem
      have hcell : (cell stubPhys).toNat / 4 = (BitVec.ofNat 8 i).toNat := hmem
      have hsmall := (BitVec.ofNat 8 i).isLt
      have hstub : (cell stubPhys).toNat = 0xF0100 := by decide
      omega)
    exact hframe.trans (ByteStore.write_self mem.data (cell stubPhys) 0xCF)

/-- What leaves the first 1 KiB and the stub alone leaves the vectors as they were. -/
theorem Stubbed.of_same {mem mem' : Memory} (hstubbed : Stubbed mem)
    (hlow : ∀ c : Cell, c.toNat < 0x400 → mem'.data c = mem.data c)
    (hstub : mem'.data (cell stubPhys) = mem.data (cell stubPhys)) : Stubbed mem' := by
  constructor
  · intro v
    rw [getIvt_congr hlow]
    exact hstubbed.vector v
  · exact hstub.trans hstubbed.iret

/-! ## The ways to a machine -/

/-- The core and the queue of a machine that is built, by the way to it. -/
inductive Booted (host : Host) (filePath : Text) : Core → List DirEntry → Prop
  | exe {data : List U8} {core : Core} (hexe : isExeFile host filePath = true)
      (hread : host.readFile filePath = some data)
      (hload : loadMz data (newCore none host.clock) = .ok (.ok (), core)) :
      Booted host filePath core []
  | file {disk : Disk} {fs : FatFileSystem} {first : DirEntry} {rest : List DirEntry}
      {data : List U8} {core : Core} (himage : isExeFile host filePath = false)
      (hdisk : Disk.load (host.readFile filePath) = .ok (.ok disk))
      (hdetect : FatFileSystem.detect disk = .ok fs)
      (hqueue : fs.startQueue host.upper disk = .ok (first :: rest))
      (hread : fs.readFile disk first = .ok data)
      (hload : executeBinary data (newCore (some disk) host.clock) = .ok (.ok (), core)) :
      Booted host filePath (core.setRegs (core.cpu.regs.set8 .DL 0x80)) (first :: rest)
  | sector {disk : Disk} {error : Error} {bootSector : List U8}
      (himage : isExeFile host filePath = false)
      (hdisk : Disk.load (host.readFile filePath) = .ok (.ok disk))
      (hdetect : FatFileSystem.detect disk = .error error)
      (hread : disk.readBootSector = .ok bootSector) :
      Booted host filePath
        (((newCore (some disk) host.clock).setMem
          ((installStub Memory.new).loadBytes (Memory.phys bootSeg (bootOff.setWidth 32))
            bootSector)).setRegs (Regs.new.setBoot.set8 .DL 0x80)) []

theorem startFirst_ok
    {fs : FatFileSystem} {disk : Disk} {queue : List DirEntry} {core core' : Core}
    (hrun : startFirst fs disk queue core = .ok (.ok (), core')) :
    ∃ first rest data, queue = first :: rest ∧ fs.readFile disk first = .ok data ∧
      executeBinary data core = .ok (.ok (), core') := by
  cases queue with
  | nil => cases hrun
  | cons first rest =>
      simp only [startFirst, List.head?_cons] at hrun
      cases hread : fs.readFile disk first with
      | error e =>
          rw [hread] at hrun
          cases hrun
      | ok data =>
          rw [hread] at hrun
          rcases bind_eq_ok hrun with ⟨result, mid, hload, hlast⟩
          cases result with
          | error e => cases hlast
          | ok u =>
              cases hlast
              exact ⟨first, rest, data, rfl, hread, hload⟩

theorem bootExe_ok
    {host : Host} {filePath : Text} {core : Core} {queue : List DirEntry}
    (hexe : isExeFile host filePath = true)
    (hboot : bootExe host filePath = .ok (.ok (core, queue))) : Booted host filePath core queue := by
  unfold bootExe at hboot
  cases hread : host.readFile filePath with
  | none =>
      rw [hread] at hboot
      cases hboot
  | some data =>
      rw [hread] at hboot
      cases hload : loadMz data (newCore none host.clock) with
      | error fault =>
          simp only [hload] at hboot
          cases hboot
      | ok run =>
          rcases run with ⟨result, core'⟩
          simp only [hload] at hboot
          cases result with
          | error e => cases hboot
          | ok u =>
              cases hboot
              exact .exe hexe hread hload

theorem startDisk_ok
    {upper : Char → Text} {disk : Disk} {queue : List DirEntry} {core core' : Core}
    (hrun : startDisk upper disk core = .ok (.ok queue, core')) :
    (∃ fs, FatFileSystem.detect disk = .ok fs ∧ fs.startQueue upper disk = .ok queue ∧
        startFirst fs disk queue core = .ok (.ok (), core')) ∨
      (∃ error, FatFileSystem.detect disk = .error error ∧ queue = [] ∧
        startSector disk core = .ok (.ok (), core')) := by
  unfold startDisk at hrun
  cases hdetect : FatFileSystem.detect disk with
  | ok fs =>
      rw [hdetect] at hrun
      cases hqueue : fs.startQueue upper disk with
      | error e =>
          simp only [hqueue] at hrun
          cases hrun
      | ok queue' =>
          simp only [hqueue] at hrun
          rcases bind_eq_ok hrun with ⟨result, mid, hfirst, hlast⟩
          cases result with
          | error e => cases hlast
          | ok u =>
              cases hlast
              exact .inl ⟨fs, rfl, hqueue, hfirst⟩
  | error e =>
      rw [hdetect] at hrun
      rcases bind_eq_ok hrun with ⟨result, mid, hsector, hlast⟩
      cases result with
      | error e => cases hlast
      | ok u =>
          cases hlast
          exact .inr ⟨e, rfl, rfl, hsector⟩

theorem startSector_ok
    {disk : Disk} {core core' : Core} (hrun : startSector disk core = .ok (.ok (), core')) :
    ∃ bootSector, disk.readBootSector = .ok bootSector ∧
      core' = (core.setMem (core.bus.mem.loadBytes
        (Memory.phys bootSeg (bootOff.setWidth 32)) bootSector)).setRegs
          core.cpu.regs.setBoot := by
  unfold startSector at hrun
  cases hread : disk.readBootSector with
  | error e =>
      rw [hread] at hrun
      cases hrun
  | ok bootSector =>
      rw [hread] at hrun
      cases hrun
      exact ⟨bootSector, rfl, rfl⟩

theorem bootImage_ok
    {host : Host} {filePath : Text} {core : Core} {queue : List DirEntry}
    (himage : isExeFile host filePath = false)
    (hboot : bootImage host filePath = .ok (.ok (core, queue))) :
    Booted host filePath core queue := by
  unfold bootImage at hboot
  cases hdisk : Disk.load (host.readFile filePath) with
  | error fault =>
      rw [hdisk] at hboot
      cases hboot
  | ok opened =>
      rw [hdisk] at hboot
      cases opened with
      | error e => cases hboot
      | ok disk =>
          cases hstart : startDisk host.upper disk (newCore (some disk) host.clock) with
          | error fault =>
              simp only [hstart] at hboot
              cases hboot
          | ok run =>
              rcases run with ⟨result, core'⟩
              simp only [hstart] at hboot
              cases result with
              | error e => cases hboot
              | ok queue' =>
                  cases hboot
                  rcases startDisk_ok hstart with
                    ⟨fs, hdetect, hqueue, hfirst⟩ | ⟨e, hdetect, rfl, hsector⟩
                  · rcases startFirst_ok hfirst with ⟨first, rest, data, rfl, hread, hload⟩
                    exact .file himage hdisk hdetect hqueue hread hload
                  · rcases startSector_ok hsector with ⟨bootSector, hread, rfl⟩
                    exact .sector himage hdisk hdetect hread

theorem new_booted
    {host : Host} {filePath : Text} {maxInstructions : ℕ} {rt : Runtime H}
    (hnew : Runtime.new H host filePath maxInstructions = .ok (.ok rt)) :
    Booted host filePath rt.toCore rt.batchQueue ∧ rt.dos = DosRuntime.new ∧
      rt.jit = JitRuntime.new host.residue ∧ rt.maxInstructions = maxInstructions ∧
        rt.currentBatchIndex = 0 := by
  unfold Runtime.new at hnew
  cases hboot : bootCore host filePath with
  | error fault =>
      rw [hboot] at hnew
      cases hnew
  | ok result =>
      rw [hboot] at hnew
      cases result with
      | error e => cases hnew
      | ok built =>
          rcases built with ⟨core, queue⟩
          cases hnew
          refine ⟨?_, rfl, rfl, rfl, rfl⟩
          unfold bootCore at hboot
          by_cases hexe : isExeFile host filePath = true
          · rw [if_pos hexe] at hboot
            exact bootExe_ok hexe hboot
          · rw [if_neg hexe] at hboot
            exact bootImage_ok (Bool.eq_false_iff.mpr hexe) hboot

/-! ## What the loaders leave -/

def comLoaded (data : List U8) (core : Core) : Core :=
  (core.setMem (core.bus.mem.loadBytes (Memory.phys loadSegment 0x0100) data)).setRegs
    core.cpu.regs.setCom

/-- The machine with the program in it. -/
def programLoaded (data : List U8) (core : Core) : Core :=
  if hasMzMagic data then mzLoaded data core else comLoaded data core

theorem loadMz_ok {data : List U8} {core core' : Core}
    (hload : loadMz data core = .ok (.ok (), core')) :
    hasMzMagic data ∧ core' = mzLoaded data core := by
  rw [loadMz_checks] at hload
  simp only at hload
  split at hload
  · cases hload
  · next haccepted =>
      split at hload
      · cases hload
      · split at hload
        · cases hload
        · cases hload
          exact ⟨not_not.mp (not_or.mp haccepted).2, rfl⟩

theorem executeBinary_ok {data : List U8} {core core' : Core}
    (hload : executeBinary data core = .ok (.ok (), core')) : core' = programLoaded data core := by
  unfold executeBinary at hload
  unfold programLoaded
  by_cases hmz : hasMzMagic data
  · rw [if_pos hmz] at hload ⊢
    exact (loadMz_ok hload).2
  · rw [if_neg hmz] at hload ⊢
    cases hload
    rfl

theorem programLoaded_disk (data : List U8) (core : Core) :
    (programLoaded data core).bus.disk = core.bus.disk := by
  unfold programLoaded
  split <;> rfl

/-! ## Ready to run -/

/-- What the run loop finds in the processor. -/
structure Ready (core : Core) : Prop where
  running : core.halted = false
  counter : core.cpu.instructionsExecuted = 0
  inSegment : core.cpu.regs.InSegment
  reserved : core.cpu.regs.reserved = true

theorem newCore_ready (disk : Option Disk) (clock : ℕ → ℕ) : Ready (newCore disk clock) where
  running := rfl
  counter := rfl
  inSegment := (by decide : Regs.new.ip.toNat < 2 ^ 16)
  reserved := (by decide : Regs.new.reserved = true)

theorem Ready.stays {core core' : Core} (hready : Ready core) (htame : Tame core core')
    (hcount : SameCount core core') : Ready core' where
  running := htame.halted.trans hready.running
  counter := hcount.trans hready.counter
  inSegment := htame.inSegment hready.inSegment
  reserved := htame.reserved hready.reserved

theorem Ready.of_routine {α : Type} {routine : Routine α} {core core' : Core} {a : α}
    (hready : Ready core) [htame : StaysIn Tame routine] [hcount : StaysIn SameCount routine]
    (hrun : routine core = .ok (a, core')) : Ready core' :=
  hready.stays (htame.returns hrun) (hcount.returns hrun)

theorem Ready.setRegs {core : Core} (hready : Ready core) (f : Regs → Regs) [TameRegs f] :
    Ready (core.setRegs (f core.cpu.regs)) :=
  hready.stays (tame_setRegs f core) rfl

instance : TameRegs Regs.setBoot where
  inSegment := fun _ _ => (by decide : (bootOff.setWidth 32 : U32).toNat < 2 ^ 16)
  reserved := fun _ hset => hset

theorem Booted.ready {host : Host} {filePath : Text} {core : Core} {queue : List DirEntry}
    (hbooted : Booted host filePath core queue) : Ready core := by
  cases hbooted with
  | exe hexe hread hload => exact (newCore_ready none host.clock).of_routine hload
  | @file disk fs first rest data core himage hdisk hdetect hqueue hread hload =>
      have hloaded : Ready core := (newCore_ready (some disk) host.clock).of_routine hload
      exact hloaded.setRegs fun regs => regs.set8 .DL 0x80
  | @sector disk error bootSector himage hdisk hdetect hread =>
      have hplaced : Ready ((newCore (some disk) host.clock).setMem
          ((installStub Memory.new).loadBytes (Memory.phys bootSeg (bootOff.setWidth 32))
            bootSector)) :=
        (newCore_ready (some disk) host.clock).stays (tame_of_same rfl rfl) rfl
      exact (hplaced.setRegs Regs.setBoot).setRegs fun regs => regs.set8 .DL 0x80

/-- With a queue, its first file is on the disk of the machine and has been loaded. -/
theorem Booted.loaded {host : Host} {filePath : Text} {core : Core} {queue : List DirEntry}
    (hbooted : Booted host filePath core queue) (hqueue : queue ≠ []) :
    ∃ first data blank loaded, queue[0]? = some first ∧
      readDiskFile core.bus.disk first = .ok data ∧
        executeBinary data blank = .ok (.ok (), loaded) ∧
          core = loaded.setRegs (loaded.cpu.regs.set8 .DL 0x80) := by
  cases hbooted with
  | exe hexe hread hload => exact absurd rfl hqueue
  | @file disk fs first rest data core himage hdisk hdetect hstart hread hload =>
      have hbus : core.bus.disk = some disk := by
        rw [executeBinary_ok hload]
        exact programLoaded_disk _ _
      refine ⟨first, data, newCore (some disk) host.clock, core, rfl, ?_, hload, rfl⟩
      unfold readDiskFile
      rw [Core.setRegs_bus, hbus]
      simp only [hdetect]
      exact hread
  | sector himage hdisk hdetect hread => exact absurd rfl hqueue

/-- A machine before its first step. -/
structure PoweredOn (rt : Runtime H) : Prop where
  core : Ready rt.toCore
  cache : rt.jit.cache = fun _ => none
  handles : rt.dos = DosRuntime.new
  index : rt.currentBatchIndex = 0
  batch : rt.batchQueue ≠ [] → BatchStart rt
  budget : 0 < rt.maxInstructions → BudgetStart rt

theorem new_powersOn
    {host : Host} {filePath : Text} {maxInstructions : ℕ} {rt : Runtime H}
    (hnew : Runtime.new H host filePath maxInstructions = .ok (.ok rt)) : PoweredOn rt := by
  rcases new_booted hnew with ⟨hbooted, hdos, hjit, -, hindex⟩
  have hready := hbooted.ready
  have hcache : rt.jit.cache = fun _ => none := by
    rw [hjit]
    rfl
  constructor
  · exact hready
  · exact hcache
  · exact hdos
  · exact hindex
  · intro hqueue
    rcases hbooted.loaded hqueue with ⟨first, data, blank, loaded, hfirst, hread, hload, hcore⟩
    exact ⟨⟨first, data, blank, loaded, hfirst, hread, hload, hcore⟩, hindex, hready.running,
      hcache⟩
  · intro hlimit
    exact ⟨hlimit, hready.counter, hcache⟩

/-! ## A disk with a batch file -/

/-- `RUN.BAT` in cluster 2 and `A.COM` in cluster 3. -/
def queueRoot : List U8 :=
  pad 512 ([0x52, 0x55, 0x4E, 0x20, 0x20, 0x20, 0x20, 0x20, 0x42, 0x41, 0x54, 0x20] ++
    List.replicate 14 0 ++ [0x02, 0x00, 0x05, 0x00, 0x00, 0x00] ++
    [0x41, 0x20, 0x20, 0x20, 0x20, 0x20, 0x20, 0x20, 0x43, 0x4F, 0x4D, 0x20] ++
    List.replicate 14 0 ++ [0x03, 0x00, 0x12, 0x00, 0x00, 0x00])

/-- The lines `A` and `@A`. -/
def queueBatch : List U8 := [0x41, 0x0D, 0x0A, 0x40, 0x41]

/-- MOVZX AX,[010Eh]; MOVZX DX,[0110h]; INT 21h behind a prefix; HLT: prints an `A`. -/
def queueProgram : List U8 :=
  [0x0F, 0xB7, 0x06, 0x0E, 0x01, 0x0F, 0xB7, 0x16, 0x10, 0x01, 0x2E, 0xCD, 0x21, 0xF4,
    0x00, 0x02, 0x41, 0x00]

/-- Five sectors, two of them clusters. -/
def queueImage : List U8 :=
  bootSector.set 0x13 5 ++ pad 512 [0xFE, 0xFF, 0xFF, 0xFF, 0xFF, 0xFF] ++ queueRoot ++
    pad 512 queueBatch ++ pad 512 queueProgram

def queueHost : Host where
  lower := id
  upper := upperChar
  readFile := fun _ => some queueImage
  clock := fun _ => 0
  residue := fun _ => 0

theorem new_powersOn_queue :
    ∃ rt, Runtime.new HostFiles.none queueHost "a.hdm".toList 5 = .ok (.ok rt) ∧
      rt.batchQueue.map DirEntry.fullName = ["A.COM".toList, "A.COM".toList] ∧ PoweredOn rt := by
  have hbuilds : ((Runtime.new HostFiles.none queueHost "a.hdm".toList 5).toOption.bind
      Except.toOption).map (fun rt => rt.batchQueue.map DirEntry.fullName) =
        some ["A.COM".toList, "A.COM".toList] := by
    decide +kernel
  rcases Option.map_eq_some_iff.mp hbuilds with ⟨rt, hbuilt, hqueue⟩
  have hnew := eq_ok_ok_of_toOption hbuilt
  exact ⟨rt, hnew, hqueue, new_powersOn hnew⟩

/-! ## The stub under a program -/

/-- The program is loaded below the stub. -/
structure BelowStub (data : List U8) : Prop where
  com : ¬ hasMzMagic data → 0x10100 + data.length ≤ 0xF0100
  mz : hasMzMagic data → WellFormedMz data ∧ 0x10000 + (mzImage data).length ≤ 0xF0100

theorem stubPhys_toNat : (cell stubPhys).toNat = 0xF0100 := by decide

/-- Storing bytes in one piece leaves the other cells as they were. -/
theorem loadBytes_outside
    {mem : Memory} {addr : U32} {bytes : List U8} {c : Cell}
    (hfits : (cell addr).toNat + bytes.length ≤ 2 ^ 20)
    (houtside : c.toNat < (cell addr).toNat ∨ (cell addr).toNat + bytes.length ≤ c.toNat) :
    (mem.loadBytes addr bytes).data c = mem.data c := by
  have hnone : bytes[(c - cell addr).toNat]? = none := by
    apply List.getElem?_eq_none
    have hlt := c.isLt
    rw [BitVec.toNat_sub]
    omega
  change ByteStore.load mem.data (cell addr) bytes c = mem.data c
  rw [ByteStore.load_apply _ _ _ _ (by omega), hnone]
  rfl

theorem Stubbed.afterBytes
    {mem : Memory} (hstubbed : Stubbed mem) {addr : U32} {bytes : List U8}
    (hlow : 0x400 ≤ (cell addr).toNat) (hhigh : (cell addr).toNat + bytes.length ≤ 0xF0100) :
    Stubbed (mem.loadBytes addr bytes) := by
  apply hstubbed.of_same
  · intro c hc
    exact loadBytes_outside (by omega) (.inl (by omega))
  · exact loadBytes_outside (by omega) (.inr (by rw [stubPhys_toNat]; exact hhigh))

theorem Stubbed.afterProgram
    {core : Core} (hstubbed : Stubbed core.bus.mem) {data : List U8} (hbelow : BelowStub data) :
    Stubbed (programLoaded data core).bus.mem := by
  unfold programLoaded
  by_cases hmz : hasMzMagic data
  · rw [if_pos hmz]
    rcases hbelow.mz hmz with ⟨hwell, hbelow⟩
    have hrelocated := relocated hwell core.bus.mem
    apply hstubbed.of_same
    · intro c hc
      exact hrelocated.outside c (.inl (by omega))
    · exact hrelocated.outside _ (.inr (by rw [stubPhys_toNat]; exact hbelow))
  · rw [if_neg hmz]
    have hlength := hbelow.com hmz
    have hstart : (cell (Memory.phys loadSegment 0x0100)).toNat = 0x10100 := by decide
    exact hstubbed.afterBytes (by omega) (by omega)

/-- The file that a machine starts with, where it starts with one. -/
inductive StartsWith (host : Host) (filePath : Text) (rt : Runtime H) (data : List U8) : Prop
  | exe (hexe : isExeFile host filePath = true) (hread : host.readFile filePath = some data)
  | file {first : DirEntry} (hfirst : rt.batchQueue[0]? = some first)
      (hread : readDiskFile rt.bus.disk first = .ok data)

theorem Booted.stubbed {host : Host} {filePath : Text} {core : Core} {queue : List DirEntry}
    (hbooted : Booted host filePath core queue)
    (hexeFile : ∀ data, isExeFile host filePath = true → host.readFile filePath = some data →
      BelowStub data)
    (hdiskFile : ∀ first data, queue[0]? = some first →
      readDiskFile core.bus.disk first = .ok data → BelowStub data) :
    Stubbed core.bus.mem := by
  cases hbooted with
  | exe hexe hread hload =>
      rcases loadMz_ok hload with ⟨hmz, rfl⟩
      have hfresh : Stubbed (newCore none host.clock).bus.mem := installStub_stubbed Memory.new
      have hafter := hfresh.afterProgram (hexeFile _ hexe hread)
      unfold programLoaded at hafter
      rw [if_pos hmz] at hafter
      exact hafter
  | @file disk fs first rest data core himage hdisk hdetect hstart hread hload =>
      have hbus : core.bus.disk = some disk := by
        rw [executeBinary_ok hload]
        exact programLoaded_disk _ _
      have hbelow : BelowStub data := by
        apply hdiskFile first data rfl
        unfold readDiskFile
        rw [Core.setRegs_bus, hbus]
        simp only [hdetect]
        exact hread
      rw [Core.setRegs_bus, executeBinary_ok hload]
      exact (installStub_stubbed Memory.new).afterProgram hbelow
  | @sector disk error bootSector himage hdisk hdetect hread =>
      have hlength := readSectors_length hread
      have hsector : sectorSize = 512 := rfl
      have hstart : (cell (Memory.phys bootSeg (bootOff.setWidth 32))).toNat = 0x7C00 := by decide
      exact (installStub_stubbed Memory.new).afterBytes (by omega) (by omega)

/-- Unless the program covers the stub, every vector of a machine that is built
leads to it. -/
theorem new_stubbed
    {host : Host} {filePath : Text} {maxInstructions : ℕ} {rt : Runtime H}
    (hnew : Runtime.new H host filePath maxInstructions = .ok (.ok rt))
    (hbelow : ∀ data, StartsWith host filePath rt data → BelowStub data) :
    Stubbed rt.bus.mem := by
  apply (new_booted hnew).1.stubbed
  · intro data hexe hread
    exact hbelow data (.exe hexe hread)
  · intro first data hfirst hread
    exact hbelow data (.file hfirst hread)

/-! ## A machine with an EXE file -/

def movHost : Host where
  lower := id
  upper := upperChar
  readFile := fun _ => some movFile
  clock := fun _ => 0
  residue := fun _ => 0

theorem movHost_builds :
    ∃ rt, Runtime.new HostFiles.none movHost "a.exe".toList 0 = .ok (.ok rt) ∧
      rt.batchQueue = [] := by
  have hexe : isExeFile movHost "a.exe".toList = true := by decide +kernel
  have hload := loadMz_loaded (newCore none movHost.clock) movFile_wellFormed.accepted
    movFile_wellFormed.image
  have hboot : bootCore movHost "a.exe".toList =
      .ok (.ok (mzLoaded movFile (newCore none movHost.clock), [])) := by
    unfold bootCore bootExe
    rw [if_pos hexe]
    simp only [movHost] at hload ⊢
    rw [hload]
  unfold Runtime.new
  rw [hboot]
  exact ⟨_, rfl, rfl⟩

theorem new_stubbed_mov :
    ∃ rt, Runtime.new HostFiles.none movHost "a.exe".toList 0 = .ok (.ok rt) ∧
      Stubbed rt.bus.mem := by
  rcases movHost_builds with ⟨rt, hnew, hqueue⟩
  have hmz : hasMzMagic movFile := by decide +kernel
  have hbelow : BelowStub movFile :=
    ⟨fun hcom => absurd hmz hcom, fun _ => ⟨movFile_wellFormed, by decide +kernel⟩⟩
  refine ⟨rt, hnew, new_stubbed hnew ?_⟩
  intro data hstart
  cases hstart with
  | exe hexe hread =>
      cases hread
      exact hbelow
  | file hfirst hread =>
      rw [hqueue] at hfirst
      cases hfirst

end Kita98
