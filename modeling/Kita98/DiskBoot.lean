import Kita98.PowerOn
import Kita98.RootDirectory
import Kita98.WriteBack

/-!
# From an image to a machine

A volume with a batch file or an executable in its root directory becomes a
machine with the bytes of a file of that directory in its memory.
-/

namespace Kita98

open WordBits Disk Exec

/-- The disk has the volume, no sector in front of it is taken for one, and the
slots are its root directory. -/
structure BootVolume (v : FatVolume) (slots : List RootSlot) (disk : Disk) (lba : ℕ) : Prop where
  onDisk : v.OnDisk disk lba
  near : lba < 2048
  first : ∀ sector < lba, FatFileSystem.probe disk sector = none
  directory : RootDirectory slots v disk lba

/-- The chain of the file is in the FAT, and every cluster that it needs has a
number that is followed. -/
structure RootFile.ReadableOn (file : RootFile) (v : FatVolume) (disk : Disk) (lba : ℕ) :
    Prop where
  stored : file.StoredOn v disk lba
  followed : ∀ c ∈ file.needed v, c.toNat < v.followLimit

/-- What the machine queues when it starts with a file of these contents. -/
def queueOf (upper : Char → Text) (starter : DirEntry) (content : List U8)
    (root : List DirEntry) : List DirEntry :=
  if upperText upper starter.ext = "BAT".toList then batchQueue upper content root else [starter]

/-- A load image that stays below 1 MiB. -/
structure Loadable (data : List U8) : Prop where
  com : ¬ hasMzMagic data → 0x10100 + data.length ≤ 2 ^ 20
  mz : hasMzMagic data → WellFormedMz data

/-- A COM file stands at 1000:0100, with IP at its first byte. -/
structure ComInPlace (data : List U8) (core : Core) : Prop where
  bytes : ∀ i (hi : i < data.length),
    core.bus.mem.data (BitVec.ofNat 20 (0x10100 + i)) = data[i]
  cs : core.cpu.regs.getSeg .CS = 0x1000
  ip : core.cpu.regs.ip = 0x0100
  ds : core.cpu.regs.getSeg .DS = 0x1000
  es : core.cpu.regs.getSeg .ES = 0x1000

/-- An MZ file stands relocated above 1000:0000, with the registers of its header. -/
structure MzInPlace (data : List U8) (core : Core) : Prop where
  image : Relocated data (installStub Memory.new) core.bus.mem
  registers : Rebased (MzHeader.ofBytes data) core.cpu.regs

/-- The program is in memory, about to run, and DL names the drive. -/
structure InPlace (data : List U8) (core : Core) : Prop where
  com : ¬ hasMzMagic data → ComInPlace data core
  mz : hasMzMagic data → MzInPlace data core
  drive : core.cpu.regs.get8 .DL = 0x80

/-! ## Loading -/

theorem executeBinary_of_loadable {data : List U8} (hloadable : Loadable data) (core : Core) :
    executeBinary data core = .ok (.ok (), programLoaded data core) := by
  unfold executeBinary programLoaded
  by_cases hmz : hasMzMagic data
  · have hwell := hloadable.mz hmz
    rw [if_pos hmz, if_pos hmz]
    exact loadMz_loaded core hwell.accepted hwell.image
  · rw [if_neg hmz, if_neg hmz]
    rfl

theorem rebased_set8 {header : MzHeader} {regs : Regs} (hrebased : Rebased header regs)
    (v : U8) : Rebased header (regs.set8 .DL v) where
  cs := (regs.getSeg_of_set8 .CS .DL v).trans hrebased.cs
  ip := (regs.set8_ip .DL v).trans hrebased.ip
  ss := (regs.getSeg_of_set8 .SS .DL v).trans hrebased.ss
  sp := (regs.get16_sp_of_set8 .DL v).trans hrebased.sp
  ds := (regs.getSeg_of_set8 .DS .DL v).trans hrebased.ds
  es := (regs.getSeg_of_set8 .ES .DL v).trans hrebased.es

/-- Bytes stored in one piece read back from their place on. -/
theorem loadBytes_inside
    {mem : Memory} {addr : U32} {bytes : List U8} {start : ℕ}
    (hstart : (Memory.cell addr).toNat = start) (hfits : start + bytes.length ≤ 2 ^ 20) {i : ℕ}
    (hi : i < bytes.length) :
    (mem.loadBytes addr bytes).data (BitVec.ofNat 20 (start + i)) = bytes[i] := by
  have hindex : (BitVec.ofNat 20 (start + i) - Memory.cell addr).toNat = i := by
    rw [BitVec.toNat_sub, BitVec.toNat_ofNat, hstart]
    omega
  change ByteStore.load mem.data (Memory.cell addr) bytes _ = _
  rw [ByteStore.load_apply _ _ _ _ (by omega), hindex, List.getElem?_eq_getElem hi]
  rfl

theorem comLoaded_inPlace {data : List U8} (hfits : 0x10100 + data.length ≤ 2 ^ 20) (core : Core) :
    ComInPlace data ((comLoaded data core).setRegs
      ((comLoaded data core).cpu.regs.set8 .DL 0x80)) where
  bytes := by
    intro i hi
    exact loadBytes_inside (by decide) hfits hi
  cs := (comLoaded data core).cpu.regs.getSeg_of_set8 .CS .DL 0x80
  ip := (comLoaded data core).cpu.regs.set8_ip .DL 0x80
  ds := (comLoaded data core).cpu.regs.getSeg_of_set8 .DS .DL 0x80
  es := (comLoaded data core).cpu.regs.getSeg_of_set8 .ES .DL 0x80

theorem programLoaded_inPlace {data : List U8} (hloadable : Loadable data) (disk : Option Disk)
    (clock : ℕ → ℕ) :
    InPlace data ((programLoaded data (newCore disk clock)).setRegs
      ((programLoaded data (newCore disk clock)).cpu.regs.set8 .DL 0x80)) := by
  constructor
  · intro hcom
    unfold programLoaded
    rw [if_neg hcom]
    exact comLoaded_inPlace (hloadable.com hcom) _
  · intro hmz
    unfold programLoaded
    rw [if_pos hmz]
    exact ⟨relocated (hloadable.mz hmz) _, rebased_set8 (setRegs_rebased _ _) _⟩
  · exact get8_set8_self (programLoaded data (newCore disk clock)).cpu.regs .DL 0x80

/-! ## Starting from the volume -/

section Volume

variable {v : FatVolume} {slots : List RootSlot} {disk : Disk} {lba : ℕ}

theorem RootFile.ReadableOn.readFile {file : RootFile} (hfile : file.ReadableOn v disk lba)
    (hv : v.OnDisk disk lba) :
    (v.fileSystem lba).readFile disk file.entry = .ok (file.bytes v disk lba) :=
  (readFile_bytes_iff hv hfile.stored).mpr hfile.followed

variable (hvolume : BootVolume v slots disk lba)
include hvolume

theorem BootVolume.rootFiles_eq :
    (v.fileSystem lba).rootFiles disk = slots.filterMap RootSlot.entry := by
  unfold FatFileSystem.rootFiles
  rw [hvolume.directory.listed hvolume.onDisk]

theorem BootVolume.findEntrypoint_eq {upper : Char → Text} {entry : DirEntry}
    (hentry : IsEntrypoint upper (slots.filterMap RootSlot.entry) entry) :
    (v.fileSystem lba).findEntrypoint upper disk = .ok entry := by
  unfold FatFileSystem.findEntrypoint
  rw [hvolume.directory.listed hvolume.onDisk]
  simp only [chooseEntry_iff.mpr hentry]

theorem BootVolume.startQueue_eq {upper : Char → Text} {starter : RootFile}
    (hentry : IsEntrypoint upper (slots.filterMap RootSlot.entry) starter.entry)
    (hstarter : starter.ReadableOn v disk lba) :
    (v.fileSystem lba).startQueue upper disk =
      .ok (queueOf upper starter.entry (starter.bytes v disk lba)
        (slots.filterMap RootSlot.entry)) := by
  unfold FatFileSystem.startQueue queueOf
  rw [hvolume.findEntrypoint_eq hentry]
  simp only
  split
  · rw [hstarter.readFile hvolume.onDisk, hvolume.rootFiles_eq]
  · rfl

theorem BootVolume.startDisk_eq {upper : Char → Text} {starter program : RootFile}
    {rest : List DirEntry}
    (hentry : IsEntrypoint upper (slots.filterMap RootSlot.entry) starter.entry)
    (hstarter : starter.ReadableOn v disk lba)
    (hqueue : queueOf upper starter.entry (starter.bytes v disk lba)
      (slots.filterMap RootSlot.entry) = program.entry :: rest)
    (hprogram : program.ReadableOn v disk lba) (hloadable : Loadable (program.bytes v disk lba))
    (core : Core) :
    startDisk upper disk core =
      .ok (.ok (program.entry :: rest), programLoaded (program.bytes v disk lba) core) := by
  have hfirst : startFirst (v.fileSystem lba) disk (program.entry :: rest) core =
      .ok (.ok (), programLoaded (program.bytes v disk lba) core) := by
    simp only [startFirst, List.head?_cons]
    rw [hprogram.readFile hvolume.onDisk]
    simp only
    rw [bind_ok (executeBinary_of_loadable hloadable core)]
    rfl
  unfold startDisk
  rw [hvolume.onDisk.detect_eq hvolume.near hvolume.first]
  simp only
  rw [hvolume.startQueue_eq hentry hstarter, hqueue]
  simp only
  rw [bind_ok hfirst]
  rfl

/-- The file that the directory starts with, or the first that its lines name,
is the program of the machine. -/
theorem volume_boots {H : HostFiles} {host : Host} {filePath : Text} (maxInstructions : ℕ)
    {starter program : RootFile} {rest : List DirEntry}
    (himage : isExeFile host filePath = false)
    (hdisk : Disk.load (host.readFile filePath) = .ok (.ok disk))
    (hentry : IsEntrypoint host.upper (slots.filterMap RootSlot.entry) starter.entry)
    (hstarter : starter.ReadableOn v disk lba)
    (hqueue : queueOf host.upper starter.entry (starter.bytes v disk lba)
      (slots.filterMap RootSlot.entry) = program.entry :: rest)
    (hprogram : program.ReadableOn v disk lba) (hloadable : Loadable (program.bytes v disk lba)) :
    ∃ rt, Runtime.new H host filePath maxInstructions = .ok (.ok rt) ∧
      rt.batchQueue = program.entry :: rest ∧ rt.bus.disk = some disk ∧
        InPlace (program.bytes v disk lba) rt.toCore := by
  have hstart := hvolume.startDisk_eq hentry hstarter hqueue hprogram hloadable
    (newCore (some disk) host.clock)
  have hboot : bootCore host filePath =
      .ok (.ok ((programLoaded (program.bytes v disk lba) (newCore (some disk) host.clock)).setRegs
        ((programLoaded (program.bytes v disk lba)
          (newCore (some disk) host.clock)).cpu.regs.set8 .DL 0x80), program.entry :: rest)) := by
    unfold bootCore bootImage
    rw [himage, if_neg Bool.false_ne_true, hdisk]
    simp only
    rw [hstart]
  unfold Runtime.new
  rw [hboot]
  refine ⟨_, rfl, rfl, ?_, ?_⟩
  · exact programLoaded_disk _ _
  · exact programLoaded_inPlace hloadable _ _

end Volume

/-! ## A volume with one executable -/

/-- Not one of the three bytes of the extension. -/
def NotAnExtension (pos : ℕ) : Prop := pos ≠ 6664 ∧ pos ≠ 6665 ∧ pos ≠ 6666

/-- The volume of one file, its extension `EXE`. -/
def exeBytes (pos : ℕ) : U8 :=
  if pos = 6664 ∨ pos = 6666 then 0x45 else if pos = 6665 then 0x58 else singleBytes 2 pos

def exeImage : List U8 := region exeBytes 0 (4093 * 512)

def exeDisk : Disk := Disk.ofGeometry exeImage ⟨0, 615, 8, 17⟩

def exeExt : List U8 := [0x45, 0x58, 0x45]

theorem exeExt_length : exeExt.length ≤ 3 := by decide

theorem exeExt_upper : ∀ b ∈ exeExt, UpperAscii b := by decide

def exeFile : RootFile :=
  { singleFile 2 with ext := exeExt, ext_length := exeExt_length, ext_upper := exeExt_upper }

def exeHost : Host where
  lower := id
  upper := upperChar
  readFile := fun _ => some exeImage
  clock := fun _ => 0
  residue := fun _ => 0

theorem exeBytes_of {pos : ℕ} (hpos : NotAnExtension pos) : exeBytes pos = singleBytes 2 pos := by
  rcases hpos with ⟨h0, h1, h2⟩
  unfold exeBytes
  rw [if_neg (by omega), if_neg h1]

theorem exeDisk_bytes : exeDisk.bytesFrom 0 = exeBytes := by
  funext pos
  have hpos : exeDisk.bytesFrom 0 pos = byteAt exeImage pos := by
    unfold Disk.bytesFrom exeDisk Disk.ofGeometry
    simp
  rw [hpos]
  rcases Nat.lt_or_ge pos (4093 * 512) with hin | hout
  · rw [exeImage, byteAt_region hin, Nat.zero_add]
  · have hfar : NotAnExtension pos := by
      unfold NotAnExtension
      omega
    rw [byteAt_of_length_le (by rw [exeImage, region_length]; exact hout), exeBytes_of hfar]
    obtain ⟨i, rfl⟩ := Nat.exists_eq_add_of_le (show 6656 ≤ pos by omega)
    rw [singleBytes_entry, byteAt_of_length_le]
    have hlen : (singleEntry 2).length = 32 := rfl
    omega

/-- Only the bytes of the extension are those of another disk. -/
theorem exeDisk_bytes_of {pos : ℕ} (hpos : NotAnExtension pos) :
    exeDisk.bytesFrom 0 pos = (singleDisk 2).bytesFrom 0 pos := by
  rw [exeDisk_bytes, singleDisk_bytes, exeBytes_of hpos]

theorem exeDisk_word {pos : ℕ} (hpos : NotAnExtension pos) (hnext : NotAnExtension (pos + 1)) :
    PackedTable.wordAt (exeDisk.bytesFrom 0) pos =
      PackedTable.wordAt ((singleDisk 2).bytesFrom 0) pos := by
  unfold PackedTable.wordAt
  rw [exeDisk_bytes_of hpos, exeDisk_bytes_of hnext]

theorem exeDisk_onDisk : singleVolume.OnDisk exeDisk 0 := by
  have hsingle := singleVolume_onDisk 2
  have hparam : ∀ pos < 0x30, NotAnExtension pos := by
    intro pos hpos
    unfold NotAnExtension
    omega
  constructor
  case room =>
    unfold exeDisk Disk.ofGeometry
    simp only [exeImage, region_length]
    simp [singleVolume]
  case bytesPerSector =>
    rw [exeDisk_word (hparam _ (by omega)) (hparam _ (by omega))]
    exact hsingle.bytesPerSector
  case sectorsPerCluster =>
    rw [exeDisk_bytes_of (hparam _ (by omega))]
    exact hsingle.sectorsPerCluster
  case reservedSectors =>
    rw [exeDisk_word (hparam _ (by omega)) (hparam _ (by omega))]
    exact hsingle.reservedSectors
  case numFats =>
    rw [exeDisk_bytes_of (hparam _ (by omega))]
    exact hsingle.numFats
  case rootDirEntries =>
    rw [exeDisk_word (hparam _ (by omega)) (hparam _ (by omega))]
    exact hsingle.rootDirEntries
  case sectorsPerFat =>
    rw [exeDisk_word (hparam _ (by omega)) (hparam _ (by omega))]
    exact hsingle.sectorsPerFat
  case totalSectors =>
    rw [exeDisk_word (hparam _ (by omega)) (hparam _ (by omega)),
      exeDisk_word (hparam _ (by omega)) (hparam _ (by omega)),
      exeDisk_word (hparam _ (by omega)) (hparam _ (by omega))]
    exact hsingle.totalSectors
  case attributes =>
    intro slot hslot
    have hfirst : NotAnExtension (singleVolume.slotPos slot) := by
      rw [singleVolume_slotPos]
      unfold NotAnExtension
      omega
    have hattr : NotAnExtension (singleVolume.slotPos slot + 11) := by
      rw [singleVolume_slotPos]
      unfold NotAnExtension
      omega
    rw [exeDisk_bytes_of hfirst, exeDisk_bytes_of hattr]
    exact hsingle.attributes slot hslot

theorem singleDirectory (c : U16) :
    RootDirectory [.file (singleFile c)] singleVolume (singleDisk c) 0 := by
  have hlisted := singleFile_listed c
  constructor
  · exact (by decide : 1 ≤ 16)
  · intro i hi
    obtain rfl : i = 0 := Nat.lt_one_iff.mp hi
    exact .file hlisted.name hlisted.ext hlisted.attr hlisted.firstCluster hlisted.size
  · intro hshort
    rw [singleDisk_bytes, singleVolume_slotPos, singleBytes_entry]
    exact byteAt_of_length_le (by simp [singleEntry])

theorem exeDisk_directory : RootDirectory [.file exeFile] singleVolume exeDisk 0 := by
  have hlisted := singleFile_listed 2
  have hplace : ∀ k, k < 8 ∨ 11 ≤ k → NotAnExtension (singleVolume.slotPos 0 + k) := by
    intro k hk
    rw [singleVolume_slotPos]
    unfold NotAnExtension
    omega
  constructor
  · exact (by decide : 1 ≤ 16)
  · intro i hi
    obtain rfl : i = 0 := Nat.lt_one_iff.mp hi
    apply RootSlot.At.file
    · have hregion : region (exeDisk.bytesFrom 0) (singleVolume.slotPos 0) 8 =
          region ((singleDisk 2).bytesFrom 0) (singleVolume.slotPos 0) 8 := by
        apply List.map_congr_left
        intro k hk
        exact exeDisk_bytes_of (hplace k (.inl (List.mem_range.mp hk)))
      exact hregion.trans hlisted.name
    · rw [exeDisk_bytes]
      rfl
    · rw [exeDisk_bytes_of (hplace 11 (by omega))]
      exact hlisted.attr
    · rw [exeDisk_word (hplace 26 (by omega)) (hplace 27 (by omega))]
      exact hlisted.firstCluster
    · rw [exeDisk_word (hplace 28 (by omega)) (hplace 29 (by omega)),
        exeDisk_word (hplace 30 (by omega)) (hplace 31 (by omega))]
      exact hlisted.size
  · intro hshort
    have hend := (singleDirectory 2).ended (by decide)
    rw [exeDisk_bytes_of (by rw [singleVolume_slotPos]; unfold NotAnExtension; decide)]
    exact hend

theorem exeDisk_volume : BootVolume singleVolume [.file exeFile] exeDisk 0 where
  onDisk := exeDisk_onDisk
  near := by decide
  first := fun sector hlt => absurd hlt (Nat.not_lt_zero _)
  directory := exeDisk_directory

theorem exeFile_stored : exeFile.StoredOn singleVolume exeDisk 0 := by
  have hstored := singleFile_stored (c := 2) (by decide) (by decide)
  constructor
  case range => exact hstored.range
  case links => exact List.isChain_singleton 2
  case last =>
    intro c hc
    obtain rfl : 2 = c := by simpa [exeFile, singleFile] using hc
    obtain ⟨mark, hend, hsmall, hentry⟩ := hstored.last 2 rfl
    refine ⟨mark, hend, hsmall, ?_⟩
    have hwidth : singleVolume.entryWidth = 12 := by decide
    have hfat : singleVolume.fatPos = 512 := by decide
    have htwo : (2 : U16).toNat = 2 := rfl
    rw [hwidth, htwo] at hentry ⊢
    intro i hi
    have hplace : NotAnExtension (singleVolume.fatPos + (12 * 2 + i) / 8) := by
      rw [hfat]
      unfold NotAnExtension
      omega
    rw [FatVolume.fatBytes, exeDisk_bytes_of hplace]
    exact hentry i hi
  case covers => exact hstored.covers

theorem exeFile_bytes : exeFile.bytes singleVolume exeDisk 0 = [0] := by
  have hsingle := singleFile_bytes 2
  have hcluster : singleVolume.clusterData exeDisk 0 2 =
      singleVolume.clusterData (singleDisk 2) 0 2 := by
    have hpos : singleVolume.clusterPos (2 : U16).toNat = 7168 := by decide
    unfold FatVolume.clusterData region
    apply List.map_congr_left
    intro k hk
    apply exeDisk_bytes_of
    rw [hpos]
    unfold NotAnExtension
    omega
  unfold RootFile.bytes at hsingle ⊢
  rw [show (singleFile 2).chain = [2] from rfl, List.flatMap_singleton] at hsingle
  rw [show exeFile.chain = [2] from rfl, List.flatMap_singleton, hcluster]
  exact hsingle

theorem exeFile_readable : exeFile.ReadableOn singleVolume exeDisk 0 where
  stored := exeFile_stored
  followed := by
    intro c hc
    obtain rfl : c = 2 := List.mem_singleton.mp (List.mem_of_mem_take hc)
    decide

theorem exeImage_opens : Disk.load (some exeImage) = .ok (.ok exeDisk) := by
  have hbyte : byteAt exeImage 0 = 0 := by
    rw [exeImage, byteAt_region (by decide), exeBytes_of (by unfold NotAnExtension; decide)]
    decide
  have hfirst : ∀ n magic, byteAt magic 0 ≠ 0 → slice exeImage 0 (n + 1) ≠ magic := by
    intro n magic hmagic heq
    rw [← heq, byteAt_slice (Nat.succ_pos n), hbyte] at hmagic
    exact hmagic rfl
  have hnonempty : exeImage ≠ [] := by
    intro hnil
    have hlength : exeImage.length = 4093 * 512 := region_length _ _ _
    rw [hnil] at hlength
    cases hlength
  have ht98 : ¬ isT98 exeImage := fun h => hfirst 14 t98Magic (by decide) h.2
  have hhdi : ¬ isHdi exeImage := fun h => hfirst 3 hdiMagic (by decide) h.2
  rw [load_eq hnonempty, detectGeometry, if_neg ht98, if_neg hhdi]
  rfl

theorem volume_boots_exe :
    ∃ rt, Runtime.new HostFiles.none exeHost "a.hdi".toList 0 = .ok (.ok rt) ∧
      rt.batchQueue = [exeFile.entry] ∧ rt.bus.disk = some exeDisk ∧
        InPlace (exeFile.bytes singleVolume exeDisk 0) rt.toCore := by
  have hqueue : queueOf exeHost.upper exeFile.entry (exeFile.bytes singleVolume exeDisk 0)
      ([RootSlot.file exeFile].filterMap RootSlot.entry) = [exeFile.entry] := by
    have hext : ¬ upperText exeHost.upper exeFile.entry.ext = "BAT".toList := by decide +kernel
    unfold queueOf
    rw [if_neg hext]
  have hentry : IsEntrypoint exeHost.upper ([RootSlot.file exeFile].filterMap RootSlot.entry)
      exeFile.entry :=
    chooseEntry_iff.mp (by decide +kernel)
  have hloadable : Loadable (exeFile.bytes singleVolume exeDisk 0) := by
    rw [exeFile_bytes]
    exact ⟨fun _ => show 0x10100 + 1 ≤ 2 ^ 20 by decide, fun hmz => absurd hmz (by decide)⟩
  have himage : isExeFile exeHost "a.hdi".toList = false := by decide +kernel
  have hdisk : Disk.load (exeHost.readFile "a.hdi".toList) = .ok (.ok exeDisk) := exeImage_opens
  exact @volume_boots singleVolume [.file exeFile] exeDisk 0 exeDisk_volume HostFiles.none exeHost
    "a.hdi".toList 0 exeFile exeFile [] himage hdisk hentry exeFile_readable hqueue
    exeFile_readable hloadable

end Kita98
