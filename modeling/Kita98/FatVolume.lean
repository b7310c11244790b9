import Kita98.FatFileSystem
import Kita98.PackedTable

/-!
# Volumes laid out on a disk

A volume is described by the numbers of its BIOS parameter block.  Sectors of
the volume are logical ones of 512, 1024 or 2048 bytes; positions are counted
in bytes from the start of the volume.
-/

namespace Kita98

open WordBits Disk PackedTable

/-! ## Reading sectors byte by byte -/

/-- The image behind sector `lba`, past its header. -/
def Disk.bytesFrom (disk : Disk) (lba pos : ℕ) : U8 :=
  byteAt disk.data (disk.headerOffset + lba * sectorSize + pos)

theorem bytesFrom_add (disk : Disk) (lba n pos : ℕ) :
    disk.bytesFrom (lba + n) pos = disk.bytesFrom lba (n * sectorSize + pos) := by
  have hpos : disk.headerOffset + (lba + n) * sectorSize + pos =
      disk.headerOffset + lba * sectorSize + (n * sectorSize + pos) := by
    rw [Nat.add_mul]
    omega
  unfold Disk.bytesFrom
  rw [hpos]

def region (bytes : ℕ → U8) (start len : ℕ) : List U8 :=
  (List.range len).map fun i => bytes (start + i)

@[simp] theorem region_length (bytes : ℕ → U8) (start len : ℕ) :
    (region bytes start len).length = len := by
  simp [region]

theorem byteAt_region {bytes : ℕ → U8} {start len i : ℕ} (hi : i < len) :
    byteAt (region bytes start len) i = bytes (start + i) := by
  simp [byteAt, region, hi]

theorem slice_region {bytes : ℕ → U8} {start len first n : ℕ} (hfit : first + n ≤ len) :
    slice (region bytes start len) first n = region bytes (start + first) n := by
  apply List.ext_getElem
  · simp [slice]
    omega
  · intro i hleft hright
    simp [slice, region, Nat.add_assoc]

theorem le16_region {bytes : ℕ → U8} {start len i : ℕ} (hi : i + 1 < len) :
    FatFileSystem.le16 (region bytes start len) i = (wordAt bytes (start + i)).toNat := by
  unfold FatFileSystem.le16 wordAt
  rw [byteAt_region (by omega), byteAt_region hi, Nat.add_assoc]

theorem readSectors_region
    {disk : Disk} {lba count : ℕ}
    (hroom : disk.headerOffset + lba * sectorSize + count * sectorSize ≤ disk.data.length) :
    disk.readSectors lba count = .ok (region (disk.bytesFrom lba) 0 (count * sectorSize)) := by
  rw [Disk.readSectors_ok_iff]
  refine ⟨hroom, ?_⟩
  apply List.ext_getElem
  · simp [slice]
    omega
  · intro i hleft hright
    have hi : i < count * sectorSize := by simpa using hleft
    have hin : disk.headerOffset + lba * sectorSize + i < disk.data.length := by omega
    simp [slice, region, Disk.bytesFrom, byteAt, hin]

/-! ## Volumes -/

structure FatGeometry where
  bytesPerSector : ℕ
  sectorsPerCluster : ℕ
  reservedSectors : ℕ
  numFats : ℕ
  rootDirEntries : ℕ
  sectorsPerFat : ℕ
  totalSectors : ℕ

namespace FatGeometry

variable (g : FatGeometry)

def rootStart : ℕ := g.reservedSectors + g.numFats * g.sectorsPerFat

/-- The directory takes whole sectors. -/
def rootSectors : ℕ := (g.rootDirEntries * 32 + (g.bytesPerSector - 1)) / g.bytesPerSector

def dataStart : ℕ := g.rootStart + g.rootSectors

def clusterCount : ℕ := (g.totalSectors - g.dataStart) / g.sectorsPerCluster

def clusterBytes : ℕ := g.sectorsPerCluster * g.bytesPerSector

/-- FAT12 below 4085 clusters, FAT16 from there on. -/
def entryWidth : ℕ := if g.clusterCount < 4085 then 12 else 16

def endMark : ℕ := if g.clusterCount < 4085 then 0xFF8 else 0xFFF8

def fatPos : ℕ := g.reservedSectors * g.bytesPerSector

def slotPos (slot : ℕ) : ℕ := g.rootStart * g.bytesPerSector + 32 * slot

/-- The first cluster of the data area has number 2. -/
def clusterPos (c : ℕ) : ℕ := g.dataStart * g.bytesPerSector + (c - 2) * g.clusterBytes

end FatGeometry

/-- Geometries of FAT12 and FAT16 volumes. -/
structure FatVolume extends FatGeometry where
  bytesPerSector_mem : bytesPerSector ∈ [512, 1024, 2048]
  sectorsPerCluster_pow : ∃ k, sectorsPerCluster = 2 ^ k
  numFats_mem : numFats = 1 ∨ numFats = 2
  rootDirEntries_pos : 0 < rootDirEntries
  sectorsPerFat_pos : 0 < sectorsPerFat
  data_fits : toFatGeometry.dataStart ≤ totalSectors
  /-- The table has an entry for every cluster. -/
  fat_fits : (toFatGeometry.clusterCount + 2) * toFatGeometry.entryWidth ≤
    8 * (sectorsPerFat * bytesPerSector)

/-- The disk has the volume at sector `lba`. -/
structure FatVolume.OnDisk (v : FatVolume) (disk : Disk) (lba : ℕ) : Prop where
  room : disk.headerOffset + lba * sectorSize + v.totalSectors * v.bytesPerSector ≤
    disk.data.length
  bytesPerSector : (wordAt (disk.bytesFrom lba) 0x0B).toNat = v.bytesPerSector
  sectorsPerCluster : (disk.bytesFrom lba 0x0D).toNat = v.sectorsPerCluster
  reservedSectors : (wordAt (disk.bytesFrom lba) 0x0E).toNat = v.reservedSectors
  numFats : (disk.bytesFrom lba 0x10).toNat = v.numFats
  rootDirEntries : (wordAt (disk.bytesFrom lba) 0x11).toNat = v.rootDirEntries
  sectorsPerFat : (wordAt (disk.bytesFrom lba) 0x16).toNat = v.sectorsPerFat
  /-- The number of sectors is a word at 13h, or that word is zero and the number
  is a double word at 20h. -/
  totalSectors :
    (wordAt (disk.bytesFrom lba) 0x13).toNat = v.totalSectors ∨
      ((wordAt (disk.bytesFrom lba) 0x13).toNat = 0 ∧
        (wordAt (disk.bytesFrom lba) 0x20).toNat +
          65536 * (wordAt (disk.bytesFrom lba) 0x22).toNat = v.totalSectors)
  /-- An entry in use has no attribute above the six that exist. -/
  attributes : ∀ slot < v.rootDirEntries,
    disk.bytesFrom lba (v.slotPos slot) ≠ 0 → disk.bytesFrom lba (v.slotPos slot) ≠ 0xE5 →
      disk.bytesFrom lba (v.slotPos slot + 11) ≤ 0x3F

/-! ## Finding the volume -/

namespace FatVolume

variable (v : FatVolume)

def multiplier : ℕ := v.bytesPerSector / 512

theorem bytesPerSector_eq : v.bytesPerSector = v.multiplier * sectorSize := by
  have hmem := v.bytesPerSector_mem
  unfold multiplier sectorSize
  simp only [List.mem_cons, List.not_mem_nil, or_false] at hmem
  omega

theorem multiplier_pos : 0 < v.multiplier := by
  have hmem := v.bytesPerSector_mem
  unfold multiplier
  simp only [List.mem_cons, List.not_mem_nil, or_false] at hmem
  omega

theorem bytes_eq (n : ℕ) : n * v.bytesPerSector = n * v.multiplier * sectorSize := by
  rw [v.bytesPerSector_eq, Nat.mul_assoc]

theorem sectorsPerCluster_pos : 0 < v.sectorsPerCluster := by
  obtain ⟨k, hk⟩ := v.sectorsPerCluster_pow
  rw [hk]
  exact Nat.two_pow_pos k

theorem rootSectors_pos : 0 < v.rootSectors := by
  have hentries := v.rootDirEntries_pos
  have hmem := v.bytesPerSector_mem
  simp only [List.mem_cons, List.not_mem_nil, or_false] at hmem
  apply Nat.div_pos <;> omega

theorem sectors_fit {n : ℕ} (hn : n ≤ v.totalSectors) :
    n * v.multiplier * sectorSize ≤ v.totalSectors * v.bytesPerSector := by
  rw [← v.bytes_eq]
  exact Nat.mul_le_mul_right _ hn

theorem root_fits :
    (v.rootStart * v.multiplier + 1) * sectorSize ≤ v.totalSectors * v.bytesPerSector := by
  have hfits := v.data_fits
  have hroot := v.rootSectors_pos
  unfold FatGeometry.dataStart at hfits
  calc (v.rootStart * v.multiplier + 1) * sectorSize
      ≤ (v.rootStart * v.multiplier + v.multiplier) * sectorSize :=
        Nat.mul_le_mul_right _ (Nat.add_le_add_left v.multiplier_pos _)
    _ = (v.rootStart + 1) * v.multiplier * sectorSize := by rw [Nat.add_mul v.rootStart, Nat.one_mul]
    _ ≤ v.totalSectors * v.bytesPerSector := v.sectors_fit (by omega)

/-- The file system that the volume at `lba` has to be found as. -/
def fileSystem (lba : ℕ) : FatFileSystem where
  partitionLba := lba
  bytesPerSector := v.bytesPerSector
  sectorsPerCluster := v.sectorsPerCluster
  reservedSectors := v.reservedSectors
  numFats := v.numFats
  rootDirEntries := v.rootDirEntries
  sectorsPerFat := v.sectorsPerFat
  fatLba := lba + v.reservedSectors * v.multiplier
  rootDirLba := lba + v.rootStart * v.multiplier
  dataLba := lba + v.rootStart * v.multiplier + v.rootSectors * v.multiplier
  isFat12 := v.clusterCount < 4085
  bytesPerSector_mem := v.bytesPerSector_mem
  sectorsPerCluster_pos := v.sectorsPerCluster_pos

end FatVolume

theorem isPowerOfTwo_of_eq_pow {spc : U8} {k : ℕ} (hspc : spc.toNat = 2 ^ k) :
    FatFileSystem.isPowerOfTwo spc = true := by
  have hlt : 2 ^ k < 2 ^ 8 := hspc ▸ spc.isLt
  have hk : k < 8 := (Nat.pow_lt_pow_iff_right (by omega)).mp hlt
  have heq : spc = BitVec.ofNat 8 (2 ^ k) := by
    apply BitVec.eq_of_toNat_eq
    rw [hspc, BitVec.toNat_ofNat, Nat.mod_eq_of_lt hlt]
  rw [heq]
  interval_cases k <;> rfl

namespace FatVolume.OnDisk

variable {v : FatVolume} {disk : Disk} {lba : ℕ} (hv : v.OnDisk disk lba)
include hv

theorem readSectors_eq {first count : ℕ}
    (hfit : (first + count) * sectorSize ≤ v.totalSectors * v.bytesPerSector) :
    disk.readSectors (lba + first) count =
      .ok (region (disk.bytesFrom lba) (first * sectorSize) (count * sectorSize)) := by
  have hroom := hv.room
  rw [Nat.add_mul] at hfit
  rw [readSectors_region (by rw [Nat.add_mul]; omega)]
  unfold region
  simp only [bytesFrom_add, Nat.zero_add]

theorem bpb_spec :
    let bpb := FatFileSystem.Bpb.ofSector (region (disk.bytesFrom lba) 0 sectorSize)
    bpb.bps = v.bytesPerSector ∧ bpb.spc.toNat = v.sectorsPerCluster ∧
      bpb.res = v.reservedSectors ∧ bpb.numFats = v.numFats ∧
      bpb.rootEnt = v.rootDirEntries ∧ bpb.spf = v.sectorsPerFat ∧
      bpb.totalSectors = v.totalSectors := by
  have hword : ∀ i < 511, FatFileSystem.le16 (region (disk.bytesFrom lba) 0 sectorSize) i =
      (wordAt (disk.bytesFrom lba) i).toNat := by
    intro i hi
    rw [le16_region (by unfold sectorSize; omega), Nat.zero_add]
  have hbyte : ∀ i < 512, byteAt (region (disk.bytesFrom lba) 0 sectorSize) i =
      disk.bytesFrom lba i := by
    intro i hi
    rw [byteAt_region (by unfold sectorSize; omega), Nat.zero_add]
  have htotal : (FatFileSystem.Bpb.ofSector
      (region (disk.bytesFrom lba) 0 sectorSize)).totalSectors = v.totalSectors := by
    have hpos : v.totalSectors ≠ 0 := by
      have hfits := v.data_fits
      have hroot := v.rootSectors_pos
      unfold FatGeometry.dataStart at hfits
      omega
    simp only [FatFileSystem.Bpb.totalSectors, FatFileSystem.Bpb.ofSector, FatFileSystem.le32,
      hword 0x13 (by omega), hword 0x20 (by omega), hword (0x20 + 2) (by omega)]
    rcases hv.totalSectors with hsmall | ⟨hzero, hlarge⟩
    · rw [hsmall, if_pos hpos]
    · rw [hzero, if_neg (by omega), hlarge]
  simp only [htotal, and_true]
  simp only [FatFileSystem.Bpb.ofSector, hword 0x0B (by omega), hbyte 0x0D (by omega),
    hword 0x0E (by omega), hbyte 0x10 (by omega), hword 0x11 (by omega), hword 0x16 (by omega)]
  exact ⟨hv.bytesPerSector, hv.sectorsPerCluster, hv.reservedSectors, hv.numFats,
    hv.rootDirEntries, hv.sectorsPerFat⟩

theorem ofBpb_eq
    (hcredible : (FatFileSystem.Bpb.ofSector (region (disk.bytesFrom lba) 0 sectorSize)).credible) :
    FatFileSystem.ofBpb _ hcredible lba = v.fileSystem lba := by
  obtain ⟨hbps, hspc, hres, hfats, hroot, hspf, htotal⟩ := hv.bpb_spec
  have hstart : (FatFileSystem.Bpb.ofSector
      (region (disk.bytesFrom lba) 0 sectorSize)).logicalRootStart = v.rootStart := by
    simp only [FatFileSystem.Bpb.logicalRootStart, hres, hfats, hspf, FatGeometry.rootStart]
  have hmult : (FatFileSystem.Bpb.ofSector
      (region (disk.bytesFrom lba) 0 sectorSize)).physicalMultiplier = v.multiplier := by
    simp only [FatFileSystem.Bpb.physicalMultiplier, hbps, FatVolume.multiplier]
  have hdir : (FatFileSystem.Bpb.ofSector
      (region (disk.bytesFrom lba) 0 sectorSize)).rootDirSectors = v.rootSectors := by
    simp only [FatFileSystem.Bpb.rootDirSectors, hbps, hroot, FatGeometry.rootSectors]
  have hcount : (FatFileSystem.Bpb.ofSector
      (region (disk.bytesFrom lba) 0 sectorSize)).clusters = v.clusterCount := by
    simp only [FatFileSystem.Bpb.clusters, htotal, hstart, hdir, hspc, FatGeometry.clusterCount,
      FatGeometry.dataStart]
  simp only [FatFileSystem.ofBpb, FatVolume.fileSystem, FatFileSystem.Bpb.rootLbaPhys, hbps, hspc,
    hres, hfats, hroot, hspf, hstart, hmult, hdir, hcount]

theorem credible : (FatFileSystem.Bpb.ofSector
    (region (disk.bytesFrom lba) 0 sectorSize)).credible := by
  obtain ⟨hbps, hspc, -, hfats, hroot, hspf, -⟩ := hv.bpb_spec
  obtain ⟨k, hk⟩ := v.sectorsPerCluster_pow
  have hnum := v.numFats_mem
  refine ⟨hbps ▸ v.bytesPerSector_mem, ⟨?_, isPowerOfTwo_of_eq_pow (hspc.trans hk)⟩, ⟨?_, ?_⟩, ?_, ?_⟩
  · intro hzero
    rw [hzero] at hspc
    exact v.sectorsPerCluster_pos.ne hspc
  · rw [hfats]
    omega
  · rw [hfats]
    omega
  · rw [hroot]
    exact v.rootDirEntries_pos.ne'
  · rw [hspf]
    exact v.sectorsPerFat_pos.ne'

theorem readBootSector :
    disk.readSectors lba 1 = .ok (region (disk.bytesFrom lba) 0 sectorSize) := by
  have hfit := v.root_fits
  rw [Nat.add_mul, Nat.one_mul] at hfit
  have hread := hv.readSectors_eq (show (0 + 1) * sectorSize ≤ _ by omega)
  rw [Nat.add_zero, Nat.zero_mul, Nat.one_mul] at hread
  exact hread

theorem readRootSector :
    disk.readSectors (lba + v.rootStart * v.multiplier) 1 =
      .ok (region (disk.bytesFrom lba) (v.slotPos 0) sectorSize) := by
  rw [hv.readSectors_eq v.root_fits, ← v.bytes_eq, Nat.one_mul]
  rfl

theorem rootCredible :
    FatFileSystem.rootCredible (region (disk.bytesFrom lba) (v.slotPos 0) sectorSize) := by
  unfold FatFileSystem.rootCredible
  rw [byteAt_region (by decide), byteAt_region (by decide), Nat.add_zero]
  rintro ⟨hattr, hused, hdeleted⟩
  have hle := hv.attributes 0 v.rootDirEntries_pos hused hdeleted
  bv_omega

theorem probe_eq : FatFileSystem.probe disk lba = some (v.fileSystem lba) := by
  have hrootLba : (FatFileSystem.Bpb.ofSector
      (region (disk.bytesFrom lba) 0 sectorSize)).rootLbaPhys lba =
        lba + v.rootStart * v.multiplier :=
    congrArg FatFileSystem.rootDirLba (hv.ofBpb_eq hv.credible)
  unfold FatFileSystem.probe
  rw [hv.readBootSector]
  simp only [dif_pos hv.credible, hrootLba, hv.readRootSector, if_pos hv.rootCredible,
    hv.ofBpb_eq hv.credible]

/-- The scan stops at the volume when no sector in front of it is taken for one. -/
theorem detect_eq (hlba : lba < 2048)
    (hfirst : ∀ sector < lba, FatFileSystem.probe disk sector = none) :
    FatFileSystem.detect disk = .ok (v.fileSystem lba) := by
  have hfind : (List.range 2048).findSome? (FatFileSystem.probe disk) = some (v.fileSystem lba) := by
    rw [List.findSome?_eq_some_iff]
    refine ⟨List.range lba, lba, (List.range (2048 - lba - 1)).map (lba + 1 + ·), ?_, hv.probe_eq, ?_⟩
    · have hsplit : 2048 = lba + 1 + (2048 - lba - 1) := by omega
      conv_lhs => rw [hsplit]
      rw [List.range_add, List.range_succ, List.append_assoc]
      rfl
    · intro sector hmem
      exact hfirst sector (List.mem_range.mp hmem)
  unfold FatFileSystem.detect
  rw [hfind]

end FatVolume.OnDisk

/-! ## Files in the root directory -/

/-- Printable, not a blank, not a lower-case letter. -/
def UpperAscii (b : U8) : Prop := 0x21 ≤ b ∧ b ≤ 0x7E ∧ ¬ (0x61 ≤ b ∧ b ≤ 0x7A)

instance (b : U8) : Decidable (UpperAscii b) := by
  unfold UpperAscii
  infer_instance

def asciiText (bytes : List U8) : Text := bytes.map fun b => Char.ofNat b.toNat

/-- A name in its field, filled up with blanks. -/
def padded (width : ℕ) (name : List U8) : List U8 :=
  name ++ List.replicate (width - name.length) 0x20

/-- A file with an 8.3 name and the clusters of its chain. -/
structure RootFile where
  name : List U8
  ext : List U8
  attr : U8
  size : U32
  chain : List U16
  name_ne_nil : name ≠ []
  name_length : name.length ≤ 8
  ext_length : ext.length ≤ 3
  name_upper : ∀ b ∈ name, UpperAscii b
  ext_upper : ∀ b ∈ ext, UpperAscii b
  attr_file : attr &&& 0x08 = 0
  chain_nodup : chain.Nodup

namespace RootFile

/-- What a listing of the directory has to show; a file without clusters has
first cluster 0. -/
def entry (file : RootFile) : DirEntry where
  name := asciiText file.name
  ext := asciiText file.ext
  attr := file.attr
  firstCluster := file.chain.headD 0
  size := file.size

/-- The file has entry `slot` of the directory, with no end mark in front. -/
structure ListedAt (file : RootFile) (v : FatVolume) (disk : Disk) (lba slot : ℕ) : Prop where
  slot_lt : slot < v.rootDirEntries
  before : ∀ i < slot, disk.bytesFrom lba (v.slotPos i) ≠ 0
  name : region (disk.bytesFrom lba) (v.slotPos slot) 8 = padded 8 file.name
  ext : region (disk.bytesFrom lba) (v.slotPos slot + 8) 3 = padded 3 file.ext
  attr : disk.bytesFrom lba (v.slotPos slot + 11) = file.attr
  firstCluster : wordAt (disk.bytesFrom lba) (v.slotPos slot + 26) = file.chain.headD 0
  size : (wordAt (disk.bytesFrom lba) (v.slotPos slot + 28)).toNat +
    65536 * (wordAt (disk.bytesFrom lba) (v.slotPos slot + 30)).toNat = file.size.toNat

end RootFile

theorem dropWhile_blanks (n : ℕ) (s : Text) :
    (List.replicate n ' ' ++ s).dropWhile isSpace = s.dropWhile isSpace := by
  induction n with
  | zero => rfl
  | succ n ih =>
      rw [List.replicate_succ, List.cons_append]
      exact ih

theorem dropWhile_of_no_blank {s : Text} (hs : ∀ c ∈ s, isSpace c = false) :
    s.dropWhile isSpace = s := by
  cases s with
  | nil => rfl
  | cons c s =>
      have hc := hs c List.mem_cons_self
      rw [List.dropWhile_cons_of_neg (by simp [hc])]

theorem trim_blanks {s : Text} (hs : ∀ c ∈ s, isSpace c = false) (n : ℕ) :
    trim (s ++ List.replicate n ' ') = s := by
  have hreverse : ∀ c ∈ s.reverse, isSpace c = false := fun c hc => hs c (List.mem_reverse.mp hc)
  have hback : (List.replicate n ' ' ++ s.reverse).dropWhile isSpace = s.reverse := by
    rw [dropWhile_blanks, dropWhile_of_no_blank hreverse]
  unfold trim
  cases s with
  | nil =>
      have hfront := dropWhile_blanks n []
      rw [List.append_nil] at hfront
      rw [List.nil_append, hfront]
      rfl
  | cons c s =>
      have hc := hs c List.mem_cons_self
      rw [List.cons_append, List.dropWhile_cons_of_neg (by simp [hc]), ← List.cons_append,
        List.reverse_append, List.reverse_replicate, hback, List.reverse_reverse]

theorem isSpace_of_upperAscii : ∀ b : U8, UpperAscii b → isSpace (Char.ofNat b.toNat) = false := by
  decide +kernel

theorem fromUtf8Local_padded {name : List U8} (hname : ∀ b ∈ name, UpperAscii b) (width : ℕ) :
    fromUtf8Local (padded width name) = asciiText name := by
  have hchars : ∀ c ∈ asciiText name, isSpace c = false := by
    intro c hc
    obtain ⟨b, hb, rfl⟩ := List.mem_map.mp hc
    exact isSpace_of_upperAscii b (hname b hb)
  have htext : name.map (fun b => if 32 ≤ b ∧ b ≤ 126 then Char.ofNat b.toNat else ' ') =
      asciiText name := by
    apply List.map_congr_left
    intro b hb
    obtain ⟨hlow, hhigh, -⟩ := hname b hb
    have hprintable : 32 ≤ b ∧ b ≤ 126 := by bv_omega
    rw [if_pos hprintable]
  unfold fromUtf8Local padded
  rw [List.map_append, htext, List.map_replicate]
  exact trim_blanks hchars _

theorem mem_listEntries
    {data : List U8} {slot n i : ℕ} (hle : i ≤ slot) (hlt : slot < i + n)
    (hroom : (slot + 1) * 32 ≤ data.length)
    (hbefore : ∀ j < slot, byteAt (slice data (j * 32) 32) 0 ≠ 0)
    (hused : byteAt (slice data (slot * 32) 32) 0 ≠ 0)
    (hkept : ¬ FatFileSystem.skipEntry (slice data (slot * 32) 32)) :
    FatFileSystem.parseEntry (slice data (slot * 32) 32) ∈
      FatFileSystem.listEntries data n i := by
  induction n generalizing i with
  | zero => omega
  | succ n ih =>
      have hin : ¬ i * 32 + 32 > data.length := by omega
      unfold FatFileSystem.listEntries
      simp only [if_neg hin]
      rcases Nat.eq_or_lt_of_le hle with rfl | hlater
      · rw [if_neg hused, if_neg hkept]
        exact List.mem_cons_self
      · have hrest := @ih (i + 1) hlater (by omega)
        rw [if_neg (hbefore i hlater)]
        split
        · exact hrest
        · exact List.mem_cons_of_mem _ hrest

namespace RootFile.ListedAt

variable {file : RootFile} {v : FatVolume} {disk : Disk} {lba slot : ℕ}
  (hfile : file.ListedAt v disk lba slot)
include hfile

theorem first_upper : UpperAscii (disk.bytesFrom lba (v.slotPos slot)) := by
  have hname := congrArg (byteAt · 0) hfile.name
  rw [byteAt_region (by omega), Nat.add_zero] at hname
  rw [hname]
  cases hlist : file.name with
  | nil => exact absurd hlist file.name_ne_nil
  | cons b rest =>
      apply file.name_upper
      rw [hlist]
      exact List.mem_cons_self

theorem first_ne_zero : disk.bytesFrom lba (v.slotPos slot) ≠ 0 := by
  obtain ⟨hlow, -, -⟩ := hfile.first_upper
  bv_omega

theorem parseEntry_eq :
    FatFileSystem.parseEntry (region (disk.bytesFrom lba) (v.slotPos slot) 32) = file.entry := by
  have hsize : BitVec.ofNat 32
      (FatFileSystem.le32 (region (disk.bytesFrom lba) (v.slotPos slot) 32) 28) = file.size := by
    unfold FatFileSystem.le32
    rw [le16_region (by omega), le16_region (by omega), hfile.size]
    exact BitVec.ofNat_toNat 32 file.size
  unfold FatFileSystem.parseEntry RootFile.entry
  rw [slice_region (by omega), slice_region (by omega), Nat.add_zero, hfile.name, hfile.ext,
    fromUtf8Local_padded file.name_upper, fromUtf8Local_padded file.ext_upper, hsize,
    byteAt_region (by omega), byteAt_region (by omega), byteAt_region (by omega), hfile.attr,
    ← hfile.firstCluster]
  rfl

theorem not_skipped :
    ¬ FatFileSystem.skipEntry (region (disk.bytesFrom lba) (v.slotPos slot) 32) := by
  unfold FatFileSystem.skipEntry
  rw [hfile.parseEntry_eq, byteAt_region (by omega), byteAt_region (by omega), Nat.add_zero,
    hfile.attr, file.attr_file]
  rintro (hdeleted | hlabel | hempty)
  · obtain ⟨-, hhigh, -⟩ := hfile.first_upper
    rw [hdeleted] at hhigh
    exact absurd hhigh (by decide)
  · exact hlabel rfl
  · apply file.name_ne_nil
    simpa [RootFile.entry, asciiText] using hempty

end RootFile.ListedAt

theorem FatVolume.rootBytes_le (v : FatVolume) :
    v.rootDirEntries * 32 ≤ v.rootSectors * v.multiplier * sectorSize := by
  rw [← v.bytes_eq]
  have hmem := v.bytesPerSector_mem
  unfold FatGeometry.rootSectors
  simp only [List.mem_cons, List.not_mem_nil, or_false] at hmem
  rcases hmem with h | h | h <;> rw [h] <;> omega

namespace FatVolume.OnDisk

variable {v : FatVolume} {disk : Disk} {lba : ℕ} (hv : v.OnDisk disk lba)
include hv

theorem listRootDir_eq :
    (v.fileSystem lba).listRootDir disk =
      .ok (FatFileSystem.listEntries
        (region (disk.bytesFrom lba) (v.slotPos 0)
          ((v.rootDirEntries * 32 + 511) / 512 * sectorSize)) v.rootDirEntries 0) := by
  have hbytes := v.rootBytes_le
  have hcount : (v.rootDirEntries * 32 + 511) / 512 ≤ v.rootSectors * v.multiplier := by
    unfold sectorSize at hbytes
    omega
  have hfit : (v.rootStart * v.multiplier + (v.rootDirEntries * 32 + 511) / 512) * sectorSize ≤
      v.totalSectors * v.bytesPerSector := by
    calc (v.rootStart * v.multiplier + (v.rootDirEntries * 32 + 511) / 512) * sectorSize
        ≤ (v.rootStart * v.multiplier + v.rootSectors * v.multiplier) * sectorSize :=
          Nat.mul_le_mul_right _ (Nat.add_le_add_left hcount _)
      _ = v.dataStart * v.multiplier * sectorSize := by
          rw [← Nat.add_mul v.rootStart]
          rfl
      _ ≤ v.totalSectors * v.bytesPerSector := v.sectors_fit v.data_fits
  have hread := hv.readSectors_eq hfit
  rw [← v.bytes_eq] at hread
  unfold FatFileSystem.listRootDir
  simp only [FatVolume.fileSystem, hread]
  rfl

theorem mem_listRootDir {file : RootFile} {slot : ℕ} (hfile : file.ListedAt v disk lba slot) :
    ∃ entries, (v.fileSystem lba).listRootDir disk = .ok entries ∧ file.entry ∈ entries := by
  refine ⟨_, hv.listRootDir_eq, ?_⟩
  set len := (v.rootDirEntries * 32 + 511) / 512 * sectorSize with hlen
  have hlarge : v.rootDirEntries * 32 ≤ len := by
    unfold sectorSize at hlen
    omega
  have hraw : ∀ i < v.rootDirEntries,
      slice (region (disk.bytesFrom lba) (v.slotPos 0) len) (i * 32) 32 =
        region (disk.bytesFrom lba) (v.slotPos i) 32 := by
    intro i hi
    rw [slice_region (by omega)]
    have hpos : v.slotPos 0 + i * 32 = v.slotPos i := by
      unfold FatGeometry.slotPos
      omega
    rw [hpos]
  have hfirst : ∀ i < v.rootDirEntries,
      byteAt (slice (region (disk.bytesFrom lba) (v.slotPos 0) len) (i * 32) 32) 0 =
        disk.bytesFrom lba (v.slotPos i) := by
    intro i hi
    rw [hraw i hi, byteAt_region (by omega), Nat.add_zero]
  have hslot := hfile.slot_lt
  rw [← hfile.parseEntry_eq, ← hraw slot hslot]
  refine mem_listEntries (Nat.zero_le slot) (by omega) ?_ ?_ ?_ ?_
  · rw [region_length]
    omega
  · intro i hi
    rw [hfirst i (by omega)]
    exact hfile.before i hi
  · rw [hfirst slot hslot]
    exact hfile.first_ne_zero
  · rw [hraw slot hslot]
    exact hfile.not_skipped

end FatVolume.OnDisk

end Kita98
