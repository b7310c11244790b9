import Kita98.FatVolume

/-!
# The file allocation table

An entry is taken from the sector in which it starts, with the next one for the
12-bit entries that straddle the end of it.
-/

namespace Kita98

open WordBits Disk PackedTable

/-! ## Entries of a table in the image -/

section Entries

variable {fs : FatFileSystem} {disk : Disk} {c value : U16}

/-- The word of the table at a byte that lies in the sectors read from there. -/
theorem word_of_sectors {lba offset count : ℕ} (hin : offset % 512 + 1 < count * sectorSize) :
    joinBytes
        (byteAt (region (disk.bytesFrom (lba + offset / 512)) 0 (count * sectorSize))
          (offset % 512))
        (byteAt (region (disk.bytesFrom (lba + offset / 512)) 0 (count * sectorSize))
          (offset % 512 + 1)) =
      wordAt (disk.bytesFrom lba) offset := by
  have hpos : offset / 512 * sectorSize + offset % 512 = offset := by
    unfold sectorSize
    omega
  unfold wordAt
  rw [byteAt_region (by omega), byteAt_region hin, bytesFrom_add, bytesFrom_add, Nat.zero_add,
    Nat.zero_add, ← Nat.add_assoc, hpos]

theorem readSectors_of_holds {lba count : ℕ} (hroom : disk.Holds lba count) :
    disk.readSectors lba count = .ok (region (disk.bytesFrom lba) 0 (count * sectorSize)) := by
  apply readSectors_region
  unfold Disk.Holds at hroom
  rw [Nat.add_mul] at hroom
  omega

theorem getNextCluster_entry12
    (hkind : fs.isFat12 = true) (hroom : disk.Holds (fs.fatLba + c.toNat * 3 / 2 / 512) 2)
    (hentry : EntryAt (disk.bytesFrom fs.fatLba) 12 c.toNat value)
    (hsmall : value.toNat < 2 ^ 12) :
    fs.getNextCluster disk c = .ok value := by
  unfold FatFileSystem.getNextCluster
  simp only [hkind, readSectors_of_holds hroom, Bool.not_true, Bool.false_eq_true, if_false]
  rw [word_of_sectors (by unfold sectorSize; omega)]
  rcases Nat.mod_two_eq_zero_or_one c.toNat with heven | hodd
  · rw [if_pos heven, wordAt_of_entry12_even hentry hsmall heven]
  · rw [if_neg (by omega), wordAt_of_entry12_odd hentry hsmall hodd]

theorem getNextCluster_entry16
    (hkind : fs.isFat12 = false) (hroom : disk.Holds (fs.fatLba + c.toNat * 2 / 512) 1)
    (hentry : EntryAt (disk.bytesFrom fs.fatLba) 16 c.toNat value) :
    fs.getNextCluster disk c = .ok value := by
  unfold FatFileSystem.getNextCluster
  simp only [hkind, readSectors_of_holds hroom, Bool.not_false, if_true]
  rw [word_of_sectors (by unfold sectorSize; omega), wordAt_of_entry16 hentry]

end Entries

/-! ## Packed tables -/

inductive FatValues where
  | fat12 (values : List (BitVec 12))
  | fat16 (values : List (BitVec 16))

namespace FatValues

def isFat12 : FatValues → Bool
  | fat12 _ => true
  | fat16 _ => false

/-- The table as it stands on the disk. -/
def bytes : FatValues → List U8
  | fat12 values => pack12 values
  | fat16 values => pack16 values

def entries : FatValues → List U16
  | fat12 values => values.map (BitVec.setWidth 16)
  | fat16 values => values

/-- The sectors that contain an entry, counted from the start of the table. -/
def sectorOf (c : ℕ) : FatValues → ℕ
  | fat12 _ => c * 3 / 2 / 512
  | fat16 _ => c * 2 / 512

def sectorCount : FatValues → ℕ
  | fat12 _ => 2
  | fat16 _ => 1

end FatValues

/-- The table stands at `fat_lba`, as far as the image goes. -/
def FatFileSystem.HasTable (fs : FatFileSystem) (disk : Disk) (table : List U8) : Prop :=
  ∀ i byte, table[i]? = some byte →
    disk.headerOffset + fs.fatLba * sectorSize + i < disk.data.length →
      disk.bytesFrom fs.fatLba i = byte

theorem getNextCluster_unpacks
    {fs : FatFileSystem} {disk : Disk} {fat : FatValues} {c value : U16}
    (hkind : fs.isFat12 = fat.isFat12) (htable : fs.HasTable disk fat.bytes)
    (hvalue : fat.entries[c.toNat]? = some value)
    (hroom : disk.Holds (fs.fatLba + fat.sectorOf c.toNat) fat.sectorCount) :
    fs.getNextCluster disk c = .ok value := by
  unfold Disk.Holds at hroom
  cases fat with
  | fat12 values =>
      simp only [FatValues.entries, List.getElem?_map, Option.map_eq_some_iff] at hvalue
      rcases hvalue with ⟨narrow, hnarrow, rfl⟩
      apply getNextCluster_entry12 hkind hroom
      · intro i hi
        rcases pack12_getLsbD values hnarrow hi with ⟨byte, hbyte, hbit⟩
        rw [htable _ _ hbyte, hbit]
        · simp
          omega
        · simp only [FatValues.sectorOf, FatValues.sectorCount, sectorSize] at *
          omega
      · have hlt := narrow.isLt
        rw [BitVec.toNat_setWidth]
        omega
  | fat16 values =>
      apply getNextCluster_entry16 hkind hroom
      intro i hi
      rcases pack16_getLsbD values hvalue hi with ⟨byte, hbyte, hbit⟩
      rw [htable _ _ hbyte, hbit]
      simp only [FatValues.sectorOf, FatValues.sectorCount, sectorSize] at *
      omega

/-- A file system on 512-byte sectors whose table starts with the image. -/
def tableFileSystem (isFat12 : Bool) : FatFileSystem where
  partitionLba := 0
  bytesPerSector := 512
  sectorsPerCluster := 1
  reservedSectors := 0
  numFats := 1
  rootDirEntries := 16
  sectorsPerFat := 2
  fatLba := 0
  rootDirLba := 2
  dataLba := 3
  isFat12 := isFat12
  bytesPerSector_mem := sectorSize_mem
  sectorsPerCluster_pos := by decide

def tableDisk (table : List U8) : Disk where
  data := table ++ List.replicate 1024 0
  headerOffset := 0
  totalSectors := 2
  cylinders := 1
  heads := 1
  sectorsPerTrack := 2

theorem tableDisk_hasTable (isFat12 : Bool) (table : List U8) :
    (tableFileSystem isFat12).HasTable (tableDisk table) table := by
  intro i byte hbyte _
  have hi : i < table.length := (List.getElem?_eq_some_iff.mp hbyte).1
  have hplace : (tableDisk table).headerOffset +
      (tableFileSystem isFat12).fatLba * sectorSize + i = i := by
    simp only [tableDisk, tableFileSystem, Nat.zero_mul, Nat.zero_add]
  rw [Disk.bytesFrom, hplace, byteAt, tableDisk, List.getD_eq_getElem?_getD,
    List.getElem?_append_left hi, hbyte]
  rfl

def countingTable : FatValues := .fat12 ((List.range 342).map (BitVec.ofNat 12))

/-- Entry 341 of a 12-bit table starts in the last byte of the first sector. -/
theorem getNextCluster_straddles :
    (tableFileSystem true).getNextCluster (tableDisk countingTable.bytes) 341 = .ok 341 := by
  have hroom : (tableDisk countingTable.bytes).Holds
      ((tableFileSystem true).fatLba + countingTable.sectorOf (341 : U16).toNat)
      countingTable.sectorCount := by
    simp [-List.reduceReplicate, Disk.Holds, tableDisk, tableFileSystem, countingTable, FatValues.sectorOf,
      FatValues.sectorCount, sectorSize]
  exact getNextCluster_unpacks rfl (tableDisk_hasTable true countingTable.bytes)
    (by simp [countingTable, FatValues.entries]) hroom

end Kita98
