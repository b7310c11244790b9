import Kita98.FatRoundTrip

/-!
# Whole root directories

A root directory is a list of slots: files, deleted entries, labels and entries
without a name, with an end mark behind them unless they fill it.  The listing
shows the files, each with its own entry, in the order of their slots.
-/

namespace Kita98

open WordBits Disk PackedTable

inductive RootSlot where
  | file (file : RootFile)
  | deleted
  /-- A volume label, or a part of a long name. -/
  | label
  | nameless

/-- A character of a name that is shown; any other byte counts as a blank. -/
def Shown (b : U8) : Prop := 0x21 ≤ b ∧ b ≤ 0x7E

instance (b : U8) : Decidable (Shown b) := by
  unfold Shown
  infer_instance

namespace RootSlot

def entry : RootSlot → Option DirEntry
  | .file f => some f.entry
  | _ => none

theorem eq_file_of_entry
    {slot : RootSlot} {e : DirEntry} (hentry : slot.entry = some e) :
    ∃ f, slot = .file f ∧ f.entry = e := by
  cases slot with
  | file f => exact ⟨f, rfl, Option.some.inj hentry⟩
  | deleted => cases hentry
  | label => cases hentry
  | nameless => cases hentry

/-- What the slot holds on the disk. -/
inductive At (v : FatVolume) (disk : Disk) (lba i : ℕ) : RootSlot → Prop
  | file {file : RootFile}
      (hname : region (disk.bytesFrom lba) (v.slotPos i) 8 = padded 8 file.name)
      (hext : region (disk.bytesFrom lba) (v.slotPos i + 8) 3 = padded 3 file.ext)
      (hattr : disk.bytesFrom lba (v.slotPos i + 11) = file.attr)
      (hcluster : wordAt (disk.bytesFrom lba) (v.slotPos i + 26) = file.chain.headD 0)
      (hsize : (wordAt (disk.bytesFrom lba) (v.slotPos i + 28)).toNat +
        65536 * (wordAt (disk.bytesFrom lba) (v.slotPos i + 30)).toNat = file.size.toNat) :
      At v disk lba i (.file file)
  | deleted (hmark : disk.bytesFrom lba (v.slotPos i) = 0xE5) : At v disk lba i .deleted
  | label (hused : disk.bytesFrom lba (v.slotPos i) ≠ 0)
      (hattr : disk.bytesFrom lba (v.slotPos i + 11) &&& 0x08 ≠ 0) : At v disk lba i .label
  | nameless (hused : disk.bytesFrom lba (v.slotPos i) ≠ 0)
      (hname : ∀ k < 8, ¬ Shown (disk.bytesFrom lba (v.slotPos i + k))) :
      At v disk lba i .nameless

end RootSlot

/-- The slots are those of the root directory of the volume. -/
structure RootDirectory (slots : List RootSlot) (v : FatVolume) (disk : Disk) (lba : ℕ) :
    Prop where
  fits : slots.length ≤ v.rootDirEntries
  slot : ∀ i (hi : i < slots.length), slots[i].At v disk lba i
  ended : slots.length < v.rootDirEntries → disk.bytesFrom lba (v.slotPos slots.length) = 0

/-! ## The slots in the sectors that are read -/

section Sectors

variable (v : FatVolume) (disk : Disk) (lba : ℕ)

/-- The sectors of the directory. -/
def rootData : List U8 :=
  region (disk.bytesFrom lba) (v.slotPos 0) ((v.rootDirEntries * 32 + 511) / 512 * sectorSize)

theorem rootData_length : v.rootDirEntries * 32 ≤ (rootData v disk lba).length := by
  rw [rootData, region_length]
  unfold sectorSize
  omega

theorem slice_rootData {i : ℕ} (hi : i < v.rootDirEntries) :
    slice (rootData v disk lba) (i * 32) 32 = region (disk.bytesFrom lba) (v.slotPos i) 32 := by
  have hroom := rootData_length v disk lba
  rw [rootData, region_length] at hroom
  have hpos : v.slotPos 0 + i * 32 = v.slotPos i := by
    unfold FatGeometry.slotPos
    omega
  rw [rootData, slice_region (by omega), hpos]

theorem listEntries_rootData (n i : ℕ) (hi : i + (n + 1) = v.rootDirEntries) :
    FatFileSystem.listEntries (rootData v disk lba) (n + 1) i =
      let raw := region (disk.bytesFrom lba) (v.slotPos i) 32
      if disk.bytesFrom lba (v.slotPos i) = 0 then []
      else if FatFileSystem.skipEntry raw then
        FatFileSystem.listEntries (rootData v disk lba) n (i + 1)
      else
        FatFileSystem.parseEntry raw ::
          FatFileSystem.listEntries (rootData v disk lba) n (i + 1) := by
  have hroom := rootData_length v disk lba
  have hinside : ¬ i * 32 + 32 > (rootData v disk lba).length := by omega
  rw [FatFileSystem.listEntries]
  simp only [if_neg hinside]
  rw [slice_rootData v disk lba (by omega), byteAt_region (by omega), Nat.add_zero]

end Sectors

/-! ## Slot by slot -/

theorem blank_of_not_shown : ∀ b : U8, ¬ Shown b →
    (if 32 ≤ b ∧ b ≤ 126 then Char.ofNat b.toNat else ' ') = ' ' := by
  decide +kernel

theorem fromUtf8Local_of_not_shown {bytes : List U8} (hbytes : ∀ b ∈ bytes, ¬ Shown b) :
    fromUtf8Local bytes = [] := by
  have hblanks : bytes.map (fun b => if 32 ≤ b ∧ b ≤ 126 then Char.ofNat b.toNat else ' ') =
      List.replicate bytes.length ' ' :=
    List.map_eq_replicate_iff.mpr fun b hb => blank_of_not_shown b (hbytes b hb)
  unfold fromUtf8Local
  rw [hblanks]
  exact trim_blanks (s := []) (fun _ hc => absurd hc List.not_mem_nil) bytes.length

section Slots

variable {v : FatVolume} {disk : Disk} {lba : ℕ}

namespace RootSlot.At

variable {slot : RootSlot} {i : ℕ}

theorem used (hslot : slot.At v disk lba i) : disk.bytesFrom lba (v.slotPos i) ≠ 0 := by
  cases hslot with
  | @file file hname hext hattr hcluster hsize =>
      have hfirst := congrArg (byteAt · 0) hname
      rw [byteAt_region (by omega), Nat.add_zero] at hfirst
      rw [hfirst]
      cases hlist : file.name with
      | nil => exact absurd hlist file.name_ne_nil
      | cons b rest =>
          have hupper : UpperAscii b := by
            apply file.name_upper
            rw [hlist]
            exact List.mem_cons_self
          have hbyte : byteAt (padded 8 (b :: rest)) 0 = b := rfl
          rw [hbyte]
          have hlow := hupper.1
          bv_omega
  | deleted hmark =>
      rw [hmark]
      decide
  | label hused hattr => exact hused
  | nameless hused hname => exact hused

/-- A slot without an entry is passed over. -/
theorem skipped (hslot : slot.At v disk lba i) (hnone : slot.entry = none) :
    FatFileSystem.skipEntry (region (disk.bytesFrom lba) (v.slotPos i) 32) := by
  unfold FatFileSystem.skipEntry
  rw [byteAt_region (by omega), byteAt_region (by omega), Nat.add_zero]
  cases hslot with
  | file hname hext hattr hcluster hsize => cases hnone
  | deleted hmark => exact .inl hmark
  | label hused hattr => exact .inr (.inl hattr)
  | nameless hused hname =>
      have hfield : ∀ b ∈ region (disk.bytesFrom lba) (v.slotPos i) 8, ¬ Shown b := by
        intro b hb
        obtain ⟨k, hk, rfl⟩ := List.mem_map.mp hb
        exact hname k (List.mem_range.mp hk)
      have hempty : (FatFileSystem.parseEntry
          (region (disk.bytesFrom lba) (v.slotPos i) 32)).name = [] := by
        unfold FatFileSystem.parseEntry
        rw [slice_region (by omega), Nat.add_zero]
        exact fromUtf8Local_of_not_shown hfield
      exact .inr (.inr (by rw [hempty]; rfl))

end RootSlot.At

theorem RootDirectory.listedAt {slots : List RootSlot}
    (hdir : RootDirectory slots v disk lba) {i : ℕ} {file : RootFile} (hi : i < slots.length)
    (hslot : slots[i] = .file file) : file.ListedAt v disk lba i := by
  have hbefore : ∀ j < i, disk.bytesFrom lba (v.slotPos j) ≠ 0 :=
    fun j hj => (hdir.slot j (hj.trans hi)).used
  have hlast := hdir.slot i hi
  rw [hslot] at hlast
  cases hlast with
  | file hname hext hattr hcluster hsize =>
      exact ⟨hi.trans_le hdir.fits, hbefore, hname, hext, hattr, hcluster, hsize⟩

/-- A slot adds its entry to the listing, and nothing when it has none. -/
theorem RootDirectory.listEntries_slot {slots : List RootSlot}
    (hdir : RootDirectory slots v disk lba) {n i : ℕ} (hi : i < slots.length)
    (hn : i + (n + 1) = v.rootDirEntries) :
    FatFileSystem.listEntries (rootData v disk lba) (n + 1) i =
      slots[i].entry.toList ++ FatFileSystem.listEntries (rootData v disk lba) n (i + 1) := by
  have hat := hdir.slot i hi
  rw [listEntries_rootData v disk lba n i hn]
  simp only [if_neg hat.used]
  cases hentry : slots[i].entry with
  | none =>
      rw [if_pos (hat.skipped hentry)]
      rfl
  | some e =>
      obtain ⟨file, hslot, rfl⟩ := RootSlot.eq_file_of_entry hentry
      have hlisted := hdir.listedAt hi hslot
      rw [if_neg hlisted.not_skipped, hlisted.parseEntry_eq]
      rfl

/-- By induction on the slots from `i` on. -/
theorem RootDirectory.listEntries_eq {slots : List RootSlot}
    (hdir : RootDirectory slots v disk lba) (n i : ℕ) (hi : i ≤ slots.length)
    (hn : i + n = v.rootDirEntries) :
    FatFileSystem.listEntries (rootData v disk lba) n i =
      (slots.drop i).filterMap RootSlot.entry := by
  induction n generalizing i with
  | zero =>
      have hfits := hdir.fits
      rw [List.drop_of_length_le (by omega)]
      rfl
  | succ n ih =>
      rcases Nat.eq_or_lt_of_le hi with rfl | hless
      · rw [listEntries_rootData v disk lba n _ hn, List.drop_length]
        simp only [if_pos (hdir.ended (by omega))]
        rfl
      · rw [hdir.listEntries_slot hless hn, ih (i + 1) hless (by omega),
          List.drop_eq_getElem_cons hless, List.filterMap_cons]
        cases slots[i].entry <;> rfl

end Slots

section Listing

variable {v : FatVolume} {disk : Disk} {lba : ℕ} {slots : List RootSlot}

theorem RootDirectory.listed (hdir : RootDirectory slots v disk lba) (hv : v.OnDisk disk lba) :
    (v.fileSystem lba).listRootDir disk = .ok (slots.filterMap RootSlot.entry) := by
  rw [hv.listRootDir_eq]
  exact congrArg Except.ok (hdir.listEntries_eq _ 0 (Nat.zero_le _) (Nat.zero_add _))

/-- The listing of a directory is the files of its slots. -/
theorem root_directory_listed
    (hv : v.OnDisk disk lba) (hdir : RootDirectory slots v disk lba) :
    (v.fileSystem lba).listRootDir disk = .ok (slots.filterMap RootSlot.entry) :=
  hdir.listed hv

end Listing

/-! ## A directory of six slots -/

/-- Four sectors, one cluster. -/
def programGeometry : FatGeometry :=
  { singleVolume.toFatGeometry with sectorsPerFat := 1, totalSectors := 4 }

theorem programGeometry_data : programGeometry.dataStart ≤ programGeometry.totalSectors := by
  decide

theorem programGeometry_fat :
    (programGeometry.clusterCount + 2) * programGeometry.entryWidth ≤
      8 * (programGeometry.sectorsPerFat * programGeometry.bytesPerSector) := by
  decide

def programVolume : FatVolume :=
  { singleVolume with
    toFatGeometry := programGeometry
    sectorsPerFat_pos := Nat.one_pos
    data_fits := programGeometry_data
    fat_fits := programGeometry_fat }

/-- An entry of the directory: name and extension, attribute, first cluster, size. -/
def slotBytes (name : List U8) (attr : U8) (cluster : U16) (size : U8) : List U8 :=
  padded 11 name ++ attr :: List.replicate 14 0 ++
    [lowByte cluster, highByte cluster, size, 0, 0, 0]

def sixSlots : List U8 :=
  slotBytes [0xE5] 0x20 2 1 ++ slotBytes [0x50, 0x43] 0x08 0 0 ++ slotBytes [0x41] 0x20 2 1 ++
    slotBytes [] 0x20 2 1 ++ slotBytes [0xE5] 0x20 2 1 ++ slotBytes [0x42] 0x01 0 0

def sixDisk : Disk where
  data := singleBoot.take 0x13 ++ [0x04, 0x00, 0xFE, 0x01] ++ List.replicate 1001 0 ++ sixSlots ++
    List.replicate 832 0
  headerOffset := 0
  totalSectors := 4
  cylinders := 1
  heads := 1
  sectorsPerTrack := 4

theorem emptyFile_name : ∀ b ∈ ([0x42] : List U8), UpperAscii b := by decide

/-- `B`, without a cluster. -/
def emptyFile : RootFile :=
  { singleFile 2 with
    name := [0x42]
    attr := 0x01
    size := 0
    chain := []
    name_ne_nil := List.cons_ne_nil 0x42 []
    name_length := (singleFile 2).name_length
    name_upper := emptyFile_name
    attr_file := rfl
    chain_nodup := List.nodup_nil }

def sixList : List RootSlot :=
  [.deleted, .label, .file (singleFile 2), .nameless, .deleted, .file emptyFile]

theorem sixDisk_onDisk : programVolume.OnDisk sixDisk 0 where
  room := by decide +kernel
  bytesPerSector := by decide +kernel
  sectorsPerCluster := by decide +kernel
  reservedSectors := by decide +kernel
  numFats := by decide +kernel
  rootDirEntries := by decide +kernel
  sectorsPerFat := by decide +kernel
  totalSectors := .inl (by decide +kernel)
  attributes := by decide +kernel

theorem sixDisk_directory : RootDirectory sixList programVolume sixDisk 0 := by
  constructor
  · decide
  · intro i hi
    have hsix : i < 6 := hi
    interval_cases i
    · exact .deleted (by decide +kernel)
    · exact .label (by decide +kernel) (by decide +kernel)
    · apply RootSlot.At.file <;> decide +kernel
    · exact .nameless (by decide +kernel) (by decide +kernel)
    · exact .deleted (by decide +kernel)
    · apply RootSlot.At.file <;> decide +kernel
  · intro _
    decide +kernel

theorem root_directory_listed_six :
    (programVolume.fileSystem 0).listRootDir sixDisk =
      .ok [(singleFile 2).entry, emptyFile.entry] :=
  root_directory_listed sixDisk_onDisk sixDisk_directory

end Kita98
