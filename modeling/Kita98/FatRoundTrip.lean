import Kita98.FatTable
import Mathlib.Data.List.TakeWhile

/-!
# Reading back a file

The chain of a file runs through the FAT; its clusters, in the order of the
chain, hold the file.  The reading loop leaves the chain at the first cluster
it takes for an end mark.
-/

namespace Kita98

open WordBits Disk PackedTable

/-! ## Files cut off at a cluster -/

section Clusters

variable {α β : Type} {n : ℕ} {f : α → List β}

theorem flatMap_length (hlen : ∀ x, (f x).length = n) (l : List α) :
    (l.flatMap f).length = l.length * n := by
  induction l with
  | nil => simp
  | cons x l ih =>
      rw [List.flatMap_cons, List.length_append, hlen, ih, List.length_cons, Nat.succ_mul,
        Nat.add_comm]

/-- The blocks that the first `size` elements lie in. -/
def blocksFor (n size : ℕ) : ℕ := (size + n - 1) / n

theorem blocksFor_le_iff (hn : 0 < n) {size k : ℕ} : blocksFor n size ≤ k ↔ size ≤ k * n := by
  unfold blocksFor
  rw [← Nat.lt_succ_iff, Nat.div_lt_iff_lt_mul hn, Nat.succ_mul]
  omega

/-- Stopping at the first block without `p` is no loss exactly when no block
that is needed is without it. -/
theorem take_takeWhile_iff (hn : 0 < n) (hlen : ∀ x, (f x).length = n) (p : α → Bool)
    {l : List α} {size : ℕ} (hcovers : size ≤ l.length * n) :
    ((l.takeWhile p).flatMap f).take size = (l.flatMap f).take size ↔
      ∀ x ∈ l.take (blocksFor n size), p x = true := by
  constructor
  · intro heq
    have hsize := congrArg List.length heq
    rw [List.length_take, List.length_take, flatMap_length hlen, flatMap_length hlen] at hsize
    have hblocks : blocksFor n size ≤ (l.takeWhile p).length :=
      (blocksFor_le_iff hn).mpr (by omega)
    intro x hx
    rw [← List.takeWhile_append_dropWhile (p := p) (l := l),
      List.take_append_of_le_length hblocks] at hx
    exact List.mem_takeWhile_imp (List.mem_of_mem_take hx)
  · intro hall
    have hblocks : size ≤ (l.take (blocksFor n size)).length * n := by
      rw [List.length_take]
      rcases Nat.le_total (blocksFor n size) l.length with hle | hle
      · rw [Nat.min_eq_left hle]
        exact (blocksFor_le_iff hn).mp (Nat.le_refl _)
      · rw [Nat.min_eq_right hle]
        exact hcovers
    have hfront : ∀ rest : List α, ((l.take (blocksFor n size) ++ rest).flatMap f).take size =
        ((l.take (blocksFor n size)).flatMap f).take size := by
      intro rest
      rw [List.flatMap_append, List.take_append_of_le_length]
      rw [flatMap_length hlen]
      exact hblocks
    have hsplit : l = l.take (blocksFor n size) ++ l.drop (blocksFor n size) :=
      (List.take_append_drop _ l).symm
    calc ((l.takeWhile p).flatMap f).take size
        = ((l.take (blocksFor n size) ++
            (l.drop (blocksFor n size)).takeWhile p).flatMap f).take size := by
          conv_lhs => rw [hsplit, List.takeWhile_append_of_pos hall]
      _ = ((l.take (blocksFor n size)).flatMap f).take size := hfront _
      _ = (l.flatMap f).take size := by
          conv_rhs => rw [hsplit]
          rw [hfront]

end Clusters

/-! ## Files on a volume -/

def FatVolume.fatBytes (v : FatVolume) (disk : Disk) (lba pos : ℕ) : U8 :=
  disk.bytesFrom lba (v.fatPos + pos)

def FatVolume.clusterData (v : FatVolume) (disk : Disk) (lba : ℕ) (c : U16) : List U8 :=
  region (disk.bytesFrom lba) (v.clusterPos c.toNat) v.clusterBytes

/-- The chain of the file is in the FAT and covers the file. -/
structure RootFile.StoredOn (file : RootFile) (v : FatVolume) (disk : Disk) (lba : ℕ) : Prop where
  range : ∀ c ∈ file.chain, 2 ≤ c.toNat ∧ c.toNat ≤ v.clusterCount + 1
  links : file.chain.IsChain fun c next =>
    EntryAt (v.fatBytes disk lba) v.entryWidth c.toNat next
  last : ∀ c ∈ file.chain.getLast?, ∃ mark : U16,
    v.endMark ≤ mark.toNat ∧ mark.toNat < 2 ^ v.entryWidth ∧
      EntryAt (v.fatBytes disk lba) v.entryWidth c.toNat mark
  covers : file.size.toNat ≤ file.chain.length * v.clusterBytes

def RootFile.bytes (file : RootFile) (v : FatVolume) (disk : Disk) (lba : ℕ) : List U8 :=
  (file.chain.flatMap (v.clusterData disk lba)).take file.size.toNat

/-- `read_file` follows cluster numbers below this one. -/
def FatVolume.followLimit (v : FatVolume) : ℕ :=
  if v.clusterCount < 4085 then 0x0FF0 else 0xFFF0

namespace FatVolume

variable (v : FatVolume)

theorem followsCluster_iff (lba : ℕ) (c : U16) :
    (v.fileSystem lba).followsCluster c ↔ 2 ≤ c.toNat ∧ c.toNat < v.followLimit := by
  simp [FatFileSystem.followsCluster, fileSystem, followLimit]

theorem sectorsPerClusterPhys_eq (lba : ℕ) :
    (v.fileSystem lba).sectorsPerClusterPhys = v.sectorsPerCluster * v.multiplier := by
  have hbytes : v.sectorsPerCluster * v.bytesPerSector / 512 =
      v.sectorsPerCluster * v.multiplier * 512 / 512 := congrArg (· / 512) (v.bytes_eq _)
  rw [Nat.mul_div_cancel _ (by omega)] at hbytes
  exact hbytes

theorem clusterBytes_eq : v.clusterBytes = v.sectorsPerCluster * v.multiplier * sectorSize :=
  v.bytes_eq _

theorem clusterBytes_pos : 0 < v.clusterBytes := by
  rw [clusterBytes_eq]
  exact Nat.mul_pos (Nat.mul_pos v.sectorsPerCluster_pos v.multiplier_pos) (by decide)

theorem entry_fits {c : ℕ} (hc : c ≤ v.clusterCount + 1) :
    (c + 1) * v.entryWidth ≤ 8 * (v.sectorsPerFat * v.multiplier * sectorSize) := by
  calc (c + 1) * v.entryWidth ≤ (v.clusterCount + 2) * v.entryWidth :=
        Nat.mul_le_mul_right _ (by omega)
    _ ≤ 8 * (v.sectorsPerFat * v.bytesPerSector) := v.fat_fits
    _ = 8 * (v.sectorsPerFat * v.multiplier * sectorSize) := by rw [v.bytes_eq]

theorem fat_le_rootStart : v.reservedSectors + v.sectorsPerFat ≤ v.rootStart := by
  have hnum := v.numFats_mem
  unfold FatGeometry.rootStart
  rcases hnum with h | h <;> rw [h] <;> omega

end FatVolume

namespace FatVolume.OnDisk

variable {v : FatVolume} {disk : Disk} {lba : ℕ} (hv : v.OnDisk disk lba)
include hv

theorem fat_holds {offset count : ℕ} (hcount : count ≤ 2)
    (hoffset : offset < v.sectorsPerFat * v.multiplier * sectorSize) :
    disk.Holds ((v.fileSystem lba).fatLba + offset / 512) count := by
  have hsector : offset / 512 < v.sectorsPerFat * v.multiplier := by
    unfold sectorSize at hoffset
    omega
  have hroot : v.reservedSectors * v.multiplier + v.sectorsPerFat * v.multiplier ≤
      v.rootStart * v.multiplier := by
    rw [← Nat.add_mul]
    exact Nat.mul_le_mul_right _ v.fat_le_rootStart
  have hfit : (v.reservedSectors * v.multiplier + offset / 512 + count) * sectorSize ≤
      v.totalSectors * v.bytesPerSector :=
    (Nat.mul_le_mul_right _ (by omega)).trans v.root_fits
  have hread := hv.readSectors_eq hfit
  rw [← Nat.add_assoc] at hread
  exact holds_iff.mpr ⟨_, hread⟩

omit hv in
theorem fatBytes_eq : v.fatBytes disk lba = disk.bytesFrom (v.fileSystem lba).fatLba := by
  funext pos
  unfold fatBytes FatGeometry.fatPos
  rw [v.bytes_eq]
  exact (bytesFrom_add disk lba _ pos).symm

omit hv in
theorem cluster_fits {c : ℕ} (hlow : 2 ≤ c) (hhigh : c ≤ v.clusterCount + 1) :
    v.dataStart + (c - 2) * v.sectorsPerCluster + v.sectorsPerCluster ≤ v.totalSectors := by
  have hdata := v.data_fits
  have hcount : v.clusterCount * v.sectorsPerCluster ≤ v.totalSectors - v.dataStart :=
    Nat.div_mul_le_self _ _
  have hcluster : (c - 2) * v.sectorsPerCluster + v.sectorsPerCluster ≤
      v.clusterCount * v.sectorsPerCluster := by
    rw [← Nat.succ_mul]
    exact Nat.mul_le_mul_right _ (by omega)
  omega

theorem readCluster {c : U16} (hlow : 2 ≤ c.toNat) (hhigh : c.toNat ≤ v.clusterCount + 1) :
    disk.readSectors
        ((v.fileSystem lba).dataLba + (c.toNat - 2) * (v.fileSystem lba).sectorsPerClusterPhys)
        (v.fileSystem lba).sectorsPerClusterPhys =
      .ok (v.clusterData disk lba c) := by
  have hfirst : v.rootStart * v.multiplier + v.rootSectors * v.multiplier +
        (c.toNat - 2) * (v.sectorsPerCluster * v.multiplier) =
      (v.dataStart + (c.toNat - 2) * v.sectorsPerCluster) * v.multiplier := by
    unfold FatGeometry.dataStart
    ring
  have hfit : ((v.dataStart + (c.toNat - 2) * v.sectorsPerCluster) * v.multiplier +
      v.sectorsPerCluster * v.multiplier) * sectorSize ≤ v.totalSectors * v.bytesPerSector := by
    rw [← Nat.add_mul (_ + _)]
    exact v.sectors_fit (cluster_fits hlow hhigh)
  have hread := hv.readSectors_eq hfit
  have hstart : (v.dataStart + (c.toNat - 2) * v.sectorsPerCluster) * v.multiplier * sectorSize =
      v.clusterPos c.toNat := by
    rw [← v.bytes_eq, Nat.add_mul, Nat.mul_assoc]
    rfl
  rw [v.sectorsPerClusterPhys_eq]
  unfold clusterData
  rw [← hstart, v.clusterBytes_eq, ← hread, ← hfirst]
  unfold fileSystem
  simp only [Nat.add_assoc]

/-- Both kinds of table are unpacked as they are packed. -/
theorem getNextCluster_eq {c next : U16} (hc : c.toNat ≤ v.clusterCount + 1)
    (hnext : next.toNat ≤ v.clusterCount + 1)
    (hentry : EntryAt (v.fatBytes disk lba) v.entryWidth c.toNat next) :
    (v.fileSystem lba).getNextCluster disk c = .ok next := by
  have hfits := v.entry_fits hc
  unfold FatGeometry.entryWidth at hfits hentry
  rw [fatBytes_eq] at hentry
  by_cases hsmall : v.clusterCount < 4085
  · rw [if_pos hsmall] at hfits hentry
    have hkind : (v.fileSystem lba).isFat12 = true := decide_eq_true hsmall
    exact getNextCluster_entry12 hkind (hv.fat_holds (Nat.le_refl 2) (by omega)) hentry (by omega)
  · rw [if_neg hsmall] at hfits hentry
    have hkind : (v.fileSystem lba).isFat12 = false := decide_eq_false hsmall
    exact getNextCluster_entry16 hkind (hv.fat_holds (by decide) (by omega)) hentry

/-- The reading loop collects the clusters of a chain up to the first it does not
follow, cut off at the size. -/
theorem readLoop_eq {size fuel : ℕ} {c : U16} {rest : List U16} {data : List U8}
    (hrange : ∀ x ∈ c :: rest, 2 ≤ x.toNat ∧ x.toNat ≤ v.clusterCount + 1)
    (hlinks : (c :: rest).IsChain fun x next =>
      EntryAt (v.fatBytes disk lba) v.entryWidth x.toNat next)
    (hshort : data.length ≤ size) (hfuel : size ≤ fuel + data.length)
    (hcovers : size ≤ data.length + (c :: rest).length * v.clusterBytes) :
    (v.fileSystem lba).readLoop disk size (fuel + 1) c data =
      .ok ((data ++ ((c :: rest).takeWhile
        fun x => (v.fileSystem lba).followsCluster x).flatMap (v.clusterData disk lba)).take size) := by
  induction fuel using Nat.strong_induction_on generalizing c rest data with
  | h fuel ih =>
      obtain ⟨hlow, hhigh⟩ := hrange c List.mem_cons_self
      unfold FatFileSystem.readLoop
      by_cases hfollow : (v.fileSystem lba).followsCluster c
      · have hkeep : (c :: rest).takeWhile (fun x => decide ((v.fileSystem lba).followsCluster x)) =
            c :: rest.takeWhile fun x => decide ((v.fileSystem lba).followsCluster x) :=
          List.takeWhile_cons_of_pos (by simpa using hfollow)
        rw [if_pos hfollow, hkeep, List.flatMap_cons, ← List.append_assoc]
        simp only [hv.readCluster hlow hhigh]
        have hlength : (data ++ v.clusterData disk lba c).length = data.length + v.clusterBytes := by
          rw [List.length_append, clusterData, region_length]
        by_cases hdone : (data ++ v.clusterData disk lba c).length ≥ size
        · rw [if_pos hdone, List.take_append_of_le_length hdone]
        · rw [if_neg hdone]
          rw [hlength] at hdone
          cases rest with
          | nil =>
              rw [List.length_singleton, Nat.one_mul] at hcovers
              exact absurd hcovers hdone
          | cons next rest =>
              have hpos := v.clusterBytes_pos
              obtain ⟨fuel, rfl⟩ : ∃ smaller, fuel = smaller + 1 :=
                Nat.exists_eq_succ_of_ne_zero (by omega)
              have hnext := hrange next (List.mem_cons_of_mem _ List.mem_cons_self)
              obtain ⟨hlink, hlinks⟩ := List.isChain_cons_cons.mp hlinks
              rw [hv.getNextCluster_eq hhigh hnext.2 hlink]
              apply ih fuel (Nat.lt_succ_self fuel)
              · exact fun x hx => hrange x (List.mem_cons_of_mem _ hx)
              · exact hlinks
              · omega
              · omega
              · rw [List.length_cons, Nat.succ_mul] at hcovers
                omega
      · have hstop : (c :: rest).takeWhile
            (fun x => decide ((v.fileSystem lba).followsCluster x)) = [] :=
          List.takeWhile_cons_of_neg (by simpa using hfollow)
        rw [if_neg hfollow, hstop, List.flatMap_nil, List.append_nil, List.take_of_length_le hshort]

theorem readFile_eq {file : RootFile} (hfile : file.StoredOn v disk lba) :
    (v.fileSystem lba).readFile disk file.entry =
      .ok (((file.chain.takeWhile fun c => (v.fileSystem lba).followsCluster c).flatMap
        (v.clusterData disk lba)).take file.size.toNat) := by
  cases hchain : file.chain with
  | nil =>
      have hfirst : file.entry.firstCluster = 0 := by
        unfold RootFile.entry
        rw [hchain]
        rfl
      have hstop : ¬ (v.fileSystem lba).followsCluster 0 := fun hfollow => absurd hfollow.1 (by decide)
      unfold FatFileSystem.readFile FatFileSystem.readLoop
      rw [hfirst, if_neg hstop, List.takeWhile_nil, List.flatMap_nil, List.take_nil]
  | cons c rest =>
      have hfirst : file.entry.firstCluster = c := by
        unfold RootFile.entry
        rw [hchain]
        rfl
      unfold FatFileSystem.readFile
      rw [hfirst]
      apply hv.readLoop_eq
      · exact hchain ▸ hfile.range
      · exact hchain ▸ hfile.links
      · exact Nat.zero_le _
      · exact Nat.le_refl _
      · rw [List.length_nil, Nat.zero_add, ← hchain]
        exact hfile.covers

end FatVolume.OnDisk

/-! ## The round trip -/

/-- The volume is found, the directory shows the file, and reading it returns
`bytes`. -/
def RoundTrips (disk : Disk) (file : RootFile) (bytes : List U8) : Prop :=
  ∃ fs entries entry,
    FatFileSystem.detect disk = .ok fs ∧
    fs.listRootDir disk = .ok entries ∧
    entry ∈ entries ∧
    entry.name = asciiText file.name ∧
    entry.ext = asciiText file.ext ∧
    entry.firstCluster = file.chain.headD 0 ∧
    entry.size = file.size ∧
    fs.readFile disk entry = .ok bytes

def RootFile.needed (file : RootFile) (v : FatVolume) : List U16 :=
  file.chain.take (blocksFor v.clusterBytes file.size.toNat)

theorem readFile_bytes_iff
    {v : FatVolume} {disk : Disk} {lba : ℕ} {file : RootFile} (hv : v.OnDisk disk lba)
    (hfile : file.StoredOn v disk lba) :
    (v.fileSystem lba).readFile disk file.entry = .ok (file.bytes v disk lba) ↔
      ∀ c ∈ file.needed v, c.toNat < v.followLimit := by
  have hlen : ∀ c, (v.clusterData disk lba c).length = v.clusterBytes := by
    intro c
    rw [FatVolume.clusterData, region_length]
  rw [hv.readFile_eq hfile, Except.ok.injEq]
  unfold RootFile.bytes
  rw [take_takeWhile_iff v.clusterBytes_pos hlen _ hfile.covers]
  apply forall₂_congr
  intro c hc
  have hlow := (hfile.range c (List.mem_of_mem_take hc)).1
  rw [decide_eq_true_iff, v.followsCluster_iff, and_iff_right hlow]

/-- Where the volume is found and the file listed, only reading is left. -/
theorem roundTrips_iff_readFile
    {v : FatVolume} {disk : Disk} {lba slot : ℕ} {file : RootFile} {bytes : List U8}
    (hv : v.OnDisk disk lba) (hlba : lba < 2048)
    (hfirst : ∀ sector < lba, FatFileSystem.probe disk sector = none)
    (hlisted : file.ListedAt v disk lba slot) :
    RoundTrips disk file bytes ↔ (v.fileSystem lba).readFile disk file.entry = .ok bytes := by
  have hdetect := hv.detect_eq hlba hfirst
  constructor
  · rintro ⟨fs, entries, entry, hfs, -, -, -, -, hcluster, hsize, hread⟩
    cases hdetect.symm.trans hfs
    unfold FatFileSystem.readFile at hread
    rw [hcluster, hsize] at hread
    exact hread
  · intro hread
    obtain ⟨entries, hentries, hmem⟩ := hv.mem_listRootDir hlisted
    exact ⟨_, entries, file.entry, hdetect, hentries, hmem, rfl, rfl, rfl, rfl, hread⟩

/-- A file on the first volume of the disk is read back exactly when the clusters
it needs have numbers that `read_file` follows. -/
theorem roundTrips_iff
    {v : FatVolume} {disk : Disk} {lba slot : ℕ} {file : RootFile}
    (hv : v.OnDisk disk lba) (hlba : lba < 2048)
    (hfirst : ∀ sector < lba, FatFileSystem.probe disk sector = none)
    (hlisted : file.ListedAt v disk lba slot) (hstored : file.StoredOn v disk lba) :
    RoundTrips disk file (file.bytes v disk lba) ↔
      ∀ c ∈ file.needed v, c.toNat < v.followLimit := by
  rw [roundTrips_iff_readFile hv hlba hfirst hlisted]
  exact readFile_bytes_iff hv hstored

/-! ## A file of one cluster -/

/-- 4079 clusters of one sector: the last has number FF0h. -/
def singleVolume : FatVolume where
  bytesPerSector := 512
  sectorsPerCluster := 1
  reservedSectors := 1
  numFats := 1
  rootDirEntries := 16
  sectorsPerFat := 12
  totalSectors := 4093
  bytesPerSector_mem := sectorSize_mem
  sectorsPerCluster_pow := ⟨0, rfl⟩
  numFats_mem := .inl rfl
  rootDirEntries_pos := by decide
  sectorsPerFat_pos := by decide
  data_fits := by decide
  fat_fits := by decide

def singleBoot : List U8 :=
  List.replicate 11 0 ++ [0x00, 0x02, 0x01, 0x01, 0x00, 0x01, 0x10, 0x00, 0xFD, 0x0F, 0xF8, 0x0C]

def singleEntry (c : U16) : List U8 :=
  0x41 :: List.replicate 10 0x20 ++ 0x20 :: List.replicate 14 0 ++
    [lowByte c, highByte c, 1, 0, 0, 0]

/-- The parameter block, a FAT of end marks, and one entry in the directory. -/
def singleBytes (c : U16) (pos : ℕ) : U8 :=
  if pos < 512 then byteAt singleBoot pos
  else if pos < 6656 then 0xFF
  else byteAt (singleEntry c) (pos - 6656)

def singleDisk (c : U16) : Disk where
  data := region (singleBytes c) 0 (4093 * 512)
  headerOffset := 0
  totalSectors := 4093
  cylinders := 0
  heads := 0
  sectorsPerTrack := 0

def singleFile (c : U16) : RootFile where
  name := [0x41]
  ext := []
  attr := 0x20
  size := 1
  chain := [c]
  name_ne_nil := by decide
  name_length := by decide
  ext_length := by decide
  name_upper := by decide
  ext_upper := by decide
  attr_file := by decide
  chain_nodup := List.nodup_singleton c

theorem byteAt_of_length_le {data : List U8} {i : ℕ} (hi : data.length ≤ i) : byteAt data i = 0 := by
  simp [byteAt, hi]

theorem singleBytes_boot (c : U16) {pos : ℕ} (hpos : pos < 512) :
    singleBytes c pos = byteAt singleBoot pos := if_pos hpos

theorem singleBytes_fat (c : U16) {pos : ℕ} (hpos : pos < 6144) :
    singleBytes c (512 + pos) = 0xFF := by
  unfold singleBytes
  rw [if_neg (by omega), if_pos (by omega)]

theorem singleBytes_entry (c : U16) (i : ℕ) :
    singleBytes c (6656 + i) = byteAt (singleEntry c) i := by
  unfold singleBytes
  rw [if_neg (by omega), if_neg (by omega), Nat.add_sub_cancel_left]

theorem singleDisk_bytes (c : U16) : (singleDisk c).bytesFrom 0 = singleBytes c := by
  funext pos
  have hpos : (singleDisk c).bytesFrom 0 pos =
      byteAt (region (singleBytes c) 0 (4093 * 512)) pos := by
    unfold Disk.bytesFrom singleDisk
    rw [Nat.zero_mul, Nat.add_zero, Nat.zero_add]
  rw [hpos]
  rcases Nat.lt_or_ge pos (4093 * 512) with hin | hout
  · rw [byteAt_region hin, Nat.zero_add]
  · rw [byteAt_of_length_le (by rw [region_length]; exact hout)]
    obtain ⟨i, rfl⟩ := Nat.exists_eq_add_of_le (show 6656 ≤ pos by omega)
    rw [singleBytes_entry, byteAt_of_length_le]
    have hlen : (singleEntry c).length = 32 := rfl
    omega

theorem singleVolume_slotPos (slot : ℕ) : singleVolume.slotPos slot = 6656 + 32 * slot := rfl

theorem singleVolume_onDisk (c : U16) : singleVolume.OnDisk (singleDisk c) 0 := by
  have hword : ∀ k < 511, wordAt (singleBytes c) k =
      joinBytes (byteAt singleBoot k) (byteAt singleBoot (k + 1)) := by
    intro k hk
    unfold wordAt
    rw [singleBytes_boot c (by omega), singleBytes_boot c (by omega)]
  constructor
  case room =>
    unfold singleDisk
    rw [region_length]
    simp [singleVolume]
  all_goals rw [singleDisk_bytes]
  case bytesPerSector =>
    rw [hword _ (by omega)]
    decide
  case sectorsPerCluster =>
    rw [singleBytes_boot c (by omega)]
    decide
  case reservedSectors =>
    rw [hword _ (by omega)]
    decide
  case numFats =>
    rw [singleBytes_boot c (by omega)]
    decide
  case rootDirEntries =>
    rw [hword _ (by omega)]
    decide
  case sectorsPerFat =>
    rw [hword _ (by omega)]
    decide
  case totalSectors =>
    rw [hword _ (by omega)]
    exact .inl (by decide)
  case attributes =>
    intro slot hslot hused hdeleted
    rw [singleVolume_slotPos, singleBytes_entry] at hused
    rw [singleVolume_slotPos, Nat.add_assoc, singleBytes_entry]
    rcases Nat.eq_zero_or_pos slot with rfl | hpos
    · have hattr : byteAt (singleEntry c) 11 = 0x20 := rfl
      rw [Nat.mul_zero, Nat.zero_add, hattr]
      decide
    · have hlen : (singleEntry c).length = 32 := rfl
      exact absurd (byteAt_of_length_le (by omega)) hused

theorem singleFile_listed (c : U16) :
    (singleFile c).ListedAt singleVolume (singleDisk c) 0 0 := by
  have hentry : ∀ i, singleBytes c (singleVolume.slotPos 0 + i) = byteAt (singleEntry c) i := by
    intro i
    rw [singleVolume_slotPos, Nat.mul_zero, Nat.add_zero, singleBytes_entry]
  have hword : ∀ k, wordAt (singleBytes c) (singleVolume.slotPos 0 + k) =
      joinBytes (byteAt (singleEntry c) k) (byteAt (singleEntry c) (k + 1)) := by
    intro k
    unfold wordAt
    rw [Nat.add_assoc, hentry, hentry]
  constructor
  case slot_lt => decide
  case before => exact fun i hi => absurd hi (Nat.not_lt_zero i)
  all_goals rw [singleDisk_bytes]
  case name =>
    have hregion : region (singleBytes c) (singleVolume.slotPos 0) 8 =
        (List.range 8).map (byteAt (singleEntry c)) :=
      List.map_congr_left fun i _ => hentry i
    rw [hregion]
    rfl
  case ext =>
    have hregion : region (singleBytes c) (singleVolume.slotPos 0 + 8) 3 =
        (List.range 3).map fun i => byteAt (singleEntry c) (8 + i) :=
      List.map_congr_left fun i _ => by rw [Nat.add_assoc, hentry]
    rw [hregion]
    rfl
  case attr =>
    rw [hentry]
    rfl
  case firstCluster =>
    rw [hword]
    exact joinBytes_low_high c
  case size =>
    have hlow : byteAt (singleEntry c) 28 = 1 := rfl
    have hrest : ∀ k, 28 < k → k < 32 → byteAt (singleEntry c) k = 0 := by
      intro k hfrom hto
      interval_cases k <;> rfl
    rw [hword, hword, hlow, hrest 29 (by omega) (by omega), hrest 30 (by omega) (by omega),
      hrest 31 (by omega) (by omega)]
    exact show (joinBytes 1 0).toNat + 65536 * (joinBytes 0 0).toNat = 1 by decide

theorem singleFile_stored {c : U16} (hlow : 2 ≤ c.toNat) (hhigh : c.toNat ≤ 4080) :
    (singleFile c).StoredOn singleVolume (singleDisk c) 0 := by
  constructor
  case range =>
    intro x hx
    obtain rfl := List.mem_singleton.mp hx
    exact ⟨hlow, hhigh⟩
  case links => exact List.isChain_singleton c
  case last =>
    intro x hx
    obtain rfl : c = x := by simpa [singleFile] using hx
    refine ⟨0x0FFF, by decide, by decide, ?_⟩
    have hwidth : singleVolume.entryWidth = 12 := by decide
    rw [hwidth]
    intro i hi
    have hbyte : singleVolume.fatBytes (singleDisk c) 0 ((12 * c.toNat + i) / 8) = 0xFF := by
      unfold FatVolume.fatBytes
      rw [singleDisk_bytes]
      exact singleBytes_fat c (by omega)
    have hones : ∀ k < 8, (0xFF : U8).getLsbD k = true := by decide
    have hmark : ∀ k < 12, (0x0FFF : U16).getLsbD k = true := by decide
    rw [hbyte, hones _ (Nat.mod_lt _ (by omega)), hmark i hi]
  case covers => exact Nat.le_of_lt (show 1 < 1 * (1 * 512) by omega)

theorem singleFile_bytes (c : U16) :
    (singleFile c).bytes singleVolume (singleDisk c) 0 = [0] := by
  have hpos : singleVolume.clusterPos c.toNat =
      6656 + (512 + (c.toNat - 2) * singleVolume.clusterBytes) := by
    have hstart : singleVolume.dataStart * singleVolume.bytesPerSector = 6656 + 512 := by decide
    unfold FatGeometry.clusterPos
    rw [hstart, Nat.add_assoc]
  have hfirst : singleBytes c (singleVolume.clusterPos c.toNat) = 0 := by
    rw [hpos, singleBytes_entry]
    have hlen : (singleEntry c).length = 32 := rfl
    exact byteAt_of_length_le (by omega)
  have hone : min 1 singleVolume.clusterBytes = 1 := by decide
  unfold RootFile.bytes
  rw [show (singleFile c).chain = [c] from rfl, show (singleFile c).size.toNat = 1 from rfl,
    List.flatMap_singleton]
  unfold FatVolume.clusterData region
  rw [singleDisk_bytes, ← List.map_take, List.take_range, hone, List.range_one, List.map_singleton,
    Nat.add_zero, hfirst]

theorem singleFile_empty :
    (singleVolume.fileSystem 0).readFile (singleDisk 0xFF0) (singleFile 0xFF0).entry = .ok [] := by
  have hstop : ¬ (singleVolume.fileSystem 0).followsCluster 0xFF0 := by
    rw [singleVolume.followsCluster_iff]
    decide
  have hchain : (singleFile 0xFF0).chain.takeWhile
      (fun c => (singleVolume.fileSystem 0).followsCluster c) = [] :=
    List.takeWhile_cons_of_neg (by simpa using hstop)
  rw [(singleVolume_onDisk _).readFile_eq (singleFile_stored (by decide) (by decide)), hchain,
    List.flatMap_nil, List.take_nil]

/-- The file in the last cluster comes back empty. -/
theorem last_cluster_lost :
    singleVolume.OnDisk (singleDisk 0xFF0) 0 ∧
      (singleFile 0xFF0).ListedAt singleVolume (singleDisk 0xFF0) 0 0 ∧
      (singleFile 0xFF0).StoredOn singleVolume (singleDisk 0xFF0) 0 ∧
      (singleFile 0xFF0).bytes singleVolume (singleDisk 0xFF0) 0 = [0] ∧
      (singleVolume.fileSystem 0).readFile (singleDisk 0xFF0) (singleFile 0xFF0).entry = .ok [] ∧
      ¬ RoundTrips (singleDisk 0xFF0) (singleFile 0xFF0) [0] := by
  refine ⟨singleVolume_onDisk _, singleFile_listed _, singleFile_stored (by decide) (by decide),
    singleFile_bytes _, singleFile_empty, ?_⟩
  rw [roundTrips_iff_readFile (singleVolume_onDisk _) (by decide)
    (fun sector hlt => absurd hlt (Nat.not_lt_zero _)) (singleFile_listed _), singleFile_empty]
  intro heq
  cases heq

/-! ## A file of three clusters -/

def chainedGeometry : FatGeometry :=
  { singleVolume.toFatGeometry with sectorsPerFat := 1, totalSectors := 6 }

theorem chainedGeometry_data : chainedGeometry.dataStart ≤ chainedGeometry.totalSectors := by
  decide

theorem chainedGeometry_fat :
    (chainedGeometry.clusterCount + 2) * chainedGeometry.entryWidth ≤
      8 * (chainedGeometry.sectorsPerFat * chainedGeometry.bytesPerSector) := by
  decide

def chainedVolume : FatVolume :=
  { singleVolume with
    toFatGeometry := chainedGeometry
    sectorsPerFat_pos := Nat.one_pos
    data_fits := chainedGeometry_data
    fat_fits := chainedGeometry_fat }

def sectorOf (bytes : List U8) : List U8 := bytes ++ List.replicate (512 - bytes.length) 0

/-- Cluster 2 is followed by 4 and 4 by 3. -/
def chainedDisk : Disk :=
  { singleDisk 2 with
    data :=
      sectorOf (List.replicate 11 0 ++
          [0x00, 0x02, 0x01, 0x01, 0x00, 0x01, 0x10, 0x00, 0x06, 0x00, 0xF8, 0x01]) ++
        sectorOf [0xFE, 0xFF, 0xFF, 0x04, 0xF0, 0xFF, 0x03, 0x00, 0x00] ++
        sectorOf (0x41 :: List.replicate 10 0x20 ++ 0x20 :: List.replicate 14 0 ++
          [0x02, 0x00, 0x14, 0x05, 0x00, 0x00]) ++
        List.replicate 512 0x11 ++ List.replicate 512 0x33 ++ List.replicate 512 0x22 }

theorem chained_nodup : ([2, 4, 3] : List U16).Nodup := by decide

def chainedFile : RootFile :=
  { singleFile 2 with
    size := 1300
    chain := [2, 4, 3]
    chain_nodup := chained_nodup }

theorem chainedDisk_onDisk : chainedVolume.OnDisk chainedDisk 0 where
  room := by decide +kernel
  bytesPerSector := by decide +kernel
  sectorsPerCluster := by decide +kernel
  reservedSectors := by decide +kernel
  numFats := by decide +kernel
  rootDirEntries := by decide +kernel
  sectorsPerFat := by decide +kernel
  totalSectors := .inl (by decide +kernel)
  attributes := by decide +kernel

theorem chainedFile_listed : chainedFile.ListedAt chainedVolume chainedDisk 0 0 where
  slot_lt := by decide
  before := fun i hi => absurd hi (Nat.not_lt_zero i)
  name := by decide +kernel
  ext := by decide +kernel
  attr := by decide +kernel
  firstCluster := by decide +kernel
  size := by decide +kernel

theorem chainedDisk_entries :
    EntryAt (chainedVolume.fatBytes chainedDisk 0) chainedVolume.entryWidth 2 4 ∧
      EntryAt (chainedVolume.fatBytes chainedDisk 0) chainedVolume.entryWidth 4 3 ∧
      EntryAt (chainedVolume.fatBytes chainedDisk 0) chainedVolume.entryWidth 3 0xFFF := by
  unfold EntryAt
  decide +kernel

theorem chainedFile_stored : chainedFile.StoredOn chainedVolume chainedDisk 0 where
  range := by
    intro c hc
    simp only [chainedFile, List.mem_cons, List.not_mem_nil, or_false] at hc
    rcases hc with rfl | rfl | rfl <;> decide
  links := .cons_cons chainedDisk_entries.1 (.cons_cons chainedDisk_entries.2.1 (.singleton _))
  last := by
    intro c hc
    obtain rfl : 3 = c := by simpa [chainedFile] using hc
    exact ⟨0xFFF, by decide, by decide, chainedDisk_entries.2.2⟩
  covers := by decide

/-- The three clusters are read back in the order of the chain. -/
theorem roundTrips_chained :
    RoundTrips chainedDisk chainedFile (chainedFile.bytes chainedVolume chainedDisk 0) ↔
      ∀ c ∈ chainedFile.needed chainedVolume, c.toNat < chainedVolume.followLimit :=
  roundTrips_iff chainedDisk_onDisk (by decide) (fun sector hlt => absurd hlt (Nat.not_lt_zero _))
    chainedFile_listed chainedFile_stored

end Kita98
