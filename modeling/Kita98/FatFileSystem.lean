import Kita98.Disk

/-!
# FAT file systems on a disk image

The volume is found by probing the first 2048 sectors for credible BIOS
parameters.  The parameter words are unsigned 32-bit numbers in the source;
their sums and products stay far below `2 ^ 32` and are natural numbers here.
-/

namespace Kita98

open WordBits Disk

/-- Text is a list of characters. -/
abbrev Text := List Char

structure DirEntry where
  name : Text
  ext : Text
  attr : U8
  firstCluster : U16
  size : U32
  deriving DecidableEq, Repr

/-- `detect` accepts no other sector size and no empty cluster. -/
structure FatFileSystem where
  partitionLba : ℕ
  bytesPerSector : ℕ
  sectorsPerCluster : ℕ
  reservedSectors : ℕ
  numFats : ℕ
  rootDirEntries : ℕ
  sectorsPerFat : ℕ
  fatLba : ℕ
  rootDirLba : ℕ
  dataLba : ℕ
  isFat12 : Bool
  bytesPerSector_mem : bytesPerSector ∈ [512, 1024, 2048]
  sectorsPerCluster_pos : 0 < sectorsPerCluster
  deriving DecidableEq, Repr

theorem sectorSize_mem : sectorSize ∈ [512, 1024, 2048] := by decide

/-! ## Names -/

def isSpace (c : Char) : Bool := c = ' '

/-- `trim` on printable ASCII text. -/
def trim (s : Text) : Text :=
  ((s.dropWhile isSpace).reverse.dropWhile isSpace).reverse

/-- `String::from_utf8_local` -/
def fromUtf8Local (bytes : List U8) : Text :=
  trim (bytes.map fun b =>
    if 32 ≤ b ∧ b ≤ 126 then Char.ofNat b.toNat else ' ')

/-- `char::to_uppercase` on the characters U+0000 to U+00FF. -/
def upperChar (c : Char) : Text :=
  let n := c.toNat
  if 0x61 ≤ n ∧ n ≤ 0x7A then [Char.ofNat (n - 0x20)]
  else if n = 0xB5 then [Char.ofNat 0x39C]
  else if n = 0xDF then ['S', 'S']
  else if 0xE0 ≤ n ∧ n ≤ 0xFE ∧ n ≠ 0xF7 then [Char.ofNat (n - 0x20)]
  else if n = 0xFF then [Char.ofNat 0x178]
  else [c]

def toUppercase (s : Text) : Text := s.flatMap upperChar

def DirEntry.fullName (entry : DirEntry) : Text :=
  if entry.ext.isEmpty then entry.name else entry.name ++ '.' :: entry.ext

namespace FatFileSystem

/-! ## Finding the volume -/

/-- `is_power_of_two` -/
def isPowerOfTwo (v : U8) : Bool := v != 0 && v &&& (v - 1) == 0

def le16 (data : List U8) (i : ℕ) : ℕ :=
  (joinBytes (byteAt data i) (byteAt data (i + 1))).toNat

def le32 (data : List U8) (i : ℕ) : ℕ := le16 data i + 65536 * le16 data (i + 2)

/-- The parameter words of a boot sector. -/
structure Bpb where
  bps : ℕ
  spc : U8
  res : ℕ
  numFats : ℕ
  rootEnt : ℕ
  spf : ℕ
  totalSectorsSmall : ℕ
  totalSectorsLarge : ℕ
  deriving DecidableEq, Repr

def Bpb.ofSector (sector : List U8) : Bpb where
  bps := le16 sector 0x0B
  spc := byteAt sector 0x0D
  res := le16 sector 0x0E
  numFats := (byteAt sector 0x10).toNat
  rootEnt := le16 sector 0x11
  spf := le16 sector 0x16
  totalSectorsSmall := le16 sector 0x13
  totalSectorsLarge := le32 sector 0x20

namespace Bpb

def logicalRootStart (bpb : Bpb) : ℕ := bpb.res + bpb.numFats * bpb.spf

def physicalMultiplier (bpb : Bpb) : ℕ := bpb.bps / 512

def rootLbaPhys (bpb : Bpb) (lba : ℕ) : ℕ :=
  lba + bpb.logicalRootStart * bpb.physicalMultiplier

def totalSectors (bpb : Bpb) : ℕ :=
  if bpb.totalSectorsSmall ≠ 0 then bpb.totalSectorsSmall else bpb.totalSectorsLarge

def rootDirSectors (bpb : Bpb) : ℕ := (bpb.rootEnt * 32 + (bpb.bps - 1)) / bpb.bps

def clusters (bpb : Bpb) : ℕ :=
  (bpb.totalSectors - (bpb.logicalRootStart + bpb.rootDirSectors)) / bpb.spc.toNat

/-- The heuristics on the parameter words. -/
def credible (bpb : Bpb) : Prop :=
  bpb.bps ∈ [512, 1024, 2048] ∧
    (bpb.spc ≠ 0 ∧ isPowerOfTwo bpb.spc) ∧
    (bpb.numFats ≠ 0 ∧ bpb.numFats ≤ 2) ∧
    bpb.rootEnt ≠ 0 ∧ bpb.spf ≠ 0

instance (bpb : Bpb) : Decidable bpb.credible := by
  unfold credible
  infer_instance

theorem bps_of_credible {bpb : Bpb} (h : bpb.credible) : bpb.bps ∈ [512, 1024, 2048] := h.1

theorem spc_pos_of_credible {bpb : Bpb} (h : bpb.credible) : 0 < bpb.spc.toNat := by
  have hne := h.2.1.1
  bv_omega

end Bpb

/-- The heuristic on the first entry of the root directory. -/
def rootCredible (rootData : List U8) : Prop :=
  ¬ (byteAt rootData 11 > 0x3F ∧ byteAt rootData 0 ≠ 0 ∧ byteAt rootData 0 ≠ 0xE5)

instance (rootData : List U8) : Decidable (rootCredible rootData) := by
  unfold rootCredible
  infer_instance

def ofBpb (bpb : Bpb) (h : bpb.credible) (lba : ℕ) : FatFileSystem where
  partitionLba := lba
  bytesPerSector := bpb.bps
  sectorsPerCluster := bpb.spc.toNat
  reservedSectors := bpb.res
  numFats := bpb.numFats
  rootDirEntries := bpb.rootEnt
  sectorsPerFat := bpb.spf
  fatLba := lba + bpb.res * bpb.physicalMultiplier
  rootDirLba := bpb.rootLbaPhys lba
  dataLba := bpb.rootLbaPhys lba + bpb.rootDirSectors * bpb.physicalMultiplier
  isFat12 := bpb.clusters < 4085
  bytesPerSector_mem := Bpb.bps_of_credible h
  sectorsPerCluster_pos := Bpb.spc_pos_of_credible h

/-- One round of the scan: `none` is `continue`. -/
def probe (disk : Disk) (lba : ℕ) : Option FatFileSystem :=
  match disk.readSectors lba 1 with
  | .error _ => none
  | .ok sector =>
      let bpb := Bpb.ofSector sector
      if h : bpb.credible then
        match disk.readSectors (bpb.rootLbaPhys lba) 1 with
        | .error _ => none
        | .ok rootData =>
            if rootCredible rootData then some (ofBpb bpb h lba) else none
      else none

def detect (disk : Disk) : Except Error FatFileSystem :=
  match (List.range 2048).findSome? (probe disk) with
  | some fs => .ok fs
  | none => .error .noFatFilesystem

/-! ## Directory -/

/-- The 32 bytes of an entry that is not skipped. -/
def parseEntry (raw : List U8) : DirEntry where
  name := fromUtf8Local (slice raw 0 8)
  ext := fromUtf8Local (slice raw 8 3)
  attr := byteAt raw 11
  firstCluster := joinBytes (byteAt raw 26) (byteAt raw 27)
  size := BitVec.ofNat 32 (le32 raw 28)

/-- Deleted entries, volume labels and entries without a name. -/
def skipEntry (raw : List U8) : Prop :=
  byteAt raw 0 = 0xE5 ∨ byteAt raw 11 &&& 0x08 ≠ 0 ∨
    (parseEntry raw).name.isEmpty = true

instance (raw : List U8) : Decidable (skipEntry raw) := by
  unfold skipEntry
  infer_instance

/-- The loop of `list_root_dir` from entry `i` on, `n` entries before its end. -/
def listEntries (data : List U8) : ℕ → ℕ → List DirEntry
  | 0, _ => []
  | n + 1, i =>
      let offset := i * 32
      if offset + 32 > data.length then []
      else
        let raw := slice data offset 32
        if byteAt raw 0 = 0x00 then []
        else if skipEntry raw then listEntries data n (i + 1)
        else parseEntry raw :: listEntries data n (i + 1)

def listRootDir (fs : FatFileSystem) (disk : Disk) : Except Error (List DirEntry) :=
  let rootDirSize := fs.rootDirEntries * 32
  let sectorsToRead := (rootDirSize + 511) / 512
  match disk.readSectors fs.rootDirLba sectorsToRead with
  | .error e => .error e
  | .ok data => .ok (listEntries data fs.rootDirEntries 0)

/-! ## Files -/

def getNextCluster (fs : FatFileSystem) (disk : Disk) (cluster : U16) :
    Except Error U16 :=
  if !fs.isFat12 then
    let fatOffset := cluster.toNat * 2
    match disk.readSectors (fs.fatLba + fatOffset / 512) 1 with
    | .error e => .error e
    | .ok sector =>
        let sectorOffset := fatOffset % 512
        .ok (joinBytes (byteAt sector sectorOffset) (byteAt sector (sectorOffset + 1)))
  else
    let fatOffset := cluster.toNat * 3 / 2
    match disk.readSectors (fs.fatLba + fatOffset / 512) 2 with
    | .error e => .error e
    | .ok sector =>
        let sectorOffset := fatOffset % 512
        let val :=
          joinBytes (byteAt sector sectorOffset) (byteAt sector (sectorOffset + 1))
        .ok (if cluster.toNat % 2 = 0 then val &&& 0x0FFF else val >>> 4)

def sectorsPerClusterPhys (fs : FatFileSystem) : ℕ :=
  fs.sectorsPerCluster * fs.bytesPerSector / 512

/-- The loop condition of `read_file`. -/
def followsCluster (fs : FatFileSystem) (cluster : U16) : Prop :=
  2 ≤ cluster.toNat ∧ cluster.toNat < if fs.isFat12 then 0x0FF0 else 0xFFF0

instance (fs : FatFileSystem) (cluster : U16) : Decidable (fs.followsCluster cluster) := by
  unfold followsCluster
  infer_instance

/-- The loop of `read_file`.  Every round that goes on adds at least one byte
to `data` and keeps it below `size`, so `size` rounds after the first are
enough (`readLoop_stable`). -/
def readLoop (fs : FatFileSystem) (disk : Disk) (size : ℕ) :
    ℕ → U16 → List U8 → Except Error (List U8)
  | 0, _, data => .ok data
  | fuel + 1, cluster, data =>
      if fs.followsCluster cluster then
        let lba := fs.dataLba + (cluster.toNat - 2) * fs.sectorsPerClusterPhys
        match disk.readSectors lba fs.sectorsPerClusterPhys with
        | .error _ => .ok data
        | .ok clusterData =>
            let data := data ++ clusterData
            if data.length ≥ size then .ok (data.take size)
            else
              match fs.getNextCluster disk cluster with
              | .error e => .error e
              | .ok next => readLoop fs disk size fuel next data
      else .ok data

def readFile (fs : FatFileSystem) (disk : Disk) (entry : DirEntry) :
    Except Error (List U8) :=
  readLoop fs disk entry.size.toNat (entry.size.toNat + 1) entry.firstCluster []

theorem sectorsPerClusterPhys_pos (fs : FatFileSystem) :
    0 < fs.sectorsPerClusterPhys := by
  have hbps : 512 ≤ fs.bytesPerSector := by
    have hmem := fs.bytesPerSector_mem
    simp only [List.mem_cons, List.not_mem_nil, or_false] at hmem
    omega
  have hspc := fs.sectorsPerCluster_pos
  unfold sectorsPerClusterPhys
  apply Nat.div_pos _ (by decide)
  calc
    512 ≤ 1 * fs.bytesPerSector := by omega
    _ ≤ fs.sectorsPerCluster * fs.bytesPerSector :=
      Nat.mul_le_mul_right _ hspc

/-- One round of the loop: the result, or the next cluster and the data so far. -/
def readRound (fs : FatFileSystem) (disk : Disk) (size : ℕ) (cluster : U16) (data : List U8) :
    Except Error (List U8) ⊕ U16 × List U8 :=
  if fs.followsCluster cluster then
    match disk.readSectors (fs.dataLba + (cluster.toNat - 2) * fs.sectorsPerClusterPhys)
        fs.sectorsPerClusterPhys with
    | .error _ => .inl (.ok data)
    | .ok clusterData =>
        if (data ++ clusterData).length ≥ size then .inl (.ok ((data ++ clusterData).take size))
        else
          match fs.getNextCluster disk cluster with
          | .error e => .inl (.error e)
          | .ok next => .inr (next, data ++ clusterData)
  else .inl (.ok data)

section Rounds

variable (fs : FatFileSystem) (disk : Disk) (size : ℕ)

theorem readLoop_succ (fuel : ℕ) (cluster : U16) (data : List U8) :
    readLoop fs disk size (fuel + 1) cluster data =
      (readRound fs disk size cluster data).elim id
        fun next => readLoop fs disk size fuel next.1 next.2 := by
  unfold readRound
  rw [readLoop]
  split
  · simp only
    split
    · rfl
    · split
      · rfl
      · split <;> rfl
  · rfl

variable {fs disk size}

/-- A round that goes on adds a byte and stays below the size. -/
theorem readRound_grows
    {cluster next : U16} {data more : List U8}
    (hround : readRound fs disk size cluster data = .inr (next, more)) :
    data.length < more.length ∧ more.length < size := by
  unfold readRound at hround
  split at hround
  · split at hround
    · cases hround
    · next clusterData hread =>
        split at hround
        · cases hround
        · next hshort =>
            split at hround
            · cases hround
            · cases hround
              have hgrow : 0 < clusterData.length := by
                rw [readSectors_length hread]
                exact Nat.mul_pos fs.sectorsPerClusterPhys_pos (by decide)
              refine ⟨?_, Nat.lt_of_not_le hshort⟩
              rw [List.length_append]
              omega
  · cases hround

end Rounds

/-- More rounds than the loop needs change nothing. -/
theorem readLoop_stable
    (fs : FatFileSystem) (disk : Disk) (size fuel extra : ℕ)
    (cluster : U16) (data : List U8) (hfuel : size ≤ fuel + data.length) :
    readLoop fs disk size (fuel + 1 + extra) cluster data =
      readLoop fs disk size (fuel + 1) cluster data := by
  induction fuel generalizing cluster data with
  | zero =>
      rw [Nat.add_right_comm, readLoop_succ, readLoop_succ]
      cases hround : readRound fs disk size cluster data with
      | inl result => rfl
      | inr next =>
          have hgrow := readRound_grows hround
          omega
  | succ fuel ih =>
      rw [Nat.add_right_comm, readLoop_succ, readLoop_succ]
      cases hround : readRound fs disk size cluster data with
      | inl result => rfl
      | inr next =>
          have hgrow := readRound_grows hround
          exact ih next.1 next.2 (by omega)

end FatFileSystem

end Kita98
