import Kita98.Checked
import Kita98.FatChains

/-!
# Reading a corrupt volume

The functions on the volume again, with checked 32-bit arithmetic, checked
indexes and a bound of its own on the rounds of the reading loop.  On every image
they do what the unchecked ones do: the parameters that `detect` accepts keep the
numbers far below `2 ^ 32`.
-/

namespace Kita98

open WordBits Disk Checked

/-- `read_sectors`; the two products are of 64 bits. -/
def Disk.readSectorsChecked (disk : Disk) (lba count : ℕ) : Checked (Except Error (List U8)) :=
  let start := disk.headerOffset + lba * sectorSize
  let stop := start + count * sectorSize
  if stop > disk.data.length then return .error (.readOutOfRange lba count disk.data.length)
  else do
    let bytes ← range disk.data start stop
    return .ok bytes

theorem readSectorsChecked_eq (disk : Disk) (lba count : ℕ) :
    disk.readSectorsChecked lba count = .ok (disk.readSectors lba count) := by
  unfold Disk.readSectorsChecked Disk.readSectors
  simp only
  split
  · rfl
  · next hin =>
      rw [range_ok (Nat.le_add_right _ _) (Nat.le_of_not_lt hin), ok_bind, Nat.add_sub_cancel_left]
      rfl

namespace FatFileSystem

/-! ## The functions with their checks -/

def bpbChecked (sector : List U8) : Checked Bpb := do
  let bps ← word sector 0x0B
  let spc ← index sector 0x0D
  let res ← word sector 0x0E
  let numFats ← index sector 0x10
  let rootEnt ← word sector 0x11
  let spf ← word sector 0x16
  let totalSectorsSmall ← word sector 0x13
  let totalSectorsLarge ← dword sector 0x20
  return ⟨bps.toNat, spc, res.toNat, numFats.toNat, rootEnt.toNat, spf.toNat,
    totalSectorsSmall.toNat, totalSectorsLarge.toNat⟩

def rootCredibleChecked (rootData : List U8) : Checked Bool := do
  let attr ← index rootData 11
  if attr > 0x3F then
    let first ← index rootData 0
    return !(first ≠ 0 ∧ first ≠ 0xE5)
  else return true

/-- The numbers of the file system, computed as `detect` computes them. -/
def layoutChecked (bpb : Bpb) (lba rootLbaPhys logicalRootStart : ℕ) (h : bpb.credible) :
    Checked FatFileSystem := do
  let physicalMultiplier := bpb.bps / 512
  let entryBytes ← mul bpb.rootEnt 32
  let lastByte ← sub bpb.bps 1
  let rounded ← add entryBytes lastByte
  let rootDirSectors := rounded / bpb.bps
  let systemSectors ← add logicalRootStart rootDirSectors
  let dataSectors := bpb.totalSectors - systemSectors
  let clusters := dataSectors / bpb.spc.toNat
  let fatOffset ← mul bpb.res physicalMultiplier
  let fatLba ← add lba fatOffset
  let rootOffset ← mul rootDirSectors physicalMultiplier
  let dataLba ← add rootLbaPhys rootOffset
  return {
    partitionLba := lba
    bytesPerSector := bpb.bps
    sectorsPerCluster := bpb.spc.toNat
    reservedSectors := bpb.res
    numFats := bpb.numFats
    rootDirEntries := bpb.rootEnt
    sectorsPerFat := bpb.spf
    fatLba := fatLba
    rootDirLba := rootLbaPhys
    dataLba := dataLba
    isFat12 := clusters < 4085
    bytesPerSector_mem := Bpb.bps_of_credible h
    sectorsPerCluster_pos := Bpb.spc_pos_of_credible h }

def probeChecked (disk : Disk) (lba : ℕ) : Checked (Option FatFileSystem) := do
  match ← disk.readSectorsChecked lba 1 with
  | .error _ => return none
  | .ok sector =>
      let bpb ← bpbChecked sector
      if h : bpb.credible then
        let fatSectors ← mul bpb.numFats bpb.spf
        let logicalRootStart ← add bpb.res fatSectors
        let rootOffset ← mul logicalRootStart (bpb.bps / 512)
        let rootLbaPhys ← add lba rootOffset
        match ← disk.readSectorsChecked rootLbaPhys 1 with
        | .error _ => return none
        | .ok rootData =>
            if ← rootCredibleChecked rootData then
              let fs ← layoutChecked bpb lba rootLbaPhys logicalRootStart h
              return some fs
            else return none
      else return none

/-- The scan from sector `lba` on, `n` sectors before its end. -/
def detectFrom (disk : Disk) : ℕ → ℕ → Checked (Except Error FatFileSystem)
  | 0, _ => return .error .noFatFilesystem
  | n + 1, lba => do
      match ← probeChecked disk lba with
      | some fs => return .ok fs
      | none => detectFrom disk n (lba + 1)

def detectChecked (disk : Disk) : Checked (Except Error FatFileSystem) := detectFrom disk 2048 0

/-- The loop of `list_root_dir` from entry `i` on, `n` entries before its end. -/
def listEntriesChecked (data : List U8) : ℕ → ℕ → Checked (List DirEntry)
  | 0, _ => return []
  | n + 1, i =>
      let offset := i * 32
      if offset + 32 > data.length then return []
      else do
        let raw ← range data offset (offset + 32)
        let first ← index raw 0
        if first = 0x00 then return []
        else if first = 0xE5 then listEntriesChecked data n (i + 1)
        else do
          let attr ← index raw 11
          if attr &&& 0x08 ≠ 0 then listEntriesChecked data n (i + 1)
          else do
            let name ← range raw 0 8
            let ext ← range raw 8 11
            let firstCluster ← word raw 26
            let size ← dword raw 28
            if (fromUtf8Local name).isEmpty then listEntriesChecked data n (i + 1)
            else do
              let rest ← listEntriesChecked data n (i + 1)
              return ⟨fromUtf8Local name, fromUtf8Local ext, attr, firstCluster, size⟩ :: rest

def listRootDirChecked (fs : FatFileSystem) (disk : Disk) :
    Checked (Except Error (List DirEntry)) := do
  let rootDirSize ← mul fs.rootDirEntries 32
  let rounded ← add rootDirSize 511
  match ← disk.readSectorsChecked fs.rootDirLba (rounded / 512) with
  | .error e => return .error e
  | .ok data =>
      let entries ← listEntriesChecked data fs.rootDirEntries 0
      return .ok entries

def getNextClusterChecked (fs : FatFileSystem) (disk : Disk) (cluster : U16) :
    Checked (Except Error U16) :=
  if !fs.isFat12 then do
    let fatOffset ← mul cluster.toNat 2
    let lba ← add fs.fatLba (fatOffset / 512)
    match ← disk.readSectorsChecked lba 1 with
    | .error e => return .error e
    | .ok sector =>
        let next ← word sector (fatOffset % 512)
        return .ok next
  else do
    let tripled ← mul cluster.toNat 3
    let fatOffset := tripled / 2
    let lba ← add fs.fatLba (fatOffset / 512)
    match ← disk.readSectorsChecked lba 2 with
    | .error e => return .error e
    | .ok sector =>
        let val ← word sector (fatOffset % 512)
        return .ok (if cluster.toNat % 2 = 0 then val &&& 0x0FFF else val >>> 4)

/-- The loop of `read_file`; it faults where `rounds` are not enough. -/
def readLoopChecked (fs : FatFileSystem) (disk : Disk) (size sectorsPerCluster : ℕ) :
    ℕ → U16 → List U8 → Checked (Except Error (List U8))
  | 0, _, _ => .error .hang
  | rounds + 1, cluster, data =>
      if fs.followsCluster cluster then do
        let number ← sub cluster.toNat 2
        let offset ← mul number sectorsPerCluster
        let lba ← add fs.dataLba offset
        match ← disk.readSectorsChecked lba sectorsPerCluster with
        | .error _ => return .ok data
        | .ok clusterData =>
            let data := data ++ clusterData
            if data.length ≥ size then return .ok (data.take size)
            else
              match ← getNextClusterChecked fs disk cluster with
              | .error e => return .error e
              | .ok next => readLoopChecked fs disk size sectorsPerCluster rounds next data
      else return .ok data

def readFileChecked (fs : FatFileSystem) (disk : Disk) (entry : DirEntry) (rounds : ℕ) :
    Checked (Except Error (List U8)) := do
  let clusterBytes ← mul fs.sectorsPerCluster fs.bytesPerSector
  readLoopChecked fs disk entry.size.toNat (clusterBytes / 512) rounds entry.firstCluster []

/-! ## Detection -/

theorem le32_eq (data : List U8) (i : ℕ) : (leDword data i).toNat = le32 data i := by
  have hlow := (leWord data i).isLt
  unfold leDword le32
  rw [BitVec.toNat_append, ← Nat.shiftLeft_add_eq_or_of_lt hlow, Nat.shiftLeft_eq]
  change _ = (leWord data i).toNat + 65536 * (leWord data (i + 2)).toNat
  omega

theorem bpbChecked_eq {sector : List U8} (hlength : sector.length = sectorSize) :
    bpbChecked sector = .ok (Bpb.ofSector sector) := by
  unfold sectorSize at hlength
  unfold bpbChecked
  rw [word_ok (by omega), ok_bind, index_ok (by omega), ok_bind, word_ok (by omega), ok_bind,
    index_ok (by omega), ok_bind, word_ok (by omega), ok_bind, word_ok (by omega), ok_bind,
    word_ok (by omega), ok_bind, dword_ok (by omega), ok_bind, le32_eq]
  rfl

theorem rootCredibleChecked_eq {rootData : List U8} (hlength : rootData.length = sectorSize) :
    rootCredibleChecked rootData = .ok (decide (rootCredible rootData)) := by
  unfold sectorSize at hlength
  unfold rootCredibleChecked rootCredible
  rw [index_ok (by omega), ok_bind]
  by_cases hattr : byteAt rootData 11 > 0x3F
  · rw [if_pos hattr, index_ok (by omega), ok_bind]
    simp only [hattr, true_and, decide_not]
    rfl
  · rw [if_neg hattr]
    simp only [hattr, false_and, not_false_eq_true, decide_true]
    rfl

/-- The parameters of a sector are bytes and words. -/
structure Bpb.Narrow (bpb : Bpb) : Prop where
  res : bpb.res < 2 ^ 16
  rootEnt : bpb.rootEnt < 2 ^ 16
  spf : bpb.spf < 2 ^ 16

theorem Bpb.ofSector_narrow (sector : List U8) : (Bpb.ofSector sector).Narrow :=
  ⟨(leWord sector 0x0E).isLt, (leWord sector 0x11).isLt, (leWord sector 0x16).isLt⟩

namespace Bpb

variable {bpb : Bpb}

theorem bps_cases (h : bpb.credible) : bpb.bps = 512 ∨ bpb.bps = 1024 ∨ bpb.bps = 2048 := by
  simpa using h.1

theorem physicalMultiplier_le (h : bpb.credible) : bpb.physicalMultiplier ≤ 4 := by
  unfold physicalMultiplier
  rcases bps_cases h with hbps | hbps | hbps <;> omega

theorem logicalRootStart_lt (h : bpb.credible) (hnarrow : bpb.Narrow) :
    bpb.numFats * bpb.spf < 2 ^ 17 ∧ bpb.logicalRootStart < 2 ^ 18 := by
  have hres := hnarrow.res
  have hspf := hnarrow.spf
  have hfats := h.2.2.1.2
  have hproduct : bpb.numFats * bpb.spf ≤ 2 * bpb.spf := Nat.mul_le_mul_right _ hfats
  unfold logicalRootStart
  omega

theorem rootLbaPhys_lt {lba : ℕ} (h : bpb.credible) (hnarrow : bpb.Narrow) (hlba : lba < 2048) :
    bpb.logicalRootStart * bpb.physicalMultiplier < 2 ^ 20 ∧ bpb.rootLbaPhys lba < 2 ^ 21 := by
  have hstart := (logicalRootStart_lt h hnarrow).2
  have hproduct : bpb.logicalRootStart * bpb.physicalMultiplier ≤ (2 ^ 18 - 1) * 4 :=
    Nat.mul_le_mul (by omega) (physicalMultiplier_le h)
  unfold rootLbaPhys
  omega

theorem rootDirSectors_le (h : bpb.credible) (hnarrow : bpb.Narrow) :
    bpb.rootDirSectors ≤ 2 ^ 12 := by
  have hroot := hnarrow.rootEnt
  unfold rootDirSectors
  rcases bps_cases h with hbps | hbps | hbps <;> rw [hbps] <;> omega

end Bpb

theorem layoutChecked_eq {bpb : Bpb} {lba : ℕ} (h : bpb.credible) (hnarrow : bpb.Narrow)
    (hlba : lba < 2048) :
    layoutChecked bpb lba (bpb.rootLbaPhys lba) bpb.logicalRootStart h = .ok (ofBpb bpb h lba) := by
  have hroot := hnarrow.rootEnt
  have hres := hnarrow.res
  have hstart := (Bpb.logicalRootStart_lt h hnarrow).2
  have hrootLba := (Bpb.rootLbaPhys_lt h hnarrow hlba).2
  have hdir : (bpb.rootEnt * 32 + (bpb.bps - 1)) / bpb.bps ≤ 2 ^ 12 :=
    Bpb.rootDirSectors_le h hnarrow
  have hmult : bpb.bps / 512 ≤ 4 := Bpb.physicalMultiplier_le h
  have hfat : bpb.res * (bpb.bps / 512) ≤ (2 ^ 16 - 1) * 4 := Nat.mul_le_mul (by omega) hmult
  have hdata : (bpb.rootEnt * 32 + (bpb.bps - 1)) / bpb.bps * (bpb.bps / 512) ≤ 2 ^ 12 * 4 :=
    Nat.mul_le_mul hdir hmult
  have hbps := Bpb.bps_cases h
  unfold layoutChecked
  simp only
  rw [mul_ok (by omega), ok_bind, sub_ok (by omega), ok_bind, add_ok (by omega), ok_bind,
    add_ok (by omega), ok_bind, mul_ok (by omega), ok_bind, add_ok (by omega), ok_bind,
    mul_ok (by omega), ok_bind, add_ok (by omega), ok_bind]
  rfl

theorem probeChecked_eq (disk : Disk) {lba : ℕ} (hlba : lba < 2048) :
    probeChecked disk lba = .ok (probe disk lba) := by
  unfold probeChecked probe
  rw [readSectorsChecked_eq, ok_bind]
  cases hsector : disk.readSectors lba 1 with
  | error e => rfl
  | ok sector =>
      have hlength := readSectors_length hsector
      simp only
      rw [bpbChecked_eq (by rw [hlength, Nat.one_mul]), ok_bind]
      by_cases h : (Bpb.ofSector sector).credible
      · have hnarrow := Bpb.ofSector_narrow sector
        set bpb := Bpb.ofSector sector with hbpb
        have hstart : bpb.numFats * bpb.spf < 2 ^ 17 ∧ bpb.res + bpb.numFats * bpb.spf < 2 ^ 18 :=
          Bpb.logicalRootStart_lt h hnarrow
        have hroot : (bpb.res + bpb.numFats * bpb.spf) * (bpb.bps / 512) < 2 ^ 20 ∧
            lba + (bpb.res + bpb.numFats * bpb.spf) * (bpb.bps / 512) < 2 ^ 21 :=
          Bpb.rootLbaPhys_lt h hnarrow hlba
        rw [dif_pos h, dif_pos h, mul_ok (by omega), ok_bind, add_ok (by omega), ok_bind,
          mul_ok (by omega), ok_bind, add_ok (by omega), ok_bind, readSectorsChecked_eq, ok_bind]
        change (match disk.readSectors (bpb.rootLbaPhys lba) 1 with
          | .error _ => _
          | .ok rootData => _ : Checked (Option FatFileSystem)) = _
        cases hrootData : disk.readSectors (bpb.rootLbaPhys lba) 1 with
        | error e => rfl
        | ok rootData =>
            have hrootLength := readSectors_length hrootData
            simp only
            rw [rootCredibleChecked_eq (by rw [hrootLength, Nat.one_mul]), ok_bind]
            by_cases hcredible : rootCredible rootData
            · rw [if_pos (decide_eq_true hcredible), if_pos hcredible]
              have hlayout := layoutChecked_eq h hnarrow hlba
              exact congrArg (fun fs => fs >>= fun fs => pure (some fs)) hlayout
            · rw [if_neg (by simpa using hcredible), if_neg hcredible]
              rfl
      · rw [dif_neg h, dif_neg h]
        rfl

theorem detectFrom_eq (disk : Disk) {n lba : ℕ} (hlba : lba + n = 2048) :
    detectFrom disk n lba =
      .ok (((List.range' lba n).findSome? (probe disk)).elim (.error .noFatFilesystem) .ok) := by
  induction n generalizing lba with
  | zero => rfl
  | succ n ih =>
      rw [detectFrom, probeChecked_eq disk (by omega), ok_bind, List.range'_succ,
        List.findSome?_cons]
      cases probe disk lba with
      | none => exact ih (by omega)
      | some fs => rfl

theorem detectChecked_eq (disk : Disk) : detectChecked disk = .ok (detect disk) := by
  refine (@detectFrom_eq disk 2048 0 rfl).trans ?_
  unfold detect
  rw [List.range_eq_range']
  generalize (List.range' 0 2048).findSome? (probe disk) = found
  cases found <;> rfl

/-- What `detect` accepts has sector numbers far below `2 ^ 32`. -/
structure Bounded (fs : FatFileSystem) : Prop where
  sectorsPerCluster : fs.sectorsPerCluster < 2 ^ 8
  rootDirEntries : fs.rootDirEntries < 2 ^ 16
  fatLba : fs.fatLba < 2 ^ 22
  dataLba : fs.dataLba < 2 ^ 22

theorem ofBpb_bounded {bpb : Bpb} {lba : ℕ} (h : bpb.credible) (hnarrow : bpb.Narrow)
    (hlba : lba < 2048) : (ofBpb bpb h lba).Bounded := by
  have hmult := Bpb.physicalMultiplier_le h
  have hres := hnarrow.res
  have hrootLba := (Bpb.rootLbaPhys_lt h hnarrow hlba).2
  have hfat : bpb.res * bpb.physicalMultiplier ≤ (2 ^ 16 - 1) * 4 :=
    Nat.mul_le_mul (by omega) hmult
  have hdata : bpb.rootDirSectors * bpb.physicalMultiplier ≤ 2 ^ 12 * 4 :=
    Nat.mul_le_mul (Bpb.rootDirSectors_le h hnarrow) hmult
  refine ⟨bpb.spc.isLt, hnarrow.rootEnt, ?_, ?_⟩
  · change lba + bpb.res * bpb.physicalMultiplier < _
    omega
  · change bpb.rootLbaPhys lba + bpb.rootDirSectors * bpb.physicalMultiplier < _
    omega

theorem probe_bounded {disk : Disk} {fs : FatFileSystem} {lba : ℕ} (hlba : lba < 2048)
    (hprobe : probe disk lba = some fs) : fs.Bounded := by
  unfold probe at hprobe
  split at hprobe
  · cases hprobe
  · simp only at hprobe
    split at hprobe
    · next h =>
        split at hprobe
        · cases hprobe
        · split at hprobe
          · cases hprobe
            exact ofBpb_bounded h (Bpb.ofSector_narrow _) hlba
          · cases hprobe
    · cases hprobe

theorem detect_bounded {disk : Disk} {fs : FatFileSystem} (hdetect : detect disk = .ok fs) :
    fs.Bounded := by
  unfold detect at hdetect
  split at hdetect
  · next found hfound =>
      cases hdetect
      rcases List.exists_of_findSome?_eq_some hfound with ⟨lba, hmem, hprobe⟩
      exact probe_bounded (List.mem_range.mp hmem) hprobe
  · cases hdetect

/-! ## Directory and files -/

theorem listEntriesChecked_eq (data : List U8) (n i : ℕ) :
    listEntriesChecked data n i = .ok (listEntries data n i) := by
  induction n generalizing i with
  | zero => rfl
  | succ n ih =>
      unfold listEntriesChecked listEntries
      simp only
      by_cases hend : i * 32 + 32 > data.length
      · rw [if_pos hend, if_pos hend]
        rfl
      · rw [if_neg hend, if_neg hend, range_ok (by omega) (by omega), ok_bind,
          Nat.add_sub_cancel_left]
        set raw := slice data (i * 32) 32 with hraw
        have hlength : raw.length = 32 := by
          simp only [hraw, slice, List.length_take, List.length_drop]
          omega
        rw [index_ok (by omega), ok_bind]
        by_cases hfirst : byteAt raw 0 = 0x00
        · rw [if_pos hfirst, if_pos hfirst]
          rfl
        · rw [if_neg hfirst, if_neg hfirst, ih]
          by_cases hdeleted : byteAt raw 0 = 0xE5
          · rw [if_pos hdeleted, if_pos (.inl hdeleted)]
          · rw [if_neg hdeleted, index_ok (by omega), ok_bind]
            by_cases hlabel : byteAt raw 11 &&& 0x08 ≠ 0
            · rw [if_pos hlabel, if_pos (.inr (.inl hlabel))]
            · rw [if_neg hlabel, range_ok (by omega) (by omega), ok_bind,
                range_ok (by omega) (by omega), ok_bind, word_ok (by omega), ok_bind,
                dword_ok (by omega), ok_bind]
              by_cases hname : (parseEntry raw).name.isEmpty = true
              · have hskip : skipEntry raw := .inr (.inr hname)
                rw [if_pos hskip]
                exact if_pos hname
              · have hskip : ¬ skipEntry raw := by
                  rintro (h | h | h)
                  · exact hdeleted h
                  · exact hlabel h
                  · exact hname h
                rw [if_neg hskip]
                refine (if_neg hname).trans ?_
                rw [ok_bind, parseEntry, ← le32_eq, BitVec.ofNat_toNat, BitVec.setWidth_eq]
                rfl

theorem listRootDirChecked_eq {fs : FatFileSystem} (hbounded : fs.Bounded) (disk : Disk) :
    listRootDirChecked fs disk = .ok (fs.listRootDir disk) := by
  have hroot := hbounded.rootDirEntries
  unfold listRootDirChecked listRootDir
  rw [mul_ok (by omega), ok_bind, add_ok (by omega), ok_bind, readSectorsChecked_eq, ok_bind]
  simp only
  cases disk.readSectors fs.rootDirLba ((fs.rootDirEntries * 32 + 511) / 512) with
  | error e => rfl
  | ok data =>
      simp only
      rw [listEntriesChecked_eq, ok_bind]
      rfl

theorem getNextClusterChecked_eq {fs : FatFileSystem} (hbounded : fs.Bounded) (disk : Disk)
    (c : U16) : getNextClusterChecked fs disk c = .ok (fs.getNextCluster disk c) := by
  have hfat := hbounded.fatLba
  have hc := c.isLt
  unfold getNextClusterChecked getNextCluster
  by_cases hkind : (!fs.isFat12) = true
  · rw [if_pos hkind, if_pos hkind, mul_ok (by omega), ok_bind, add_ok (by omega), ok_bind,
      readSectorsChecked_eq, ok_bind]
    simp only
    cases hsector : disk.readSectors (fs.fatLba + c.toNat * 2 / 512) 1 with
    | error e => rfl
    | ok sector =>
        have hlength := readSectors_length hsector
        unfold sectorSize at hlength
        simp only
        rw [word_ok (by omega), ok_bind]
        rfl
  · rw [if_neg hkind, if_neg hkind, mul_ok (by omega), ok_bind]
    simp only
    rw [add_ok (by omega), ok_bind, readSectorsChecked_eq, ok_bind]
    cases hsector : disk.readSectors (fs.fatLba + c.toNat * 3 / 2 / 512) 2 with
    | error e => rfl
    | ok sector =>
        have hlength := readSectors_length hsector
        unfold sectorSize at hlength
        simp only
        rw [word_ok (by omega), ok_bind]
        rfl

section Loop

variable {fs : FatFileSystem} {disk : Disk} {size : ℕ}

theorem sectorsPerClusterPhys_lt (hbounded : fs.Bounded) :
    fs.sectorsPerCluster * fs.bytesPerSector < 2 ^ 20 ∧ fs.sectorsPerClusterPhys < 2 ^ 10 := by
  have hspc := hbounded.sectorsPerCluster
  have hmem := fs.bytesPerSector_mem
  simp only [List.mem_cons, List.not_mem_nil, or_false] at hmem
  have hproduct : fs.sectorsPerCluster * fs.bytesPerSector ≤ (2 ^ 8 - 1) * 2048 :=
    Nat.mul_le_mul (by omega) (by omega)
  unfold sectorsPerClusterPhys
  omega

theorem readLoopChecked_succ (hbounded : fs.Bounded) (rounds : ℕ) (c : U16) (data : List U8) :
    readLoopChecked fs disk size fs.sectorsPerClusterPhys (rounds + 1) c data =
      (readRound fs disk size c data).elim .ok fun next =>
        readLoopChecked fs disk size fs.sectorsPerClusterPhys rounds next.1 next.2 := by
  have hdata := hbounded.dataLba
  have hcluster := (sectorsPerClusterPhys_lt hbounded).2
  have hc := c.isLt
  have hoffset : (c.toNat - 2) * fs.sectorsPerClusterPhys ≤ (2 ^ 16 - 1) * (2 ^ 10 - 1) :=
    Nat.mul_le_mul (by omega) (by omega)
  unfold readRound
  rw [readLoopChecked]
  by_cases hfollows : fs.followsCluster c
  · rw [if_pos hfollows, if_pos hfollows, sub_ok hfollows.1, ok_bind, mul_ok (by omega), ok_bind,
      add_ok (by omega), ok_bind, readSectorsChecked_eq, ok_bind]
    cases disk.readSectors (fs.dataLba + (c.toNat - 2) * fs.sectorsPerClusterPhys)
        fs.sectorsPerClusterPhys with
    | error e => rfl
    | ok clusterData =>
        simp only
        by_cases hfull : (data ++ clusterData).length ≥ size
        · rw [if_pos hfull, if_pos hfull]
          rfl
        · rw [if_neg hfull, if_neg hfull, getNextClusterChecked_eq hbounded, ok_bind]
          cases fs.getNextCluster disk c <;> rfl
  · rw [if_neg hfollows, if_neg hfollows]
    rfl

/-- A round that goes on adds a whole cluster and stays below the size. -/
theorem readRound_adds {c next : U16} {data more : List U8}
    (hround : readRound fs disk size c data = .inr (next, more)) :
    more.length = data.length + fs.clusterBytes ∧ more.length < size := by
  by_cases hreadable : fs.Readable disk c
  · by_cases hfull : size ≤ data.length + fs.clusterBytes
    · rw [readRound_full hreadable hfull] at hround
      cases hround
    · have hbelow : data.length + fs.clusterBytes < size := Nat.lt_of_not_le hfull
      cases hnext : fs.getNextCluster disk c with
      | error e =>
          rw [readRound_error hreadable hbelow hnext] at hround
          cases hround
      | ok next' =>
          rw [readRound_next hreadable hbelow hnext] at hround
          cases hround
          have hlength := @appended_length _ _ _ data hreadable
          omega
  · rw [readRound_of_not_readable hreadable] at hround
    cases hround

/-- Rounds for the clusters that the size still calls for, and one more. -/
theorem readLoopChecked_eq (hbounded : fs.Bounded) {rounds fuel : ℕ} {c : U16} {data : List U8}
    (hle : data.length ≤ size) (hrounds : size ≤ data.length + rounds * fs.clusterBytes)
    (hfuel : size < fuel + data.length) :
    readLoopChecked fs disk size fs.sectorsPerClusterPhys (rounds + 1) c data =
      .ok (readLoop fs disk size fuel c data) := by
  induction rounds generalizing fuel c data with
  | zero =>
      rcases Nat.exists_eq_succ_of_ne_zero (show fuel ≠ 0 by omega) with ⟨fuel, rfl⟩
      rw [readLoopChecked_succ hbounded, readLoop_succ]
      cases hround : readRound fs disk size c data with
      | inl result => rfl
      | inr next =>
          have hadds := readRound_adds hround
          omega
  | succ rounds ih =>
      rcases Nat.exists_eq_succ_of_ne_zero (show fuel ≠ 0 by omega) with ⟨fuel, rfl⟩
      rw [readLoopChecked_succ hbounded, readLoop_succ]
      cases hround : readRound fs disk size c data with
      | inl result => rfl
      | inr next =>
          have hadds := readRound_adds hround
          have hpos := fs.clusterBytes_pos
          rw [Nat.add_mul, Nat.one_mul] at hrounds
          exact ih (by omega) (by omega) (by omega)

theorem readFileChecked_eq (hbounded : fs.Bounded) (entry : DirEntry) :
    readFileChecked fs disk entry (blocksFor fs.clusterBytes entry.size.toNat + 1) =
      .ok (fs.readFile disk entry) := by
  have hcovers := (blocksFor_le_iff fs.clusterBytes_pos).mp
    (Nat.le_refl (blocksFor fs.clusterBytes entry.size.toNat))
  unfold readFileChecked
  rw [mul_ok (by have hproduct := (sectorsPerClusterPhys_lt hbounded).1; omega), ok_bind]
  exact readLoopChecked_eq hbounded (Nat.zero_le _) (by simpa using hcovers) (by simp)

end Loop

/-- On every image and for every entry: no overflow, no index out of range, no more
rounds than clusters that the size calls for and one, and what is read is the
beginning of the clusters along the chain. -/
theorem reading_is_robust (disk : Disk) :
    detectChecked disk = .ok (detect disk) ∧
      ∀ fs, detect disk = .ok fs →
        listRootDirChecked fs disk = .ok (fs.listRootDir disk) ∧
          (∀ c, getNextClusterChecked fs disk c = .ok (fs.getNextCluster disk c)) ∧
          ∀ entry : DirEntry,
            readFileChecked fs disk entry (blocksFor fs.clusterBytes entry.size.toNat + 1) =
                .ok (fs.readFile disk entry) ∧
              ∀ data, fs.readFile disk entry = .ok data →
                data.length ≤ entry.size.toNat ∧
                  ∃ clusters, Along fs disk entry.firstCluster clusters ∧
                    data <+: clusters.flatMap (fs.clusterContent disk) := by
  refine ⟨detectChecked_eq disk, ?_⟩
  intro fs hdetect
  have hbounded := detect_bounded hdetect
  refine ⟨listRootDirChecked_eq hbounded disk, getNextClusterChecked_eq hbounded disk, ?_⟩
  intro entry
  refine ⟨readFileChecked_eq hbounded entry, ?_⟩
  intro data hread
  rcases readFile_along hread with ⟨clusters, halong, rfl⟩
  exact ⟨List.length_take_le _ _, clusters, halong, List.take_prefix _ _⟩

/-- The file in cluster 2 of the small volume takes two rounds at most. -/
theorem reading_is_robust_single :
    readFileChecked (singleVolume.fileSystem 0) (singleDisk 2) (singleFile 2).entry
        (blocksFor (singleVolume.fileSystem 0).clusterBytes (singleFile 2).entry.size.toNat + 1) =
      .ok ((singleVolume.fileSystem 0).readFile (singleDisk 2) (singleFile 2).entry) := by
  have hdetect := (singleVolume_onDisk 2).detect_eq (by decide)
    fun _ hlt => absurd hlt (Nat.not_lt_zero _)
  have hrobust := (reading_is_robust (singleDisk 2)).2 _ hdetect
  exact (hrobust.2.2 (singleFile 2).entry).1

end FatFileSystem

end Kita98
