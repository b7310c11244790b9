import Kita98.Regs

/-!
# Disk images

A disk is the bytes of its image behind a header of known length, read in
sectors of 512 bytes.
-/

namespace Kita98

/-- The failures the code reports with `bail!` or `context`. -/
inductive Error where
  | readOutOfRange (lba count size : ℕ)
  | noFatFilesystem
  | noEntrypoint
  | notMz
  | noDisk
  | invalidHandle (handle : U16)
  | invalidWhence
  | host
  deriving DecidableEq, Repr

def sectorSize : ℕ := 512

structure Disk where
  data : List U8
  headerOffset : ℕ
  totalSectors : ℕ
  cylinders : U16
  heads : U8
  sectorsPerTrack : U8

namespace Disk

/-- `data[start..start + len]` -/
def slice (data : List U8) (start len : ℕ) : List U8 :=
  (data.drop start).take len

/-- `data[i]`, where the index is in range. -/
def byteAt (data : List U8) (i : ℕ) : U8 := data.getD i 0

def chsToLba (disk : Disk) (cylinder : U16) (head sector : U8) : ℕ :=
  let spt := disk.sectorsPerTrack.toNat
  let heads := disk.heads.toNat
  cylinder.toNat * heads * spt + head.toNat * spt + (sector.toNat - 1)

def readSectors (disk : Disk) (lba count : ℕ) : Except Error (List U8) :=
  let start := disk.headerOffset + lba * sectorSize
  let len := count * sectorSize
  if start + len > disk.data.length then
    .error (.readOutOfRange lba count disk.data.length)
  else .ok (slice disk.data start len)

theorem readSectors_ok_iff
    {disk : Disk} {lba count : ℕ} {bytes : List U8} :
    disk.readSectors lba count = .ok bytes ↔
      disk.headerOffset + lba * sectorSize + count * sectorSize ≤ disk.data.length ∧
        bytes = slice disk.data (disk.headerOffset + lba * sectorSize)
          (count * sectorSize) := by
  unfold readSectors
  by_cases hfit :
      disk.headerOffset + lba * sectorSize + count * sectorSize ≤ disk.data.length
  · simp [hfit, not_lt.mpr hfit, eq_comm]
  · simp [hfit, not_le.mp hfit]

/-- The sectors lie inside the image. -/
def Holds (disk : Disk) (lba count : ℕ) : Prop :=
  disk.headerOffset + (lba + count) * sectorSize ≤ disk.data.length

instance (disk : Disk) (lba count : ℕ) : Decidable (disk.Holds lba count) := by
  unfold Holds
  infer_instance

theorem holds_iff {disk : Disk} {lba count : ℕ} :
    disk.Holds lba count ↔ ∃ bytes, disk.readSectors lba count = .ok bytes := by
  simp only [Holds, readSectors_ok_iff, exists_and_left, exists_eq, and_true, Nat.add_mul,
    Nat.add_assoc]

theorem readSectors_length
    {disk : Disk} {lba count : ℕ} {bytes : List U8}
    (hread : disk.readSectors lba count = .ok bytes) :
    bytes.length = count * sectorSize := by
  rcases readSectors_ok_iff.mp hread with ⟨hfit, rfl⟩
  simp only [slice, List.length_take, List.length_drop]
  omega

end Disk

end Kita98
