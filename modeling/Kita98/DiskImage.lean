import Kita98.Checked

/-!
# Opening a disk image

The geometry is read from one of two headers, or assumed.  The fields of the HDI
header are each guarded by the length of the image; those of the T98 header are
not, so an image that ends inside it makes the code panic.
-/

namespace Kita98

open Disk Checked

/-! ## The header -/

/-- `T98HDDIMAGE.R0` and a zero byte -/
def t98Magic : List U8 :=
  [0x54, 0x39, 0x38, 0x48, 0x44, 0x44, 0x49, 0x4D, 0x41, 0x47, 0x45, 0x2E, 0x52, 0x30, 0x00]

/-- `HDI` and a zero byte -/
def hdiMagic : List U8 := [0x48, 0x44, 0x49, 0x00]

def hdrSizeStandard : ℕ := 4096

def hdrSizeT98 : ℕ := 0x110

structure Geometry where
  headerOffset : ℕ
  cylinders : U16
  heads : U8
  sectorsPerTrack : U8
  deriving DecidableEq, Repr

def isT98 (data : List U8) : Prop := data.length ≥ 16 ∧ slice data 0 15 = t98Magic

instance (data : List U8) : Decidable (isT98 data) := by
  unfold isT98
  infer_instance

def isHdi (data : List U8) : Prop := data.length ≥ 4 ∧ slice data 0 4 = hdiMagic

instance (data : List U8) : Decidable (isHdi data) := by
  unfold isHdi
  infer_instance

def t98Geometry (data : List U8) : Checked Geometry := do
  let spt ← word data 0x12
  let heads ← word data 0x14
  let cyls ← word data 0x16
  return ⟨hdrSizeT98, cyls, heads.setWidth 8, spt.setWidth 8⟩

/-- A field of the HDI header, or its default where the image ends before it. -/
def hdiField {α : Type} (data : List U8) (length place : ℕ) (ofField : U32 → α) (default : α) :
    Checked α :=
  if data.length ≥ length then do
    let field ← dword data place
    return ofField field
  else return default

def hdiGeometry (data : List U8) : Checked Geometry := do
  let hdrSz ← hdiField data 14 0x0A BitVec.toNat hdrSizeStandard
  let spt ← hdiField data 0x16 0x12 (BitVec.setWidth 8) 17
  let heads ← hdiField data 0x1A 0x16 (BitVec.setWidth 8) 8
  let cyls ← hdiField data 0x1E 0x1A (BitVec.setWidth 16) 615
  return ⟨hdrSz, cyls, heads, spt⟩

def detectGeometry (data : List U8) : Checked Geometry :=
  if isT98 data then t98Geometry data
  else if isHdi data then hdiGeometry data
  else return ⟨0, 615, 8, 17⟩

inductive ImageError where
  | unreadable
  | empty
  deriving DecidableEq, Repr

/-- The disk on an image with a known geometry. -/
def Disk.ofGeometry (data : List U8) (geometry : Geometry) : Disk where
  data := data
  headerOffset := geometry.headerOffset
  totalSectors := (data.length - geometry.headerOffset) / sectorSize
  cylinders := geometry.cylinders
  heads := geometry.heads
  sectorsPerTrack := geometry.sectorsPerTrack

/-- `Disk::load`; the argument is what `fs::read` yields. -/
def Disk.load (file : Option (List U8)) : Checked (Except ImageError Disk) :=
  match file with
  | none => return .error .unreadable
  | some data =>
      if data.isEmpty then return .error .empty
      else do
        let geometry ← detectGeometry data
        return .ok (Disk.ofGeometry data geometry)

/-! ## Where the header is read -/

theorem hdiField_returns {α : Type} (data : List U8) {length place : ℕ} (ofField : U32 → α)
    (default : α) (hguard : place + 4 ≤ length) :
    ∃ a, hdiField data length place ofField default = .ok a := by
  unfold hdiField
  by_cases hlong : data.length ≥ length
  · rw [if_pos hlong, dword_ok (by omega), ok_bind]
    exact ⟨_, rfl⟩
  · rw [if_neg hlong]
    exact ⟨_, rfl⟩

theorem hdiGeometry_returns (data : List U8) : ∃ geometry, hdiGeometry data = .ok geometry := by
  rcases hdiField_returns data BitVec.toNat hdrSizeStandard (by decide : 0x0A + 4 ≤ 14)
    with ⟨hdrSz, hhdrSz⟩
  rcases hdiField_returns data (BitVec.setWidth 8) 17 (by decide : 0x12 + 4 ≤ 0x16)
    with ⟨spt, hspt⟩
  rcases hdiField_returns data (BitVec.setWidth 8) 8 (by decide : 0x16 + 4 ≤ 0x1A)
    with ⟨heads, hheads⟩
  rcases hdiField_returns data (BitVec.setWidth 16) 615 (by decide : 0x1A + 4 ≤ 0x1E)
    with ⟨cyls, hcyls⟩
  rw [hdiGeometry, hhdrSz, ok_bind, hspt, ok_bind, hheads, ok_bind, hcyls, ok_bind]
  exact ⟨_, rfl⟩

theorem t98Geometry_returns {data : List U8} (hlong : 24 ≤ data.length) :
    ∃ geometry, t98Geometry data = .ok geometry := by
  rw [t98Geometry, word_ok (by omega), ok_bind, word_ok (by omega), ok_bind,
    word_ok (by omega), ok_bind]
  exact ⟨_, rfl⟩

/-- The guard of the header lets images through that end before its last field. -/
theorem t98Geometry_fails {data : List U8} (hguard : 16 ≤ data.length)
    (hshort : data.length < 24) : t98Geometry data = .error .bounds := by
  have hcyls : word data 0x16 = .error .bounds := word_error (by omega)
  unfold t98Geometry
  by_cases hspt : data.length ≤ 0x13
  · rw [word_error hspt, error_bind]
  · rw [word_ok (by omega), ok_bind]
    by_cases hheads : data.length ≤ 0x15
    · rw [word_error hheads, error_bind]
    · rw [word_ok (by omega), ok_bind, hcyls, error_bind]

/-- A T98 header that the image does not hold to its end. -/
def CutT98 (data : List U8) : Prop := isT98 data ∧ data.length < 24

instance (data : List U8) : Decidable (CutT98 data) := by
  unfold CutT98
  infer_instance

theorem detectGeometry_fails {data : List U8} (hcut : CutT98 data) :
    detectGeometry data = .error .bounds := by
  rw [detectGeometry, if_pos hcut.1, t98Geometry_fails hcut.1.1 hcut.2]

theorem detectGeometry_returns {data : List U8} (hcut : ¬ CutT98 data) :
    ∃ geometry, detectGeometry data = .ok geometry := by
  unfold detectGeometry
  by_cases ht98 : isT98 data
  · rw [if_pos ht98]
    apply t98Geometry_returns
    by_contra hshort
    exact hcut ⟨ht98, Nat.lt_of_not_le hshort⟩
  · rw [if_neg ht98]
    by_cases hhdi : isHdi data
    · rw [if_pos hhdi]
      exact hdiGeometry_returns data
    · rw [if_neg hhdi]
      exact ⟨_, rfl⟩

/-! ## Which sectors can be read -/

/-- The sectors count from the end of the header; an image that is shorter than
its header has none. -/
theorem ofGeometry_succeeds_iff (data : List U8) (geometry : Geometry) {lba count : ℕ}
    (hcount : 1 ≤ count) :
    (∃ bytes, (Disk.ofGeometry data geometry).readSectors lba count = .ok bytes) ↔
      lba + count ≤ (Disk.ofGeometry data geometry).totalSectors := by
  have hpos : 1 * sectorSize ≤ (lba + count) * sectorSize :=
    Nat.mul_le_mul_right _ (by omega)
  rw [← holds_iff]
  simp only [Holds, Disk.ofGeometry, Nat.le_div_iff_mul_le (show 0 < sectorSize by decide)]
  have hsize : sectorSize = 512 := rfl
  omega

/-- Opening returns a disk on the whole image, which reads just the sectors that
it counts, each from its place behind the header. -/
def OpensSafely (data : List U8) : Prop :=
  ∃ disk, Disk.load (some data) = .ok (.ok disk) ∧ disk.data = data ∧
    ∀ lba count, 1 ≤ count →
      ((∃ bytes, disk.readSectors lba count = .ok bytes) ↔ lba + count ≤ disk.totalSectors) ∧
        ∀ bytes, disk.readSectors lba count = .ok bytes →
          bytes = slice (data.drop disk.headerOffset) (lba * sectorSize) (count * sectorSize)

theorem load_eq {data : List U8} (hnonempty : data ≠ []) :
    Disk.load (some data) =
      (detectGeometry data >>= fun geometry => return .ok (Disk.ofGeometry data geometry)) := by
  simp [Disk.load, hnonempty]

theorem opensSafely_iff {data : List U8} (hnonempty : data ≠ []) :
    OpensSafely data ↔ ¬ CutT98 data := by
  unfold OpensSafely
  rw [load_eq hnonempty]
  constructor
  · rintro ⟨disk, hload, -⟩ hcut
    rw [detectGeometry_fails hcut] at hload
    cases hload
  · intro hcut
    rcases detectGeometry_returns hcut with ⟨geometry, hgeometry⟩
    rw [hgeometry, ok_bind]
    refine ⟨_, rfl, rfl, ?_⟩
    intro lba count hcount
    refine ⟨ofGeometry_succeeds_iff data geometry hcount, ?_⟩
    intro bytes hread
    rw [(readSectors_ok_iff.mp hread).2, slice, slice, List.drop_drop]
    rfl

/-- A T98 header of a drive with 40 cylinders, 2 heads and 8 sectors a track, and one
sector. -/
def t98Image : List U8 :=
  t98Magic ++ [0, 0x00, 0x02, 8, 0, 2, 0, 40, 0] ++ List.replicate 248 0 ++ List.replicate 512 0xE5

theorem opensSafely_t98 : OpensSafely t98Image ↔ ¬ CutT98 t98Image :=
  opensSafely_iff (List.cons_ne_nil _ _)

/-- The magic and one more byte make an image that panics on being opened. -/
theorem cut_header_panics :
    Disk.load (some (t98Magic ++ [0])) = .error .bounds ∧ ¬ OpensSafely (t98Magic ++ [0]) := by
  have hcut : CutT98 (t98Magic ++ [0]) := by decide
  have hload : Disk.load (some (t98Magic ++ [0])) = .error .bounds := by
    rw [load_eq (by simp), detectGeometry_fails hcut, error_bind]
  refine ⟨hload, ?_⟩
  rintro ⟨disk, hdisk, -⟩
  rw [hload] at hdisk
  cases hdisk

end Kita98
