import Kita98.DiskAddressing
import Kita98.DiskImage
import Kita98.FatRoundTrip

/-!
# Disk images and what they hold

An image written in one of the three formats, with sectors behind its header, opens
as a disk of the drive it was written for: its sectors are read back, by number and
by the BIOS.
-/

namespace Kita98

open WordBits Disk Checked

/-! ## Sectors in a row -/

section Blocks

variable {α β : Type} {n : ℕ} {f : α → List β}

theorem drop_flatMap (hlen : ∀ x, (f x).length = n) (l : List α) (k : ℕ) :
    (l.flatMap f).drop (k * n) = (l.drop k).flatMap f := by
  induction k generalizing l with
  | zero => simp
  | succ k ih =>
      cases l with
      | nil => simp
      | cons x l =>
          have hlength : (k + 1) * n = (f x).length + k * n := by
            rw [hlen, Nat.succ_mul, Nat.add_comm]
          rw [List.flatMap_cons, hlength, List.drop_length_add_append, List.drop_succ_cons, ih]

theorem take_flatMap (hlen : ∀ x, (f x).length = n) (l : List α) (k : ℕ) :
    (l.flatMap f).take (k * n) = (l.take k).flatMap f := by
  induction k generalizing l with
  | zero => simp
  | succ k ih =>
      cases l with
      | nil => simp
      | cons x l =>
          have hlength : (k + 1) * n = (f x).length + k * n := by
            rw [hlen, Nat.succ_mul, Nat.add_comm]
          rw [List.flatMap_cons, hlength, List.take_length_add_append, List.take_succ_cons,
            List.flatMap_cons, ih]

end Blocks

/-- The bytes of one sector. -/
structure Sector where
  bytes : List U8
  length_eq : bytes.length = sectorSize

def sectorBytes (sectors : List Sector) : List U8 := sectors.flatMap Sector.bytes

theorem sectorBytes_length (sectors : List Sector) :
    (sectorBytes sectors).length = sectors.length * sectorSize :=
  flatMap_length Sector.length_eq sectors

theorem slice_sectorBytes (sectors : List Sector) (first count : ℕ) :
    slice (sectorBytes sectors) (first * sectorSize) (count * sectorSize) =
      sectorBytes ((sectors.drop first).take count) := by
  unfold slice sectorBytes
  rw [drop_flatMap Sector.length_eq, take_flatMap Sector.length_eq]

/-! ## Formats -/

/-- The drive that an image is of. -/
structure DriveShape where
  cylinders : U16
  heads : U8
  sectorsPerTrack : U8
  deriving DecidableEq, Repr

def DriveShape.standard : DriveShape := ⟨615, 8, 17⟩

/-- The formats, with the bytes between the last field of a header and its end. -/
inductive ImageFormat where
  | raw
  | hdi (filler : List U8) (hsize : 30 + filler.length < 2 ^ 32)
  | t98 (filler : List U8) (hsize : 24 + filler.length = hdrSizeT98)

/-- Magic, disk type, header size, sector size, sectors per track, heads and
cylinders. -/
def hdiFields (size : U32) (shape : DriveShape) : List U8 :=
  hdiMagic ++ [0, 0, 0, 0, 0, 0] ++ doubleBytes size ++ doubleBytes 512 ++
    doubleBytes (shape.sectorsPerTrack.setWidth 32) ++ doubleBytes (shape.heads.setWidth 32) ++
      doubleBytes (shape.cylinders.setWidth 32)

/-- Magic, sector size, sectors per track, heads and cylinders. -/
def t98Fields (shape : DriveShape) : List U8 :=
  t98Magic ++ [0] ++ wordBytes 512 ++ wordBytes (shape.sectorsPerTrack.setWidth 16) ++
    wordBytes (shape.heads.setWidth 16) ++ wordBytes shape.cylinders

namespace ImageFormat

def header (shape : DriveShape) : ImageFormat → List U8
  | raw => []
  | hdi filler _ => hdiFields (BitVec.ofNat 32 (30 + filler.length)) shape ++ filler
  | t98 filler _ => t98Fields shape ++ filler

/-- A raw image has no header to tell the drive, and must not look as if it had one. -/
def Carries (shape : DriveShape) (body : List U8) : ImageFormat → Prop
  | raw => shape = .standard ∧ body ≠ [] ∧ ¬ isT98 body ∧ ¬ isHdi body
  | _ => True

def image (format : ImageFormat) (shape : DriveShape) (body : List U8) : List U8 :=
  format.header shape ++ body

def geometry (format : ImageFormat) (shape : DriveShape) : Geometry :=
  ⟨(format.header shape).length, shape.cylinders, shape.heads, shape.sectorsPerTrack⟩

end ImageFormat

/-! ## The geometry of an image -/

theorem leWord_wordBytes (v : U16) (rest : List U8) : leWord (wordBytes v ++ rest) 0 = v :=
  joinBytes_low_high v

theorem leDword_doubleBytes (v : U32) (rest : List U8) :
    leDword (doubleBytes v ++ rest) 0 = v := by
  have hlow : leWord (doubleBytes v ++ rest) 0 = v.setWidth 16 := joinBytes_low_high _
  have hhigh : leWord (doubleBytes v ++ rest) 2 = (v >>> 16).setWidth 16 := joinBytes_low_high _
  have hbound := (v.setWidth 16).isLt
  apply BitVec.eq_of_toNat_eq
  rw [leDword, hlow, hhigh, BitVec.toNat_append, ← Nat.shiftLeft_add_eq_or_of_lt hbound,
    Nat.shiftLeft_eq]
  simp only [BitVec.toNat_setWidth, BitVec.toNat_ushiftRight, Nat.shiftRight_eq_div_pow]
  omega

theorem hdiField_ok {α : Type} {data : List U8} {length place : ℕ} (ofField : U32 → α)
    (default : α) (hlong : length ≤ data.length) (hguard : place + 4 ≤ length) :
    hdiField data length place ofField default = .ok (ofField (leDword data place)) := by
  rw [hdiField, if_pos hlong, dword_ok (by omega), ok_bind]
  rfl

theorem not_isT98_hdi (size : U32) (shape : DriveShape) (rest : List U8) :
    ¬ isT98 (hdiFields size shape ++ rest) := by
  rintro ⟨-, hmagic⟩
  have hfirst : byteAt (hdiFields size shape ++ rest) 0 = byteAt t98Magic 0 := by
    rw [← hmagic]
    rfl
  have hdiffer : byteAt hdiMagic 0 ≠ byteAt t98Magic 0 := by decide
  exact hdiffer hfirst

theorem hdiGeometry_fields (size : U32) (shape : DriveShape) (rest : List U8) :
    hdiGeometry (hdiFields size shape ++ rest) =
      .ok ⟨size.toNat, shape.cylinders, shape.heads, shape.sectorsPerTrack⟩ := by
  have hlength : (hdiFields size shape ++ rest).length = 30 + rest.length := by
    rw [List.length_append]
    rfl
  have hsize : leDword (hdiFields size shape ++ rest) 0x0A = size := leDword_doubleBytes _ rest
  have hspt : leDword (hdiFields size shape ++ rest) 0x12 = shape.sectorsPerTrack.setWidth 32 :=
    leDword_doubleBytes _ rest
  have hheads : leDword (hdiFields size shape ++ rest) 0x16 = shape.heads.setWidth 32 :=
    leDword_doubleBytes _ rest
  have hcyls : leDword (hdiFields size shape ++ rest) 0x1A = shape.cylinders.setWidth 32 :=
    leDword_doubleBytes _ rest
  unfold hdiGeometry
  rw [hdiField_ok _ _ (by omega) (by decide), ok_bind, hdiField_ok _ _ (by omega) (by decide),
    ok_bind, hdiField_ok _ _ (by omega) (by decide), ok_bind,
    hdiField_ok _ _ (by omega) (by decide), ok_bind, hsize, hspt, hheads, hcyls]
  simp [pure, Except.pure]

theorem t98Geometry_fields (shape : DriveShape) (rest : List U8) :
    t98Geometry (t98Fields shape ++ rest) =
      .ok ⟨hdrSizeT98, shape.cylinders, shape.heads, shape.sectorsPerTrack⟩ := by
  have hlength : (t98Fields shape ++ rest).length = 24 + rest.length := by
    rw [List.length_append]
    rfl
  have hspt : leWord (t98Fields shape ++ rest) 0x12 = shape.sectorsPerTrack.setWidth 16 :=
    leWord_wordBytes _ rest
  have hheads : leWord (t98Fields shape ++ rest) 0x14 = shape.heads.setWidth 16 :=
    leWord_wordBytes _ rest
  have hcyls : leWord (t98Fields shape ++ rest) 0x16 = shape.cylinders := leWord_wordBytes _ rest
  unfold t98Geometry
  rw [word_ok (by omega), ok_bind, word_ok (by omega), ok_bind, word_ok (by omega), ok_bind,
    hspt, hheads, hcyls]
  simp [pure, Except.pure]

theorem detectGeometry_image {format : ImageFormat} {shape : DriveShape} {body : List U8}
    (hcarries : format.Carries shape body) :
    detectGeometry (format.image shape body) = .ok (format.geometry shape) := by
  cases format with
  | raw =>
      rcases hcarries with ⟨rfl, -, ht98, hhdi⟩
      have himage : ImageFormat.raw.image .standard body = body := rfl
      rw [himage, detectGeometry, if_neg ht98, if_neg hhdi]
      rfl
  | hdi filler hsize =>
      have himage : (ImageFormat.hdi filler hsize).image shape body =
          hdiFields (BitVec.ofNat 32 (30 + filler.length)) shape ++ (filler ++ body) :=
        List.append_assoc _ _ _
      have hhdi : isHdi (hdiFields (BitVec.ofNat 32 (30 + filler.length)) shape ++
          (filler ++ body)) := by
        refine ⟨?_, rfl⟩
        rw [List.length_append]
        exact Nat.le_add_right_of_le (by decide : 4 ≤ 30)
      have hheader : ((ImageFormat.hdi filler hsize).header shape).length = 30 + filler.length :=
        List.length_append
      rw [himage, detectGeometry, if_neg (not_isT98_hdi _ _ _), if_pos hhdi, hdiGeometry_fields,
        ImageFormat.geometry, hheader, BitVec.toNat_ofNat, Nat.mod_eq_of_lt hsize]
  | t98 filler hsize =>
      have himage : (ImageFormat.t98 filler hsize).image shape body =
          t98Fields shape ++ (filler ++ body) := List.append_assoc _ _ _
      have ht98 : isT98 (t98Fields shape ++ (filler ++ body)) := by
        refine ⟨?_, rfl⟩
        rw [List.length_append]
        exact Nat.le_add_right_of_le (by decide : 16 ≤ 24)
      have hheader : ((ImageFormat.t98 filler hsize).header shape).length = hdrSizeT98 := by
        rw [← hsize]
        exact List.length_append
      rw [himage, detectGeometry, if_pos ht98, t98Geometry_fields, ImageFormat.geometry, hheader]

/-! ## The disk of an image -/

/-- The disk is of the drive and holds the sectors, each under its number. -/
structure Disk.Presents (disk : Disk) (shape : DriveShape) (sectors : List Sector) : Prop where
  shape_eq : (⟨disk.cylinders, disk.heads, disk.sectorsPerTrack⟩ : DriveShape) = shape
  total_eq : disk.totalSectors = sectors.length
  holds_iff : ∀ lba count, disk.Holds lba count ↔ lba + count ≤ sectors.length
  slice_eq : ∀ lba count, slice disk.data (disk.headerOffset + lba * sectorSize)
    (count * sectorSize) = sectorBytes ((sectors.drop lba).take count)

theorem image_ne_nil {format : ImageFormat} {shape : DriveShape} {body : List U8}
    (hcarries : format.Carries shape body) : format.image shape body ≠ [] := by
  cases format with
  | raw => exact hcarries.2.1
  | hdi filler hsize => exact List.cons_ne_nil _ _
  | t98 filler hsize => exact List.cons_ne_nil _ _

theorem load_image {format : ImageFormat} {shape : DriveShape} {body : List U8}
    (hcarries : format.Carries shape body) :
    Disk.load (some (format.image shape body)) =
      .ok (.ok (Disk.ofGeometry (format.image shape body) (format.geometry shape))) := by
  rw [load_eq (image_ne_nil hcarries), detectGeometry_image hcarries, ok_bind]
  rfl

theorem presents_image (format : ImageFormat) (shape : DriveShape) (sectors : List Sector) :
    (Disk.ofGeometry (format.image shape (sectorBytes sectors)) (format.geometry shape)).Presents
      shape sectors := by
  have hsize : 0 < sectorSize := by decide
  have hlength : (format.image shape (sectorBytes sectors)).length =
      (format.header shape).length + sectors.length * sectorSize := by
    rw [ImageFormat.image, List.length_append, sectorBytes_length]
  constructor
  · rfl
  · simp only [Disk.ofGeometry, ImageFormat.geometry, hlength, Nat.add_sub_cancel_left,
      Nat.mul_div_cancel _ hsize]
  · intro lba count
    simp only [Disk.Holds, Disk.ofGeometry, ImageFormat.geometry, hlength,
      Nat.add_le_add_iff_left, Nat.mul_le_mul_right_iff hsize]
  · intro lba count
    rw [← slice_sectorBytes]
    simp only [Disk.ofGeometry, ImageFormat.geometry, ImageFormat.image, slice,
      List.drop_length_add_append]

/-! ## The guest reads the image -/

/-- The guest asks for sectors that are all there and finds them at ES:BX, or is told
that they are not. -/
def ReadsBack (sectors : List Sector) (shape : DriveShape) (core : Core) : Prop :=
  let regs := core.cpu.regs
  let chs := Chs.ofRegs regs
  let first := (chs.cylinder.toNat * shape.heads.toNat + chs.head.toNat) *
    shape.sectorsPerTrack.toNat + (chs.sector.toNat - 1)
  let count := (regs.get8 .AL).toNat
  ∃ after, handleInt13 core = .ok ((), after) ∧
    if first + count ≤ sectors.length then
      CopiedTo core.bus.mem after.bus.mem (16 * (regs.getSeg .ES).toNat + (regs.get16 .BX).toNat)
        (sectorBytes ((sectors.drop first).take count)) ∧ after.cpu.regs.getCf = false
    else after.bus.mem = core.bus.mem ∧ after.cpu.regs.getCf = true

theorem Disk.Presents.readsBack {disk : Disk} {shape : DriveShape} {sectors : List Sector}
    (hpresents : disk.Presents shape sectors) {core : Core} (hdisk : core.bus.disk = some disk)
    (hah : core.cpu.regs.get8 .AH = 0x02) : ReadsBack sectors shape core := by
  have hlba : ∀ chs : Chs, chs.lba disk = (chs.cylinder.toNat * shape.heads.toNat +
      chs.head.toNat) * shape.sectorsPerTrack.toNat + (chs.sector.toNat - 1) := by
    intro chs
    rw [← hpresents.shape_eq, Nat.add_mul]
    rfl
  rcases int13_readsSectors hah with ⟨after, hafter, hread | hrefused⟩
  · rcases hread with ⟨disk', hsame, hholds, hcopied, -, -, hcf⟩
    cases hdisk.symm.trans hsame
    rw [hlba, hpresents.holds_iff] at hholds
    rw [hlba, hpresents.slice_eq] at hcopied
    refine ⟨after, hafter, ?_⟩
    rw [if_pos hholds]
    exact ⟨hcopied, hcf⟩
  · rcases hrefused with ⟨hnone, hmem, -, hcf⟩
    have houtside := hnone disk hdisk
    rw [hlba, hpresents.holds_iff] at houtside
    refine ⟨after, hafter, ?_⟩
    rw [if_neg houtside]
    exact ⟨hmem, hcf⟩

/-- What is written as an image is what the guest of a machine with that image reads:
the drive and every sector of it, whichever of the formats the image is in. -/
theorem image_round_trips {format : ImageFormat} {shape : DriveShape} {sectors : List Sector}
    (hcarries : format.Carries shape (sectorBytes sectors)) :
    ∃ disk, Disk.load (some (format.image shape (sectorBytes sectors))) = .ok (.ok disk) ∧
      disk.Presents shape sectors ∧
      ∀ core : Core, core.bus.disk = some disk → core.cpu.regs.get8 .AH = 0x02 →
        ReadsBack sectors shape core :=
  ⟨_, load_image hcarries, presents_image format shape sectors,
    fun _ => (presents_image format shape sectors).readsBack⟩

def zeroSector : Sector := ⟨List.replicate sectorSize 0, List.length_replicate⟩

/-- A raw image with two sectors. -/
theorem image_round_trips_raw :
    ∃ disk, Disk.load (some (ImageFormat.raw.image .standard
        (sectorBytes [zeroSector, zeroSector]))) = .ok (.ok disk) ∧
      disk.Presents .standard [zeroSector, zeroSector] ∧
      ∀ core : Core, core.bus.disk = some disk → core.cpu.regs.get8 .AH = 0x02 →
        ReadsBack [zeroSector, zeroSector] .standard core := by
  have hfirst : ∀ n, byteAt (slice (sectorBytes [zeroSector, zeroSector]) 0 (n + 1)) 0 = 0 :=
    fun _ => rfl
  refine image_round_trips ⟨rfl, List.cons_ne_nil _ _, ?_, ?_⟩
  · rintro ⟨-, hmagic⟩
    have hzero := hfirst 14
    rw [hmagic] at hzero
    exact absurd hzero (by decide)
  · rintro ⟨-, hmagic⟩
    have hzero := hfirst 3
    rw [hmagic] at hzero
    exact absurd hzero (by decide)

end Kita98
