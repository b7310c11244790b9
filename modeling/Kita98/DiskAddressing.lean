import Kita98.Checked
import Kita98.MemoryHistory
import Kita98.MixedRadix
import Kita98.ServiceReports
import Kita98.WriteBack

/-!
# BIOS disk addressing

Cylinder, head and sector are the digits of the sector number.  The read service
takes them from CH, CL and DH, and the parameter service packs the last of each
in the same way.
-/

namespace Kita98

open WordBits Disk Exec Checked MixedRadix

/-! ## Cylinder, head and sector -/

/-- `chs_to_lba` with its 32-bit operations. -/
def Disk.chsToLbaChecked (disk : Disk) (cylinder : U16) (head sector : U8) : Checked ℕ := do
  let spt := disk.sectorsPerTrack.toNat
  let heads := disk.heads.toNat
  let tracks ← mul cylinder.toNat heads
  let before ← mul tracks spt
  let within ← mul head.toNat spt
  let lba ← add before within
  add lba (sector.toNat - 1)

structure Chs where
  cylinder : U16
  head : U8
  sector : U8
  deriving DecidableEq, Repr

namespace Chs

/-- The head and the sector exist in the geometry; sectors count from 1. -/
def Addresses (chs : Chs) (disk : Disk) : Prop :=
  chs.head.toNat < disk.heads.toNat ∧ 1 ≤ chs.sector.toNat ∧
    chs.sector.toNat ≤ disk.sectorsPerTrack.toNat

def lba (disk : Disk) (chs : Chs) : ℕ := disk.chsToLba chs.cylinder chs.head chs.sector

def digits (chs : Chs) : List ℕ :=
  [chs.cylinder.toNat, chs.head.toNat, chs.sector.toNat - 1]

def Precedes (chs chs' : Chs) : Prop :=
  chs.cylinder < chs'.cylinder ∨ chs.cylinder = chs'.cylinder ∧
    (chs.head < chs'.head ∨ chs.head = chs'.head ∧ chs.sector < chs'.sector)

end Chs

def Disk.radices (disk : Disk) : List ℕ :=
  [2 ^ 16, disk.heads.toNat, disk.sectorsPerTrack.toNat]

section Addressing

variable {disk : Disk}

theorem chsToLbaChecked_eq (cylinder : U16) (head sector : U8) :
    disk.chsToLbaChecked cylinder head sector = .ok (disk.chsToLba cylinder head sector) := by
  have hcylinder := cylinder.isLt
  have hhead := head.isLt
  have hsector := sector.isLt
  have hheads := disk.heads.isLt
  have hspt := disk.sectorsPerTrack.isLt
  have htracks : cylinder.toNat * disk.heads.toNat ≤ 65535 * 255 :=
    Nat.mul_le_mul (by omega) (by omega)
  have hbefore : cylinder.toNat * disk.heads.toNat * disk.sectorsPerTrack.toNat ≤
      65535 * 255 * 255 := Nat.mul_le_mul htracks (by omega)
  have hwithin : head.toNat * disk.sectorsPerTrack.toNat ≤ 255 * 255 :=
    Nat.mul_le_mul (by omega) (by omega)
  unfold Disk.chsToLbaChecked
  simp only
  rw [mul_ok (by omega), ok_bind, mul_ok (by omega), ok_bind, mul_ok (by omega), ok_bind,
    add_ok (by omega), ok_bind, add_ok (by omega)]
  rfl

theorem lba_eq_value (chs : Chs) : chs.lba disk = value disk.radices chs.digits := by
  simp [Chs.lba, Disk.chsToLba, Disk.radices, Chs.digits, value, capacity, Nat.mul_assoc,
    Nat.add_assoc]

theorem fits_digits {chs : Chs} (haddresses : chs.Addresses disk) :
    Fits disk.radices chs.digits := by
  rcases haddresses with ⟨hhead, hfirst, hlast⟩
  exact ⟨chs.cylinder.isLt, hhead, by omega, trivial⟩

theorem digits_lt_iff {chs chs' : Chs} (haddresses : chs.Addresses disk)
    (haddresses' : chs'.Addresses disk) :
    chs.digits < chs'.digits ↔ chs.Precedes chs' := by
  have hsector : chs.sector.toNat - 1 < chs'.sector.toNat - 1 ↔ chs.sector < chs'.sector := by
    have hfirst := haddresses.2.1
    have hfirst' := haddresses'.2.1
    rw [BitVec.lt_def]
    omega
  simp only [Chs.digits, List.cons_lt_cons_iff, hsector, List.not_lt_nil, and_false, or_false,
    Chs.Precedes, BitVec.lt_def, BitVec.toNat_inj]

theorem lba_lt_iff {chs chs' : Chs} (haddresses : chs.Addresses disk)
    (haddresses' : chs'.Addresses disk) :
    chs.lba disk < chs'.lba disk ↔ chs.Precedes chs' := by
  rw [lba_eq_value, lba_eq_value, value_lt_iff (fits_digits haddresses) (fits_digits haddresses'),
    digits_lt_iff haddresses haddresses']

theorem digits_inj {chs chs' : Chs} (haddresses : chs.Addresses disk)
    (haddresses' : chs'.Addresses disk) (heq : chs.digits = chs'.digits) : chs = chs' := by
  have hfirst := haddresses.2.1
  have hfirst' := haddresses'.2.1
  rcases chs with ⟨cylinder, head, sector⟩
  rcases chs' with ⟨cylinder', head', sector'⟩
  simp only [Chs.digits, List.cons.injEq, and_true] at heq hfirst hfirst'
  rcases heq with ⟨hcylinder, hhead, hsector⟩
  have hlast : sector.toNat = sector'.toNat := by omega
  rw [BitVec.toNat_inj.mp hcylinder, BitVec.toNat_inj.mp hhead, BitVec.toNat_inj.mp hlast]

theorem exists_of_fits {ds : List ℕ} (hfits : Fits disk.radices ds) :
    ∃ chs : Chs, chs.Addresses disk ∧ chs.digits = ds := by
  have hheads := disk.heads.isLt
  have hspt := disk.sectorsPerTrack.isLt
  match ds, hfits with
  | [c, h, s], ⟨hc, hh, hs, _⟩ =>
      have hcylinder : c % 2 ^ 16 = c := Nat.mod_eq_of_lt hc
      have hhead : h % 2 ^ 8 = h := Nat.mod_eq_of_lt (by omega)
      have hsector : (s + 1) % 2 ^ 8 = s + 1 := Nat.mod_eq_of_lt (by omega)
      refine ⟨⟨BitVec.ofNat 16 c, BitVec.ofNat 8 h, BitVec.ofNat 8 (s + 1)⟩, ?_, ?_⟩
      · simp only [Chs.Addresses, BitVec.toNat_ofNat, hhead, hsector]
        omega
      · simp only [Chs.digits, BitVec.toNat_ofNat, hcylinder, hhead, hsector]
        rfl

theorem lba_bijOn (hheads : 1 ≤ disk.heads.toNat) (hspt : 1 ≤ disk.sectorsPerTrack.toNat) :
    Set.BijOn (Chs.lba disk) {chs | chs.Addresses disk}
      (Set.Iio (2 ^ 16 * disk.heads.toNat * disk.sectorsPerTrack.toNat)) := by
  have hpos : ∀ radix ∈ disk.radices, 0 < radix := by
    simp only [Disk.radices, List.forall_mem_cons]
    exact ⟨by decide, hheads, hspt, by simp⟩
  have hcapacity : 2 ^ 16 * disk.heads.toNat * disk.sectorsPerTrack.toNat =
      capacity disk.radices := by
    simp [Disk.radices, capacity, Nat.mul_assoc]
  have hvalue := value_bijOn hpos
  rw [hcapacity]
  refine ⟨?_, ?_, ?_⟩
  · intro chs haddresses
    rw [lba_eq_value]
    exact hvalue.mapsTo (fits_digits haddresses)
  · intro chs haddresses chs' haddresses' heq
    rw [lba_eq_value, lba_eq_value] at heq
    exact digits_inj haddresses haddresses'
      (hvalue.injOn (fits_digits haddresses) (fits_digits haddresses') heq)
  · intro n hn
    rcases hvalue.surjOn hn with ⟨ds, hfits, hds⟩
    rcases exists_of_fits hfits with ⟨chs, haddresses, hdigits⟩
    refine ⟨chs, haddresses, ?_⟩
    rw [lba_eq_value, hdigits, hds]

end Addressing

/-! ## The registers of the services -/

/-- Bits 6 and 7 of CL are the upper bits of the cylinder. -/
def Chs.ofRegs (regs : Regs) : Chs where
  cylinder := BitVec.ofNat 16 ((regs.get8 .CH).toNat + 256 * ((regs.get8 .CL).toNat / 64))
  head := regs.get8 .DH
  sector := BitVec.ofNat 8 ((regs.get8 .CL).toNat % 64)

theorem packed_cylinder (low upper : U8) :
    low.setWidth 16 ||| ((upper.setWidth 16 &&& 0xC0) <<< 2) =
      BitVec.ofNat 16 (low.toNat + 256 * (upper.toNat / 64)) := by
  have hupper : (upper.setWidth 16 &&& 0xC0) <<< 2 = (upper >>> 6).setWidth 16 <<< 8 := by
    apply BitVec.eq_of_getElem_eq
    intro i hi
    interval_cases i <;> simp
  have hshift : (upper >>> 6).toNat = upper.toNat / 64 := by
    rw [BitVec.toNat_ushiftRight, Nat.shiftRight_eq_div_pow]
  have hlow := low.isLt
  have hhigh := upper.isLt
  apply BitVec.eq_of_toNat_eq
  rw [hupper]
  change (joinBytes low (upper >>> 6)).toNat = _
  rw [joinBytes_toNat, hshift, BitVec.toNat_ofNat, Nat.mod_eq_of_lt (by omega)]

theorem packed_sector (upper : U8) :
    upper &&& 0x3F = BitVec.ofNat 8 (upper.toNat % 64) := by
  apply BitVec.eq_of_toNat_eq
  have hmask : upper.toNat &&& 63 = upper.toNat % 64 :=
    Nat.and_two_pow_sub_one_eq_mod upper.toNat 6
  have hsixty : (0x3F : U8).toNat = 63 := rfl
  rw [BitVec.toNat_and, BitVec.toNat_ofNat, hsixty, hmask]
  omega

theorem requestedSectors_eq (disk : Disk) (regs : Regs) :
    requestedSectors disk regs =
      disk.readSectors ((Chs.ofRegs regs).lba disk) (regs.get8 .AL).toNat := by
  unfold requestedSectors
  rw [diskCylinder, packed_cylinder, packed_sector]
  rfl

/-! ## AH = 02h -/

/-- The bytes stand from `place` on, around the end of the memory, and every
other cell is as before. -/
structure CopiedTo (before after : Memory) (place : ℕ) (bytes : List U8) : Prop where
  inside : ∀ i byte, bytes[i]? = some byte → after.data (BitVec.ofNat 20 (place + i)) = byte
  outside : ∀ c, (∀ i < bytes.length, c ≠ BitVec.ofNat 20 (place + i)) →
    after.data c = before.data c

theorem loadBytes_copies (mem : Memory) (seg off : U16) {bytes : List U8}
    (hfits : bytes.length ≤ 2 ^ 20) :
    CopiedTo mem (mem.loadBytes (Memory.phys seg (off.setWidth 32)) bytes)
      (16 * seg.toNat + off.toNat) bytes := by
  have hplace : Memory.cell (Memory.phys seg (off.setWidth 32)) =
      BitVec.ofNat 20 (16 * seg.toNat + off.toNat) := by
    rw [cell_phys_eq_ofNat, BitVec.toNat_setWidth_of_le (by decide)]
  have hload : ∀ c, (mem.loadBytes (Memory.phys seg (off.setWidth 32)) bytes).data c =
      bytes[(c - BitVec.ofNat 20 (16 * seg.toNat + off.toNat)).toNat]?.getD (mem.data c) := by
    intro c
    rw [← hplace]
    exact ByteStore.load_apply mem.data _ c bytes hfits
  constructor
  · intro i byte hbyte
    have hi : i < bytes.length := (List.getElem?_eq_some_iff.mp hbyte).1
    have hindex : (BitVec.ofNat 20 (16 * seg.toNat + off.toNat + i) -
        BitVec.ofNat 20 (16 * seg.toNat + off.toNat)).toNat = i := by
      rw [BitVec.ofNat_add, add_sub_cancel_left, BitVec.toNat_ofNat,
        Nat.mod_eq_of_lt (by omega)]
    rw [hload, hindex, hbyte]
    rfl
  · intro c houtside
    rw [hload, List.getElem?_eq_none]
    · rfl
    · by_contra hinside
      apply houtside _ (Nat.lt_of_not_le hinside)
      rw [BitVec.ofNat_add, BitVec.ofNat_toNat, BitVec.setWidth_eq, add_sub_cancel]

/-- What AH = 02h does: the sectors lie inside the image and are copied to ES:BX, or
not all of them do and an error is reported. -/
def ReadsSectors (core : Core) : Prop :=
  let regs := core.cpu.regs
  let chs := Chs.ofRegs regs
  let count := (regs.get8 .AL).toNat
  ∃ after, handleInt13 core = .ok ((), after) ∧
    ((∃ disk, core.bus.disk = some disk ∧ disk.Holds (chs.lba disk) count ∧
        CopiedTo core.bus.mem after.bus.mem
          (16 * (regs.getSeg .ES).toNat + (regs.get16 .BX).toNat)
          (slice disk.data (disk.headerOffset + chs.lba disk * sectorSize)
            (count * sectorSize)) ∧
        after.cpu.regs.get8 .AH = 0 ∧ after.cpu.regs.get8 .AL = regs.get8 .AL ∧
        after.cpu.regs.getCf = false) ∨
      ((∀ disk, core.bus.disk = some disk → ¬ disk.Holds (chs.lba disk) count) ∧
        after.bus.mem = core.bus.mem ∧ after.cpu.regs.get8 .AH ≠ 0 ∧
        after.cpu.regs.getCf = true))

section Services

variable {core : Core}

theorem handleInt13_read (hah : core.cpu.regs.get8 .AH = 0x02) :
    handleInt13 core = int13ReadSectors core := by
  rw [handleInt13, bind_ok (getRegs_apply core _), hah]
  rfl

theorem handleInt13_parameters (hah : core.cpu.regs.get8 .AH = 0x08) :
    handleInt13 core = int13Parameters core := by
  rw [handleInt13, bind_ok (getRegs_apply core _), hah]
  rfl

theorem int13ReadSectors_none (hdisk : core.bus.disk = none) :
    int13ReadSectors core = .ok ((), core.setRegs ((core.cpu.regs.set8 .AH 0x01).setCf true)) := by
  rw [int13ReadSectors, bind_ok (read_apply _ core), hdisk]
  rfl

theorem int13ReadSectors_error {disk : Disk} {e : Error} (hdisk : core.bus.disk = some disk)
    (hsectors : requestedSectors disk core.cpu.regs = .error e) :
    int13ReadSectors core = .ok ((), core.setRegs ((core.cpu.regs.set8 .AH 0x04).setCf true)) := by
  rw [int13ReadSectors, bind_ok (read_apply _ core), hdisk]
  simp only
  rw [bind_ok (getRegs_apply core _), id, hsectors]
  rfl

theorem int13ReadSectors_ok {disk : Disk} {data : List U8} (hdisk : core.bus.disk = some disk)
    (hsectors : requestedSectors disk core.cpu.regs = .ok data) :
    int13ReadSectors core =
      .ok ((), (core.setMem (core.bus.mem.loadBytes (Memory.phys (core.cpu.regs.getSeg .ES)
          ((core.cpu.regs.get16 .BX).setWidth 32)) data)).setRegs
        (((core.cpu.regs.set8 .AH 0x00).set8 .AL (core.cpu.regs.get8 .AL)).setCf false)) := by
  rw [int13ReadSectors, bind_ok (read_apply _ core), hdisk]
  simp only
  rw [bind_ok (getRegs_apply core _), id, hsectors]
  rfl

theorem get8_setCf (regs : Regs) (r : Reg8) (v : Bool) : (regs.setCf v).get8 r = regs.get8 r :=
  get8_congr (regs.setFlag_gp _ _) r

theorem int13_readsSectors (hah : core.cpu.regs.get8 .AH = 0x02) : ReadsSectors core := by
  unfold ReadsSectors
  rw [handleInt13_read hah]
  cases hdisk : core.bus.disk with
  | none =>
      refine ⟨_, int13ReadSectors_none hdisk, .inr ⟨by simp, rfl, ?_, ?_⟩⟩
      · simp [get8_setCf, get8_set8_self]
      · simp [Regs.getCf_setCf]
  | some disk =>
      have hrequest := requestedSectors_eq disk core.cpu.regs
      have hholds : disk.Holds ((Chs.ofRegs core.cpu.regs).lba disk)
          (core.cpu.regs.get8 .AL).toNat ↔ _ := holds_iff
      rw [← hrequest] at hholds
      cases hsectors : requestedSectors disk core.cpu.regs with
      | error e =>
          refine ⟨_, int13ReadSectors_error hdisk hsectors, .inr ⟨?_, rfl, ?_, ?_⟩⟩
          · rintro disk' hsame
            cases hsame
            rw [hholds, hsectors]
            simp
          · simp [get8_setCf, get8_set8_self]
          · simp [Regs.getCf_setCf]
      | ok data =>
          have hdata := readSectors_ok_iff.mp (hrequest.symm.trans hsectors)
          have hcount := (core.cpu.regs.get8 .AL).isLt
          have hlength := readSectors_length (hrequest.symm.trans hsectors)
          have hfits : data.length ≤ 2 ^ 20 := by
            rw [hlength, sectorSize]
            omega
          refine ⟨_, int13ReadSectors_ok hdisk hsectors,
            .inl ⟨disk, rfl, hholds.mpr ⟨data, hsectors⟩, ?_, ?_, ?_, ?_⟩⟩
          · rw [← hdata.2]
            exact loadBytes_copies _ _ _ hfits
          · simp [get8_setCf, get8_set8_of_ne, get8_set8_self]
          · simp [get8_setCf, get8_set8_self]
          · simp [Regs.getCf_setCf]

/-! ### AH = 08h -/

def lastCylinder (disk : Disk) : U16 := if disk.cylinders < 2 then 0 else disk.cylinders - 2

def lastHead (disk : Disk) : U8 := if disk.heads < 1 then 0 else disk.heads - 1

def packedSectors (disk : Disk) : U8 :=
  (disk.sectorsPerTrack &&& 0x3F#8) ||| (((lastCylinder disk >>> 8) &&& 3#16).setWidth 8 <<< 6)

theorem int13Parameters_some {disk : Disk} (hdisk : core.bus.disk = some disk) :
    int13Parameters core = .ok ((), core.setRegs ((((((core.cpu.regs.set8 .CH
        ((lastCylinder disk &&& 0xFF).setWidth 8)).set8 .CL (packedSectors disk)).set8 .DH
          (lastHead disk)).set8 .DL 1).set8 .AH 0x00).setCf false)) := by
  rw [int13Parameters, bind_ok (read_apply _ core), hdisk]
  rfl

theorem packedSectors_toNat (disk : Disk) :
    (packedSectors disk).toNat = disk.sectorsPerTrack.toNat % 64 +
      64 * ((lastCylinder disk).toNat / 256 % 4) := by
  have hsectors : disk.sectorsPerTrack &&& 0x3F#8 =
      (disk.sectorsPerTrack.setWidth 6).setWidth 8 := by
    apply BitVec.eq_of_getElem_eq
    intro i hi
    interval_cases i <;> simp
  have hupper : ((lastCylinder disk >>> 8) &&& 3#16).setWidth 8 =
      ((lastCylinder disk >>> 8).setWidth 2).setWidth 8 := by
    apply BitVec.eq_of_getElem_eq
    intro i hi
    interval_cases i <;> simp
  rw [packedSectors, hsectors, hupper, toNat_join _ _ (by decide)]
  simp [Nat.shiftRight_eq_div_pow]

/-- What the service reports, taken apart as the read service takes it apart. -/
theorem int13Parameters_reported {disk : Disk} (hdisk : core.bus.disk = some disk) :
    ∃ after, int13Parameters core = .ok ((), after) ∧
      (Chs.ofRegs after.cpu.regs).cylinder.toNat = (lastCylinder disk).toNat % 1024 ∧
      (Chs.ofRegs after.cpu.regs).head = lastHead disk ∧
      (Chs.ofRegs after.cpu.regs).sector.toNat = disk.sectorsPerTrack.toNat % 64 := by
  refine ⟨_, int13Parameters_some hdisk, ?_⟩
  have hlow : ((lastCylinder disk &&& 0xFF).setWidth 8).toNat =
      (lastCylinder disk).toNat % 256 := by
    have hmask : (lastCylinder disk).toNat &&& 255 = (lastCylinder disk).toNat % 256 :=
      Nat.and_two_pow_sub_one_eq_mod _ 8
    have hbyte : (0xFF : U16).toNat = 255 := rfl
    rw [BitVec.toNat_setWidth, BitVec.toNat_and, hbyte, hmask]
    omega
  simp only [Chs.ofRegs, Core.setRegs_cpu_regs, get8_setCf, get8_set8_self, get8_set8_of_ne, ne_eq,
    reduceCtorEq, not_false_eq_true, packedSectors_toNat, hlow, BitVec.toNat_ofNat]
  refine ⟨?_, trivial, ?_⟩
  · omega
  · omega

end Services

/-- What AH = 08h does: every address within the bounds that it reports lies inside
an image with all sectors of the geometry. -/
def ReportsInside (core : Core) (disk : Disk) : Prop :=
  ∃ after, handleInt13 core = .ok ((), after) ∧
    (disk.Holds 0 (disk.cylinders.toNat * disk.heads.toNat * disk.sectorsPerTrack.toNat) →
      ∀ chs : Chs, chs.cylinder ≤ (Chs.ofRegs after.cpu.regs).cylinder →
        chs.head ≤ (Chs.ofRegs after.cpu.regs).head → 1 ≤ chs.sector.toNat →
        chs.sector ≤ (Chs.ofRegs after.cpu.regs).sector → disk.Holds (chs.lba disk) 1)

theorem int13_reportsInside {core : Core} {disk : Disk}
    (hcylinders : 1 ≤ disk.cylinders.toNat) (hheads : 1 ≤ disk.heads.toNat)
    (hdisk : core.bus.disk = some disk) (hah : core.cpu.regs.get8 .AH = 0x08) :
    ReportsInside core disk := by
  rcases int13Parameters_reported hdisk with ⟨after, hrun, hcylinder, hhead, hsector⟩
  refine ⟨after, by rw [handleInt13_parameters hah, hrun], ?_⟩
  intro hholds chs hc hh hfirst hs
  have hlastCylinder : (lastCylinder disk).toNat < disk.cylinders.toNat := by
    unfold lastCylinder
    split <;> bv_omega
  have hlastHead : (lastHead disk).toNat < disk.heads.toNat := by
    unfold lastHead
    split <;> bv_omega
  rw [BitVec.le_def, hcylinder] at hc
  rw [BitVec.le_def, hhead] at hh
  rw [BitVec.le_def, hsector] at hs
  have hfits : Fits [disk.cylinders.toNat, disk.heads.toNat, disk.sectorsPerTrack.toNat]
      chs.digits := ⟨by omega, by omega, by omega, trivial⟩
  have hlt := value_lt hfits
  have hlba : chs.lba disk <
      disk.cylinders.toNat * disk.heads.toNat * disk.sectorsPerTrack.toNat := by
    have hvalue : value disk.radices chs.digits =
      value [disk.cylinders.toNat, disk.heads.toNat, disk.sectorsPerTrack.toNat] chs.digits := rfl
    rw [lba_eq_value, hvalue, Nat.mul_assoc]
    simpa [capacity] using hlt
  unfold Disk.Holds at *
  have hmul : (chs.lba disk + 1) * sectorSize ≤ (0 + disk.cylinders.toNat * disk.heads.toNat *
      disk.sectorsPerTrack.toNat) * sectorSize := Nat.mul_le_mul_right _ (by omega)
  omega

/-- Addresses in order, reads that are complete or refused, and bounds that can be
relied on. -/
theorem bios_disk_addressing {disk : Disk}
    (hcylinders : 1 ≤ disk.cylinders.toNat) (hheads : 1 ≤ disk.heads.toNat)
    (hspt : 1 ≤ disk.sectorsPerTrack.toNat) :
    (∀ cylinder head sector,
        disk.chsToLbaChecked cylinder head sector = .ok (disk.chsToLba cylinder head sector)) ∧
      Set.BijOn (Chs.lba disk) {chs | chs.Addresses disk}
        (Set.Iio (2 ^ 16 * disk.heads.toNat * disk.sectorsPerTrack.toNat)) ∧
      (∀ chs chs' : Chs, chs.Addresses disk → chs'.Addresses disk →
        (chs.lba disk < chs'.lba disk ↔ chs.Precedes chs')) ∧
      (∀ core : Core, core.cpu.regs.get8 .AH = 0x02 → ReadsSectors core) ∧
      ∀ core : Core, core.bus.disk = some disk → core.cpu.regs.get8 .AH = 0x08 →
        ReportsInside core disk :=
  ⟨chsToLbaChecked_eq, lba_bijOn hheads hspt, fun _ _ => lba_lt_iff,
    fun _ => int13_readsSectors, fun _ => int13_reportsInside hcylinders hheads⟩

/-- A disk with forty cylinders, two heads and eight sectors a track. -/
def smallDisk : Disk where
  data := List.replicate (40 * 2 * 8 * 512) 0
  headerOffset := 0
  totalSectors := 40 * 2 * 8
  cylinders := 40
  heads := 2
  sectorsPerTrack := 8

theorem bios_disk_addressing_small :
    (∀ cylinder head sector, smallDisk.chsToLbaChecked cylinder head sector =
        .ok (smallDisk.chsToLba cylinder head sector)) ∧
      Set.BijOn (Chs.lba smallDisk) {chs | chs.Addresses smallDisk}
        (Set.Iio (2 ^ 16 * smallDisk.heads.toNat * smallDisk.sectorsPerTrack.toNat)) ∧
      (∀ chs chs' : Chs, chs.Addresses smallDisk → chs'.Addresses smallDisk →
        (chs.lba smallDisk < chs'.lba smallDisk ↔ chs.Precedes chs')) ∧
      (∀ core : Core, core.cpu.regs.get8 .AH = 0x02 → ReadsSectors core) ∧
      ∀ core : Core, core.bus.disk = some smallDisk → core.cpu.regs.get8 .AH = 0x08 →
        ReportsInside core smallDisk :=
  bios_disk_addressing (by decide) (by decide) (by decide)

end Kita98
