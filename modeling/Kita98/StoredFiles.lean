import Kita98.DiskBoot
import Kita98.FileTransfer

/-!
# Files by name

A guest that names a file of the root directory, in letters of either case, reads
the bytes of its clusters: the first file of the directory with that name is the
one that is opened, and the reads on its handle deliver it.
-/

namespace Kita98

open WordBits Disk Exec

/-! ## Names in either case -/

/-- A small letter becomes a capital. -/
def capital (b : U8) : U8 := if 0x61 ≤ b ∧ b ≤ 0x7A then b - 0x20 else b

/-- The name, with a period in front of an extension. -/
def RootFile.fullBytes (file : RootFile) : List U8 :=
  if file.ext = [] then file.name else file.name ++ 0x2E :: file.ext

/-- The bytes name the file, whatever the case of their letters. -/
def Spells (typed : List U8) (file : RootFile) : Prop := typed.map capital = file.fullBytes

theorem upperChar_of_upperAscii : ∀ b : U8, UpperAscii b →
    upperChar (Char.ofNat b.toNat) = [Char.ofNat b.toNat] := by
  decide +kernel

theorem upperChar_of_capital : ∀ b : U8, UpperAscii (capital b) →
    upperChar (Char.ofNat b.toNat) = [Char.ofNat (capital b).toNat] := by
  decide +kernel

theorem toNat_ofNat_byte : ∀ b : U8, (Char.ofNat b.toNat).toNat = b.toNat := by
  decide +kernel

theorem asciiText_injective : Function.Injective asciiText := by
  apply List.map_injective_iff.mpr
  intro b b' heq
  have hnat := congrArg Char.toNat heq
  rw [toNat_ofNat_byte, toNat_ofNat_byte] at hnat
  exact BitVec.eq_of_toNat_eq hnat

theorem toUppercase_asciiText {bytes : List U8} (hbytes : ∀ b ∈ bytes, UpperAscii b) :
    toUppercase (asciiText bytes) = asciiText bytes := by
  induction bytes with
  | nil => rfl
  | cons b bytes ih =>
      have hfirst := upperChar_of_upperAscii b (hbytes b List.mem_cons_self)
      have hrest := ih fun b' hb' => hbytes b' (List.mem_cons_of_mem _ hb')
      unfold toUppercase asciiText at hrest ⊢
      rw [List.map_cons, List.flatMap_cons, hfirst, hrest]
      rfl

theorem pathText_of_capital {typed : List U8} (htyped : ∀ b ∈ typed, UpperAscii (capital b)) :
    pathText typed = asciiText (typed.map capital) := by
  induction typed with
  | nil => rfl
  | cons b typed ih =>
      have hfirst := upperChar_of_capital b (htyped b List.mem_cons_self)
      have hrest := ih fun b' hb' => htyped b' (List.mem_cons_of_mem _ hb')
      unfold pathText toUppercase asciiText at hrest ⊢
      rw [List.map_cons, List.flatMap_cons, hfirst, hrest]
      rfl

namespace RootFile

variable (file : RootFile)

theorem fullBytes_upper : ∀ b ∈ file.fullBytes, UpperAscii b := by
  intro b hb
  unfold fullBytes at hb
  split at hb
  · exact file.name_upper b hb
  · rcases List.mem_append.mp hb with hname | hext
    · exact file.name_upper b hname
    · rcases List.mem_cons.mp hext with rfl | hext
      · decide
      · exact file.ext_upper b hext

theorem fullName_eq : file.entry.fullName = asciiText file.fullBytes := by
  unfold DirEntry.fullName fullBytes entry
  by_cases hext : file.ext = []
  · simp [hext, asciiText]
  · simp [hext, asciiText]

theorem upper_fullName : toUppercase file.entry.fullName = asciiText file.fullBytes := by
  rw [file.fullName_eq, toUppercase_asciiText file.fullBytes_upper]

end RootFile

theorem Spells.path {typed : List U8} {file : RootFile} (hspells : Spells typed file) :
    pathText typed = toUppercase file.entry.fullName := by
  have htyped : ∀ b ∈ typed, UpperAscii (capital b) := by
    intro b hb
    apply file.fullBytes_upper
    rw [← hspells]
    exact List.mem_map_of_mem hb
  rw [pathText_of_capital htyped, hspells, file.upper_fullName]

/-! ## The file that is opened -/

/-- The first file of its name. -/
def FirstNamed (slots : List RootSlot) (file : RootFile) : Prop :=
  ∃ before after, slots = before ++ .file file :: after ∧
    ∀ other, .file other ∈ before → other.fullBytes ≠ file.fullBytes

theorem FirstNamed.find
    {slots : List RootSlot} {file : RootFile} (hfirst : FirstNamed slots file) :
    ((slots.filterMap RootSlot.entry).find? fun e =>
      toUppercase e.fullName = toUppercase file.entry.fullName) = some file.entry := by
  rcases hfirst with ⟨before, after, rfl, hothers⟩
  have hentry : (RootSlot.file file).entry = some file.entry := rfl
  rw [List.filterMap_append, List.filterMap_cons_some hentry, List.find?_append]
  have hnone : ((before.filterMap RootSlot.entry).find? fun e =>
      toUppercase e.fullName = toUppercase file.entry.fullName) = none := by
    rw [List.find?_eq_none]
    intro entry hentry
    rcases List.mem_filterMap.mp hentry with ⟨slot, hslot, hslotEntry⟩
    obtain ⟨other, rfl, rfl⟩ := RootSlot.eq_file_of_entry hslotEntry
    rw [other.upper_fullName, file.upper_fullName, decide_eq_true_iff]
    intro hsame
    exact hothers other hslot (asciiText_injective hsame)
  rw [hnone, Option.none_or]
  exact List.find?_cons_of_pos (decide_eq_true rfl)

section Volume

variable {v : FatVolume} {slots : List RootSlot} {disk : Disk} {lba : ℕ}

theorem BootVolume.findOnDisk_eq (hvolume : BootVolume v slots disk lba)
    {file : RootFile} {typed : List U8} (hfirst : FirstNamed slots file)
    (hreadable : file.ReadableOn v disk lba) (hspells : Spells typed file) :
    findOnDisk (some disk) (pathText typed) = some (file.entry, file.bytes v disk lba) := by
  unfold findOnDisk
  simp only
  rw [hvolume.onDisk.detect_eq hvolume.near hvolume.first]
  simp only
  rw [hvolume.directory.listed hvolume.onDisk]
  simp only
  rw [hspells.path, hfirst.find]
  simp only
  rw [hreadable.readFile hvolume.onDisk]

/-- The guest asks for the file by name: AH=3Dh, the name at DS:DX. -/
structure AsksFor (m : Machine H) (typed : List U8) : Prop where
  ah : m.cpu.regs.get8 .AH = 0x3D
  name : pathAt m.toCore 0 = some typed

/-- What the reads deliver on a handle opened by name is the clusters of the file
of that name. -/
theorem stored_file_delivered {H : HostFiles}
    {m start last : Machine H} {past : List (Action × Machine H)} {file : RootFile}
    {typed : List U8} (hvolume : BootVolume v slots disk lba) (hdisk : m.bus.disk = some disk)
    (hfirst : FirstNamed slots file) (hreadable : file.ReadableOn v disk lba)
    (hasks : AsksFor m typed) (hspells : Spells typed file)
    (hleads : (Action.service 0x21).Leads m start) (htrace : MachineTrace start past last)
    (hspares : ∀ entry ∈ past, Spares (start.cpu.regs.get16 .AX) entry.1 entry.2) :
    delivered (start.cpu.regs.get16 .AX) past =
        (file.bytes v disk lba).take (asked (start.cpu.regs.get16 .AX) past) ∧
      (AtEnd (start.cpu.regs.get16 .AX) past →
        delivered (start.cpu.regs.get16 .AX) past = file.bytes v disk lba) := by
  have hopens : Opens m (file.bytes v disk lba) := by
    refine ⟨hasks.ah, typed, file.entry, hasks.name, ?_⟩
    rw [hdisk]
    exact hvolume.findOnDisk_eq hfirst hreadable hspells
  exact hopens.delivers hleads htrace hspares

end Volume

/-! ## A file of two bytes, by name -/

def comExt : List U8 := [0x43, 0x4F, 0x4D]

theorem comExt_length : comExt.length ≤ 3 := by decide

theorem comExt_upper : ∀ b ∈ comExt, UpperAscii b := by decide

def programFile : RootFile :=
  { singleFile 2 with
    ext := comExt
    size := 2
    ext_length := comExt_length
    ext_upper := comExt_upper }

theorem programDisk_onDisk : programVolume.OnDisk programDisk 0 where
  room := by decide +kernel
  bytesPerSector := by decide +kernel
  sectorsPerCluster := by decide +kernel
  reservedSectors := by decide +kernel
  numFats := by decide +kernel
  rootDirEntries := by decide +kernel
  sectorsPerFat := by decide +kernel
  totalSectors := .inl (by decide +kernel)
  attributes := by decide +kernel

theorem programDisk_directory : RootDirectory [.file programFile] programVolume programDisk 0 := by
  constructor
  · decide
  · intro i hi
    obtain rfl : i = 0 := Nat.lt_one_iff.mp hi
    apply RootSlot.At.file
    · decide +kernel
    · decide +kernel
    · decide +kernel
    · decide +kernel
    · decide +kernel
  · intro _
    decide +kernel

theorem programDisk_volume : BootVolume programVolume [.file programFile] programDisk 0 where
  onDisk := programDisk_onDisk
  near := by decide
  first := fun sector hlt => absurd hlt (Nat.not_lt_zero _)
  directory := programDisk_directory

theorem programDisk_fat :
    programVolume.fatBytes programDisk 0 3 = 0xFF ∧ programVolume.fatBytes programDisk 0 4 = 0x0F := by
  decide +kernel

/-- The entry of cluster 2 is an end mark. -/
theorem programDisk_endMark :
    PackedTable.EntryAt (programVolume.fatBytes programDisk 0) programVolume.entryWidth 2 0xFFF := by
  have hwidth : programVolume.entryWidth = 12 := by decide
  have hbits : ∀ i < 12, (if i < 8 then 0xFF else 0x0F : U8).getLsbD ((12 * 2 + i) % 8) =
      (0xFFF : U16).getLsbD i := by
    decide
  rw [hwidth]
  intro i hi
  rw [← hbits i hi]
  rcases Nat.lt_or_ge i 8 with hlow | hhigh
  · have hplace : (12 * 2 + i) / 8 = 3 := by omega
    rw [hplace, programDisk_fat.1, if_pos hlow]
  · have hplace : (12 * 2 + i) / 8 = 4 := by omega
    rw [hplace, programDisk_fat.2, if_neg (Nat.not_lt.mpr hhigh)]

theorem programFile_readable : programFile.ReadableOn programVolume programDisk 0 := by
  refine ⟨⟨?range, List.isChain_singleton 2, ?last, ?covers⟩, ?followed⟩
  case range =>
    intro c hc
    obtain rfl : c = 2 := List.mem_singleton.mp hc
    decide
  case last =>
    intro c hc
    obtain rfl : 2 = c := by simpa [programFile, singleFile] using hc
    exact ⟨0xFFF, by decide, by decide, programDisk_endMark⟩
  case covers => decide +kernel
  case followed =>
    intro c hc
    obtain rfl : c = 2 := List.mem_singleton.mp (List.mem_of_mem_take hc)
    decide

theorem programFile_first : FirstNamed [.file programFile] programFile :=
  ⟨[], [], rfl, fun _ hother => absurd hother List.not_mem_nil⟩

theorem stored_file_delivered_program :
    ∃ start past last, ReadsFive start past last ∧
      delivered (start.cpu.regs.get16 .AX) past =
        (programFile.bytes programVolume programDisk 0).take 5 := by
  rcases openingMachine_reads with ⟨start, past, last, hreads⟩
  have hasks : AsksFor openingMachine [0x41, 0x2E, 0x43, 0x4F, 0x4D] :=
    ⟨openingMachine_ah, openingMachine_path⟩
  have hpieces := (stored_file_delivered programDisk_volume rfl programFile_first
    programFile_readable hasks rfl hreads.opened hreads.trace hreads.spares).1
  rw [hreads.five] at hpieces
  exact ⟨start, past, last, hreads, hpieces⟩

end Kita98
