import Kita98.MemoryHistory
import Kita98.MzLoader
import Kita98.WordPatches

/-!
# Relocated load images

On a well-formed file the relocation loop patches each word that the table names
once, so the image stands in memory with the load segment added to those words,
whatever the order of the table.
-/

namespace Kita98

open WordBits ByteStore Memory

/-! ## Well-formed files -/

def relocCount (data : List U8) : ℕ := (MzHeader.ofBytes data).relocations.toNat

/-- Where entry `i` of the table stands in the file. -/
def relocEntry (data : List U8) (i : ℕ) : ℕ :=
  (MzHeader.ofBytes data).relocTableOffset.toNat + 4 * i

/-- The place in the image of the word that the entry at `entryPtr` names: a
segment and an offset, which wrap at 1 MiB. -/
def placeAt (data : List U8) (entryPtr : ℕ) : ℕ :=
  (16 * (wordAt data (entryPtr + 2)).toNat + (wordAt data entryPtr).toNat) % 2 ^ 20

def relocPlace (data : List U8) (i : ℕ) : ℕ := placeAt data (relocEntry data i)

structure WellFormedMz (data : List U8) : Prop where
  accepted : ¬ Refused data
  image : ImageInFile data
  fits : 0x10000 + (mzImage data).length ≤ 2 ^ 20
  table : ∀ i < relocCount data, relocEntry data i + 4 ≤ data.length
  inside : ∀ i < relocCount data, relocPlace data i + 2 ≤ (mzImage data).length
  apart : ∀ i < relocCount data, ∀ j < relocCount data, i ≠ j →
    relocPlace data i + 2 ≤ relocPlace data j ∨ relocPlace data j + 2 ≤ relocPlace data i

/-! ## What a load leaves -/

def imageCell (k : ℕ) : Cell := BitVec.ofNat 20 (0x10000 + k)

/-- The image with the load segment added to the words of the table, and nothing
else, is in memory. -/
structure Relocated (data : List U8) (before after : Memory) : Prop where
  words : ∀ i < relocCount data,
    joinBytes (after.data (imageCell (relocPlace data i)))
        (after.data (imageCell (relocPlace data i + 1))) =
      wordAt (mzImage data) (relocPlace data i) + 0x1000
  bytes : ∀ k < (mzImage data).length,
    (∀ i < relocCount data, k ≠ relocPlace data i ∧ k ≠ relocPlace data i + 1) →
      after.data (imageCell k) = Disk.byteAt (mzImage data) k
  outside : ∀ c : Cell, c.toNat < 0x10000 ∨ 0x10000 + (mzImage data).length ≤ c.toNat →
    after.data c = before.data c

/-- The registers hold the values of the header on top of the load segment. -/
structure Rebased (header : MzHeader) (regs : Regs) : Prop where
  cs : regs.getSeg .CS = 0x1000 + header.initialCs
  ip : regs.ip = header.initialIp.setWidth 32
  ss : regs.getSeg .SS = 0x1000 + header.initialSs
  sp : regs.get16 .SP = header.initialSp
  ds : regs.getSeg .DS = 0x1000
  es : regs.getSeg .ES = 0x1000

theorem setRegs_rebased (header : MzHeader) (regs : Regs) :
    Rebased header (header.setRegs regs) where
  cs := rfl
  ip := rfl
  ss := rfl
  sp := by simp [MzHeader.setRegs]
  ds := rfl
  es := rfl

/-! ## Cells of the image -/

theorem imageCell_succ (k : ℕ) : imageCell k + 1 = imageCell (k + 1) := by
  rw [imageCell, imageCell, ← Nat.add_assoc, BitVec.ofNat_add (0x10000 + k)]
  rfl

theorem imageCell_inj {j k : ℕ} (hj : 0x10000 + j < 2 ^ 20) (hk : 0x10000 + k < 2 ^ 20)
    (hsame : imageCell j = imageCell k) : j = k := by
  have hnat := congrArg BitVec.toNat hsame
  rw [imageCell, imageCell, BitVec.toNat_ofNat, BitVec.toNat_ofNat, Nat.mod_eq_of_lt hj,
    Nat.mod_eq_of_lt hk] at hnat
  omega

theorem inWord_iff {j k : ℕ} (hj : 0x10000 + (j + 1) < 2 ^ 20) (hk : 0x10000 + k < 2 ^ 20) :
    InWord (imageCell j) (imageCell k) ↔ k = j ∨ k = j + 1 := by
  rw [InWord, imageCell_succ]
  constructor
  · rintro (hsame | hsame)
    · exact .inl (imageCell_inj hk (by omega) hsame)
    · exact .inr (imageCell_inj hk hj hsame)
  · rintro (hsame | hsame)
    · exact .inl (congrArg imageCell hsame)
    · exact .inr (congrArg imageCell hsame)

section Placed

variable (mem : Memory) (image : List U8)

def placed : Memory := mem.loadBytes (Memory.phys loadSegment 0) image

theorem placed_apply (hfits : 0x10000 + image.length ≤ 2 ^ 20) (c : Cell) :
    (placed mem image).data c = image[(c - imageCell 0).toNat]?.getD (mem.data c) :=
  load_apply _ _ _ _ (by omega)

theorem placed_inside (hfits : 0x10000 + image.length ≤ 2 ^ 20) {k : ℕ} (hk : k < image.length) :
    (placed mem image).data (imageCell k) = Disk.byteAt image k := by
  have hindex : (imageCell k - imageCell 0).toNat = k := by
    simp only [imageCell, BitVec.toNat_sub, BitVec.toNat_ofNat]
    omega
  rw [placed_apply mem image hfits, hindex, Disk.byteAt, List.getD_eq_getElem?_getD,
    List.getElem?_eq_getElem hk]
  rfl

theorem placed_outside (hfits : 0x10000 + image.length ≤ 2 ^ 20) {c : Cell}
    (houtside : c.toNat < 0x10000 ∨ 0x10000 + image.length ≤ c.toNat) :
    (placed mem image).data c = mem.data c := by
  have hnone : image[(c - imageCell 0).toNat]? = none := by
    apply List.getElem?_eq_none
    have hlt := c.isLt
    simp only [imageCell, BitVec.toNat_sub, BitVec.toNat_ofNat]
    omega
  rw [placed_apply mem image hfits, hnone]
  rfl

end Placed

/-! ## The loop patches the words of the table -/

def target (data : List U8) (entryPtr : ℕ) : Cell :=
  cell (Memory.phys (loadSegment + wordAt data (entryPtr + 2)) ((wordAt data entryPtr).setWidth 32))

theorem relocate_data (data : List U8) (entryPtr : ℕ) (mem : Memory) :
    (relocate data entryPtr mem).data =
      patch (fun word => word + loadSegment) mem.data (target data entryPtr) := by
  simp only [relocate, Memory.segWriteU16, Memory.segReadU16, writeU16_data, readU16_eq]
  rfl

/-- Inside the file the loop runs over the whole table. -/
theorem relocateAll_data
    (data : List U8) (n entryPtr : ℕ) (mem : Memory)
    (htable : ∀ i < n, entryPtr + 4 * i + 4 ≤ data.length) :
    (relocateAll data n entryPtr mem).data =
      patchAll (fun word => word + loadSegment) mem.data
        ((List.range n).map fun i => target data (entryPtr + 4 * i)) := by
  induction n generalizing entryPtr mem with
  | zero => rfl
  | succ n ih =>
      have hshift : (List.range n).map (fun i => target data (entryPtr + 4 * (i + 1))) =
          (List.range n).map (fun i => target data (entryPtr + 4 + 4 * i)) := by
        apply List.map_congr_left
        intro i _
        congr 1
        omega
      have hfirst := htable 0 (Nat.succ_pos n)
      have hrest : ∀ i < n, entryPtr + 4 + 4 * i + 4 ≤ data.length := by
        intro i hi
        have hnext := htable (i + 1) (Nat.succ_lt_succ hi)
        omega
      rw [relocateAll, if_neg (by omega), ih _ _ hrest, relocate_data, List.range_succ_eq_map,
        List.map_cons, List.map_map, ← hshift]
      rfl

theorem target_eq (data : List U8) (entryPtr : ℕ) :
    target data entryPtr = imageCell (placeAt data entryPtr) := by
  rw [target, cell_phys_eq_ofNat, imageCell, placeAt]
  apply BitVec.eq_of_toNat_eq
  have hsegment : (loadSegment + wordAt data (entryPtr + 2)).toNat =
      (0x1000 + (wordAt data (entryPtr + 2)).toNat) % 2 ^ 16 := BitVec.toNat_add _ _
  have hoffset : ((wordAt data entryPtr).setWidth 32).toNat = (wordAt data entryPtr).toNat :=
    BitVec.toNat_setWidth_of_le (by decide)
  rw [hsegment, hoffset, BitVec.toNat_ofNat, BitVec.toNat_ofNat]
  omega

/-! ## The loader -/

section WellFormed

variable {data : List U8} (hwell : WellFormedMz data) (mem : Memory)

def relocCells (data : List U8) : List Cell :=
  (List.range (relocCount data)).map fun i => imageCell (relocPlace data i)

def relocatedMem (data : List U8) (mem : Memory) : Memory :=
  relocateAll data (relocCount data) (MzHeader.ofBytes data).relocTableOffset.toNat
    (placed mem (mzImage data))

theorem mem_relocCells {c : Cell} :
    c ∈ relocCells data ↔ ∃ i < relocCount data, imageCell (relocPlace data i) = c := by
  simp [relocCells]

include hwell

theorem relocatedMem_data :
    (relocatedMem data mem).data =
      patchAll (fun word => word + loadSegment) (placed mem (mzImage data)).data
        (relocCells data) := by
  rw [relocatedMem, relocateAll_data _ _ _ _ hwell.table]
  congr 1
  apply List.map_congr_left
  intro i _
  rw [target_eq]
  rfl

/-- Both bytes of a word of the table are in the image, below 1 MiB. -/
theorem place_fits {i : ℕ} (hi : i < relocCount data) :
    0x10000 + (relocPlace data i + 1) < 2 ^ 20 := by
  have hfits := hwell.fits
  have hinside := hwell.inside i hi
  omega

theorem relocCells_apart : (relocCells data).Pairwise Apart := by
  rw [relocCells, List.pairwise_map]
  apply List.pairwise_lt_range.imp_of_mem
  intro i j hi hj hless
  rw [List.mem_range] at hi hj
  have hfits := place_fits hwell hi
  have hfits' := place_fits hwell hj
  have hapart := hwell.apart i hi j hj (Nat.ne_of_lt hless)
  constructor
  · rw [inWord_iff hfits (by omega)]
    omega
  · rw [imageCell_succ, inWord_iff hfits hfits']
    omega

theorem relocatedMem_of_outside {c : Cell}
    (hfree : ∀ i < relocCount data, ¬ InWord (imageCell (relocPlace data i)) c) :
    (relocatedMem data mem).data c = (placed mem (mzImage data)).data c := by
  rw [relocatedMem_data hwell, patchAll_of_outside]
  intro a ha
  rcases mem_relocCells.mp ha with ⟨i, hi, heq⟩
  rw [← heq]
  exact hfree i hi

theorem relocated : Relocated data mem (relocatedMem data mem) where
  words := by
    intro i hi
    have hinside := hwell.inside i hi
    have hmem : imageCell (relocPlace data i) ∈ relocCells data := mem_relocCells.mpr ⟨i, hi, rfl⟩
    have hword : readWord (placed mem (mzImage data)).data (imageCell (relocPlace data i)) =
        wordAt (mzImage data) (relocPlace data i) := by
      rw [readWord, imageCell_succ, placed_inside _ _ hwell.fits (by omega),
        placed_inside _ _ hwell.fits (by omega)]
      rfl
    rw [← imageCell_succ, ← readWord, relocatedMem_data hwell,
      readWord_patchAll _ _ (cell_succ_ne _) (relocCells_apart hwell) hmem, hword]
    rfl
  bytes := by
    intro k hk hfree
    have hfits := hwell.fits
    rw [relocatedMem_of_outside hwell, placed_inside _ _ hfits hk]
    intro i hi
    rw [inWord_iff (place_fits hwell hi) (by omega), not_or]
    exact hfree i hi
  outside := by
    intro c hc
    rw [relocatedMem_of_outside hwell, placed_outside _ _ hwell.fits hc]
    intro i hi hword
    have hinside := hwell.inside i hi
    have hfits := hwell.fits
    rw [InWord, imageCell_succ] at hword
    rcases hword with heq | heq
    · subst heq
      simp only [imageCell, BitVec.toNat_ofNat] at hc
      omega
    · subst heq
      simp only [imageCell, BitVec.toNat_ofNat] at hc
      omega

end WellFormed

theorem load_mz_relocates {data : List U8} (hwell : WellFormedMz data) (core : Core) :
    ∃ after, loadMz data core = .ok (.ok (), after) ∧
      Relocated data core.bus.mem after.bus.mem ∧
        Rebased (MzHeader.ofBytes data) after.cpu.regs :=
  ⟨_, loadMz_loaded core hwell.accepted hwell.image, relocated hwell core.bus.mem,
    setRegs_rebased _ _⟩

/-- `MOV AX, 0; MOV BX, 2; HLT`, where the table names both immediates, the later
one first. -/
def movFile : List U8 :=
  [0x4D, 0x5A, 55, 0, 1, 0, 2, 0, 3, 0] ++ List.replicate 14 0 ++ [28, 0, 0, 0] ++
    [4, 0, 0, 0, 1, 0, 0, 0] ++ List.replicate 12 0 ++ [0xB8, 0, 0, 0xBB, 2, 0, 0xF4]

theorem movFile_wellFormed : WellFormedMz movFile where
  accepted := by decide +kernel
  image := by decide +kernel
  fits := by decide +kernel
  table := by decide +kernel
  inside := by decide +kernel
  apart := by decide +kernel

theorem load_mz_relocates_mov :
    ∃ after, loadMz movFile freshCore = .ok (.ok (), after) ∧
      Relocated movFile freshCore.bus.mem after.bus.mem ∧
        Rebased (MzHeader.ofBytes movFile) after.cpu.regs :=
  load_mz_relocates movFile_wellFormed freshCore

end Kita98
