import Kita98.Loader

/-!
# The MZ loader on any file

The loader with every index, slice and subtraction checked where the source
performs it.  Its reads of the relocation table stay inside the file; the fields
of the header decide whether the slice of the load image does.
-/

namespace Kita98

open WordBits Disk Kita98.Core Exec

/-- `data[i]` -/
def indexed (data : List U8) (i : ℕ) : Routine U8 :=
  match data[i]? with
  | some byte => return byte
  | none => Exec.fail .bounds

/-- `&data[start..stop]` -/
def sliced (data : List U8) (start stop : ℕ) : Routine (List U8) :=
  if start > stop ∨ stop > data.length then Exec.fail .bounds
  else return slice data start (stop - start)

/-- `a - b` -/
def subtracted (a b : ℕ) : Routine ℕ :=
  if b > a then Exec.fail .overflow else return a - b

def indexedWord (data : List U8) (i : ℕ) : Routine U16 := do
  let lo ← indexed data i
  let hi ← indexed data (i + 1)
  return joinBytes lo hi

def relocateIndexed (data : List U8) : ℕ → ℕ → Routine Unit
  | 0, _ => return ()
  | n + 1, entryPtr =>
      if entryPtr + 4 > data.length then return ()
      else do
        let off ← indexedWord data entryPtr
        let seg ← indexedWord data (entryPtr + 2)
        let targetSeg := loadSegment + seg
        let currentVal ← getMem fun mem => mem.segReadU16 targetSeg (off.setWidth 32)
        modMem fun mem => mem.segWriteU16 targetSeg (off.setWidth 32) (currentVal + loadSegment)
        relocateIndexed data n (entryPtr + 4)

/-- What the last page lacks; zero stands for a full page. -/
def missingBytes (lastPage : ℕ) : Routine ℕ :=
  if lastPage > 0 then subtracted 512 lastPage else return 0

/-- The header is the first 28 bytes of the file. -/
def loadMzIndexed (data : List U8) : Routine (Except Error Unit) :=
  if data.length < 28 then return .error .notMz
  else do
    let magic ← sliced data 0 2
    if magic ≠ [0x4D, 0x5A] then return .error .notMz
    else do
      let bytes ← sliced data 0 28
      let header := MzHeader.ofBytes bytes
      let headerSize := header.headerParagraphs.toNat * 16
      let lastPage := header.bytesOnLastPage.toNat
      let missing ← missingBytes lastPage
      let fileSize := header.pagesInFile.toNat * 512 - missing
      let codeSize := fileSize - headerSize
      let codeData ← sliced data headerSize fileSize
      let loadPhys := Memory.phys loadSegment 0
      modMem fun mem => mem.loadBytes loadPhys codeData
      Exec.update fun core =>
        { core with
          cpu := { core.cpu with
            validRanges := core.cpu.validRanges ++
              [(loadPhys.toNat, loadPhys.toNat + codeSize)] } }
      relocateIndexed data header.relocations.toNat header.relocTableOffset.toNat
      modRegs header.setRegs
      return .ok ()

/-! ## What the header declares -/

namespace MzHeader

variable (header : MzHeader)

def headerSize : ℕ := header.headerParagraphs.toNat * 16

/-- Whole pages, the last of them cut to its bytes. -/
def fileSize : ℕ :=
  header.pagesInFile.toNat * 512 -
    (if header.bytesOnLastPage.toNat > 0 then 512 - header.bytesOnLastPage.toNat else 0)

end MzHeader

/-! ## The checks -/

section Checks

variable {data : List U8} (core : Core)

theorem indexed_apply {i : ℕ} (hinside : i < data.length) :
    indexed data i core = .ok (Disk.byteAt data i, core) := by
  unfold indexed Disk.byteAt
  rw [List.getD_eq_getElem?_getD, List.getElem?_eq_getElem hinside]
  rfl

theorem sliced_apply {start stop : ℕ} (hle : start ≤ stop) (hinside : stop ≤ data.length) :
    sliced data start stop core = .ok (slice data start (stop - start), core) := by
  rw [sliced, if_neg (by omega)]
  rfl

theorem sliced_fails {start stop : ℕ} (houtside : start > stop ∨ stop > data.length) :
    sliced data start stop core = .error .bounds := by
  rw [sliced, if_pos houtside]
  rfl

theorem indexedWord_apply {i : ℕ} (hinside : i + 1 < data.length) :
    indexedWord data i core = .ok (wordAt data i, core) := by
  rw [indexedWord, bind_ok (indexed_apply core (by omega)), bind_ok (indexed_apply core hinside)]
  rfl

/-- The bound of the loop keeps the four reads of an entry inside the file. -/
theorem relocateIndexed_apply (data : List U8) (n entryPtr : ℕ) (core : Core) :
    relocateIndexed data n entryPtr core =
      .ok ((), core.setMem (relocateAll data n entryPtr core.bus.mem)) := by
  induction n generalizing entryPtr core with
  | zero => rfl
  | succ n ih =>
      rw [relocateIndexed, relocateAll]
      by_cases houtside : entryPtr + 4 > data.length
      · rw [if_pos houtside, if_pos houtside]
        rfl
      · rw [if_neg houtside, if_neg houtside, bind_ok (indexedWord_apply core (by omega)),
          bind_ok (indexedWord_apply core (by omega)), bind_ok (getMem_apply core _),
          bind_ok (modMem_apply core _), ih]
        rfl

theorem relocateIndexed_eq (data : List U8) (n entryPtr : ℕ) :
    relocateIndexed data n entryPtr = modMem (relocateAll data n entryPtr) := by
  funext core
  exact relocateIndexed_apply data n entryPtr core

theorem byteAt_slice {i n : ℕ} (hi : i < n) :
    Disk.byteAt (slice data 0 n) i = Disk.byteAt data i := by
  simp [Disk.byteAt, slice, hi, List.getD_eq_getElem?_getD]

theorem ofBytes_slice : MzHeader.ofBytes (slice data 0 28) = MzHeader.ofBytes data := by
  simp [MzHeader.ofBytes, wordAt, byteAt_slice]

theorem magic_iff (hlength : ¬ data.length < 28) :
    slice data 0 2 = [0x4D, 0x5A] ↔ hasMzMagic data := by
  have hslice : slice data 0 2 = [Disk.byteAt data 0, Disk.byteAt data 1] := by
    match data with
    | [] | [_] => simp at hlength
    | _ :: _ :: _ => rfl
  have hlong : 2 ≤ data.length := by omega
  simp [hslice, hasMzMagic, hlong]

/-- The two subtractions of the size fail on a last page of more than 512 bytes only. -/
theorem missingBytes_apply {lastPage : ℕ} (hpage : lastPage ≤ 512) :
    missingBytes lastPage core = .ok (if lastPage > 0 then 512 - lastPage else 0, core) := by
  unfold missingBytes subtracted
  by_cases hpos : lastPage > 0
  · rw [if_pos hpos, if_neg (Nat.not_lt_of_le hpage), if_pos hpos]
    rfl
  · rw [if_neg hpos, if_neg hpos]
    rfl

theorem missingBytes_fails {lastPage : ℕ} (hpage : lastPage > 512) :
    missingBytes lastPage core = .error .overflow := by
  rw [missingBytes, if_pos (by omega), subtracted, if_pos hpage]
  rfl

end Checks

theorem loadMzIndexed_eq (data : List U8) : loadMzIndexed data = loadMz data := by
  funext core
  unfold loadMzIndexed loadMz
  by_cases hshort : data.length < 28
  · rw [if_pos hshort, if_pos (.inl hshort)]
  · rw [if_neg hshort, bind_ok (sliced_apply core (by omega) (by omega))]
    by_cases hmagic : hasMzMagic data
    · rw [if_neg (not_not_intro ((magic_iff hshort).mpr hmagic)),
        bind_ok (sliced_apply core (by omega) (by omega)), if_neg (by simp [hshort, hmagic])]
      simp only [Nat.sub_zero, ofBytes_slice, relocateIndexed_eq]
      set header := MzHeader.ofBytes data
      by_cases hpage : header.bytesOnLastPage.toNat > 512
      · rw [if_pos hpage, bind_error (missingBytes_fails core hpage)]
        rfl
      · rw [if_neg hpage, bind_ok (missingBytes_apply core (Nat.le_of_not_lt hpage))]
        change _ = (if header.headerSize > header.fileSize ∨ header.fileSize > data.length
          then _ else _ : Routine (Except Error Unit)) core
        by_cases hrange : header.headerSize > header.fileSize ∨ header.fileSize > data.length
        · rw [if_pos hrange]
          exact bind_error (sliced_fails core hrange)
        · rw [if_neg hrange]
          rcases not_or.mp hrange with ⟨hheader, hfile⟩
          exact bind_ok (sliced_apply core (Nat.le_of_not_lt hheader) (Nat.le_of_not_lt hfile))
    · rw [if_pos (mt (magic_iff hshort).mp hmagic), if_pos (.inr hmagic)]

/-! ## When the loader ends -/

/-- The loader ends, and leaves the machine as it was when it refuses the file. -/
def LoadsSafely (data : List U8) (core : Core) : Prop :=
  ∃ result after, loadMzIndexed data core = .ok (result, after) ∧
    ∀ e, result = .error e → after = core

/-- The load image lies in the file, and the last page is not larger than a page. -/
def ImageInFile (data : List U8) : Prop :=
  let header := MzHeader.ofBytes data
  header.bytesOnLastPage.toNat ≤ 512 ∧ header.headerSize ≤ header.fileSize ∧
    header.fileSize ≤ data.length

def Refused (data : List U8) : Prop := data.length < 28 ∨ ¬ hasMzMagic data

instance (data : List U8) : Decidable (Refused data) := by
  unfold Refused
  infer_instance

instance (data : List U8) : Decidable (ImageInFile data) := by
  unfold ImageInFile
  infer_instance

def mzImage (data : List U8) : List U8 :=
  let header := MzHeader.ofBytes data
  slice data header.headerSize (header.fileSize - header.headerSize)

def mzLoaded (data : List U8) (core : Core) : Core :=
  let header := MzHeader.ofBytes data
  let loadPhys := Memory.phys loadSegment 0
  let placed := core.bus.mem.loadBytes loadPhys (mzImage data)
  { cpu := { core.cpu with
      regs := header.setRegs core.cpu.regs
      validRanges := core.cpu.validRanges ++
        [(loadPhys.toNat, loadPhys.toNat + (header.fileSize - header.headerSize))] }
    bus := { core.bus with
      mem := relocateAll data header.relocations.toNat header.relocTableOffset.toNat placed } }

section Outcomes

variable {data : List U8} (core : Core)

theorem loadMz_checks (data : List U8) (core : Core) :
    loadMz data core =
      let header := MzHeader.ofBytes data
      if Refused data then .ok (.error .notMz, core)
      else if header.bytesOnLastPage.toNat > 512 then .error .overflow
      else if header.headerSize > header.fileSize ∨ header.fileSize > data.length then
        .error .bounds
      else .ok (.ok (), mzLoaded data core) := by
  have hfold : loadMz data =
      let header := MzHeader.ofBytes data
      if Refused data then pure (.error .notMz)
      else if header.bytesOnLastPage.toNat > 512 then Exec.fail .overflow
      else if header.headerSize > header.fileSize ∨ header.fileSize > data.length then
        Exec.fail .bounds
      else fun core => .ok (.ok (), mzLoaded data core) := rfl
  rw [hfold]
  simp only
  by_cases hrefused : Refused data
  · rw [if_pos hrefused, if_pos hrefused]
    rfl
  · rw [if_neg hrefused, if_neg hrefused]
    by_cases hpage : (MzHeader.ofBytes data).bytesOnLastPage.toNat > 512
    · rw [if_pos hpage, if_pos hpage]
      rfl
    · rw [if_neg hpage, if_neg hpage]
      by_cases hrange : (MzHeader.ofBytes data).headerSize > (MzHeader.ofBytes data).fileSize ∨
          (MzHeader.ofBytes data).fileSize > data.length
      · rw [if_pos hrange, if_pos hrange]
        rfl
      · rw [if_neg hrange, if_neg hrange]

theorem loadMz_loaded (haccepted : ¬ Refused data) (hinside : ImageInFile data) :
    loadMz data core = .ok (.ok (), mzLoaded data core) := by
  rcases hinside with ⟨hpage, hheader, hfile⟩
  rw [loadMz_checks]
  simp only
  rw [if_neg haccepted, if_neg (Nat.not_lt_of_le hpage), if_neg (by omega)]

theorem loadMz_panics (haccepted : ¬ Refused data) (houtside : ¬ ImageInFile data) :
    ∃ fault, loadMz data core = .error fault := by
  rw [loadMz_checks]
  simp only
  rw [if_neg haccepted]
  by_cases hpage : (MzHeader.ofBytes data).bytesOnLastPage.toNat > 512
  · rw [if_pos hpage]
    exact ⟨_, rfl⟩
  · have hrange : (MzHeader.ofBytes data).headerSize > (MzHeader.ofBytes data).fileSize ∨
        (MzHeader.ofBytes data).fileSize > data.length := by
      by_contra hnot
      exact houtside ⟨Nat.le_of_not_lt hpage, by omega, by omega⟩
    rw [if_neg hpage, if_pos hrange]
    exact ⟨_, rfl⟩

end Outcomes

theorem loads_safely_iff (data : List U8) (core : Core) :
    LoadsSafely data core ↔ Refused data ∨ ImageInFile data := by
  unfold LoadsSafely
  rw [loadMzIndexed_eq]
  by_cases hrefused : Refused data
  · have hrun : loadMz data core = .ok (.error .notMz, core) := by
      rw [loadMz_checks]
      exact if_pos hrefused
    exact iff_of_true ⟨_, _, hrun, fun _ _ => rfl⟩ (.inl hrefused)
  · rw [or_iff_right hrefused]
    constructor
    · rintro ⟨result, after, hrun, -⟩
      by_contra houtside
      rcases loadMz_panics core hrefused houtside with ⟨fault, hfault⟩
      rw [hfault] at hrun
      cases hrun
    · intro hinside
      exact ⟨_, _, loadMz_loaded core hrefused hinside, fun e hfail => nomatch hfail⟩

/-- A file that is all header, without relocations. -/
def mzHeaderFile (lastPage pages headerParagraphs : U16) : List U8 :=
  [0x4D, 0x5A] ++ wordBytes lastPage ++ wordBytes pages ++ [0, 0] ++
    wordBytes headerParagraphs ++ List.replicate 18 0

def freshCore : Core where
  cpu := Interpreter.new
  bus := Bus.new none fun _ => 0

/-- A last page of 513 bytes, a header of one paragraph in a file that declares no byte, and
a page that the file does not have. -/
theorem mz_headers_panic :
    loadMzIndexed (mzHeaderFile 513 1 0) freshCore = .error .overflow ∧
      loadMzIndexed (mzHeaderFile 0 0 1) freshCore = .error .bounds ∧
      loadMzIndexed (mzHeaderFile 0 1 0) freshCore = .error .bounds ∧
      ¬ LoadsSafely (mzHeaderFile 0 1 0) freshCore := by
  have hmissing : loadMzIndexed (mzHeaderFile 0 1 0) freshCore = .error .bounds := by
    rw [loadMzIndexed_eq, loadMz_checks]
    simp only
    rw [if_neg (by decide +kernel), if_neg (by decide +kernel), if_pos (by decide +kernel)]
  refine ⟨?_, ?_, hmissing, ?_⟩
  · rw [loadMzIndexed_eq, loadMz_checks]
    simp only
    rw [if_neg (by decide +kernel), if_pos (by decide +kernel)]
  · rw [loadMzIndexed_eq, loadMz_checks]
    simp only
    rw [if_neg (by decide +kernel), if_neg (by decide +kernel), if_pos (by decide +kernel)]
  · rintro ⟨result, after, hrun, -⟩
    rw [hmissing] at hrun
    cases hrun

end Kita98
