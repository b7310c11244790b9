import Kita98.ExecTransfer
import Kita98.MzLoader
import Kita98.WrappingScan

/-!
# How a DOS call ends

The loops of INT 21h with a bound of their own on the rounds: the scans for the
end of a string and the loop of `read_file`.  The scans come past every byte of
the segment DS and do not end when it has no terminator.
-/

namespace Kita98

open WordBits WrappingScan Kita98.Core Exec

variable {H : HostFiles}

/-! ## The services with a bound on their loops -/

def scanDsDxWithin (fuel : ℕ) (stop : U8) : Routine (List U8) := do
  let seg ← getRegs fun regs => regs.getSeg .DS
  let off ← getRegs fun regs => regs.get16 .DX
  let bytes ← getMem fun mem => scanUntil mem seg stop fuel off
  match bytes with
  | none => Exec.fail .hang
  | some bytes => pure bytes

/-- The loop of `read_file` by its rounds; nothing is returned when they do not do. -/
def readLoopWithin (fs : FatFileSystem) (disk : Disk) (size : ℕ) :
    ℕ → U16 → List U8 → Option (Except Error (List U8))
  | 0, _, _ => none
  | fuel + 1, cluster, data =>
      match fs.readRound disk size cluster data with
      | .inl result => some result
      | .inr (next, data) => readLoopWithin fs disk size fuel next data

def findOnDiskWithin (fuel : ℕ) (disk : Option Disk) (path : Text) :
    Option (Option (DirEntry × List U8)) :=
  match disk with
  | none => some none
  | some disk =>
      match FatFileSystem.detect disk with
      | .error _ => some none
      | .ok fs =>
          match fs.listRootDir disk with
          | .error _ => some none
          | .ok entries =>
              match entries.find? fun e => toUppercase e.fullName = path with
              | none => some none
              | some entry =>
                  (readLoopWithin fs disk entry.size.toNat fuel entry.firstCluster []).map
                    fun result =>
                      match result with
                      | .error _ => none
                      | .ok data => some (entry, data)

/-- A loop that has not come to its end. -/
def finished {σ α : Type} : Option α → Exec Fault σ α
  | none => Exec.fail .hang
  | some a => pure a

def printStringWithin (fuel : ℕ) : Routine Unit := do
  let bytes ← scanDsDxWithin fuel 0x24
  modVideo fun video => bytes.foldl VideoController.writeChar video

def int21OpenWithin (fuel : ℕ) : Handler H Unit := do
  let bytes ← onCore (scanDsDxWithin fuel 0)
  let path := pathText bytes
  let disk ← Exec.read fun m => m.bus.disk
  let found ← finished (findOnDiskWithin fuel disk path)
  match found with
  | some (_, data) => openVirtual data
  | none => do
      let result ← onDos (DosRuntime.openFile path)
      match result with
      | .ok handle => onCore (modRegs fun regs => (regs.set16 .AX handle).setCf false)
      | .error _ => onCore (modRegs fun regs => (regs.set16 .AX 2).setCf true)

def int21ExecWithin (fuel : ℕ) : Routine Unit := do
  let al ← getRegs fun regs => regs.get8 .AL
  if al = 0x00 then do
    let bytes ← scanDsDxWithin fuel 0
    let disk ← Exec.read fun core => core.bus.disk
    let found ← finished (findOnDiskWithin fuel disk (pathText bytes))
    match found with
    | none => modRegs fun regs => (regs.set16 .AX 2).setCf true
    | some (_, data) => do
        modRegs fun _ => Regs.new
        let result ← executeBinary data
        match result with
        | .ok _ => modRegs fun regs => regs.setCf false
        | .error _ => modRegs fun regs => (regs.set16 .AX 2).setCf true
  else modRegs fun regs => regs.setCf true

/-- The other services have no loop that depends on memory or on the disk. -/
def handleInt21Within (fuel : ℕ) : Handler H Unit := do
  let ah ← onCore (getRegs fun regs => regs.get8 .AH)
  match ah with
  | 0x09 => onCore (printStringWithin fuel)
  | 0x3D => int21OpenWithin fuel
  | 0x3F => int21Read
  | 0x42 => int21Seek
  | 0x4B => onCore (int21ExecWithin fuel)
  | ah => onCore (int21Core ah)

/-- Some bound on the rounds of the loops is enough. -/
def Int21Ends (m : Machine H) : Prop := ∃ fuel, handleInt21Within fuel m ≠ .error .hang

/-! ## The loops -/

theorem scanUntil_eq_scan (mem : Memory) (seg : U16) (stop : U8) (fuel : ℕ) (off : U16) :
    scanUntil mem seg stop fuel off =
      scan (fun off : U16 => mem.segReadU8 seg (off.setWidth 32)) (· = stop) fuel off := by
  induction fuel generalizing off with
  | zero => rfl
  | succ fuel ih => rw [scanUntil, scan, ih]

/-- No byte of the segment DS is `stop`. -/
def NoStop (core : Core) (stop : U8) : Prop :=
  ∀ off : U16, core.bus.mem.segReadU8 (core.cpu.regs.getSeg .DS) (off.setWidth 32) ≠ stop

theorem pathAt_eq_none_iff (core : Core) (stop : U8) :
    pathAt core stop = none ↔ NoStop core stop := by
  have hround : 2 ^ 16 ≤ scanFuel := by decide
  rw [pathAt, scanUntil_eq_scan, scan_eq_none_iff hround]
  rfl

theorem scanDsDxWithin_eq {fuel : ℕ} (hround : 2 ^ 16 ≤ fuel) :
    scanDsDxWithin fuel = scanDsDx := by
  unfold scanDsDxWithin scanDsDx
  simp only [scanUntil_eq_scan, scan_enough hround]
  rfl

theorem scanDsDxWithin_of_noStop {core : Core} {stop : U8} (hnone : NoStop core stop) (fuel : ℕ) :
    scanDsDxWithin fuel stop core = .error .hang := by
  have hscan : scanUntil core.bus.mem (core.cpu.regs.getSeg .DS) stop fuel
      (core.cpu.regs.get16 .DX) = none := by
    rw [scanUntil_eq_scan]
    apply scan_of_never
    exact hnone
  unfold scanDsDxWithin
  simp only [bind_apply, getRegs_apply, getMem_apply, hscan]
  rfl

/-- A round that goes on adds a byte, so one more round than the size is enough. -/
theorem readLoopWithin_eq
    (fs : FatFileSystem) (disk : Disk) (size fuel : ℕ) (cluster : U16) (data : List U8)
    (hfuel : size ≤ fuel + data.length) :
    readLoopWithin fs disk size (fuel + 1) cluster data =
      some (fs.readLoop disk size (fuel + 1) cluster data) := by
  induction fuel generalizing cluster data with
  | zero =>
      rw [readLoopWithin, FatFileSystem.readLoop_succ]
      cases hround : fs.readRound disk size cluster data with
      | inl result => rfl
      | inr next =>
          have hgrow := FatFileSystem.readRound_grows hround
          omega
  | succ fuel ih =>
      rw [readLoopWithin, FatFileSystem.readLoop_succ]
      cases hround : fs.readRound disk size cluster data with
      | inl result => rfl
      | inr next =>
          have hgrow := FatFileSystem.readRound_grows hround
          exact ih next.1 next.2 (by omega)

theorem readFileWithin_eq
    {fuel : ℕ} (hfuel : 2 ^ 32 ≤ fuel) (fs : FatFileSystem) (disk : Disk) (entry : DirEntry) :
    readLoopWithin fs disk entry.size.toNat fuel entry.firstCluster [] =
      some (fs.readFile disk entry) := by
  have hsize := entry.size.isLt
  rcases Nat.exists_eq_add_of_le (show entry.size.toNat + 1 ≤ fuel by omega) with ⟨extra, heq⟩
  have hstable := fs.readLoop_stable disk entry.size.toNat entry.size.toNat extra
    entry.firstCluster [] (Nat.le_add_right _ _)
  rw [FatFileSystem.readFile, ← hstable, heq, Nat.add_right_comm]
  exact readLoopWithin_eq fs disk _ _ _ _ (by omega)

theorem findOnDiskWithin_eq {fuel : ℕ} (hfuel : 2 ^ 32 ≤ fuel) (disk : Option Disk) (path : Text) :
    findOnDiskWithin fuel disk path = some (findOnDisk disk path) := by
  unfold findOnDiskWithin findOnDisk
  cases disk with
  | none => rfl
  | some disk =>
      cases hdetect : FatFileSystem.detect disk with
      | error e => simp only [hdetect]
      | ok fs =>
          cases hlist : fs.listRootDir disk with
          | error e => simp only [hdetect, hlist]
          | ok entries =>
              cases hfind : entries.find? fun e => toUppercase e.fullName = path with
              | none => simp only [hdetect, hlist, hfind]
              | some entry =>
                  cases hread : fs.readFile disk entry <;>
                    simp only [hdetect, hlist, hfind, hread, readFileWithin_eq hfuel,
                      Option.map_some]

/-! ## Enough rounds -/

section Enough

variable {fuel : ℕ} (hfuel : 2 ^ 32 ≤ fuel)

include hfuel

theorem printStringWithin_eq : printStringWithin fuel = printString := by
  rw [printStringWithin, scanDsDxWithin_eq (by omega)]
  rfl

theorem int21OpenWithin_eq : (int21OpenWithin fuel : Handler H Unit) = int21Open := by
  unfold int21OpenWithin
  simp only [scanDsDxWithin_eq (show 2 ^ 16 ≤ fuel by omega), findOnDiskWithin_eq hfuel, finished,
    pure_bind]
  rfl

theorem int21ExecWithin_eq : int21ExecWithin fuel = int21Exec := by
  unfold int21ExecWithin
  simp only [scanDsDxWithin_eq (show 2 ^ 16 ≤ fuel by omega), findOnDiskWithin_eq hfuel, finished,
    pure_bind]
  rfl

/-- The bounds of the model are enough, whatever memory and disk hold. -/
theorem handleInt21Within_eq : (handleInt21Within fuel : Handler H Unit) = handleInt21 := by
  unfold handleInt21Within handleInt21
  congr 1
  funext ah
  split
  · exact congrArg onCore (printStringWithin_eq hfuel)
  · exact int21OpenWithin_eq hfuel
  · rfl
  · rfl
  · exact congrArg onCore (int21ExecWithin_eq hfuel)
  · split
    all_goals first
      | contradiction
      | rfl

end Enough

/-! ## Nothing else loops -/

theorem executeBinary_ne_hang (data : List U8) (core : Core) :
    executeBinary data core ≠ .error .hang := by
  unfold executeBinary
  by_cases hmz : hasMzMagic data
  · rw [if_pos hmz, loadMz_checks]
    simp only
    split_ifs <;> simp
  · rw [if_neg hmz]
    exact fun hrun => nomatch hrun

theorem openFile_ne_hang (path : Text) (dos : DosRuntime H) :
    DosRuntime.openFile path dos ≠ .error .hang := by
  unfold DosRuntime.openFile
  split
  · simp
  · simp only
    split <;> simp

theorem dosRead_ne_hang (handle : U16) (n : ℕ) (dos : DosRuntime H) :
    DosRuntime.read handle n dos ≠ .error .hang := by
  unfold DosRuntime.read
  split
  · simp
  · split <;> simp

theorem dosSeek_ne_hang (handle : U16) (offset : ℕ) (whence : U8) (dos : DosRuntime H) :
    DosRuntime.seek handle offset whence dos ≠ .error .hang := by
  unfold DosRuntime.seek
  split
  · simp
  · split
    · simp
    · split <;> simp

theorem scanDsDx_hangs_iff (core : Core) (stop : U8) :
    scanDsDx stop core = .error .hang ↔ NoStop core stop := by
  rw [← pathAt_eq_none_iff]
  constructor
  · intro hrun
    cases hpath : pathAt core stop with
    | none => rfl
    | some bytes =>
        rw [scanDsDx_of_pathAt hpath] at hrun
        cases hrun
  · intro hnone
    rw [← scanDsDxWithin_eq le_rfl]
    exact scanDsDxWithin_of_noStop ((pathAt_eq_none_iff core stop).mp hnone) _

theorem int21Core_ne_hang {ah : U8} (hprint : ah ≠ 0x09) (hexec : ah ≠ 0x4B) (core : Core) :
    int21Core ah core ≠ .error .hang := by
  intro hrun
  unfold int21Core at hrun
  split at hrun
  all_goals first
    | cases hrun
    | contradiction

theorem printString_hangs {core : Core} (hrun : printString core = .error .hang) :
    NoStop core 0x24 := by
  rcases bind_eq_error hrun with hscan | ⟨bytes, scanned, -, hprint⟩
  · exact (scanDsDx_hangs_iff core 0x24).mp hscan
  · cases hprint

theorem int21Exec_hangs {core : Core} (hrun : int21Exec core = .error .hang) :
    core.cpu.regs.get8 .AL = 0x00 ∧ NoStop core 0 := by
  unfold int21Exec at hrun
  rw [bind_ok (getRegs_apply core _)] at hrun
  split at hrun
  · next hal =>
      refine ⟨hal, ?_⟩
      rcases bind_eq_error hrun with hscan | ⟨bytes, scanned, -, hrest⟩
      · exact (scanDsDx_hangs_iff core 0).mp hscan
      · rw [bind_ok (read_apply _ scanned)] at hrest
        cases hfound : findOnDisk scanned.bus.disk (pathText bytes) with
        | none =>
            rw [hfound] at hrest
            cases hrest
        | some found =>
            rw [hfound] at hrest
            simp only at hrest
            rw [bind_ok (modRegs_apply scanned _)] at hrest
            rcases bind_eq_error hrest with hload | ⟨result, loaded, -, hlast⟩
            · exact absurd hload (executeBinary_ne_hang _ _)
            · cases result <;> cases hlast
  · cases hrun

theorem int21Open_hangs {m : Machine H} (hrun : int21Open m = .error .hang) :
    NoStop m.toCore 0 := by
  rcases bind_eq_error hrun with hscan | ⟨bytes, scanned, -, hrest⟩
  · exact (scanDsDx_hangs_iff m.toCore 0).mp (focus_error_iff.mp hscan)
  · rw [bind_ok (read_apply _ scanned)] at hrest
    cases hfound : findOnDisk scanned.bus.disk (pathText bytes) with
    | some found =>
        rw [hfound] at hrest
        unfold openVirtual at hrest
        simp only [bind_apply, read_apply] at hrest
        split at hrest <;> cases hrest
    | none =>
        rw [hfound] at hrest
        rcases bind_eq_error hrest with hopen | ⟨result, opened, -, hlast⟩
        · exact absurd (focus_error_iff.mp hopen) (openFile_ne_hang _ _)
        · cases result <;> cases hlast

theorem int21Read_ne_hang (m : Machine H) : int21Read m ≠ .error .hang := by
  intro hrun
  unfold int21Read at hrun
  rw [bind_ok (onCore_getRegs_apply _ m), bind_ok (onCore_getRegs_apply _ m)] at hrun
  rcases bind_eq_error hrun with hread | ⟨result, found, -, hlast⟩
  · exact absurd (focus_error_iff.mp hread) (dosRead_ne_hang _ _ _)
  · cases result <;> cases hlast

theorem int21Seek_ne_hang (m : Machine H) : int21Seek m ≠ .error .hang := by
  intro hrun
  unfold int21Seek at hrun
  rw [bind_ok (onCore_getRegs_apply _ m), bind_ok (onCore_getRegs_apply _ m),
    bind_ok (onCore_getRegs_apply _ m)] at hrun
  rcases bind_eq_error hrun with hseek | ⟨result, found, -, hlast⟩
  · exact absurd (focus_error_iff.mp hseek) (dosSeek_ne_hang _ _ _ _)
  · cases result <;> cases hlast

/-! ## The scans that do not end -/

/-- The request scans the segment DS for a byte that is not there. -/
def ScansForever (core : Core) : Prop :=
  core.cpu.regs.get8 .AH = 0x09 ∧ NoStop core 0x24 ∨
    (core.cpu.regs.get8 .AH = 0x3D ∨
      core.cpu.regs.get8 .AH = 0x4B ∧ core.cpu.regs.get8 .AL = 0x00) ∧ NoStop core 0

theorem handleInt21_hangs {m : Machine H} (hrun : handleInt21 m = .error .hang) :
    ScansForever m.toCore := by
  unfold handleInt21 at hrun
  rw [bind_ok (onCore_getRegs_apply _ m)] at hrun
  generalize hah : m.cpu.regs.get8 .AH = ah at hrun
  split at hrun
  · exact .inr ⟨.inl hah, int21Open_hangs hrun⟩
  · exact absurd hrun (int21Read_ne_hang m)
  · exact absurd hrun (int21Seek_ne_hang m)
  · replace hrun := focus_error_iff.mp hrun
    by_cases hprint : ah = 0x09
    · subst hprint
      exact .inl ⟨hah, printString_hangs hrun⟩
    · by_cases hexec : ah = 0x4B
      · subst hexec
        rcases int21Exec_hangs hrun with ⟨hal, hnone⟩
        exact .inr ⟨.inr ⟨hah, hal⟩, hnone⟩
      · exact absurd hrun (int21Core_ne_hang hprint hexec _)

theorem handleInt21Within_hangs {m : Machine H} (hscan : ScansForever m.toCore) (fuel : ℕ) :
    handleInt21Within fuel m = .error .hang := by
  unfold handleInt21Within
  rw [bind_ok (onCore_getRegs_apply _ m)]
  rcases hscan with ⟨hah, hnone⟩ | ⟨hah | ⟨hah, hal⟩, hnone⟩
  · rw [hah]
    exact focus_error_iff.mpr (bind_error (scanDsDxWithin_of_noStop hnone fuel))
  · rw [hah]
    exact bind_error (focus_error_iff.mpr (scanDsDxWithin_of_noStop hnone fuel))
  · rw [hah]
    apply focus_error_iff.mpr
    unfold int21ExecWithin
    rw [bind_ok (getRegs_apply m.toCore _), if_pos hal]
    exact bind_error (scanDsDxWithin_of_noStop hnone fuel)

theorem dos_call_ends_iff (m : Machine H) : Int21Ends m ↔ ¬ ScansForever m.toCore := by
  constructor
  · rintro ⟨fuel, hends⟩ hscan
    exact hends (handleInt21Within_hangs hscan fuel)
  · intro hscan
    refine ⟨2 ^ 32, ?_⟩
    rw [handleInt21Within_eq le_rfl]
    exact mt handleInt21_hangs hscan

/-- A fresh machine, its memory cleared, that asks for a service of INT 21h. -/
def clearedMachine (ah : U8) : Machine HostFiles.none where
  toCore := freshCore.setRegs (freshCore.cpu.regs.set8 .AH ah)
  dos := DosRuntime.new

/-- Cleared memory has no `$`. -/
theorem print_string_never_ends : ¬ Int21Ends (clearedMachine 0x09) := by
  have hah : (clearedMachine 0x09).cpu.regs.get8 .AH = 0x09 := by decide +kernel
  have hnone : NoStop (clearedMachine 0x09).toCore 0x24 := by
    intro off
    have hclear : (clearedMachine 0x09).bus.mem.segReadU8
        ((clearedMachine 0x09).cpu.regs.getSeg .DS) (off.setWidth 32) = 0 := rfl
    rw [hclear]
    decide
  rintro ⟨fuel, hends⟩
  exact hends (handleInt21Within_hangs (.inl ⟨hah, hnone⟩) fuel)

end Kita98
