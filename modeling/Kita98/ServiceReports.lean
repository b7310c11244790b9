import Kita98.Interrupts

/-!
# What the native services report

A service reports through CF, one also through ZF.  Which flag it sets to what
is decided by the registers, the disk and the handle table it starts from.
Every service keeps SS and SP, except the one that starts a program.
-/

namespace Kita98

open Exec

/-- The stack registers are kept, CF is `carry` if that is given, and ZF is
`zero` if that is given. -/
structure Reports (carry zero : Option Bool) (before after : Regs) : Prop where
  cf : after.flag Flags.CF = carry.getD (before.flag Flags.CF)
  zf : after.flag Flags.ZF = zero.getD (before.flag Flags.ZF)
  ss : after.getSeg .SS = before.getSeg .SS
  sp : after.get16 .SP = before.get16 .SP

/-! ## BIOS services -/

def int13Carry (disk : Option Disk) (regs : Regs) : Option Bool :=
  match regs.get8 .AH with
  | 0x00 => some false
  | 0x02 =>
      match disk with
      | none => some true
      | some disk =>
          match requestedSectors disk regs with
          | .error _ => some true
          | .ok _ => some false
  | 0x03 | 0x04 => some false
  | 0x08 => some disk.isNone
  | 0x15 => some false
  | _ => some true

def int16Carry (regs : Regs) : Option Bool :=
  match regs.get8 .AH with
  | 0x00 | 0x01 | 0x02 => none
  | _ => some true

/-- The keyboard status service reports an empty buffer. -/
def int16Zero (regs : Regs) : Option Bool :=
  if regs.get8 .AH = 0x01 then some true else none

def int1aCarry (regs : Regs) : Option Bool :=
  if regs.get8 .AH = 0x00 then none else some true

theorem handleInt10_reports
    {core after : Core} (hrun : handleInt10 core = .ok ((), after)) :
    Reports none none core.cpu.regs after.cpu.regs := by
  unfold handleInt10 at hrun
  simp only [bind_apply, getRegs_apply, modVideo, update_apply] at hrun
  generalize core.cpu.regs.get8 .AH = ah at hrun
  split at hrun <;> cases hrun
  · constructor <;> simp [Regs.get16_set16_of_ne]
  · constructor <;> simp
  · constructor <;> rfl

theorem int13ReadSectors_reports
    {core after : Core} (hrun : int13ReadSectors core = .ok ((), after)) :
    Reports
      (match core.bus.disk with
        | none => some true
        | some disk =>
            match requestedSectors disk core.cpu.regs with
            | .error _ => some true
            | .ok _ => some false)
      none core.cpu.regs after.cpu.regs := by
  unfold int13ReadSectors at hrun
  simp only [bind_apply, read_apply] at hrun
  cases hdisk : core.bus.disk with
  | none =>
      rw [hdisk] at hrun
      cases hrun
      constructor <;> simp
  | some disk =>
      rw [hdisk] at hrun
      simp only [bind_apply, getRegs_apply, id] at hrun
      cases hsectors : requestedSectors disk core.cpu.regs with
      | error e =>
          rw [hsectors] at hrun
          cases hrun
          constructor <;> simp [hsectors]
      | ok data =>
          rw [hsectors] at hrun
          cases hrun
          constructor <;> simp [hsectors]

theorem int13Parameters_reports
    {core after : Core} (hrun : int13Parameters core = .ok ((), after)) :
    Reports (some core.bus.disk.isNone) none core.cpu.regs after.cpu.regs := by
  unfold int13Parameters at hrun
  simp only [bind_apply, read_apply] at hrun
  cases hdisk : core.bus.disk with
  | none =>
      rw [hdisk] at hrun
      cases hrun
      constructor <;> simp
  | some disk =>
      rw [hdisk] at hrun
      cases hrun
      constructor <;> simp

theorem diskStatus_reports
    {core after : Core} {ah : U8} {failed : Bool}
    (hrun : diskStatus ah failed core = .ok ((), after)) :
    Reports (some failed) none core.cpu.regs after.cpu.regs := by
  cases hrun
  constructor <;> simp

theorem handleInt13_reports
    {core after : Core} (hrun : handleInt13 core = .ok ((), after)) :
    Reports (int13Carry core.bus.disk core.cpu.regs) none core.cpu.regs after.cpu.regs := by
  unfold handleInt13 at hrun
  simp only [bind_apply, getRegs_apply] at hrun
  generalize hah : core.cpu.regs.get8 .AH = ah at hrun
  split at hrun
  · simpa only [int13Carry, hah] using diskStatus_reports hrun
  · simpa only [int13Carry, hah] using int13ReadSectors_reports hrun
  · simpa only [int13Carry, hah] using diskStatus_reports hrun
  · simpa only [int13Carry, hah] using diskStatus_reports hrun
  · simpa only [int13Carry, hah] using int13Parameters_reports hrun
  · simpa only [int13Carry, hah] using diskStatus_reports hrun
  · have hcarry : int13Carry core.bus.disk core.cpu.regs = some true := by
      unfold int13Carry
      rw [hah]
      split <;> first | rfl | contradiction
    rw [hcarry]
    exact diskStatus_reports hrun

theorem handleInt16_reports
    {core after : Core} (hrun : handleInt16 core = .ok ((), after)) :
    Reports (int16Carry core.cpu.regs) (int16Zero core.cpu.regs)
      core.cpu.regs after.cpu.regs := by
  unfold handleInt16 at hrun
  unfold int16Carry int16Zero
  simp only [bind_apply, getRegs_apply] at hrun
  generalize core.cpu.regs.get8 .AH = ah at hrun ⊢
  split at hrun <;> cases hrun
  · constructor <;> simp [Regs.get16_set16_of_ne]
  · constructor <;> simp
  · constructor <;> simp
  · next hfirst hstatus hshift =>
      have hne : ¬ ah = 0x01#8 := hstatus
      constructor <;> simp [hne]

theorem handleInt18_reports
    {core after : Core} (hrun : handleInt18 core = .ok ((), after)) :
    Reports none none core.cpu.regs after.cpu.regs := by
  unfold handleInt18 at hrun
  simp only [bind_apply, getRegs_apply] at hrun
  generalize core.cpu.regs.get8 .AH = ah at hrun
  split at hrun <;> cases hrun
  · constructor <;> simp
  · constructor <;> rfl
  · constructor <;> rfl

theorem handleInt1a_reports
    {core after : Core} (hrun : handleInt1a core = .ok ((), after)) :
    Reports (int1aCarry core.cpu.regs) none core.cpu.regs after.cpu.regs := by
  unfold handleInt1a at hrun
  unfold int1aCarry
  simp only [bind_apply, getRegs_apply] at hrun
  generalize core.cpu.regs.get8 .AH = ah at hrun ⊢
  split at hrun <;> cases hrun
  · constructor <;> simp [Regs.get16_set16_of_ne]
  · next hother =>
      have hne : ¬ ah = 0x00#8 := hother
      constructor <;> simp [hne]

theorem handleInt1f_reports
    {core after : Core} (hrun : handleInt1f core = .ok ((), after)) :
    Reports none none core.cpu.regs after.cpu.regs := by
  unfold handleInt1f at hrun
  simp only [bind_apply, getRegs_apply] at hrun
  generalize core.cpu.regs.get8 .AH = ah at hrun
  split at hrun <;> cases hrun
  · constructor <;> simp [Regs.get16_set16_of_ne]
  · constructor <;> rfl

/-! ## DOS services -/

section Dos

variable {H : HostFiles}

/-- The path at DS:DX, when the scan for its end comes back. -/
def pathAt (core : Core) (stop : U8) : Option (List U8) :=
  scanUntil core.bus.mem (core.cpu.regs.getSeg .DS) stop scanFuel (core.cpu.regs.get16 .DX)

/-- The request replaces the registers by those of a program on the disk. -/
def StartsProgram (core : Core) : Prop :=
  core.cpu.regs.get8 .AH = 0x4B ∧ core.cpu.regs.get8 .AL = 0x00 ∧
    ∃ bytes, pathAt core 0 = some bytes ∧
      (findOnDisk core.bus.disk (pathText bytes)).isSome = true

def openCarry (m : Machine H) : Option Bool :=
  match pathAt m.toCore 0 with
  | none => none
  | some bytes =>
      match findOnDisk m.bus.disk (pathText bytes) with
      | some _ => some false
      | none => some (H.openFile (pathText bytes)).isNone

def readCarry (m : Machine H) : Option Bool :=
  some (m.dos.readFails (m.cpu.regs.get16 .BX) (m.cpu.regs.get16 .CX).toNat)

def seekCarry (m : Machine H) : Option Bool :=
  some (m.dos.seekFails (m.cpu.regs.get16 .BX)
    ((m.cpu.regs.get16 .CX).toNat * 65536 + (m.cpu.regs.get16 .DX).toNat)
    (m.cpu.regs.get8 .AL))

/-- The services without a handle, by AH; a program that starts is left out. -/
def int21CoreCarry (ah : U8) : Option Bool :=
  match ah with
  | 0x02 | 0x09 | 0x19 | 0x1A | 0x25 | 0x2C | 0x30 | 0x34 | 0x35 | 0x4C => none
  | 0x33 | 0x44 | 0x48 | 0x49 | 0x4A | 0x47 => some false
  | _ => some true

def int21Carry (m : Machine H) : Option Bool :=
  match m.cpu.regs.get8 .AH with
  | 0x3D => openCarry m
  | 0x3F => readCarry m
  | 0x42 => seekCarry m
  | ah => int21CoreCarry ah

theorem scanDsDx_ok
    {core after : Core} {stop : U8} {bytes : List U8}
    (hrun : scanDsDx stop core = .ok (bytes, after)) :
    pathAt core stop = some bytes ∧ after = core := by
  unfold scanDsDx at hrun
  simp only [bind_apply, getRegs_apply, getMem_apply] at hrun
  unfold pathAt
  cases hscan : scanUntil core.bus.mem (core.cpu.regs.getSeg .DS) stop scanFuel
      (core.cpu.regs.get16 .DX) with
  | none =>
      rw [hscan] at hrun
      cases hrun
  | some found =>
      rw [hscan] at hrun
      cases hrun
      exact ⟨rfl, rfl⟩

theorem int21Exec_reports
    {core after : Core} (hah : core.cpu.regs.get8 .AH = 0x4B)
    (hkeeps : ¬ StartsProgram core) (hrun : int21Exec core = .ok ((), after)) :
    Reports (some true) none core.cpu.regs after.cpu.regs := by
  unfold int21Exec at hrun
  rw [bind_ok (getRegs_apply core _)] at hrun
  split at hrun
  · next hal =>
      rcases bind_eq_ok hrun with ⟨bytes, scanned, hscan, hrest⟩
      rcases scanDsDx_ok hscan with ⟨hpath, rfl⟩
      simp only [bind_apply, read_apply] at hrest
      cases hfound : findOnDisk scanned.bus.disk (pathText bytes) with
      | none =>
          rw [hfound] at hrest
          cases hrest
          constructor <;> simp [Regs.get16_set16_of_ne]
      | some found =>
          have hsome : (findOnDisk scanned.bus.disk (pathText bytes)).isSome = true := by
            rw [hfound]
            rfl
          exact absurd ⟨hah, hal, bytes, hpath, hsome⟩ hkeeps
  · cases hrun
    constructor <;> simp

theorem int21Core_reports
    {core after : Core} {ah : U8} (hah : core.cpu.regs.get8 .AH = ah)
    (hkeeps : ¬ StartsProgram core) (hrun : int21Core ah core = .ok ((), after)) :
    Reports (int21CoreCarry ah) none core.cpu.regs after.cpu.regs := by
  unfold int21Core at hrun
  split at hrun
  · cases hrun
    constructor <;> rfl
  · unfold printString at hrun
    rcases bind_eq_ok hrun with ⟨bytes, scanned, hscan, hrest⟩
    rcases scanDsDx_ok hscan with ⟨-, rfl⟩
    cases hrest
    constructor <;> rfl
  · cases hrun
    constructor <;> simp [int21CoreCarry]
  · cases hrun
    constructor <;> rfl
  · cases hrun
    constructor <;> rfl
  · cases hrun
    constructor <;> simp [int21CoreCarry, Regs.get16_set16_of_ne]
  · cases hrun
    constructor <;> simp [int21CoreCarry, Regs.get16_set16_of_ne]
  · cases hrun
    constructor <;> simp [int21CoreCarry]
  · cases hrun
    constructor <;>
      simp [int21CoreCarry, Regs.getSeg_setSeg_of_ne, Regs.get16_set16_of_ne]
  · cases hrun
    constructor <;>
      simp [int21CoreCarry, Regs.getSeg_setSeg_of_ne, Regs.get16_set16_of_ne]
  · cases hrun
    constructor <;> simp [int21CoreCarry]
  · cases hrun
    constructor <;> simp [int21CoreCarry, Regs.get16_set16_of_ne]
  · cases hrun
    constructor <;> simp [int21CoreCarry]
  · cases hrun
    constructor <;> simp [int21CoreCarry]
  · cases hrun
    constructor <;> simp [int21CoreCarry]
  · exact int21Exec_reports hah hkeeps hrun
  · cases hrun
    constructor <;> rfl
  · cases hrun
    have hcarry : int21CoreCarry ah = some true := by
      unfold int21CoreCarry
      split <;> first | rfl | contradiction
    rw [hcarry]
    constructor <;> simp

theorem int21Open_reports
    {m after : Machine H} (hrun : int21Open m = .ok ((), after)) :
    Reports (openCarry m) none m.cpu.regs after.cpu.regs := by
  unfold int21Open at hrun
  rcases bind_eq_ok hrun with ⟨bytes, scanned, hscan, hrest⟩
  rcases focus_eq_ok hscan with ⟨core, hcore, rfl⟩
  rcases scanDsDx_ok hcore with ⟨hpath, rfl⟩
  simp only [bind_apply, read_apply] at hrest
  unfold openCarry
  rw [hpath]
  simp only
  cases hfound : findOnDisk m.bus.disk (pathText bytes) with
  | some found =>
      rw [hfound] at hrest
      unfold openVirtual at hrest
      simp only [bind_apply, read_apply] at hrest
      split at hrest
      · cases hrest
        constructor <;> simp [Regs.get16_set16_of_ne]
      · cases hrest
  | none =>
      rw [hfound] at hrest
      rcases bind_eq_ok hrest with ⟨result, opened, hopen, hset⟩
      rcases focus_eq_ok hopen with ⟨dos, hdos, rfl⟩
      have hfails := DosRuntime.openFile_isNone hdos
      cases result with
      | ok handle =>
          cases hset
          constructor <;> simp [← hfails, Except.toOption, Regs.get16_set16_of_ne]
      | error e =>
          cases hset
          constructor <;> simp [← hfails, Except.toOption, Regs.get16_set16_of_ne]

theorem int21Read_reports
    {m after : Machine H} (hrun : int21Read m = .ok ((), after)) :
    Reports (readCarry m) none m.cpu.regs after.cpu.regs := by
  unfold int21Read at hrun
  rw [bind_ok (onCore_getRegs_apply _ m), bind_ok (onCore_getRegs_apply _ m)] at hrun
  rcases bind_eq_ok hrun with ⟨result, found, hread, hset⟩
  rcases focus_eq_ok hread with ⟨dos, hdos, rfl⟩
  have hfails := DosRuntime.read_isNone hdos
  unfold readCarry
  cases result with
  | ok bytes =>
      cases hset
      constructor <;> simp [← hfails, Except.toOption, Regs.get16_set16_of_ne]
  | error e =>
      cases hset
      constructor <;> simp [← hfails, Except.toOption]

theorem int21Seek_reports
    {m after : Machine H} (hrun : int21Seek m = .ok ((), after)) :
    Reports (seekCarry m) none m.cpu.regs after.cpu.regs := by
  unfold int21Seek at hrun
  rw [bind_ok (onCore_getRegs_apply _ m), bind_ok (onCore_getRegs_apply _ m),
    bind_ok (onCore_getRegs_apply _ m)] at hrun
  rcases bind_eq_ok hrun with ⟨result, found, hseek, hset⟩
  rcases focus_eq_ok hseek with ⟨dos, hdos, rfl⟩
  have hfails := DosRuntime.seek_isNone hdos
  unfold seekCarry
  cases result with
  | ok pos =>
      cases hset
      constructor <;> simp [← hfails, Except.toOption, Regs.get16_set16_of_ne]
  | error e =>
      cases hset
      constructor <;> simp [← hfails, Except.toOption]

theorem handleInt21_reports
    {m after : Machine H} (hkeeps : ¬ StartsProgram m.toCore)
    (hrun : handleInt21 m = .ok ((), after)) :
    Reports (int21Carry m) none m.cpu.regs after.cpu.regs := by
  unfold handleInt21 at hrun
  rw [bind_ok (onCore_getRegs_apply _ m)] at hrun
  generalize hah : m.cpu.regs.get8 .AH = ah at hrun
  split at hrun
  · simpa only [int21Carry, hah] using int21Open_reports hrun
  · simpa only [int21Carry, hah] using int21Read_reports hrun
  · simpa only [int21Carry, hah] using int21Seek_reports hrun
  · rcases focus_eq_ok hrun with ⟨core, hcore, rfl⟩
    have hcarry : int21Carry m = int21CoreCarry ah := by
      unfold int21Carry
      rw [hah]
      split <;> first | rfl | contradiction
    rw [hcarry]
    exact int21Core_reports hah hkeeps hcore

/-! ## All services -/

/-- What the service of an interrupt sets CF to. -/
def serviceCarry (num : U8) (m : Machine H) : Option Bool :=
  match num with
  | 0x13 => int13Carry m.bus.disk m.cpu.regs
  | 0x15 => some true
  | 0x16 => int16Carry m.cpu.regs
  | 0x1A => int1aCarry m.cpu.regs
  | 0x21 => int21Carry m
  | _ => none

/-- What the service of an interrupt sets ZF to. -/
def serviceZero (num : U8) (m : Machine H) : Option Bool :=
  match num with
  | 0x16 => int16Zero m.cpu.regs
  | _ => none

theorem onCore_reports
    {carry zero : Option Bool} {routine : Routine Unit} {m after : Machine H}
    (hcore : ∀ core, routine m.toCore = .ok ((), core) →
      Reports carry zero m.cpu.regs core.cpu.regs)
    (hrun : onCore routine m = .ok ((), after)) :
    Reports carry zero m.cpu.regs after.cpu.regs := by
  rcases focus_eq_ok hrun with ⟨core, hroutine, rfl⟩
  exact hcore core hroutine

theorem handleInterrupt_handled
    {num : U8} {m after : Machine H}
    (hrun : handleInterrupt num m = .ok (true, after)) :
    ∃ handler : Handler H Unit,
      nativeHandler num = some handler ∧ handler m = .ok ((), after) := by
  unfold handleInterrupt at hrun
  cases hhandler : (nativeHandler num : Option (Handler H Unit)) with
  | none =>
      rw [hhandler] at hrun
      cases hrun
  | some handler =>
      rw [hhandler] at hrun
      rcases bind_eq_ok hrun with ⟨_, next, hnative, hreturn⟩
      cases hreturn
      exact ⟨handler, rfl, hnative⟩

theorem handleInterrupt_reports
    {num : U8} {m after : Machine H}
    (hkeeps : num = 0x21 → ¬ StartsProgram m.toCore)
    (hrun : handleInterrupt num m = .ok (true, after)) :
    Reports (serviceCarry num m) (serviceZero num m) m.cpu.regs after.cpu.regs := by
  rcases handleInterrupt_handled hrun with ⟨handler, hhandler, hnative⟩
  unfold nativeHandler at hhandler
  split at hhandler <;> cases hhandler
  · exact onCore_reports (fun core => handleInt10_reports) hnative
  · cases hnative
    constructor <;> simp [serviceCarry, serviceZero, Regs.get16_set16_of_ne]
  · cases hnative
    constructor <;> simp [serviceCarry, serviceZero, Regs.get16_set16_of_ne]
  · exact onCore_reports (fun core => handleInt13_reports) hnative
  · cases hnative
    constructor <;> simp [serviceCarry, serviceZero]
  · exact onCore_reports (fun core => handleInt16_reports) hnative
  · exact onCore_reports (fun core => handleInt18_reports) hnative
  · cases hnative
    constructor <;> rfl
  · exact onCore_reports (fun core => handleInt1a_reports) hnative
  · exact onCore_reports (fun core => handleInt1f_reports) hnative
  · cases hnative
    constructor <;> rfl
  · exact handleInt21_reports (hkeeps rfl) hnative

end Dos

end Kita98
