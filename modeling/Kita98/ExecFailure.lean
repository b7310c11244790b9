import Kita98.ExecTransfer

/-!
# Failing EXEC requests

A request to start a program can fail at every level of the lookup and again
in the loader.  The lookup changes nothing, but the registers are reset before
the loader runs, so a file the loader refuses costs the caller its registers.
-/

namespace Kita98

open WordBits Exec

variable {H : HostFiles}

/-! ## Where a request fails -/

/-- The levels at which no file of the disk is served under a name. -/
inductive NotServed (disk : Option Disk) (path : Text) : Prop
  | noDisk (hdisk : disk = none)
  | noFileSystem {d : Disk} {e : Error} (hdisk : disk = some d)
      (hdetect : FatFileSystem.detect d = .error e)
  | noDirectory {d : Disk} {fs : FatFileSystem} {e : Error} (hdisk : disk = some d)
      (hdetect : FatFileSystem.detect d = .ok fs) (hlist : fs.listRootDir d = .error e)
  | noEntry {d : Disk} {fs : FatFileSystem} {entries : List DirEntry} (hdisk : disk = some d)
      (hdetect : FatFileSystem.detect d = .ok fs) (hlist : fs.listRootDir d = .ok entries)
      (hname : (entries.find? fun e => toUppercase e.fullName = path) = none)
  | unreadable {d : Disk} {fs : FatFileSystem} {entries : List DirEntry} {entry : DirEntry}
      {e : Error} (hdisk : disk = some d) (hdetect : FatFileSystem.detect d = .ok fs)
      (hlist : fs.listRootDir d = .ok entries)
      (hname : (entries.find? fun e => toUppercase e.fullName = path) = some entry)
      (hread : fs.readFile d entry = .error e)

theorem notServed_iff (disk : Option Disk) (path : Text) :
    NotServed disk path ↔ findOnDisk disk path = none := by
  unfold findOnDisk
  constructor
  · intro hmissing
    cases hmissing with
    | noDisk hdisk => simp [hdisk]
    | noFileSystem hdisk hdetect => simp [hdisk, hdetect]
    | noDirectory hdisk hdetect hlist => simp [hdisk, hdetect, hlist]
    | noEntry hdisk hdetect hlist hname => simp [hdisk, hdetect, hlist, hname]
    | unreadable hdisk hdetect hlist hname hread =>
        simp [hdisk, hdetect, hlist, hname, hread]
  · intro hnone
    cases disk with
    | none => exact .noDisk rfl
    | some d =>
        cases hdetect : FatFileSystem.detect d with
        | error e => exact .noFileSystem rfl hdetect
        | ok fs =>
            cases hlist : fs.listRootDir d with
            | error e => exact .noDirectory rfl hdetect hlist
            | ok entries =>
                cases hname : entries.find? fun e => toUppercase e.fullName = path with
                | none => exact .noEntry rfl hdetect hlist hname
                | some entry =>
                    cases hread : fs.readFile d entry with
                    | error e => exact .unreadable rfl hdetect hlist hname hread
                    | ok data => simp [hdetect, hlist, hname, hread] at hnone

/-- The file of the disk that the name at DS:DX selects. -/
def Selects (core : Core) (data : List U8) : Prop :=
  ∃ bytes entry, pathAt core 0 = some bytes ∧
    findOnDisk core.bus.disk (pathText bytes) = some (entry, data)

/-- An INT 21h AH=4Bh request that fails. -/
inductive ExecFails (core : Core) : Prop
  | badFunction (hah : core.cpu.regs.get8 .AH = 0x4B) (hal : core.cpu.regs.get8 .AL ≠ 0x00)
  | notServed {bytes : List U8} (hah : core.cpu.regs.get8 .AH = 0x4B)
      (hal : core.cpu.regs.get8 .AL = 0x00) (hpath : pathAt core 0 = some bytes)
      (hmissing : NotServed core.bus.disk (pathText bytes))
  | rejected {data : List U8} {e : Error} {after : Core}
      (hah : core.cpu.regs.get8 .AH = 0x4B) (hal : core.cpu.regs.get8 .AL = 0x00)
      (hselects : Selects core data)
      (hload : executeBinary data (core.setRegs Regs.new) = .ok (.error e, after))

/-- A file with the signature of an MZ image, too short for its header. -/
def IsStub (data : List U8) : Prop := hasMzMagic data ∧ data.length < 28

/-- The request is for a file that the loader refuses. -/
def SelectsStub (core : Core) : Prop :=
  core.cpu.regs.get8 .AL = 0x00 ∧ ∃ data, Selects core data ∧ IsStub data

/-- The loader refuses the stubs and nothing else, before it stores anything. -/
theorem executeBinary_rejects
    {data : List U8} {core after : Core} {e : Error}
    (hload : executeBinary data core = .ok (.error e, after)) :
    IsStub data ∧ after = core := by
  unfold executeBinary at hload
  split at hload
  · next hmz =>
      unfold loadMz at hload
      split at hload
      · next hshort =>
          cases hload
          have hlength : data.length < 28 := by
            rcases hshort with hlength | hnot
            · exact hlength
            · exact absurd hmz hnot
          exact ⟨⟨hmz, hlength⟩, rfl⟩
      · simp only at hload
        split at hload
        · cases hload
        · split at hload <;> split at hload <;> cases hload
  · cases hload

theorem executeBinary_stub {data : List U8} (hstub : IsStub data) (core : Core) :
    executeBinary data core = .ok (.error .notMz, core) := by
  unfold executeBinary
  rw [if_pos hstub.1]
  unfold loadMz
  rw [if_pos (Or.inl hstub.2)]
  rfl

/-! ## What a failing request leaves -/

/-- The register file with AX and CF blanked out. -/
def Regs.hideAxCf (regs : Regs) : Regs :=
  { regs with
    gp := Function.update regs.gp .AX (regs.gp .AX &&& 0xFFFF0000#32)
    flags := regs.flags &&& ~~~Flags.CF }

@[simp] theorem Regs.hideAxCf_setCf (regs : Regs) (v : Bool) :
    (regs.setCf v).hideAxCf = regs.hideAxCf := by
  have hflags : (regs.setCf v).flags &&& ~~~Flags.CF = regs.flags &&& ~~~Flags.CF :=
    and_setMask_of_disjoint v (by decide)
  unfold hideAxCf
  rw [hflags]
  rfl

@[simp] theorem Regs.hideAxCf_set16 (regs : Regs) (v : U16) :
    (regs.set16 .AX v).hideAxCf = regs.hideAxCf := by
  simp [hideAxCf, set16, highHalf_of_low]

/-- Memory and every register but AX and CF are the caller's. -/
structure LeavesCaller (before after : Core) : Prop where
  mem : after.bus.mem = before.bus.mem
  regs : after.cpu.regs.hideAxCf = before.cpu.regs.hideAxCf

theorem int21Exec_of_stub
    {core : Core} {data : List U8} (hal : core.cpu.regs.get8 .AL = 0x00)
    (hselects : Selects core data) (hstub : IsStub data) :
    int21Exec core = .ok ((), core.setRegs ((Regs.new.set16 .AX 2).setCf true)) := by
  rcases hselects with ⟨bytes, entry, hpath, hfound⟩
  unfold int21Exec
  rw [bind_ok (getRegs_apply core _), if_pos hal,
    bind_ok (scanDsDx_of_pathAt hpath), bind_ok (read_apply _ core), hfound]
  simp only
  rw [bind_ok (modRegs_apply core _), bind_ok (executeBinary_stub hstub _)]
  rfl

theorem handleInt21_of_exec
    {m : Machine H} {core : Core} (hah : m.cpu.regs.get8 .AH = 0x4B)
    (hrun : int21Exec m.toCore = .ok ((), core)) :
    handleInt21 m = .ok ((), { m with toCore := core }) := by
  unfold handleInt21
  rw [bind_ok (onCore_getRegs_apply _ m), hah]
  exact focus_ok hrun

theorem int21Exec_of_fails {core : Core} (hfails : ExecFails core) :
    ∃ after, int21Exec core = .ok ((), after) ∧ after.bus.mem = core.bus.mem ∧
      (SelectsStub core → after.cpu.regs.hideAxCf = Regs.new.hideAxCf) ∧
        (¬ SelectsStub core → after.cpu.regs.hideAxCf = core.cpu.regs.hideAxCf) := by
  cases hfails with
  | badFunction hah hal =>
      have hrun : int21Exec core = .ok ((), core.setRegs (core.cpu.regs.setCf true)) := by
        unfold int21Exec
        rw [bind_ok (getRegs_apply core _), if_neg hal]
        rfl
      refine ⟨_, hrun, rfl, ?_, ?_⟩
      · intro hstub
        exact absurd hstub.1 hal
      · intro _
        simp
  | @notServed bytes hah hal hpath hmissing =>
      have hnone := (notServed_iff _ _).mp hmissing
      have hrun : int21Exec core =
          .ok ((), core.setRegs ((core.cpu.regs.set16 .AX 2).setCf true)) := by
        unfold int21Exec
        rw [bind_ok (getRegs_apply core _), if_pos hal,
          bind_ok (scanDsDx_of_pathAt hpath), bind_ok (read_apply _ core), hnone]
        rfl
      refine ⟨_, hrun, rfl, ?_, ?_⟩
      · intro hstub
        rcases hstub.2 with ⟨data, ⟨bytes', entry, hpath', hfound⟩, -⟩
        rw [hpath] at hpath'
        cases hpath'
        rw [hnone] at hfound
        cases hfound
      · intro _
        simp
  | @rejected data e after hah hal hselects hload =>
      have hstub := (executeBinary_rejects hload).1
      have hrun := int21Exec_of_stub hal hselects hstub
      refine ⟨_, hrun, rfl, ?_, ?_⟩
      · intro _
        simp
      · intro hnot
        exact absurd ⟨hal, data, hselects, hstub⟩ hnot

theorem ExecFails.ah {core : Core} (hfails : ExecFails core) :
    core.cpu.regs.get8 .AH = 0x4B := by
  cases hfails <;> assumption

theorem exec_failure_atomic_iff {m : Machine H} (hfails : ExecFails m.toCore) :
    ∃ after, handleInt21 m = .ok ((), after) ∧
      (LeavesCaller m.toCore after.toCore ↔
        (SelectsStub m.toCore → m.cpu.regs.hideAxCf = Regs.new.hideAxCf)) := by
  rcases int21Exec_of_fails hfails with ⟨core, hrun, hmem, hstub, hother⟩
  refine ⟨_, handleInt21_of_exec hfails.ah hrun, ?_⟩
  constructor
  · intro hleaves hselects
    exact hleaves.regs.symm.trans (hstub hselects)
  · intro hfresh
    refine ⟨hmem, ?_⟩
    by_cases hselects : SelectsStub m.toCore
    · exact (hstub hselects).trans (hfresh hselects).symm
    · exact hother hselects

/-! ## A disk with a stub on it -/

def stub : List U8 := [0x4D, 0x5A]

def stubDisk : Disk :=
  { programDisk with data := programDisk.data.take (3 * 512) ++ pad 512 stub }

def stubRuntime : Runtime HostFiles.none :=
  { execRuntime with bus := { execRuntime.bus with disk := some stubDisk } }

theorem stub_found :
    findOnDisk (some stubDisk) ['A', '.', 'C', 'O', 'M'] = some (programEntry, stub) := by
  decide +kernel

theorem stub_selected : Selects stubRuntime.toCore stub := by
  have hpath : pathAt stubRuntime.toCore 0 = some [0x41, 0x2E, 0x43, 0x4F, 0x4D] := by
    decide +kernel
  have htext : pathText [0x41, 0x2E, 0x43, 0x4F, 0x4D] = ['A', '.', 'C', 'O', 'M'] := by
    decide +kernel
  refine ⟨_, programEntry, hpath, ?_⟩
  rw [htext]
  exact stub_found

theorem stub_isStub : IsStub stub := ⟨by decide, by decide⟩

theorem stub_fails : ExecFails stubRuntime.toCore :=
  .rejected (by decide +kernel) (by decide +kernel) stub_selected
    (executeBinary_stub stub_isStub _)

theorem exec_failure_atomic_stub :
    ∃ after, handleInt21 stubRuntime.toMachine = .ok ((), after) ∧
      (LeavesCaller stubRuntime.toCore after.toCore ↔
        (SelectsStub stubRuntime.toCore →
          stubRuntime.cpu.regs.hideAxCf = Regs.new.hideAxCf)) :=
  exec_failure_atomic_iff (m := stubRuntime.toMachine) stub_fails

/-- The request fails and DX, which named the file, is gone. -/
theorem stub_costs_registers :
    ExecFails stubRuntime.toCore ∧
      ∃ after, handleInt21 stubRuntime.toMachine = .ok ((), after) ∧
        stubRuntime.cpu.regs.get16 .DX = 0x0500 ∧ after.cpu.regs.get16 .DX = 0 ∧
          ¬ LeavesCaller stubRuntime.toCore after.toCore := by
  have hrun := int21Exec_of_stub (by decide +kernel) stub_selected stub_isStub
  have hservice := handleInt21_of_exec (m := stubRuntime.toMachine) (by decide +kernel) hrun
  refine ⟨stub_fails, _, hservice, by decide +kernel, by decide +kernel, ?_⟩
  intro hleaves
  have hdx := congrArg (fun regs : Regs => regs.gp .DX) hleaves.regs
  revert hdx
  decide +kernel

end Kita98
