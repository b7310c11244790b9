import Kita98.InterruptResults

/-!
# Starting a program through DOS

The EXEC service replaces the register file by that of the loaded program in
the middle of the interrupt protocol.  The epilogue then pops three words off
the program's own stack, so no program starts with the stack pointer its
loader set, and its CS:IP is whatever those words happen to be.
-/

namespace Kita98

open WordBits Memory Exec

variable {H : HostFiles}

/-- The registers that give a program control and its segments. -/
structure ControlAt (loaded after : Regs) : Prop where
  cs : after.getSeg .CS = loaded.getSeg .CS
  ip : after.ip = loaded.ip
  ss : after.getSeg .SS = loaded.getSeg .SS
  sp : after.get16 .SP = loaded.get16 .SP
  ds : after.getSeg .DS = loaded.getSeg .DS
  es : after.getSeg .ES = loaded.getSeg .ES

/-- An EXEC request for a file of the disk whose image loads: `loaded` is the
processor and bus as the loader leaves them. -/
structure ExecLoads (core : Core) (loaded : Core) : Prop where
  ah : core.cpu.regs.get8 .AH = 0x4B
  al : core.cpu.regs.get8 .AL = 0x00
  loads : ∃ bytes entry data, pathAt core 0 = some bytes ∧
    findOnDisk core.bus.disk (pathText bytes) = some (entry, data) ∧
      executeBinary data (core.setRegs Regs.new) = .ok (.ok (), loaded)

theorem scanDsDx_of_pathAt
    {core : Core} {stop : U8} {bytes : List U8} (hpath : pathAt core stop = some bytes) :
    scanDsDx stop core = .ok (bytes, core) := by
  unfold pathAt at hpath
  unfold scanDsDx
  simp only [bind_apply, getRegs_apply, getMem_apply, hpath]
  rfl

/-- The service itself hands over what the loader set, with CF clear. -/
theorem handleInterrupt_of_execLoads
    {m : Machine H} {loaded : Core} (hexec : ExecLoads m.toCore loaded) :
    handleInterrupt 0x21 m =
      .ok (true, { m with toCore := loaded.setRegs (loaded.cpu.regs.setCf false) }) := by
  rcases hexec with ⟨hah, hal, bytes, entry, data, hpath, hfound, hload⟩
  have hservice : int21Exec m.toCore =
      .ok ((), loaded.setRegs (loaded.cpu.regs.setCf false)) := by
    unfold int21Exec
    rw [bind_ok (getRegs_apply m.toCore _), if_pos hal,
      bind_ok (scanDsDx_of_pathAt hpath), bind_ok (read_apply _ m.toCore), hfound]
    simp only
    rw [bind_ok (modRegs_apply m.toCore _), bind_ok hload]
    rfl
  have hcore : onCore int21Exec m =
      .ok ((), { m with toCore := loaded.setRegs (loaded.cpu.regs.setCf false) }) :=
    focus_ok hservice
  have hdos : handleInt21 m =
      .ok ((), { m with toCore := loaded.setRegs (loaded.cpu.regs.setCf false) }) := by
    unfold handleInt21
    rw [bind_ok (onCore_getRegs_apply _ m), hah]
    exact hcore
  have hnative : (nativeHandler 0x21 : Option (Handler H Unit)) = some handleInt21 := rfl
  unfold handleInterrupt
  rw [hnative]
  simp only
  rw [bind_ok hdos]
  rfl

theorem left_sp (core : Core) :
    core.left.cpu.regs.get16 .SP = core.cpu.regs.get16 .SP + 6 := by
  have hleft : core.left.cpu.regs.get16 .SP =
      (core.cpu.regs.set16 .SP (core.cpu.regs.get16 .SP + 6)).get16 .SP := rfl
  rw [hleft, Regs.get16_set16_self]

theorem exec_never_transfers
    {rt : Runtime H} {loaded : Core} (hexec : ExecLoads rt.toCore.entered loaded) :
    ∃ after, handleStepResult (.interrupt 0x21) rt = .ok (.ok .proceed, after) ∧
      ¬ ControlAt loaded.cpu.regs after.cpu.regs := by
  have hhandled := @handleInterrupt_of_execLoads H rt.toMachine.entered loaded hexec
  refine ⟨_, handleStepResult_of_handled hhandled, ?_⟩
  intro hcontrol
  have hsp := hcontrol.sp
  simp only [left_sp, Core.setRegs_cpu_regs, Regs.get16_of_setCf] at hsp
  bv_omega

/-! ## A volume with one program -/

def pad (n : ℕ) (bytes : List U8) : List U8 := bytes ++ List.replicate (n - bytes.length) 0

/-- Parameters of a volume of four sectors: one FAT of one sector, a root
directory of sixteen entries, one cluster. -/
def bootSector : List U8 :=
  pad 512 (pad 0x0B [0xEB, 0x3C, 0x90] ++
    [0x00, 0x02, 0x01, 0x01, 0x00, 0x01, 0x10, 0x00, 0x04, 0x00, 0xFE, 0x01, 0x00])

/-- `A.COM`, two bytes long, in cluster 2. -/
def rootSector : List U8 :=
  pad 512 ([0x41, 0x20, 0x20, 0x20, 0x20, 0x20, 0x20, 0x20, 0x43, 0x4F, 0x4D, 0x20] ++
    List.replicate 14 0 ++ [0x02, 0x00, 0x02, 0x00, 0x00, 0x00])

def program : List U8 := [0xEB, 0xFE]

def programDisk : Disk where
  data := bootSector ++ pad 512 [0xFE, 0xFF, 0xFF, 0xFF, 0x0F] ++ rootSector ++ pad 512 program
  headerOffset := 0
  totalSectors := 4
  cylinders := 1
  heads := 1
  sectorsPerTrack := 4

/-- A machine that asks DOS to execute `A.COM`, its name at 0000:0500. -/
def execRuntime : Runtime HostFiles.none where
  cpu := { Interpreter.new with
    regs := (Regs.new.set16 .AX 0x4B00).set16 .DX 0x0500 }
  bus := { Bus.new (some programDisk) (fun _ => 0) with
    mem := Memory.new.loadBytes 0x0500 [0x41, 0x2E, 0x43, 0x4F, 0x4D, 0x00] }
  dos := DosRuntime.new
  jit := ⟨fun _ => none, fun _ => 0⟩
  maxInstructions := 0
  batchQueue := []
  currentBatchIndex := 0

def programEntry : DirEntry where
  name := ['A']
  ext := ['C', 'O', 'M']
  attr := 0x20
  firstCluster := 2
  size := 2

theorem program_found :
    findOnDisk (some programDisk) ['A', '.', 'C', 'O', 'M'] =
      some (programEntry, program) := by
  decide +kernel

def execLoaded : Core :=
  ((execRuntime.toCore.entered.setMem
    (execRuntime.toCore.entered.bus.mem.loadBytes (phys loadSegment 0x0100)
      program)).setRegs Regs.new.setCom)

theorem path_scanned :
    pathAt execRuntime.toCore.entered 0 = some [0x41, 0x2E, 0x43, 0x4F, 0x4D] := by
  decide +kernel

theorem execLoads_execRuntime : ExecLoads execRuntime.toCore.entered execLoaded := by
  refine ⟨by decide +kernel, by decide +kernel, _, programEntry, program, path_scanned, ?_, rfl⟩
  have hpath : pathText [0x41, 0x2E, 0x43, 0x4F, 0x4D] = ['A', '.', 'C', 'O', 'M'] := by
    decide +kernel
  rw [hpath]
  exact program_found

theorem exec_never_transfers_execRuntime :
    ∃ after, handleStepResult (.interrupt 0x21) execRuntime = .ok (.ok .proceed, after) ∧
      ¬ ControlAt execLoaded.cpu.regs after.cpu.regs :=
  exec_never_transfers execLoads_execRuntime

/-- The loader leaves 1000:0100; the machine goes on at 0000:0000. -/
theorem exec_goes_astray :
    ∃ after, ExecLoads execRuntime.toCore.entered execLoaded ∧
      handleStepResult (.interrupt 0x21) execRuntime = .ok (.ok .proceed, after) ∧
        (execLoaded.cpu.regs.getSeg .CS = 0x1000 ∧ execLoaded.cpu.regs.ip = 0x0100) ∧
          (after.cpu.regs.getSeg .CS = 0x0000 ∧ after.cpu.regs.ip = 0x0000) ∧
            ¬ ControlAt execLoaded.cpu.regs after.cpu.regs := by
  have hhandled :=
    @handleInterrupt_of_execLoads _ execRuntime.toMachine.entered execLoaded
      execLoads_execRuntime
  refine ⟨_, execLoads_execRuntime, handleStepResult_of_handled hhandled, ⟨rfl, rfl⟩,
    ⟨by decide +kernel, by decide +kernel⟩, ?_⟩
  intro hcontrol
  have hip := hcontrol.ip
  revert hip
  decide +kernel

end Kita98
