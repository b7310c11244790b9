import Kita98.Dispatch
import Kita98.Interrupts
import Kita98.Jit

/-!
# The run loop

One step of the machine: the block translator runs first, and the interpreter
executes one instruction when the block asks to go on.  Interrupts push the
flags and the return address before their handler runs.
-/

namespace Kita98

structure Runtime (H : HostFiles) extends Machine H where
  jit : JitRuntime
  maxInstructions : ℕ
  batchQueue : List DirEntry
  currentBatchIndex : ℕ

abbrev Running (H : HostFiles) (α : Type) := Exec Fault (Runtime H) α

variable {H : HostFiles}

def onMachine {α : Type} (handler : Handler H α) : Running H α :=
  Exec.focus (fun rt => rt.toMachine) (fun m rt => { rt with toMachine := m }) handler

/-! ## Interrupt arm of `handle_step_result` -/

def enterInterrupt : Routine Unit := do
  let flags ← getRegs fun regs => regs.flags.setWidth 16
  let cs ← getRegs fun regs => regs.getSeg .CS
  let ip ← getRegs fun regs => regs.ip.setWidth 16
  push16 flags
  push16 cs
  push16 ip
  modRegs fun regs => (regs.setFlag Flags.IF false).setFlag Flags.TF false

def vectorInterrupt (num : U8) : Routine Unit := do
  let (iseg, ioff) ← getMem fun mem => mem.getIvt num
  modRegs fun regs => (regs.setSeg .CS iseg).jumpTo ioff

def leaveInterrupt : Routine Unit := do
  let rip ← pop16
  let rcs ← pop16
  let rflgs ← pop16
  modRegs fun regs => ((regs.jumpTo rip).setSeg .CS rcs).setFlags16 rflgs

def serviceInterrupt (num : U8) : Handler H Unit := do
  onCore enterInterrupt
  let handled ← handleInterrupt num
  if handled then onCore leaveInterrupt
  else onCore (vectorInterrupt num)

/-! ## Halt arm of `handle_step_result` -/

def readDiskFile (disk : Option Disk) (entry : DirEntry) : Except Error (List U8) :=
  match disk with
  | none => .error .noDisk
  | some disk =>
      match FatFileSystem.detect disk with
      | .error e => .error e
      | .ok fs => fs.readFile disk entry

def startProgram (data : List U8) : Routine (Except Error Unit) := do
  Exec.update fun core =>
    { core with cpu := { core.cpu with halted := false, regs := Regs.new } }
  executeBinary data

def loadNext (entry : DirEntry) : Running H (Except Error StepResult) := do
  let disk ← Exec.read fun rt => rt.bus.disk
  match readDiskFile disk entry with
  | .error e => return .error e
  | .ok data => do
      let result ← onMachine (onCore (startProgram data))
      match result with
      | .error e => return .error e
      | .ok _ => return .ok .proceed

def advanceBatch : Running H (Except Error StepResult) := do
  Exec.update fun rt => { rt with currentBatchIndex := rt.currentBatchIndex + 1 }
  let entry ← Exec.read fun rt => rt.batchQueue[rt.currentBatchIndex]?
  match entry with
  | some entry => loadNext entry
  | none => return .ok .halt

def handleStepResult (result : StepResult) : Running H (Except Error StepResult) :=
  match result with
  | .proceed => return .ok .proceed
  | .halt => advanceBatch
  | .interrupt num => do
      onMachine (serviceInterrupt num)
      return .ok .proceed
  | .unimplemented op => return .ok (.unimplemented op)

/-! ## One step -/

def jitExecute : Running H StepResult := fun rt =>
  match rt.jit.execute rt.bus rt.cpu.regs with
  | .error e => .error e
  | .ok (result, jit, bus, regs) =>
      .ok (result,
        { rt with jit := jit, bus := bus, cpu := { rt.cpu with regs := regs } })

/-- The block, then one interpreted instruction if the block asks for it. -/
def executeNext : Running H StepResult := do
  let result ← jitExecute
  if result = .proceed then onMachine (onCore executeOne)
  else return result

def limitReached (rt : Runtime H) : Bool :=
  0 < rt.maxInstructions && rt.maxInstructions ≤ rt.cpu.instructionsExecuted

def step : Running H (Except Error StepResult) := do
  let rt ← Exec.read id
  if rt.cpu.halted then return .ok .halt
  else if limitReached rt then do
    onMachine (onCore setHalted)
    return .ok .halt
  else do
    let result ← executeNext
    handleStepResult result

/-! ## The loop -/

/-- What ends the loop of `run`. -/
def runRound : Running H (Option (Except Error Unit)) := do
  match ← step with
  | .error e => return some (.error e)
  | .ok .halt => return some (.ok ())
  | .ok _ => return none

/-- `run`, unless it takes more than `n` calls of `step`. -/
def Runtime.run (n : ℕ) : Running H (Option (Except Error Unit)) := Exec.rounds runRound n

end Kita98
