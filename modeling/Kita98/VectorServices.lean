import Kita98.ExecTransfer
import Kita98.LabelledTrace
import Kita98.UnhandledInterrupts

/-!
# The vector table as programs see it

A program sets a vector with AH=25h, asks for one with AH=35h, and is taken
through one by an interrupt without a native handler.  As long as nothing else
is stored below 400h the three work on one table.
-/

namespace Kita98

open Memory Exec

variable {H : HostFiles}

/-! ## The table -/

inductive VectorEvent where
  | set (num : U8) (place : U16 × U16)
  | got (num : U8) (place : U16 × U16)
  | taken (num : U8) (place : U16 × U16)
  deriving DecidableEq, Repr

abbrev VectorMap : Type := U8 → U16 × U16

def VectorEvent.apply : VectorEvent → VectorMap → VectorMap
  | .set num place, table => Function.update table num place
  | .got _ _, table => table
  | .taken _ _, table => table

/-- What the event shows is what the table holds. -/
def VectorEvent.Shows : VectorEvent → VectorMap → Prop
  | .set _ _, _ => True
  | .got num place, table => table num = place
  | .taken num place, table => table num = place

/-- The table behind the events, latest first. -/
def tableAfter (table : VectorMap) : List VectorEvent → VectorMap
  | [] => table
  | event :: events => event.apply (tableAfter table events)

/-- Each event shows the table that the events before it have left. -/
def Consistent (table : VectorMap) : List VectorEvent → Prop
  | [] => True
  | event :: events => event.Shows (tableAfter table events) ∧ Consistent table events

/-! ## The services -/

/-- The frame of an interrupt lies beyond the vectors. -/
def ClearOfVectors (regs : Regs) : Prop := ∀ c : Cell, c.toNat < 0x400 → ¬ FrameCell regs c

theorem entered_getIvt {core : Core} (hclear : ClearOfVectors core.cpu.regs) :
    core.entered.bus.mem.getIvt = core.bus.mem.getIvt :=
  getIvt_congr fun c hc => entered_outside (hclear c hc)

theorem handleInterrupt_int21Core
    {m : Machine H} {ah : U8} {core : Core} (hah : m.cpu.regs.get8 .AH = ah)
    (hopen : ah ≠ 0x3D) (hread : ah ≠ 0x3F) (hseek : ah ≠ 0x42)
    (hserve : int21Core ah m.toCore = .ok ((), core)) :
    handleInterrupt 0x21 m = .ok (true, { m with toCore := core }) := by
  have hcore : onCore (int21Core ah) m = .ok ((), { m with toCore := core }) := focus_ok hserve
  have hdos : handleInt21 m = .ok ((), { m with toCore := core }) := by
    unfold handleInt21
    rw [bind_ok (onCore_getRegs_apply _ m), hah]
    split
    · exact absurd rfl hopen
    · exact absurd rfl hread
    · exact absurd rfl hseek
    · exact hcore
  have hnative : (nativeHandler 0x21 : Option (Handler H Unit)) = some handleInt21 := rfl
  unfold handleInterrupt
  rw [hnative]
  simp only
  rw [bind_ok hdos]
  rfl

theorem serviceInterrupt_handled
    {num : U8} {m handled : Machine H}
    (hhandled : handleInterrupt num m.entered = .ok (true, handled)) :
    serviceInterrupt num m = .ok ((), { handled with toCore := handled.toCore.left }) := by
  have henter : onCore enterInterrupt m = .ok ((), m.entered) :=
    focus_ok (enterInterrupt_apply m.toCore)
  have hleave : onCore leaveInterrupt handled =
      .ok ((), { handled with toCore := handled.toCore.left }) :=
    focus_ok (leaveInterrupt_apply handled.toCore)
  unfold serviceInterrupt
  rw [bind_ok henter, bind_ok hhandled]
  exact hleave

/-- AH=25h sets vector AL to DS:DX. -/
def Core.vectorSet (core : Core) : Core :=
  core.setMem (core.bus.mem.setIvt (core.cpu.regs.get8 .AL) (core.cpu.regs.getSeg .DS)
    (core.cpu.regs.get16 .DX))

/-- AH=35h returns vector AL in ES:BX. -/
def Core.vectorGot (core : Core) : Core :=
  core.setRegs ((core.cpu.regs.setSeg .ES (core.bus.mem.getIvt (core.cpu.regs.get8 .AL)).1).set16
    .BX (core.bus.mem.getIvt (core.cpu.regs.get8 .AL)).2)

theorem int21Core_setVector (core : Core) : int21Core 0x25 core = .ok ((), core.vectorSet) := rfl

theorem int21Core_getVector (core : Core) : int21Core 0x35 core = .ok ((), core.vectorGot) := rfl

section Entered

variable (core : Core)

theorem entered_get8 (r : Reg8) : core.entered.cpu.regs.get8 r = core.cpu.regs.get8 r := by
  cases r <;> rfl

theorem entered_get16 {r : Reg16} (hne : r ≠ .SP) :
    core.entered.cpu.regs.get16 r = core.cpu.regs.get16 r := by
  have hset := Regs.get16_set16_of_ne core.cpu.regs (core.cpu.regs.get16 .SP - 6) hne
  exact hset

end Entered

/-- A service of INT 21h that works on the core alone. -/
theorem int21Core_served
    {m : Machine H} {ah : U8} {core : Core} (hah : m.cpu.regs.get8 .AH = ah)
    (hopen : ah ≠ 0x3D) (hread : ah ≠ 0x3F) (hseek : ah ≠ 0x42)
    (hserve : int21Core ah m.toCore.entered = .ok ((), core)) :
    serviceInterrupt 0x21 m = .ok ((), { m with toCore := core.left }) := by
  have hentered : m.toCore.entered.cpu.regs.get8 .AH = ah :=
    (entered_get8 m.toCore .AH).trans hah
  have hhandled : handleInterrupt 0x21 m.entered =
      .ok (true, { m.entered with toCore := core }) :=
    handleInterrupt_int21Core hentered hopen hread hseek hserve
  have hserved := serviceInterrupt_handled hhandled
  exact hserved

theorem setVector_served {m : Machine H} (hah : m.cpu.regs.get8 .AH = 0x25) :
    serviceInterrupt 0x21 m = .ok ((), { m with toCore := m.toCore.entered.vectorSet.left }) :=
  int21Core_served hah (by decide) (by decide) (by decide) (int21Core_setVector m.toCore.entered)

theorem getVector_served {m : Machine H} (hah : m.cpu.regs.get8 .AH = 0x35) :
    serviceInterrupt 0x21 m = .ok ((), { m with toCore := m.toCore.entered.vectorGot.left }) :=
  int21Core_served hah (by decide) (by decide) (by decide) (int21Core_getVector m.toCore.entered)

theorem left_mem (core : Core) : core.left.bus.mem = core.bus.mem := rfl

theorem left_es (core : Core) : core.left.cpu.regs.getSeg .ES = core.cpu.regs.getSeg .ES := by
  have hne : SegReg.ES ≠ .CS := by decide
  have hset := Regs.getSeg_setSeg_of_ne core.cpu.regs
    (core.bus.mem.segReadU16 (core.cpu.regs.getSeg .SS)
      ((core.cpu.regs.get16 .SP + 2).setWidth 32)) hne
  exact hset

theorem left_bx (core : Core) : core.left.cpu.regs.get16 .BX = core.cpu.regs.get16 .BX := by
  have hne : Reg16.BX ≠ .SP := by decide
  have hset := Regs.get16_set16_of_ne core.cpu.regs (core.cpu.regs.get16 .SP + 6) hne
  exact hset

/-! ## One step -/

def vectorOf (regs : Regs) : U16 × U16 := (regs.getSeg .CS, regs.ip.setWidth 16)

/-- The uses of the table, and steps that store nothing below 400h. -/
inductive VectorStep : Option VectorEvent → Machine H → Machine H → Prop
  | set {m m' : Machine H} (hah : m.cpu.regs.get8 .AH = 0x25)
      (hclear : ClearOfVectors m.cpu.regs) (hserve : serviceInterrupt 0x21 m = .ok ((), m')) :
      VectorStep (some (.set (m.cpu.regs.get8 .AL)
        (m.cpu.regs.getSeg .DS, m.cpu.regs.get16 .DX))) m m'
  | got {m m' : Machine H} (hah : m.cpu.regs.get8 .AH = 0x35)
      (hclear : ClearOfVectors m.cpu.regs) (hserve : serviceInterrupt 0x21 m = .ok ((), m')) :
      VectorStep (some (.got (m.cpu.regs.get8 .AL)
        (m'.cpu.regs.getSeg .ES, m'.cpu.regs.get16 .BX))) m m'
  | taken {num : U8} {m m' : Machine H}
      (hvector : (nativeHandler num : Option (Handler H Unit)) = none)
      (hclear : ClearOfVectors m.cpu.regs) (hserve : serviceInterrupt num m = .ok ((), m')) :
      VectorStep (some (.taken num (vectorOf m'.cpu.regs))) m m'
  | other {m m' : Machine H}
      (hsame : ∀ c : Cell, c.toNat < 0x400 → m'.bus.mem.data c = m.bus.mem.data c) :
      VectorStep none m m'

/-- The tables in front of and behind a step. -/
inductive TableStep (before after : VectorMap) : Option VectorEvent → Prop
  | none (hsame : after = before) : TableStep before after none
  | some {event : VectorEvent} (hshows : event.Shows before)
      (happly : after = event.apply before) : TableStep before after (some event)

theorem vectorStep_table {label : Option VectorEvent} {m m' : Machine H}
    (hstep : VectorStep label m m') :
    TableStep m.bus.mem.getIvt m'.bus.mem.getIvt label := by
  cases hstep with
  | set hah hclear hserve =>
      rw [setVector_served hah] at hserve
      cases hserve
      apply TableStep.some
      · trivial
      · rw [left_mem]
        unfold Core.vectorSet
        rw [Core.setMem_mem, getIvt_setIvt, entered_getIvt hclear, entered_get8,
          entered_get16 _ (by decide)]
        rfl
  | got hah hclear hserve =>
      rw [getVector_served hah] at hserve
      cases hserve
      have htable := entered_getIvt hclear
      apply TableStep.some
      · change m.bus.mem.getIvt _ = _
        rw [left_es, left_bx]
        unfold Core.vectorGot
        rw [Core.setRegs_cpu_regs, Regs.get16_set16_self, Regs.getSeg_of_set16,
          Regs.getSeg_setSeg_self, htable, entered_get8]
      · rw [left_mem]
        exact htable
  | @taken num _ _ hvector hclear hserve =>
      rw [serviceInterrupt_vectored hvector] at hserve
      cases hserve
      have htable := entered_getIvt hclear
      apply TableStep.some
      · change m.bus.mem.getIvt _ = _
        unfold Core.vectored vectorOf
        rw [Core.setRegs_cpu_regs, htable]
        have hip : ((m.bus.mem.getIvt num).2.setWidth 32).setWidth 16 =
            (m.bus.mem.getIvt num).2 := by
          rw [BitVec.setWidth_setWidth_of_le _ (by decide), BitVec.setWidth_eq]
        have hcs := Regs.getSeg_setSeg_self m.toCore.entered.cpu.regs .CS
          (m.bus.mem.getIvt num).1
        exact Prod.ext hcs.symm hip.symm
      · exact htable
  | other hsame => exact .none (getIvt_congr hsame)

/-! ## Runs -/

/-- Behind any run the table is the one its events have left, and each time a
program was shown a vector it was that of the table. -/
theorem vectors_follow
    {start m : Machine H} {past : List (Option VectorEvent × Machine H)}
    (htrace : LabelledTrace VectorStep start past m) :
    m.bus.mem.getIvt = tableAfter start.bus.mem.getIvt (past.filterMap Prod.fst) ∧
      Consistent start.bus.mem.getIvt (past.filterMap Prod.fst) := by
  induction htrace with
  | start => exact ⟨rfl, trivial⟩
  | @next past label m m' hbefore hstep ih =>
      rcases ih with ⟨htable, hconsistent⟩
      cases vectorStep_table hstep with
      | none hsame =>
          exact ⟨hsame.trans htable, hconsistent⟩
      | some hshows happly =>
          rw [htable] at hshows happly
          exact ⟨happly, hshows, hconsistent⟩

/-! ## A vector that is set and asked for -/

theorem ClearOfVectors.congr {regs regs' : Regs} (hclear : ClearOfVectors regs)
    (hss : regs'.getSeg .SS = regs.getSeg .SS) (hsp : regs'.get16 .SP = regs.get16 .SP) :
    ClearOfVectors regs' := by
  intro c hc hframe
  apply hclear c hc
  unfold FrameCell stackCell at hframe
  rw [hss, hsp] at hframe
  exact hframe

theorem setBoot_frame : ∀ n ∈ ([2, 4, 6] : List U16),
    0x400 ≤ (stackCell Regs.new.setBoot (Regs.new.setBoot.get16 .SP - n)).toNat ∧
      0x400 ≤ (stackCell Regs.new.setBoot (Regs.new.setBoot.get16 .SP - n) + 1).toNat := by
  rw [forall_frame]
  decide +kernel

theorem setBoot_clear : ClearOfVectors Regs.new.setBoot := by
  rintro c hc ⟨n, hn, rfl | rfl⟩
  · have hlow := (setBoot_frame n hn).1
    omega
  · have hhigh := (setBoot_frame n hn).2
    omega

/-- A machine in front of AX=2540h with 1234h in DX. -/
def settingMachine : Machine HostFiles.none where
  cpu := { Interpreter.new with
    regs := (Regs.new.setBoot.set16 .AX 0x2540).set16 .DX 0x1234 }
  bus := Bus.new none fun _ => 0
  dos := DosRuntime.new

/-- The machine behind it. -/
def setMachine : Machine HostFiles.none :=
  { settingMachine with toCore := settingMachine.toCore.entered.vectorSet.left }

/-- The same machine in front of AX=3540h. -/
def askingMachine : Machine HostFiles.none :=
  { setMachine with
    toCore := setMachine.toCore.setRegs (setMachine.cpu.regs.set16 .AX 0x3540) }

theorem settingMachine_set :
    VectorStep (some (.set 0x40 (0x0000, 0x1234))) settingMachine setMachine := by
  have hah : settingMachine.cpu.regs.get8 .AH = 0x25 := by decide +kernel
  have hal : settingMachine.cpu.regs.get8 .AL = 0x40 := by decide +kernel
  have hds : settingMachine.cpu.regs.getSeg .DS = 0x0000 := by decide +kernel
  have hdx : settingMachine.cpu.regs.get16 .DX = 0x1234 := by decide +kernel
  have hclear : ClearOfVectors settingMachine.cpu.regs := setBoot_clear.congr rfl (by decide +kernel)
  have hset := VectorStep.set hah hclear (setVector_served hah)
  rw [hal, hds, hdx] at hset
  exact hset

theorem askingMachine_got :
    ∃ m, VectorStep (some (.got 0x40 (m.cpu.regs.getSeg .ES, m.cpu.regs.get16 .BX)))
      askingMachine m := by
  have hah : askingMachine.cpu.regs.get8 .AH = 0x35 := by decide +kernel
  have hal : askingMachine.cpu.regs.get8 .AL = 0x40 := by decide +kernel
  have hclear : ClearOfVectors askingMachine.cpu.regs := setBoot_clear.congr rfl (by decide +kernel)
  have hgot := VectorStep.got hah hclear (getVector_served hah)
  rw [hal] at hgot
  exact ⟨_, hgot⟩

theorem vectors_follow_asked :
    ∃ m, VectorStep (some (.got 0x40 (m.cpu.regs.getSeg .ES, m.cpu.regs.get16 .BX)))
        askingMachine m ∧
      (m.cpu.regs.getSeg .ES, m.cpu.regs.get16 .BX) = (0x0000, 0x1234) := by
  rcases askingMachine_got with ⟨m, hgot⟩
  have hother : VectorStep none setMachine askingMachine := .other fun _ _ => rfl
  rcases vectors_follow (((LabelledTrace.single settingMachine_set).next hother).next hgot) with
    ⟨-, hshows, -⟩
  refine ⟨m, hgot, ?_⟩
  have hfound : Function.update settingMachine.bus.mem.getIvt 0x40 (0x0000, 0x1234) 0x40 =
      (m.cpu.regs.getSeg .ES, m.cpu.regs.get16 .BX) := hshows
  rw [← hfound, Function.update_self]

end Kita98
