import Kita98.ServiceReports

/-!
# Reading and seeking in a file of the disk image

A file model says what INT 21h AH=3Fh and AH=42h should answer: a seek from
the start takes the offset as an unsigned number, a seek from the current
position or the end as a signed one.  The service takes every offset as
unsigned, so it follows the model as long as no offset is negative.
-/

namespace Kita98

open WordBits Exec

variable {H : HostFiles}

/-! ## The file model -/

structure FileModel where
  data : List U8
  pos : ℕ

namespace FileModel

/-- A position, unless it lies before the start. -/
def notBeforeStart (target : ℤ) : Option ℕ :=
  if 0 ≤ target then some target.toNat else none

def target (file : FileModel) (whence : U8) (offset : U32) : Option ℕ :=
  match whence with
  | 0 => some offset.toNat
  | 1 => notBeforeStart (file.pos + offset.toInt)
  | 2 => notBeforeStart (file.data.length + offset.toInt)
  | _ => none

def read (file : FileModel) (count : ℕ) : List U8 × FileModel :=
  ((file.data.drop file.pos).take count,
    { file with pos := file.pos + min count (file.data.length - file.pos) })

end FileModel

/-- CX:DX -/
def Regs.seekOffset (regs : Regs) : U32 :=
  (regs.get16 .CX).setWidth 32 <<< 16 ||| (regs.get16 .DX).setWidth 32

/-- The bytes go to DS:DX, their number to AX. -/
def Core.answerRead (core : Core) (bytes : List U8) : Core :=
  (core.setMem (core.bus.mem.loadBytes
    (Memory.phys (core.cpu.regs.getSeg .DS) ((core.cpu.regs.get16 .DX).setWidth 32)) bytes)).setRegs
      ((core.cpu.regs.set16 .AX (BitVec.ofNat 16 bytes.length)).setCf false)

/-- The position goes to DX:AX. -/
def Core.answerSeek (core : Core) (pos : ℕ) : Core :=
  core.setRegs (((core.cpu.regs.set16 .AX (BitVec.ofNat 16 pos)).set16 .DX
    (BitVec.ofNat 16 (pos / 65536))).setCf false)

def Core.answerFailure (core : Core) : Core := core.setRegs (core.cpu.regs.setCf true)

/-- The answer to a seek that leads to `target` or nowhere, and the file after
it. -/
def FileModel.settle (file : FileModel) (core : Core) (target : Option ℕ) : Core × FileModel :=
  match target with
  | some pos => (core.answerSeek pos, { file with pos := pos })
  | none => (core.answerFailure, file)

/-- The answer to a request whose seek, if it is one, leads to `target`. -/
def FileModel.answer (file : FileModel) (core : Core) (target : Option ℕ) : Core × FileModel :=
  if core.cpu.regs.get8 .AH = 0x3F then
    let (bytes, next) := file.read (core.cpu.regs.get16 .CX).toNat
    (core.answerRead bytes, next)
  else file.settle core target

/-- What the model answers to a request, and the file after it. -/
def FileModel.serve (file : FileModel) (core : Core) : Core × FileModel :=
  file.answer core (file.target (core.cpu.regs.get8 .AL) core.cpu.regs.seekOffset)

/-! ## Sessions -/

/-- A read or a seek on a handle. -/
structure Requests (handle : U16) (core : Core) : Prop where
  ah : core.cpu.regs.get8 .AH = 0x3F ∨ core.cpu.regs.get8 .AH = 0x42
  bx : core.cpu.regs.get16 .BX = handle

/-- Requests on a handle, latest first: the machine that makes the request and
the one the service leaves.  Between requests the guest may do what it likes to
the processor and the bus. -/
inductive Requested (handle : U16) (start : DosRuntime H) :
    List (Machine H × Machine H) → DosRuntime H → Prop
  | start : Requested handle start [] start
  | request {past : List (Machine H × Machine H)} {m after : Machine H}
      (hpast : Requested handle start past m.dos) (hrequests : Requests handle m.toCore)
      (hserved : handleInt21 m = .ok ((), after)) :
      Requested handle start ((m, after) :: past) after.dos

def FileModel.afterAll (file : FileModel) : List (Machine H × Machine H) → FileModel
  | [] => file
  | (m, _) :: past => ((file.afterAll past).serve m.toCore).2

/-- The handle's file stands where the model's does. -/
def Holds (handle : U16) (dos : DosRuntime H) (file : FileModel) : Prop :=
  dos.files.lookup handle = some (.virt file.data file.pos)

/-- Every answer of a session is the model's, and the handle's file stays where
the model's is. -/
def Follows (handle : U16) (file : FileModel) : List (Machine H × Machine H) → Prop
  | [] => True
  | (m, after) :: past =>
      Follows handle file past ∧ after.toCore = ((file.afterAll past).serve m.toCore).1 ∧
        Holds handle after.dos (file.afterAll ((m, after) :: past))

/-- Offsets from the current position and from the end are not negative and do
not lead beyond what a cursor can reach. -/
def SeeksForward (file : FileModel) (core : Core) : Prop :=
  core.cpu.regs.get8 .AH = 0x42 →
    (core.cpu.regs.get8 .AL = 1 → core.cpu.regs.get16 .CX < 0x8000 ∧
      file.pos + core.cpu.regs.seekOffset.toNat < 2 ^ 64) ∧
    (core.cpu.regs.get8 .AL = 2 → core.cpu.regs.get16 .CX < 0x8000 ∧
      file.data.length + core.cpu.regs.seekOffset.toNat < 2 ^ 64)

def SeeksForwardAlong (file : FileModel) : List (Machine H × Machine H) → Prop
  | [] => True
  | (m, _) :: past =>
      SeeksForwardAlong file past ∧ SeeksForward (file.afterAll past) m.toCore

/-! ## One request -/

theorem seekOffset_toNat (regs : Regs) :
    regs.seekOffset.toNat = (regs.get16 .CX).toNat * 65536 + (regs.get16 .DX).toNat := by
  unfold Regs.seekOffset
  have hcx := (regs.get16 .CX).isLt
  have hdx := (regs.get16 .DX).isLt
  have hhigh : ((regs.get16 .CX).setWidth 32 <<< 16).toNat = 2 ^ 16 * (regs.get16 .CX).toNat := by
    rw [BitVec.toNat_shiftLeft, BitVec.toNat_setWidth, Nat.shiftLeft_eq]
    omega
  have hlow : ((regs.get16 .DX).setWidth 32).toNat = (regs.get16 .DX).toNat := by
    rw [BitVec.toNat_setWidth]
    omega
  rw [BitVec.toNat_or, hhigh, hlow, ← Nat.two_pow_add_eq_or_of_lt hdx]
  omega

theorem seekOffset_nonneg_iff (regs : Regs) :
    0 ≤ regs.seekOffset.toInt ↔ regs.get16 .CX < 0x8000 := by
  have hnat := seekOffset_toNat regs
  have hcx : regs.get16 .CX < 0x8000 ↔ (regs.get16 .CX).toNat < 0x8000 := Iff.rfl
  have hdx := (regs.get16 .DX).isLt
  rw [hcx, BitVec.toInt_eq_toNat_cond]
  split <;> omega

/-- A cursor and the model agree on a relative seek exactly if the offset is
not negative and the cursor reaches the position. -/
theorem cursorTarget_eq_iff (base : ℕ) (offset : U32) :
    FileHandle.cursorTarget base offset.toNat =
        FileModel.notBeforeStart (base + offset.toInt) ↔
      0 ≤ offset.toInt ∧ base + offset.toNat < 2 ^ 64 := by
  have hlt := offset.isLt
  have hint := BitVec.toInt_eq_toNat_cond offset
  unfold FileHandle.cursorTarget FileModel.notBeforeStart
  split at hint
  · rw [hint]
    split <;> split <;> simp <;> omega
  · rw [hint]
    split <;> split <;> simp <;> omega

def FileModel.reach (file : FileModel) : SeekFrom → Option ℕ
  | .start n => some n
  | .current offset => FileHandle.cursorTarget file.pos offset
  | .fromEnd offset => FileHandle.cursorTarget file.data.length offset

/-- Where the service's cursor goes, with the offset unsigned. -/
def FileModel.cursorPos (file : FileModel) (whence : U8) (offset : ℕ) : Option ℕ :=
  (DosRuntime.seekTarget offset whence).bind file.reach

/-- What the service answers to a request, and the file after it. -/
def FileModel.served (file : FileModel) (core : Core) : Core × FileModel :=
  file.answer core (file.cursorPos (core.cpu.regs.get8 .AL) core.cpu.regs.seekOffset.toNat)

section Request

variable {handle : U16} {m after : Machine H} {file : FileModel}

theorem onDos_ok
    {α : Type} {routine : Exec Fault (DosRuntime H) α} {a : α} {dos : DosRuntime H}
    (hrun : routine m.dos = .ok (a, dos)) :
    onDos routine m = .ok (a, { m with dos := dos }) :=
  focus_ok hrun

theorem int21Read_serves
    (hholds : Holds handle m.dos file) (hbx : m.cpu.regs.get16 .BX = handle) :
    ∃ dos, int21Read m = .ok ((),
        ⟨m.toCore.answerRead (file.read (m.cpu.regs.get16 .CX).toNat).1, dos⟩) ∧
      Holds handle dos (file.read (m.cpu.regs.get16 .CX).toNat).2 := by
  have hread : DosRuntime.read handle (m.cpu.regs.get16 .CX).toNat m.dos =
      .ok (.ok ((file.data.drop file.pos).take (m.cpu.regs.get16 .CX).toNat),
        m.dos.insert handle (.virt file.data (file.pos +
          ((file.data.drop file.pos).take (m.cpu.regs.get16 .CX).toNat).length))) := by
    unfold DosRuntime.read
    rw [hholds]
    rfl
  unfold int21Read
  rw [bind_ok (onCore_getRegs_apply _ m), bind_ok (onCore_getRegs_apply _ m), hbx,
    bind_ok (onDos_ok hread)]
  refine ⟨_, rfl, ?_⟩
  have hlength : ((file.data.drop file.pos).take (m.cpu.regs.get16 .CX).toNat).length =
      min (m.cpu.regs.get16 .CX).toNat (file.data.length - file.pos) := by
    rw [List.length_take, List.length_drop]
  unfold Holds FileModel.read DosRuntime.insert
  rw [hlength]
  exact AList.lookup_insert _

theorem virt_seek (target : SeekFrom) :
    (FileHandle.virt file.data file.pos : FileHandle H).seek target =
      (file.reach target).map fun pos => (pos, .virt file.data pos) := by
  cases target <;> rfl

theorem seek_of_cursorPos
    {dos : DosRuntime H} {offset pos : ℕ} {whence : U8} (hholds : Holds handle dos file)
    (hpos : file.cursorPos whence offset = some pos) :
    DosRuntime.seek handle offset whence dos =
      .ok (.ok pos, dos.insert handle (.virt file.data pos)) := by
  rcases Option.bind_eq_some_iff.mp hpos with ⟨target, htarget, hreach⟩
  unfold DosRuntime.seek
  rw [hholds]
  simp only [htarget, virt_seek, hreach, Option.map_some]

theorem seek_of_no_cursorPos
    {dos : DosRuntime H} {offset : ℕ} {whence : U8} (hholds : Holds handle dos file)
    (hpos : file.cursorPos whence offset = none) :
    ∃ e, DosRuntime.seek handle offset whence dos = .ok (.error e, dos) := by
  unfold FileModel.cursorPos at hpos
  unfold DosRuntime.seek
  rw [hholds]
  cases htarget : DosRuntime.seekTarget offset whence with
  | none => exact ⟨.invalidWhence, rfl⟩
  | some target =>
      rw [htarget, Option.bind_some] at hpos
      exact ⟨.host, by simp only [virt_seek, hpos, Option.map_none]⟩

theorem int21Seek_serves
    (hholds : Holds handle m.dos file) (hbx : m.cpu.regs.get16 .BX = handle) :
    ∃ dos, int21Seek m = .ok ((), ⟨(file.settle m.toCore
        (file.cursorPos (m.cpu.regs.get8 .AL) m.cpu.regs.seekOffset.toNat)).1, dos⟩) ∧
      Holds handle dos (file.settle m.toCore
        (file.cursorPos (m.cpu.regs.get8 .AL) m.cpu.regs.seekOffset.toNat)).2 := by
  unfold int21Seek
  rw [bind_ok (onCore_getRegs_apply _ m), bind_ok (onCore_getRegs_apply _ m),
    bind_ok (onCore_getRegs_apply _ m), hbx, ← seekOffset_toNat]
  cases hpos : file.cursorPos (m.cpu.regs.get8 .AL) m.cpu.regs.seekOffset.toNat with
  | some pos =>
      rw [bind_ok (onDos_ok (seek_of_cursorPos hholds hpos))]
      exact ⟨_, rfl, AList.lookup_insert _⟩
  | none =>
      rcases seek_of_no_cursorPos hholds hpos with ⟨e, hseek⟩
      rw [bind_ok (onDos_ok hseek)]
      exact ⟨_, rfl, hholds⟩

theorem handleInt21_serves
    (hholds : Holds handle m.dos file) (hrequests : Requests handle m.toCore) :
    ∃ dos, handleInt21 m = .ok ((), ⟨(file.served m.toCore).1, dos⟩) ∧
      Holds handle dos (file.served m.toCore).2 := by
  unfold handleInt21
  rw [bind_ok (onCore_getRegs_apply _ m)]
  unfold FileModel.served FileModel.answer
  rcases hrequests.ah with hah | hah
  · rw [if_pos hah, hah]
    exact int21Read_serves hholds hrequests.bx
  · have hnot : m.cpu.regs.get8 .AH ≠ 0x3F := by
      rw [hah]
      decide
    rw [if_neg hnot, hah]
    exact int21Seek_serves hholds hrequests.bx

/-- Where a seek leads can be told from the answer and the file. -/
theorem settle_inj
    {core : Core} {dos : DosRuntime H} {target target' : Option ℕ}
    (hanswer : (file.settle core target).1 = (file.settle core target').1)
    (hholds : Holds handle dos (file.settle core target).2)
    (hholds' : Holds handle dos (file.settle core target').2) :
    target = target' := by
  have hcf := congrArg (fun core : Core => core.cpu.regs.getCf) hanswer
  unfold Holds at hholds hholds'
  rw [hholds] at hholds'
  cases target <;> cases target'
  · rfl
  · simp [FileModel.settle, Core.answerFailure, Core.answerSeek, Regs.getCf] at hcf
  · simp [FileModel.settle, Core.answerFailure, Core.answerSeek, Regs.getCf] at hcf
  · cases hholds'
    rfl

theorem cursorPos_eq_iff (core : Core) (hah : core.cpu.regs.get8 .AH = 0x42) :
    file.cursorPos (core.cpu.regs.get8 .AL) core.cpu.regs.seekOffset.toNat =
        file.target (core.cpu.regs.get8 .AL) core.cpu.regs.seekOffset ↔
      SeeksForward file core := by
  unfold SeeksForward FileModel.target
  generalize core.cpu.regs.get8 .AL = whence
  split
  · simp [FileModel.cursorPos, DosRuntime.seekTarget, FileModel.reach]
  · have htarget : DosRuntime.seekTarget core.cpu.regs.seekOffset.toNat 1#8 =
        some (.current core.cpu.regs.seekOffset.toNat) := rfl
    rw [FileModel.cursorPos, htarget, Option.bind_some, FileModel.reach, cursorTarget_eq_iff,
      seekOffset_nonneg_iff]
    simp [hah]
  · have htarget : DosRuntime.seekTarget core.cpu.regs.seekOffset.toNat 2#8 =
        some (.fromEnd core.cpu.regs.seekOffset.toNat) := rfl
    rw [FileModel.cursorPos, htarget, Option.bind_some, FileModel.reach, cursorTarget_eq_iff,
      seekOffset_nonneg_iff]
    simp [hah]
  · next h₀ h₁ h₂ =>
      have htarget : DosRuntime.seekTarget core.cpu.regs.seekOffset.toNat whence = none := by
        unfold DosRuntime.seekTarget
        split <;> first | rfl | contradiction
      rw [FileModel.cursorPos, htarget]
      simp only [Option.bind_none, true_iff]
      intro _
      exact ⟨fun heq => absurd heq h₁, fun heq => absurd heq h₂⟩

/-- One request: answer and position are the model's exactly if the seek, if it
is one, goes forward. -/
theorem serve_iff
    (hholds : Holds handle m.dos file) (hrequests : Requests handle m.toCore)
    (hserved : handleInt21 m = .ok ((), after)) :
    after.toCore = (file.serve m.toCore).1 ∧ Holds handle after.dos (file.serve m.toCore).2 ↔
      SeeksForward file m.toCore := by
  rcases handleInt21_serves hholds hrequests with ⟨dos, hrun, hnext⟩
  rw [hrun] at hserved
  cases hserved
  unfold FileModel.serve
  unfold FileModel.served FileModel.answer at hnext ⊢
  rcases hrequests.ah with hah | hah
  · simp only [if_pos hah] at hnext ⊢
    constructor
    · intro _ hseek
      rw [hah] at hseek
      cases hseek
    · intro _
      exact ⟨trivial, hnext⟩
  · have hnot : m.cpu.regs.get8 .AH ≠ 0x3F := by
      rw [hah]
      decide
    simp only [if_neg hnot] at hnext ⊢
    rw [← cursorPos_eq_iff m.toCore hah]
    constructor
    · rintro ⟨hanswer, hsettled⟩
      exact settle_inj hanswer hnext hsettled
    · intro heq
      rw [← heq]
      exact ⟨rfl, hnext⟩

end Request

/-! ## Whole sessions -/

theorem holds_of_follows
    {handle : U16} {start dos : DosRuntime H} {file : FileModel}
    {past : List (Machine H × Machine H)} (hstart : Holds handle start file)
    (hsession : Requested handle start past dos) (hfollows : Follows handle file past) :
    Holds handle dos (file.afterAll past) := by
  cases hsession with
  | start => exact hstart
  | request hpast hrequests hserved => exact hfollows.2.2

theorem session_follows_iff
    {handle : U16} {start dos : DosRuntime H} {file : FileModel}
    {past : List (Machine H × Machine H)} (hstart : Holds handle start file)
    (hsession : Requested handle start past dos) :
    Follows handle file past ↔ SeeksForwardAlong file past := by
  induction hsession with
  | start => simp [Follows, SeeksForwardAlong]
  | @request past m after hpast hrequests hserved ih =>
      have hone : Follows handle file past →
          (after.toCore = ((file.afterAll past).serve m.toCore).1 ∧
              Holds handle after.dos (file.afterAll ((m, after) :: past)) ↔
            SeeksForward (file.afterAll past) m.toCore) := by
        intro hfollows
        exact serve_iff (holds_of_follows hstart hpast hfollows) hrequests hserved
      constructor
      · rintro ⟨hfollows, hlast⟩
        exact ⟨ih.mp hfollows, (hone hfollows).mp hlast⟩
      · rintro ⟨hforward, hlast⟩
        have hfollows := ih.mpr hforward
        exact ⟨hfollows, (hone hfollows).mpr hlast⟩

/-! ## A step back in a file of three bytes -/

def threeBytes : FileModel := ⟨[1, 2, 3], 3⟩

def openedThree : DosRuntime HostFiles.none :=
  DosRuntime.new.insert 100 (.virt threeBytes.data threeBytes.pos)

theorem holds_openedThree : Holds 100 openedThree threeBytes := AList.lookup_insert _

/-- A machine that makes a request on handle 100. -/
def requestMachine (ax cx dx : U16) (dos : DosRuntime HostFiles.none) :
    Machine HostFiles.none where
  cpu := { Interpreter.new with
    regs := (((Regs.new.set16 .AX ax).set16 .BX 100).set16 .CX cx).set16 .DX dx }
  bus := Bus.new none fun _ => 0
  dos := dos

/-- INT 21h AH=42h with the offset -1 from the current position. -/
def stepBack : Machine HostFiles.none := requestMachine 0x4201 0xFFFF 0xFFFF openedThree

/-- INT 21h AH=3Fh for one byte. -/
def readOne (dos : DosRuntime HostFiles.none) : Machine HostFiles.none :=
  requestMachine 0x3F00 1 0 dos

theorem readOne_core (dos : DosRuntime HostFiles.none) :
    (readOne dos).toCore = (readOne openedThree).toCore := rfl

theorem requests_stepBack : Requests 100 stepBack.toCore :=
  ⟨.inr (by decide +kernel), by decide +kernel⟩

theorem requests_readOne (dos : DosRuntime HostFiles.none) :
    Requests 100 (readOne dos).toCore := by
  rw [readOne_core]
  exact ⟨.inl (by decide +kernel), by decide +kernel⟩

/-- The same file, nothing of it read. -/
def unreadThree : FileModel := ⟨[1, 2, 3], 0⟩

def openedUnread : DosRuntime HostFiles.none :=
  DosRuntime.new.insert 100 (.virt unreadThree.data unreadThree.pos)

/-- INT 21h AH=42h with the offset 2 from the current position. -/
def stepOn : Machine HostFiles.none := requestMachine 0x4201 0 2 openedUnread

theorem requests_stepOn : Requests 100 stepOn.toCore :=
  ⟨.inr (by decide +kernel), by decide +kernel⟩

/-- A step over two bytes, and the third is read. -/
theorem session_follows_stepOn :
    ∃ seeked read : Machine HostFiles.none,
      Requested 100 openedUnread [(readOne seeked.dos, read), (stepOn, seeked)] read.dos ∧
        (Follows 100 unreadThree [(readOne seeked.dos, read), (stepOn, seeked)] ↔
          SeeksForwardAlong unreadThree [(readOne seeked.dos, read), (stepOn, seeked)]) := by
  have hholds : Holds 100 openedUnread unreadThree := AList.lookup_insert _
  rcases handleInt21_serves hholds requests_stepOn with ⟨dos, hseek, hlater⟩
  rcases handleInt21_serves (m := readOne dos) hlater (requests_readOne dos) with
    ⟨dos', hread, -⟩
  refine ⟨_, _, .request (.request .start requests_stepOn hseek) (requests_readOne dos) hread, ?_⟩
  exact session_follows_iff hholds
    (.request (.request .start requests_stepOn hseek) (requests_readOne dos) hread)

/-- After a step back by one, a read of one byte returns nothing; the model
returns the last byte. -/
theorem step_back_loses_byte :
    ∃ seeked read : Machine HostFiles.none,
      Requested 100 openedThree [(readOne seeked.dos, read), (stepBack, seeked)] read.dos ∧
        read.cpu.regs.get16 .AX = 0 ∧
          ((threeBytes.afterAll [(stepBack, seeked)]).serve
            (readOne seeked.dos).toCore).1.cpu.regs.get16 .AX = 1 := by
  rcases handleInt21_serves holds_openedThree requests_stepBack with ⟨dos, hseek, hholds⟩
  rcases handleInt21_serves (m := readOne dos) hholds (requests_readOne dos) with
    ⟨dos', hread, -⟩
  refine ⟨_, _, .request (.request .start requests_stepBack hseek) (requests_readOne dos) hread,
    ?_, ?_⟩
  · have hcode : ((threeBytes.served stepBack.toCore).2.served
        (readOne openedThree).toCore).1.cpu.regs.get16 .AX = 0 := by
      decide +kernel
    simp only [readOne_core dos]
    exact hcode
  · have hmodel : ((threeBytes.serve stepBack.toCore).2.serve
        (readOne openedThree).toCore).1.cpu.regs.get16 .AX = 1 := by
      decide +kernel
    simp only [readOne_core dos]
    exact hmodel

end Kita98
