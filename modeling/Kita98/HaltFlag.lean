import Kita98.ArmEffects
import Kita98.InterruptFrame

/-!
# Who sets the halt flag

`HLT` does, and INT 19h, INT 20h and AH=4Ch of INT 21h.  Every other
instruction that the dispatcher reaches and every other native service leaves
the flag alone.
-/

namespace Kita98

open WordBits Exec

/-! ## One instruction -/

theorem dispatch_halted
    {opcode : U8} {core core' : Core} {result : StepResult}
    (hrun : dispatch opcode core = .ok (result, core')) (hresult : result ≠ .halt) :
    core'.halted = core.halted := by
  cases dispatch_effect hrun with
  | tame htame => exact htame.halted
  | returns hopcode hiret =>
      cases hiret
      rfl
  | halts hopcode hhlt =>
      cases hhlt
      exact absurd rfl hresult
  | branches hopcode hfetch hjcc hbranch =>
      cases hfetch
      rw [jccNear_apply] at hbranch
      cases hbranch
      split <;> rfl

/-- A tame routine, whatever its faults are. -/
abbrev Mild {α : Type} (routine : Routine α) : Prop := Obeys Tame (fun _ => True) routine

/-- Every return is related by `R`, whatever the faults are. -/
abbrev StaysIn (R : Core → Core → Prop) {α : Type} (routine : Routine α) : Prop :=
  Obeys R (fun _ => True) routine

variable {R : Core → Core → Prop} [frame : IsFrame R]

instance {α : Type} (fault : Fault) : StaysIn R (Exec.fail fault : Routine α) := .of_fail trivial

instance (fuel : ℕ) (byte : U8) : StaysIn R (skipPrefixes prefixEffect fuel byte) := by
  induction fuel generalizing byte with
  | zero => exact .of_fail trivial
  | succ fuel ih =>
      unfold skipPrefixes
      split <;> infer_instance

instance : StaysIn R fetchOpcode := by
  unfold fetchOpcode
  infer_instance

theorem fetchOpcode_mild : Mild fetchOpcode := inferInstance

theorem executeOne_halted
    {core core' : Core} {result : StepResult}
    (hrun : executeOne core = .ok (result, core')) (hresult : result ≠ .halt) :
    core'.halted = core.halted := by
  unfold executeOne at hrun
  rw [bind_ok (read_apply _ core)] at hrun
  split at hrun
  · cases hrun
    exact absurd rfl hresult
  · rcases bind_eq_ok hrun with ⟨opcode, fetched, hfetch, hrest⟩
    rcases bind_eq_ok hrest with ⟨result', executed, hdispatch, hlast⟩
    cases hlast
    exact (dispatch_halted hdispatch hresult).trans (fetchOpcode_mild.returns hfetch).halted

/-! ## Loading a program -/

namespace TameRegs

variable (f : Regs → Regs) [TameRegs f]

instance fresh : TameRegs fun _ => Regs.new :=
  ⟨fun _ _ => (by decide : (0 : ℕ) < 2 ^ 16), fun _ _ => rfl⟩

theorem placed {ip : U32} (hip : ip.toNat < 2 ^ 16) :
    TameRegs fun regs => { f regs with ip := ip } :=
  ⟨fun _ _ => hip, fun _ hset => reserved _ hset⟩

instance setCom : TameRegs Regs.setCom := by
  have hip : TameRegs fun regs => { regs.setSeg .CS loadSegment with ip := 0x0100 } :=
    placed (fun regs => regs.setSeg .CS loadSegment) (by decide)
  unfold Regs.setCom
  infer_instance

instance setMz (header : MzHeader) : TameRegs header.setRegs := by
  have hoffset := header.initialIp.isLt
  have hip : TameRegs fun regs =>
      { regs.setSeg .CS (loadSegment + header.initialCs) with
        ip := header.initialIp.setWidth 32 } := by
    apply placed fun regs => regs.setSeg .CS (loadSegment + header.initialCs)
    rw [BitVec.toNat_setWidth]
    omega
  unfold MzHeader.setRegs
  infer_instance

end TameRegs

instance (data : List U8) : StaysIn R (loadMz data) := by
  have hranges : ∀ ranges : List (ℕ × ℕ), StaysIn R (Exec.update fun core : Core =>
      { core with cpu := { core.cpu with validRanges := core.cpu.validRanges ++ ranges } }) :=
    fun ranges => .of_update fun _ => frame.setRanges _ _
  unfold loadMz
  split
  · infer_instance
  · extract_lets header headerSize lastPage
    split
    · infer_instance
    · split
      · infer_instance
      · apply Obeys.seq
        intro u
        infer_instance

instance (data : List U8) : StaysIn R (executeBinary data) := by
  unfold executeBinary
  infer_instance

/-! ## Native services -/

namespace TameVideo

instance writeChar (ch : U8) : TameVideo fun video => video.writeChar ch :=
  ⟨fun video => ⟨VideoController.charText ch, video.dirty, rfl⟩⟩

instance print (bytes : List U8) :
    TameVideo fun video => bytes.foldl VideoController.writeChar video := by
  constructor
  intro video
  induction bytes generalizing video with
  | nil => exact ⟨[], video.dirty, by rw [List.append_nil]; rfl⟩
  | cons byte bytes ih =>
      rcases ih (video.writeChar byte) with ⟨text, dirty, hprints⟩
      refine ⟨VideoController.charText byte ++ text, dirty, ?_⟩
      rw [List.foldl_cons, hprints, VideoController.writeChar, List.append_assoc]

instance int10 (ah al : U8) : TameVideo fun video => video.handleInt10 ah al := by
  constructor
  intro video
  unfold VideoController.handleInt10
  split
  · exact (writeChar al).prints video
  · exact ⟨[], video.dirty, by rw [List.append_nil]⟩

instance redraw : TameVideo fun video => { video with dirty := true } :=
  ⟨fun video => ⟨[], true, by rw [List.append_nil]⟩⟩

end TameVideo

instance (f : VideoController → VideoController) [TameVideo f] : StaysIn R (modVideo f) :=
  .of_update fun _ => frame.setVideo f _

instance (stop : U8) : StaysIn R (scanDsDx stop) := by
  unfold scanDsDx
  apply Obeys.seq
  intro seg
  apply Obeys.seq
  intro off
  apply Obeys.seq
  intro bytes
  cases bytes <;> infer_instance

/-! ### BIOS -/

instance : StaysIn R handleInt10 := by
  unfold handleInt10
  apply Obeys.seq
  intro ah
  apply Obeys.seq
  intro al
  apply Obeys.seq
  intro u
  split <;> infer_instance

instance : StaysIn R handleInt11 := by
  unfold handleInt11
  infer_instance

instance : StaysIn R handleInt12 := by
  unfold handleInt12
  infer_instance

instance (ah : U8) (failed : Bool) : StaysIn R (diskStatus ah failed) := by
  unfold diskStatus
  infer_instance

instance : StaysIn R int13ReadSectors := by
  unfold int13ReadSectors
  apply Obeys.seq
  intro disk
  cases disk with
  | none => infer_instance
  | some disk =>
      apply Obeys.seq
      intro regs
      split <;> infer_instance

instance : StaysIn R int13Parameters := by
  unfold int13Parameters
  apply Obeys.seq
  intro disk
  cases disk with
  | none => infer_instance
  | some disk =>
      dsimp only
      apply Obeys.seq
      intro u
      infer_instance

instance : StaysIn R handleInt13 := by
  unfold handleInt13
  apply Obeys.seq
  intro ah
  split <;> infer_instance

instance : StaysIn R handleInt15 := by
  unfold handleInt15
  infer_instance

instance : StaysIn R handleInt16 := by
  unfold handleInt16
  apply Obeys.seq
  intro ah
  split <;> infer_instance

instance : StaysIn R handleInt18 := by
  unfold handleInt18
  apply Obeys.seq
  intro ah
  split <;> infer_instance

instance : StaysIn R handleInt1a := by
  unfold handleInt1a
  apply Obeys.seq
  intro ah
  split <;> infer_instance

instance : StaysIn R handleInt1f := by
  unfold handleInt1f
  apply Obeys.seq
  intro ah
  split <;> infer_instance

/-! ### DOS -/

instance : StaysIn R printString := by
  unfold printString
  infer_instance

instance : StaysIn R int21Exec := by
  unfold int21Exec
  apply Obeys.seq
  intro al
  split
  · apply Obeys.seq
    intro bytes
    apply Obeys.seq
    intro disk
    split
    · infer_instance
    · apply Obeys.seq
      intro u
      apply Obeys.seq
      intro result
      cases result <;> infer_instance
  · infer_instance

theorem int21Core_staysIn {ah : U8} (hah : ah ≠ 0x4C) : StaysIn R (int21Core ah) := by
  unfold int21Core
  split
  all_goals first
    | exact absurd rfl hah
    | infer_instance

variable {H : HostFiles}

def Machine.halted (m : Machine H) : Bool := m.toCore.halted

/-- A service that stays in a frame of the processor and the bus. -/
abbrev ServesIn (R : Core → Core → Prop) {α : Type} (handler : Handler H α) : Prop :=
  Obeys (fun m m' : Machine H => R m.toCore m'.toCore) (fun _ => True) handler

instance : IsPreorder (Machine H) fun m m' => R m.toCore m'.toCore where
  refl := fun m => refl m.toCore
  trans := fun m mid m' => IsTrans.trans m.toCore mid.toCore m'.toCore

instance {α : Type} (routine : Routine α) [hstays : StaysIn R routine] :
    ServesIn (H := H) R (onCore routine) := by
  constructor
  · intro m a m' hrun
    rcases focus_eq_ok hrun with ⟨core, hcore, rfl⟩
    exact hstays.returns hcore
  · intro m fault hrun
    trivial

instance {α : Type} (routine : Exec Fault (DosRuntime H) α) : ServesIn R (onDos routine) := by
  constructor
  · intro m a m' hrun
    rcases focus_eq_ok hrun with ⟨dos, hdos, rfl⟩
    exact refl m.toCore
  · intro m fault hrun
    trivial

instance {α : Type} (fault : Fault) : ServesIn R (Exec.fail fault : Handler H α) :=
  .of_fail trivial

instance (data : List U8) : ServesIn (H := H) R (openVirtual data) := by
  unfold openVirtual
  infer_instance

instance : ServesIn (H := H) R int21Open := by
  unfold int21Open
  apply Obeys.seq
  intro bytes
  apply Obeys.seq
  intro disk
  split
  · infer_instance
  · apply Obeys.seq
    intro result
    cases result <;> infer_instance

instance : ServesIn (H := H) R int21Read := by
  unfold int21Read
  apply Obeys.seq
  intro handle
  apply Obeys.seq
  intro count
  apply Obeys.seq
  intro result
  cases result <;> infer_instance

instance : ServesIn (H := H) R int21Seek := by
  unfold int21Seek
  apply Obeys.seq
  intro handle
  apply Obeys.seq
  intro whence
  apply Obeys.seq
  intro offset
  apply Obeys.seq
  intro result
  cases result <;> infer_instance

/-! ### The services that end a program -/

/-- INT 19h, INT 20h and AH=4Ch of INT 21h. -/
def EndsByInterrupt (num : U8) (regs : Regs) : Prop :=
  num = 0x19 ∨ num = 0x20 ∨ (num = 0x21 ∧ regs.get8 .AH = 0x4C)

theorem handleInt21_staysIn
    {m m' : Machine H} {u : Unit} (hrun : handleInt21 m = .ok (u, m'))
    (hah : m.cpu.regs.get8 .AH ≠ 0x4C) : R m.toCore m'.toCore := by
  unfold handleInt21 at hrun
  rw [bind_ok (onCore_getRegs_apply _ m)] at hrun
  generalize m.cpu.regs.get8 .AH = ah at hrun hah
  split at hrun
  · exact (inferInstance : ServesIn (H := H) R int21Open).returns hrun
  · exact (inferInstance : ServesIn (H := H) R int21Read).returns hrun
  · exact (inferInstance : ServesIn (H := H) R int21Seek).returns hrun
  · have hstays : StaysIn R _ := int21Core_staysIn hah
    exact (inferInstance : ServesIn (H := H) R (onCore _)).returns hrun

theorem nativeHandler_staysIn
    {num : U8} {handler : Handler H Unit} {m m' : Machine H} {u : Unit}
    (hnative : nativeHandler num = some handler) (hrun : handler m = .ok (u, m'))
    (hends : ¬ EndsByInterrupt num m.cpu.regs) : R m.toCore m'.toCore := by
  have hcore : ∀ routine : Routine Unit, StaysIn R routine →
      onCore routine m = .ok (u, m') → R m.toCore m'.toCore := by
    intro routine hstays hroutine
    exact (inferInstance : ServesIn (H := H) R (onCore routine)).returns hroutine
  unfold nativeHandler at hnative
  split at hnative <;> cases hnative
  iterate 7 exact hcore _ inferInstance hrun
  · exact absurd (.inl rfl) hends
  iterate 2 exact hcore _ inferInstance hrun
  · exact absurd (.inr (.inl rfl)) hends
  · apply handleInt21_staysIn hrun
    intro hah
    exact hends (.inr (.inr ⟨rfl, hah⟩))

theorem handleInterrupt_staysIn
    {num : U8} {m m' : Machine H} {handled : Bool}
    (hrun : handleInterrupt num m = .ok (handled, m'))
    (hends : ¬ EndsByInterrupt num m.cpu.regs) : R m.toCore m'.toCore := by
  unfold handleInterrupt at hrun
  cases hnative : @nativeHandler H num with
  | none =>
      rw [hnative] at hrun
      cases hrun
      exact refl _
  | some handler =>
      rw [hnative] at hrun
      rcases bind_eq_ok hrun with ⟨u, after, hhandler, hlast⟩
      cases hlast
      exact nativeHandler_staysIn hnative hhandler hends

theorem handleInterrupt_ends
    {num : U8} {m m' : Machine H} {handled : Bool}
    (hrun : handleInterrupt num m = .ok (handled, m'))
    (hends : EndsByInterrupt num m.cpu.regs) :
    m'.toCore = { m.toCore with cpu := { m.cpu with halted := true } } := by
  rcases hends with rfl | rfl | ⟨rfl, hah⟩
  · cases hrun
    rfl
  · cases hrun
    rfl
  · have hexit : handleInt21 m = onCore setHalted m := by
      unfold handleInt21
      rw [bind_ok (onCore_getRegs_apply _ m), hah]
      rfl
    have hservice : @handleInterrupt H 0x21 = (handleInt21 >>= fun _ => pure true) := rfl
    rw [hservice, bind_apply, hexit] at hrun
    cases hrun
    rfl

theorem serviceEnd_halted
    {num : U8} {handled : Bool} {m m' : Machine H} {u : Unit}
    (hrun : (if handled then onCore leaveInterrupt else onCore (vectorInterrupt num) :
      Handler H Unit) m = .ok (u, m')) : m'.halted = m.halted := by
  cases handled with
  | true =>
      cases hrun
      rfl
  | false =>
      cases hrun
      rfl

theorem serviceInterrupt_halted
    {num : U8} {m m' : Machine H} {u : Unit} (hrun : serviceInterrupt num m = .ok (u, m')) :
    (EndsByInterrupt num m.cpu.regs → m'.halted = true) ∧
      (¬ EndsByInterrupt num m.cpu.regs → m'.halted = m.halted) := by
  rcases bind_eq_ok hrun with ⟨_, entered, henter, hrest⟩
  rcases bind_eq_ok hrest with ⟨handled, served, hserve, hleave⟩
  have hlast : m'.halted = served.halted := serviceEnd_halted hleave
  rcases focus_eq_ok henter with ⟨core, hcore, rfl⟩
  rw [enterInterrupt_apply] at hcore
  cases hcore
  constructor
  · intro hends
    rw [hlast]
    exact congrArg Core.halted (handleInterrupt_ends hserve hends)
  · intro hends
    rw [hlast]
    have htame : Tame _ _ := handleInterrupt_staysIn hserve fun hsame => hends hsame
    exact htame.halted

end Kita98
