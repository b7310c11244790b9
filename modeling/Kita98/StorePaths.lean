import Kita98.BusStores
import Kita98.Dispatch
import Kita98.OperandAddress

/-!
# Guest stores and the video windows

Every store of the interpreter is one of the paths below, and each of them
writes main memory directly.  The bus would hand a byte at a plane's address
to the plane instead.  The two agree on a store exactly when each byte of it
that falls on a plane's address is already there, in the plane and in the main
memory beneath it.
-/

namespace Kita98

open ByteStore WordBits Memory Exec

/-- A ModRM operand that is not a register. -/
structure MemOperand extends ModRm where
  mode_ne : mode ≠ 3

inductive StorePath where
  | modrmU8 (operand : MemOperand) (val : U8)
  | modrmU16 (operand : MemOperand) (val : U16)
  | modrmU32 (operand : MemOperand) (val : U32)
  | moffsAl
  | moffsAx
  | stosb
  | stosw
  | movsb
  | movsw
  | push16 (val : U16)
  | push32 (val : U32)

/-- Address of a string instruction's destination. -/
def destCell (regs : Regs) : Cell :=
  cell (phys (regs.getSeg .ES) ((regs.get16 .DI).setWidth 32))

def moffsCell : Routine Cell := do
  let off ← fetchU16
  let seg ← overriddenSeg .DS
  return cell (phys seg (off.setWidth 32))

namespace StorePath

def run : StorePath → Routine Unit
  | modrmU8 operand val => writeModrmU8 operand.toModRm val
  | modrmU16 operand val => writeModrmU16 operand.toModRm val
  | modrmU32 operand val => writeModrmU32 operand.toModRm val
  | moffsAl => do let _ ← movMoffsAl
  | moffsAx => do let _ ← movMoffsAx
  | stosb => Kita98.stosb
  | stosw => Kita98.stosw
  | movsb => Kita98.movsb
  | movsw => Kita98.movsw
  | push16 val => Kita98.push16 val
  | push32 val => Kita98.push32 val

def target : StorePath → Routine (Cell × List U8)
  | modrmU8 operand val => do
      let ea ← eaFromModrm operand.toModRm
      return (cell ea, [val])
  | modrmU16 operand val => do
      let ea ← eaFromModrm operand.toModRm
      return (cell ea, wordBytes val)
  | modrmU32 operand val => do
      let ea ← eaFromModrm operand.toModRm
      return (cell ea, doubleBytes val)
  | moffsAl => do
      let c ← moffsCell
      let v ← getRegs fun regs => regs.get8 .AL
      return (c, [v])
  | moffsAx => do
      let c ← moffsCell
      let v ← getRegs fun regs => regs.get16 .AX
      return (c, wordBytes v)
  | stosb => getRegs fun regs => (destCell regs, [regs.get8 .AL])
  | stosw => getRegs fun regs => (destCell regs, wordBytes (regs.get16 .AX))
  | movsb => do
      let v ← readSource segReadU8
      getRegs fun regs => (destCell regs, [v])
  | movsw => do
      let v ← readSource segReadU16
      getRegs fun regs => (destCell regs, wordBytes v)
  | push16 val => getRegs fun regs =>
      (cell (phys (regs.getSeg .SS) ((regs.get16 .SP - 2).setWidth 32)), wordBytes val)
  | push32 val => getRegs fun regs =>
      (cell (phys (regs.getSeg .SS) (regs.get32 .SP - 4)), doubleBytes val)

end StorePath

/-! ## Each path loads its bytes into main memory -/

namespace StorePath

/-- What a path leaves behind: the bytes of its target loaded into main
memory, and nothing else of the bus changed. -/
def LoadsTarget (path : StorePath) : Prop :=
  ∀ (core mid : Core) (c : Cell) (bytes : List U8),
    path.target core = .ok ((c, bytes), mid) →
      ∃ after, path.run core = .ok ((), after) ∧
        after.bus = { core.bus with mem := ⟨load core.bus.mem.data c bytes⟩ }

theorem loadsTarget_of_ea
    {operand : MemOperand} {write : Routine Unit} {store : Memory → U32 → Memory}
    {stored : List U8}
    (hwrite : write = eaFromModrm operand.toModRm >>= fun ea =>
      modMem fun mem => store mem ea)
    (hstore : ∀ mem ea, store mem ea = ⟨load mem.data (cell ea) stored⟩)
    {core mid : Core} {c : Cell} {bytes : List U8}
    (htarget : (eaFromModrm operand.toModRm >>= fun ea =>
      pure (cell ea, stored) : Routine (Cell × List U8)) core = .ok ((c, bytes), mid)) :
    ∃ after, write core = .ok ((), after) ∧
      after.bus = { core.bus with mem := ⟨load core.bus.mem.data c bytes⟩ } := by
  rcases bind_eq_ok htarget with ⟨ea, next, hea, hreturn⟩
  cases hreturn
  have hbus : mid.bus = core.bus := by
    rcases eaFromModrm_fetches operand.mode_ne core with ⟨n, -, found, hfetch⟩
    rw [hea] at hfetch
    cases hfetch
    rfl
  refine ⟨mid.setMem (store mid.bus.mem ea), ?_, ?_⟩
  · rw [hwrite, bind_ok hea]
    rfl
  · rw [Core.setMem, hbus, hstore]

theorem loadsTarget (path : StorePath) : path.LoadsTarget := by
  intro core mid c bytes htarget
  cases path with
  | modrmU8 operand val =>
      exact loadsTarget_of_ea (if_neg operand.mode_ne)
        (fun mem ea => writeU8_eq_load mem ea val) htarget
  | modrmU16 operand val =>
      exact loadsTarget_of_ea (if_neg operand.mode_ne)
        (fun mem ea => writeU16_eq_load mem ea val) htarget
  | modrmU32 operand val =>
      exact loadsTarget_of_ea (if_neg operand.mode_ne)
        (fun mem ea => writeU32_eq_load mem ea val) htarget
  | moffsAl =>
      cases htarget
      exact ⟨_, rfl, rfl⟩
  | moffsAx =>
      cases htarget
      refine ⟨_, rfl, ?_⟩
      rw [← writeU16_eq_load]
      rfl
  | stosb =>
      cases htarget
      exact ⟨_, rfl, rfl⟩
  | stosw =>
      cases htarget
      refine ⟨_, rfl, ?_⟩
      rw [destCell, ← writeU16_eq_load]
      rfl
  | movsb =>
      cases htarget
      exact ⟨_, rfl, rfl⟩
  | movsw =>
      cases htarget
      refine ⟨_, rfl, ?_⟩
      rw [destCell, ← writeU16_eq_load]
      rfl
  | push16 val =>
      cases htarget
      refine ⟨_, rfl, ?_⟩
      rw [← writeU16_eq_load]
      rfl
  | push32 val =>
      cases htarget
      refine ⟨_, rfl, ?_⟩
      rw [← writeU32_eq_load]
      rfl

end StorePath

/-! ## Main memory and the bus agree on a store -/

/-- Every byte of the store that falls on a plane's address is already there,
in the plane and in the main memory beneath it. -/
def AlreadyStored (bus : Bus) (c : Cell) (bytes : List U8) : Prop :=
  ∀ c', Intercepted c' → ∀ byte, bytes[(c' - c).toNat]? = some byte →
    bus.mem.data c' = byte ∧ bus.visible c' = byte

theorem sameStores_storeBytes_iff
    (bus : Bus) (c : Cell) (bytes : List U8) (hfits : bytes.length ≤ 2 ^ 20) :
    SameStores { bus with mem := ⟨load bus.mem.data c bytes⟩ } (bus.storeBytes c bytes) ↔
      AlreadyStored bus c bytes := by
  have hvisible := bus.visible_storeBytes c bytes
  rw [sameStores_iff]
  constructor
  · intro hcells c' hc' byte hbyte
    rcases hcells c' with ⟨hmem, hview⟩
    rcases Option.isSome_iff_exists.mp hc' with ⟨⟨plane, offset⟩, hplane⟩
    constructor
    · rw [bus.storeBytes_data_of_intercepted c bytes hc'] at hmem
      rw [← hmem]
      change load bus.mem.data c bytes c' = byte
      rw [load_apply _ _ _ _ hfits, hbyte]
      rfl
    · rw [hvisible, load_apply _ _ _ _ hfits, hbyte] at hview
      rw [Bus.visible_of_plane hplane] at hview ⊢
      exact hview
  · intro hstored c'
    by_cases hc' : Intercepted c'
    · rcases Option.isSome_iff_exists.mp hc' with ⟨⟨plane, offset⟩, hplane⟩
      have hplanes : Bus.visible { bus with mem := ⟨load bus.mem.data c bytes⟩ } c' =
          bus.visible c' := by
        rw [Bus.visible_of_plane hplane, Bus.visible_of_plane hplane]
      rw [bus.storeBytes_data_of_intercepted c bytes hc', hplanes, hvisible,
        load_apply _ _ _ _ hfits]
      change load bus.mem.data c bytes c' = _ ∧ _
      rw [load_apply _ _ _ _ hfits]
      cases hbyte : bytes[(c' - c).toNat]? with
      | none => exact ⟨rfl, rfl⟩
      | some byte =>
          rcases hstored c' hc' byte hbyte with ⟨hmem, hview⟩
          exact ⟨hmem.symm, hview⟩
    · have hview : (bus.storeBytes c bytes).visible c' = load bus.mem.data c bytes c' := by
        rw [hvisible, load_apply _ _ _ _ hfits, load_apply _ _ _ _ hfits,
          Bus.visible_of_not_intercepted hc']
      have hmain : Bus.visible { bus with mem := ⟨load bus.mem.data c bytes⟩ } c' =
          load bus.mem.data c bytes c' :=
        Bus.visible_of_not_intercepted hc'
      rw [← @Bus.visible_of_not_intercepted (bus.storeBytes c bytes) c' hc', hview, hmain]
      exact ⟨rfl, rfl⟩

theorem StorePath.target_length
    {path : StorePath} {core mid : Core} {c : Cell} {bytes : List U8}
    (htarget : path.target core = .ok ((c, bytes), mid)) : bytes.length ≤ 4 := by
  have hreturns : Returns path.target fun result => result.2.length ≤ 4 := by
    cases path with
    | modrmU8 operand val => exact .bind fun _ => .pure (by simp)
    | modrmU16 operand val => exact .bind fun _ => .pure (by simp [wordBytes])
    | modrmU32 operand val => exact .bind fun _ => .pure (by simp [doubleBytes, wordBytes])
    | moffsAl => exact .bind fun _ => .bind fun _ => .pure (by simp)
    | moffsAx => exact .bind fun _ => .bind fun _ => .pure (by simp [wordBytes])
    | stosb => exact .read fun _ => by simp
    | stosw => exact .read fun _ => by simp [wordBytes]
    | movsb => exact .bind fun _ => .read fun _ => by simp
    | movsw => exact .bind fun _ => .read fun _ => by simp [wordBytes]
    | push16 val => exact .read fun _ => by simp [wordBytes]
    | push32 val => exact .read fun _ => by simp [doubleBytes, wordBytes]
  exact hreturns core (c, bytes) mid htarget

/-- An interpreted store does what the bus does with the same bytes. -/
def StorePath.ReachesVideo (path : StorePath) (core : Core) (c : Cell)
    (bytes : List U8) : Prop :=
  ∃ after, path.run core = .ok ((), after) ∧
    SameStores after.bus (core.bus.storeBytes c bytes)

theorem store_reachesVideo_iff
    (path : StorePath) {core mid : Core} {c : Cell} {bytes : List U8}
    (htarget : path.target core = .ok ((c, bytes), mid)) :
    path.ReachesVideo core c bytes ↔ AlreadyStored core.bus c bytes := by
  have hfits : bytes.length ≤ 2 ^ 20 :=
    (StorePath.target_length htarget).trans (by decide)
  rcases path.loadsTarget core mid c bytes htarget with ⟨after, hrun, hbus⟩
  rw [← sameStores_storeBytes_iff core.bus c bytes hfits, ← hbus]
  constructor
  · rintro ⟨after', hrun', hsame⟩
    rw [hrun] at hrun'
    cases hrun'
    exact hsame
  · intro hsame
    exact ⟨after, hrun, hsame⟩

/-- A machine whose stack lies in the first plane's window. -/
def planeStackCore : Core where
  cpu := { Interpreter.new with regs := (Regs.new.setSeg .SS 0xA800).set16 .SP 2 }
  bus := Bus.new none fun _ => 0

theorem store_reachesVideo_planeStack :
    (StorePath.push16 0x1234).ReachesVideo planeStackCore 0xA8000 [0x34, 0x12] ↔
      AlreadyStored planeStackCore.bus 0xA8000 [0x34, 0x12] :=
  @store_reachesVideo_iff (.push16 0x1234) planeStackCore planeStackCore _ _ rfl

/-- A word pushed there stays out of the plane. -/
theorem push_misses_plane :
    (StorePath.push16 0x1234).target planeStackCore =
        .ok ((0xA8000, [0x34, 0x12]), planeStackCore) ∧
      ¬ (StorePath.push16 0x1234).ReachesVideo planeStackCore 0xA8000 [0x34, 0x12] := by
  refine ⟨rfl, ?_⟩
  rintro ⟨after, hrun, hsame⟩
  cases hrun
  have hplane := congrFun (congrFun hsame.planes 0) ⟨0, by decide⟩
  revert hplane
  decide

end Kita98
