import Kita98.BusStores

/-!
# Reading back what the bus was given

A history of bus writes builds one visible store, the store of the bytes last
written.  Bus reads look at main memory alone, which a write under a window
never reaches, so an intercepted address reads back as zero whatever was
written there.
-/

namespace Kita98

open ByteStore WordBits

inductive BusWrite where
  /-- `mem_write_u8` -/
  | byte (c : Cell) (v : U8)
  /-- `mem_write_u16` -/
  | word (c : Cell) (v : U16)
  deriving DecidableEq, Repr

namespace BusWrite

def run (bus : Bus) : BusWrite → Bus
  | byte c v => bus.memWriteU8 (c.setWidth 32) v
  | word c v => bus.memWriteU16 (c.setWidth 32) v

def apply (store : Cell → U8) : BusWrite → Cell → U8
  | byte c v => write store c v
  | word c v => writeWord store c v

theorem visible_run (bus : Bus) (op : BusWrite) :
    (op.run bus).visible = op.apply bus.visible := by
  cases op with
  | byte c v => exact bus.visible_memWriteU8 c v
  | word c v =>
      rw [run, Bus.memWriteU16_eq_storeBytes, Bus.visible_storeBytes]
      rfl

theorem run_data_of_intercepted
    (bus : Bus) (op : BusWrite) {c' : Cell} (hc' : Intercepted c') :
    (op.run bus).mem.data c' = bus.mem.data c' := by
  cases op with
  | byte c v => exact Bus.memWriteU8_data_of_intercepted c v hc'
  | word c v =>
      rw [run, Bus.memWriteU16_eq_storeBytes]
      exact bus.storeBytes_data_of_intercepted c _ hc'

end BusWrite

def replay (ops : List BusWrite) (bus : Bus) : Bus := ops.foldl BusWrite.run bus

/-- The byte most recently written to each address, zero if none. -/
def lastWritten (ops : List BusWrite) : Cell → U8 := ops.foldl BusWrite.apply fun _ => 0

theorem visible_replay (ops : List BusWrite) (bus : Bus) :
    (replay ops bus).visible = ops.foldl BusWrite.apply bus.visible := by
  induction ops generalizing bus with
  | nil => rfl
  | cons op ops ih =>
      have hstep : replay (op :: ops) bus = replay ops (op.run bus) := rfl
      rw [hstep, ih, BusWrite.visible_run]
      rfl

theorem replay_data_of_intercepted
    (ops : List BusWrite) (bus : Bus) {c : Cell} (hc : Intercepted c) :
    (replay ops bus).mem.data c = bus.mem.data c := by
  induction ops generalizing bus with
  | nil => rfl
  | cons op ops ih =>
      have hstep : replay (op :: ops) bus = replay ops (op.run bus) := rfl
      rw [hstep, ih, BusWrite.run_data_of_intercepted bus op hc]

theorem visible_new (disk : Option Disk) (clock : ℕ → ℕ) :
    (Bus.new disk clock).visible = fun _ => 0 := by
  funext c
  unfold Bus.visible
  cases planeAt c <;> rfl

theorem replay_data
    (ops : List BusWrite) (disk : Option Disk) (clock : ℕ → ℕ) (c : Cell) :
    (replay ops (Bus.new disk clock)).mem.data c =
      if Intercepted c then 0 else lastWritten ops c := by
  by_cases hc : Intercepted c
  · rw [if_pos hc, replay_data_of_intercepted ops _ hc]
    rfl
  · rw [if_neg hc, ← Bus.visible_of_not_intercepted hc, visible_replay, visible_new]
    rfl

/-! ## Reads after writes -/

def ByteReadsBack (ops : List BusWrite) (bus : Bus) (c : Cell) : Prop :=
  (replay ops bus).memReadU8 (c.setWidth 32) = lastWritten ops c

def WordReadsBack (ops : List BusWrite) (bus : Bus) (c : Cell) : Prop :=
  (replay ops bus).memReadU16 (c.setWidth 32) = readWord (lastWritten ops) c

/-- A byte other than zero was written last at a plane's address. -/
def LostInPlane (ops : List BusWrite) (c : Cell) : Prop :=
  Intercepted c ∧ lastWritten ops c ≠ 0

theorem replay_data_eq_iff
    (ops : List BusWrite) (disk : Option Disk) (clock : ℕ → ℕ) (c : Cell) :
    (replay ops (Bus.new disk clock)).mem.data c = lastWritten ops c ↔
      ¬ LostInPlane ops c := by
  rw [replay_data]
  unfold LostInPlane
  by_cases hc : Intercepted c
  · rw [if_pos hc]
    constructor
    · intro hzero hlost
      exact hlost.2 hzero.symm
    · intro hkept
      by_contra hne
      exact hkept ⟨hc, fun hzero => hne hzero.symm⟩
  · simp [hc]

theorem reads_back_iff
    (ops : List BusWrite) (disk : Option Disk) (clock : ℕ → ℕ) (c : Cell) :
    (ByteReadsBack ops (Bus.new disk clock) c ↔ ¬ LostInPlane ops c) ∧
      (WordReadsBack ops (Bus.new disk clock) c ↔
        ¬ LostInPlane ops c ∧ ¬ LostInPlane ops (c + 1)) := by
  constructor
  · unfold ByteReadsBack Bus.memReadU8 Memory.readU8
    rw [Memory.cell_setWidth, replay_data_eq_iff]
  · unfold WordReadsBack Bus.memReadU16
    rw [Memory.readU16_eq, Memory.cell_setWidth, readWord, readWord, joinBytes_inj,
      replay_data_eq_iff, replay_data_eq_iff]

/-- A byte written at the start of the first window reads back as zero. -/
theorem plane_write_not_read_back :
    ¬ ByteReadsBack [.byte 0xA8000 0xFF] (Bus.new none fun _ => 0) 0xA8000 := by
  have hlast : lastWritten [.byte 0xA8000 0xFF] 0xA8000 = 0xFF := rfl
  have hread : (replay [.byte 0xA8000 0xFF] (Bus.new none fun _ => 0)).memReadU8
      ((0xA8000 : Cell).setWidth 32) = 0 := rfl
  unfold ByteReadsBack
  rw [hread, hlast]
  decide

end Kita98
