import Kita98.Exec
import Kita98.Video
import Kita98.FatFileSystem

/-!
# The bus

Main memory, video controller, timer and disk.  Only `mem_write_u8` looks at
the video windows; the plain memory operations of `Memory` do not.
-/

namespace Kita98

open WordBits

structure Bus where
  mem : Memory
  video : VideoController
  /-- `timer.ticks` -/
  ticks : U64
  disk : Option Disk
  /-- The host's clock in milliseconds at each later reading of it. -/
  clock : ℕ → ℕ

namespace Bus

/-- `Bus::new`, with the readings its host's clock will give. -/
def new (disk : Option Disk) (clock : ℕ → ℕ) : Bus where
  mem := Memory.new
  video := VideoController.new
  ticks := 0
  disk := disk
  clock := clock

def memReadU8 (bus : Bus) (addr : U32) : U8 := bus.mem.readU8 addr

def memWriteU8 (bus : Bus) (addr : U32) (val : U8) : Bus :=
  let (taken, video) := bus.video.updateVram addr val
  if taken then { bus with video := video }
  else { bus with video := video, mem := bus.mem.writeU8 addr val }

def memReadU16 (bus : Bus) (addr : U32) : U16 := bus.mem.readU16 addr

def memWriteU16 (bus : Bus) (addr : U32) (val : U16) : Bus :=
  (bus.memWriteU8 addr (lowByte val)).memWriteU8 (addr + 1) (highByte val)

def ioReadU8 (bus : Bus) (port : U16) : U8 × Bus :=
  match port with
  | 0x00 =>
      (VideoController.readPort (bus.clock 0) port,
        { bus with clock := fun n => bus.clock (n + 1) })
  | 0x60 => (0, bus)
  | 0x64 => (0, bus)
  | _ => (0xFF, bus)

def ioWriteU8 (bus : Bus) (port : U16) (val : U8) : Bus :=
  match port with
  | 0xA0 | 0x20 => bus
  | 0xA8 | 0xAA | 0xAC | 0xAE => { bus with video := bus.video.writePort port val }
  | _ =>
      if 0x70 ≤ port ∧ port ≤ 0x7E then
        { bus with video := { bus.video with dirty := true } }
      else bus

end Bus

end Kita98
