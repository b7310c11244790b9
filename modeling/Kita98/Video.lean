import Kita98.Memory

/-!
# Video controller

Four bit planes of 32000 bytes, a palette of sixteen RGBA entries and the
console that the text services print to.  A plane byte is addressed through
one of four 32 KiB windows of the physical address space.
-/

namespace Kita98

def planeSize : ℕ := 640 * 400 / 8

/-- There is a first plane. -/
instance planes_ne_zero : NeZero 4 := ⟨by decide⟩

structure VideoController where
  planes : Fin 4 → Fin planeSize → U8
  palette : Fin 16 → Fin 4 → U8
  paletteIndex : U8
  paletteIndex_lt : paletteIndex.toNat < 16
  dirty : Bool
  /-- What `write_char` has printed on the host's standard output. -/
  console : List Char

namespace VideoController

/-- The 16-colour default entry: intensity is bit 3 of the index. -/
def defaultColor (i : Fin 16) : Fin 4 → U8 :=
  let channel (bit : ℕ) : U8 :=
    if i.val.testBit 3 then (if i.val.testBit bit then 255 else 85)
    else (if i.val.testBit bit then 170 else 0)
  ![channel 1, channel 2, channel 0, 255]

def new : VideoController where
  planes := fun _ _ => 0
  palette := defaultColor
  paletteIndex := 0
  paletteIndex_lt := by decide
  dirty := true
  console := []

def hexDigit (v : U8) : Char :=
  if v.toNat < 10 then Char.ofNat (48 + v.toNat) else Char.ofNat (55 + v.toNat)

def charText (ch : U8) : List Char :=
  if ch = 0x0A ∨ ch = 0x0D then ['\n']
  else if 0x20 ≤ ch ∧ ch ≤ 0x7E then [Char.ofNat ch.toNat]
  else ['[', hexDigit (ch >>> 4), hexDigit (ch &&& 0x0F), ']']

def writeChar (video : VideoController) (ch : U8) : VideoController :=
  { video with console := video.console ++ charText ch }

def handleInt10 (video : VideoController) (ah al : U8) : VideoController :=
  if ah = 0x0E ∨ ah = 0x09 ∨ ah = 0x0A then video.writeChar al else video

/-- Store a colour component in the selected palette entry, its low nibble
duplicated. -/
def writeComponent (video : VideoController) (component : Fin 4) (val : U8) :
    VideoController :=
  let index : Fin 16 := ⟨video.paletteIndex.toNat, video.paletteIndex_lt⟩
  { video with
    palette := Function.update video.palette index
      (Function.update (video.palette index) component
        ((val &&& 0x0F) <<< 4 ||| (val &&& 0x0F)))
    dirty := true }

theorem nibble_lt (val : U8) : (val &&& 0x0F).toNat < 16 := by
  have hle : (val &&& 0x0F).toNat ≤ (0x0F : U8).toNat := by
    rw [BitVec.toNat_and]
    exact Nat.and_le_right
  exact Nat.lt_of_le_of_lt hle (by decide)

def writePort (video : VideoController) (port : U16) (val : U8) : VideoController :=
  match port with
  | 0xA8 =>
      { video with
        paletteIndex := val &&& 0x0F
        paletteIndex_lt := nibble_lt val }
  | 0xAA => video.writeComponent 2 val
  | 0xAC => video.writeComponent 0 val
  | 0xAE => video.writeComponent 1 val
  | _ => video

/-- The status port, read at `millis` milliseconds of the host's clock. -/
def readPort (millis : ℕ) (port : U16) : U8 :=
  match port with
  | 0x00 => if millis % 16 < 8 then 0x20 else 0x00
  | _ => 0xFF

/-- The plane whose window holds a physical address, with the offset in it. -/
def window (addr : U32) : Option (Fin 4 × ℕ) :=
  if 0xA8000 ≤ addr ∧ addr ≤ 0xAFFFF then some (0, (addr - 0xA8000).toNat)
  else if 0xB0000 ≤ addr ∧ addr ≤ 0xB7FFF then some (1, (addr - 0xB0000).toNat)
  else if 0xB8000 ≤ addr ∧ addr ≤ 0xBFFFF then some (2, (addr - 0xB8000).toNat)
  else if 0xE0000 ≤ addr ∧ addr ≤ 0xE7FFF then some (3, (addr - 0xE0000).toNat)
  else none

def setPlane (video : VideoController) (plane : Fin 4) (offset : Fin planeSize)
    (val : U8) : VideoController :=
  { video with
    planes := Function.update video.planes plane
      (Function.update (video.planes plane) offset val)
    dirty := true }

/-- The Boolean tells whether a plane took the write. -/
def updateVram (video : VideoController) (addr : U32) (val : U8) :
    Bool × VideoController :=
  match window addr with
  | none => (false, video)
  | some (plane, offset) =>
      if h : offset < planeSize then (true, video.setPlane plane ⟨offset, h⟩ val)
      else (false, video)

end VideoController

end Kita98
