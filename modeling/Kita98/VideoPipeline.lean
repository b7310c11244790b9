import Kita98.BusStores
import Kita98.Render

/-!
# From bus writes to pixels

A history of bus writes decides every pixel: the byte last written at each
offset of each plane, the entry last selected on the palette port, and the
nibble last written to each component of an entry while it was selected.
-/

namespace Kita98

open Exec WordBits

/-! ## Histories -/

inductive VideoOp where
  /-- `mem_write_u8` -/
  | store8 (addr : U32) (val : U8)
  /-- `mem_write_u16` -/
  | store16 (addr : U32) (val : U16)
  /-- `io_write_u8` -/
  | port (p : U16) (val : U8)

namespace VideoOp

def run (bus : Bus) : VideoOp → Bus
  | store8 addr val => bus.memWriteU8 addr val
  | store16 addr val => bus.memWriteU16 addr val
  | port p val => bus.ioWriteU8 p val

/-- The byte that is in an address after a write to it. -/
def storedAt (a : ℕ) : VideoOp → Option U8
  | store8 addr val => if addr.toNat = a then some val else none
  | store16 addr val =>
      if (addr + 1).toNat = a then some (highByte val)
      else if addr.toNat = a then some (lowByte val)
      else none
  | port _ _ => none

/-- The bus after a history, latest write first. -/
def replayed (bus : Bus) : List VideoOp → Bus
  | [] => bus
  | op :: past => op.run (replayed bus past)

def lastByte (a : ℕ) : List VideoOp → U8
  | [] => 0
  | op :: past => (op.storedAt a).getD (lastByte a past)

def selected : List VideoOp → U8
  | [] => 0
  | port p val :: past => if p = 0xA8 then val &&& 0x0F else selected past
  | _ :: past => selected past

/-- The port of a colour component; alpha has none. -/
def componentPort : Fin 4 → Option U16 := ![some 0xAC, some 0xAE, some 0xAA, none]

def doubled (val : U8) : U8 := (val &&& 0x0F) <<< 4 ||| (val &&& 0x0F)

/-- A component of a palette entry after a history. -/
def component (entry : Fin 16) (c : Fin 4) : List VideoOp → U8
  | [] => VideoController.defaultColor entry c
  | port p val :: past =>
      if componentPort c = some p ∧ (selected past).toNat = entry then doubled val
      else component entry c past
  | _ :: past => component entry c past

end VideoOp

open VideoOp

/-! ## Planes -/

theorem window_eq_some_iff (addr : U32) (plane : Fin 4) {offset : ℕ} (hoffset : offset < 0x8000) :
    VideoController.window addr = some (plane, offset) ↔
      addr.toNat = windowBase plane + offset := by
  have hlt := addr.isLt
  unfold VideoController.window
  simp only [BitVec.le_def, BitVec.toNat_sub, BitVec.ofNat_eq_ofNat, BitVec.toNat_ofNat]
  split_ifs <;> fin_cases plane <;> simp [windowBase] <;> omega

theorem updateVram_planes
    (video : VideoController) (addr : U32) (val : U8) (plane : Fin 4) (offset : Fin planeSize) :
    (video.updateVram addr val).2.planes plane offset =
      if addr.toNat = windowBase plane + offset then val else video.planes plane offset := by
  have hsize : planeSize = 32000 := rfl
  have hoffset := offset.isLt
  have hwindow := @window_eq_some_iff addr plane offset (by omega)
  unfold VideoController.updateVram
  simp only [← hwindow]
  cases VideoController.window addr with
  | none => simp
  | some found =>
      rcases found with ⟨plane', offset'⟩
      by_cases hin : offset' < planeSize
      · simp only [dif_pos hin, VideoController.setPlane]
        by_cases hplane : plane = plane'
        · subst hplane
          by_cases heq : offset' = offset
          · subst heq
            simp
          · have hne : offset ≠ ⟨offset', hin⟩ := by
              intro heq'
              exact heq (by rw [heq'])
            simp [heq, hne]
        · have hne : plane' ≠ plane := fun heq => hplane heq.symm
          simp [hplane, hne]
      · have hne : offset' ≠ offset := by omega
        simp [hin, hne]

theorem memWriteU8_planes
    (bus : Bus) (addr : U32) (val : U8) (plane : Fin 4) (offset : Fin planeSize) :
    (bus.memWriteU8 addr val).video.planes plane offset =
      if addr.toNat = windowBase plane + offset then val
      else bus.video.planes plane offset := by
  rw [← updateVram_planes]
  unfold Bus.memWriteU8
  cases hupdate : bus.video.updateVram addr val with
  | mk taken video => cases taken <;> rfl

theorem VideoOp.run_planes
    (bus : Bus) (op : VideoOp) (plane : Fin 4) (offset : Fin planeSize) :
    (op.run bus).video.planes plane offset =
      (op.storedAt (windowBase plane + offset)).getD (bus.video.planes plane offset) := by
  cases op with
  | store8 addr val =>
      rw [run, memWriteU8_planes, storedAt]
      split <;> rfl
  | store16 addr val =>
      simp only [run, Bus.memWriteU16, memWriteU8_planes, storedAt]
      split
      · rfl
      · split <;> rfl
  | port p val => rw [run, ioWriteU8_planes, storedAt, Option.getD_none]

theorem replayed_planes
    (bus : Bus) (past : List VideoOp) (plane : Fin 4) (offset : Fin planeSize)
    (hstart : bus.video.planes plane offset = 0) :
    (replayed bus past).video.planes plane offset =
      lastByte (windowBase plane + offset) past := by
  induction past with
  | nil => exact hstart
  | cons op past ih => rw [replayed, VideoOp.run_planes, ih, lastByte]

/-! ## Palette -/

theorem writePort_selected (video : VideoController) (p : U16) (val : U8) :
    (video.writePort p val).paletteIndex =
      if p = 0xA8 then val &&& 0x0F else video.paletteIndex := by
  unfold VideoController.writePort
  split <;> simp_all [VideoController.writeComponent]

theorem writeComponent_palette
    (video : VideoController) (k : Fin 4) (val : U8) (entry : Fin 16) (c : Fin 4) :
    (video.writeComponent k val).palette entry c =
      if c = k ∧ video.paletteIndex.toNat = entry then doubled val
      else video.palette entry c := by
  by_cases hentry : entry = ⟨video.paletteIndex.toNat, video.paletteIndex_lt⟩
  · subst hentry
    by_cases hc : c = k
    · subst hc
      simp [VideoController.writeComponent, doubled]
    · simp [VideoController.writeComponent, hc]
  · have hne : ¬ video.paletteIndex.toNat = entry.val := by
      intro heq
      apply hentry
      exact Fin.ext heq.symm
    simp [VideoController.writeComponent, hentry, hne]

theorem writePort_palette
    (video : VideoController) (p : U16) (val : U8) (entry : Fin 16) (c : Fin 4) :
    (video.writePort p val).palette entry c =
      if componentPort c = some p ∧ video.paletteIndex.toNat = entry then doubled val
      else video.palette entry c := by
  have hblue : componentPort c = some 0xAA#16 ↔ c = 2 := by
    revert c
    decide
  have hred : componentPort c = some 0xAC#16 ↔ c = 0 := by
    revert c
    decide
  have hgreen : componentPort c = some 0xAE#16 ↔ c = 1 := by
    revert c
    decide
  have hports : ∀ q, componentPort c = some q → q = 0xAA ∨ q = 0xAC ∨ q = 0xAE := by
    intro q hq
    fin_cases c <;> simp [componentPort] at hq <;> simp [← hq]
  unfold VideoController.writePort
  split
  · have hno : componentPort c ≠ some 0xA8 := by
      intro hport
      have hcases := hports 0xA8 hport
      revert hcases
      decide
    rw [if_neg fun h => hno h.1]
  · simp only [writeComponent_palette, hblue]
  · simp only [writeComponent_palette, hred]
  · simp only [writeComponent_palette, hgreen]
  · next hA8 hAA hAC hAE =>
      have hno : componentPort c ≠ some p := by
        intro hport
        rcases hports p hport with heq | heq | heq
        · exact hAA heq
        · exact hAC heq
        · exact hAE heq
      rw [if_neg fun h => hno h.1]

theorem ioWriteU8_video (bus : Bus) (p : U16) (val : U8) :
    (bus.ioWriteU8 p val).video.paletteIndex = (bus.video.writePort p val).paletteIndex ∧
      (bus.ioWriteU8 p val).video.palette = (bus.video.writePort p val).palette := by
  unfold Bus.ioWriteU8
  split
  case h_7 hA0 h20 hA8 hAA hAC hAE =>
    have hother : bus.video.writePort p val = bus.video := by
      unfold VideoController.writePort
      split <;> first | rfl | contradiction
    rw [hother]
    split <;> exact ⟨rfl, rfl⟩
  all_goals exact ⟨rfl, rfl⟩

theorem memWriteU8_palette (bus : Bus) (addr : U32) (val : U8) :
    (bus.memWriteU8 addr val).video.paletteIndex = bus.video.paletteIndex ∧
      (bus.memWriteU8 addr val).video.palette = bus.video.palette := by
  have hupdate : (bus.video.updateVram addr val).2.paletteIndex = bus.video.paletteIndex ∧
      (bus.video.updateVram addr val).2.palette = bus.video.palette := by
    unfold VideoController.updateVram
    split
    · exact ⟨rfl, rfl⟩
    · split <;> exact ⟨rfl, rfl⟩
  unfold Bus.memWriteU8
  cases htaken : bus.video.updateVram addr val with
  | mk taken video =>
      rw [htaken] at hupdate
      cases taken <;> exact hupdate

theorem replayed_selected
    (bus : Bus) (past : List VideoOp) (hstart : bus.video.paletteIndex = 0) :
    (replayed bus past).video.paletteIndex = selected past := by
  induction past with
  | nil => exact hstart
  | cons op past ih =>
      cases op with
      | store8 addr val => exact (memWriteU8_palette _ _ _).1.trans ih
      | store16 addr val =>
          exact (memWriteU8_palette _ _ _).1.trans ((memWriteU8_palette _ _ _).1.trans ih)
      | port p val =>
          have hstep := (ioWriteU8_video (replayed bus past) p val).1
          rw [writePort_selected, ih] at hstep
          rw [replayed, run, hstep, selected]

theorem replayed_palette
    (bus : Bus) (past : List VideoOp) (entry : Fin 16) (c : Fin 4)
    (hindex : bus.video.paletteIndex = 0)
    (hstart : bus.video.palette = VideoController.defaultColor) :
    (replayed bus past).video.palette entry c = component entry c past := by
  induction past with
  | nil => rw [replayed, hstart, component]
  | cons op past ih =>
      cases op with
      | store8 addr val =>
          exact (congrFun (congrFun (memWriteU8_palette _ _ _).2 entry) c).trans ih
      | store16 addr val =>
          have hfirst := memWriteU8_palette (replayed bus past) addr (lowByte val)
          have hsecond := memWriteU8_palette
            ((replayed bus past).memWriteU8 addr (lowByte val)) (addr + 1) (highByte val)
          exact (congrFun (congrFun (hsecond.2.trans hfirst.2) entry) c).trans ih
      | port p val =>
          rw [replayed, run, (ioWriteU8_video _ p val).2, writePort_palette, ih,
            replayed_selected bus past hindex, component]

/-- Alpha is 255 in every entry, whatever is written. -/
theorem component_alpha (entry : Fin 16) (past : List VideoOp) : component entry 3 past = 255 := by
  induction past with
  | nil => rfl
  | cons op past ih =>
      cases op with
      | port p val =>
          have hport : componentPort 3 ≠ some p := by
            intro heq
            cases heq
          rw [component, if_neg fun h => hport h.1, ih]
      | store8 addr val => exact ih
      | store16 addr val => exact ih

/-! ## Pixels -/

/-- The bit of plane `plane` that belongs to the pixel in column `x` of row `y`. -/
def pixelBit (past : List VideoOp) (x : Fin 640) (y : Fin 400) (plane : Fin 4) : Bool :=
  (lastByte (windowBase plane + (80 * y + x / 8)) past).getLsbD (7 - x % 8)

def framePos (x : Fin 640) (y : Fin 400) (c : Fin 4) : Fin (640 * 400 * 4) :=
  ⟨(640 * y + x) * 4 + c, by omega⟩

/-- The controller after a history of bus writes from power-on. -/
def videoAfter (bus : Bus) (past : List VideoOp) : VideoController :=
  (replayed { bus with video := VideoController.new } past).video

theorem pixelColor_videoAfter
    (bus : Bus) (past : List VideoOp) (x : Fin 640) (y : Fin 400)
    (hq : 640 * y.val + x.val < VideoController.pixels) (c : Fin 4) :
    (videoAfter bus past).pixelColor ⟨640 * y + x, hq⟩ c =
      component (VideoController.pixelIndex (pixelBit past x y)) c past := by
  have hdiv : (640 * y.val + x.val) / 8 = 80 * y + x / 8 := by omega
  have hmod : (640 * y.val + x.val) % 8 = x % 8 := by omega
  have hbits : ∀ plane : Fin 4,
      ((videoAfter bus past).planes plane
        ⟨(640 * y.val + x.val) / 8, VideoController.pixel_byte_lt hq⟩).getLsbD
          (7 - (640 * y.val + x.val) % 8) = pixelBit past x y plane := by
    intro plane
    rw [videoAfter, replayed_planes _ _ _ _ rfl, hmod, pixelBit]
    simp only [hdiv]
  unfold VideoController.pixelColor
  simp only [hbits]
  exact replayed_palette _ _ _ _ rfl rfl

theorem video_pipeline
    (bus : Bus) (past : List VideoOp) (frame : Frame (640 * 400 * 4)) :
    (videoAfter bus past).paletteIndex.toNat < 16 ∧
      ∃ picture, (videoAfter bus past).render frame = .ok ((), picture) ∧
        ∀ x y, ∃ index : Fin 16,
          (∀ plane : Fin 4, index.val.testBit plane = pixelBit past x y plane) ∧
            (∀ c, picture (framePos x y c) = component index c past) ∧
              component index 3 past = 255 := by
  refine ⟨(videoAfter bus past).paletteIndex_lt, ?_⟩
  have hsize : VideoController.pixels * 4 ≤ 640 * 400 * 4 := Nat.le_refl _
  rcases (videoAfter bus past).render_paints hsize frame with ⟨picture, hrender, hpainted⟩
  refine ⟨picture, hrender, ?_⟩
  intro x y
  have hpixels : VideoController.pixels = 256000 := rfl
  have hq : 640 * y.val + x.val < VideoController.pixels := by omega
  refine ⟨VideoController.pixelIndex (pixelBit past x y), ?_, ?_, component_alpha _ _⟩
  · exact VideoController.testBit_pixelIndex _
  · intro c
    rw [hpainted ⟨640 * y + x, hq⟩ c (framePos x y c) rfl hq]
    exact pixelColor_videoAfter bus past x y hq c

end Kita98
