import Kita98.Interpreter

/-!
# Rendering the planes

The picture is 640 pixels wide and 400 high.  Eight neighbouring pixels take
their bits from one byte of each plane, and the four bits of a pixel select a
palette entry, which goes into the frame as four bytes.  The frame is filled
in the order of its bytes.
-/

namespace Kita98

open Exec

/-- The host's frame buffer of `n` bytes. -/
abbrev Frame (n : ℕ) := Fin n → U8

namespace VideoController

variable {n : ℕ}

/-- `planes[plane][offset]` -/
def planeByte (video : VideoController) (plane : Fin 4) (offset : ℕ) :
    Exec Fault (Frame n) U8 :=
  if h : offset < planeSize then pure (video.planes plane ⟨offset, h⟩) else Exec.fail .bounds

/-- The palette index of a pixel from its byte of each plane. -/
def colorIndex (b0 b1 b2 b3 : U8) (bit : ℕ) : ℕ :=
  let mask := (0x80 : U8) >>> bit
  (if b0 &&& mask ≠ 0 then 1 else 0) ||| (if b1 &&& mask ≠ 0 then 2 else 0) |||
    (if b2 &&& mask ≠ 0 then 4 else 0) ||| (if b3 &&& mask ≠ 0 then 8 else 0)

/-- `palette[index]` -/
def paletteEntry (video : VideoController) (index : ℕ) : Exec Fault (Frame n) (Fin 4 → U8) :=
  if h : index < 16 then pure (video.palette ⟨index, h⟩) else Exec.fail .bounds

/-- `frame[start..start + 4].copy_from_slice(&color)` -/
def copyColor (start : ℕ) (color : Fin 4 → U8) : Exec Fault (Frame n) Unit :=
  if start + 4 ≤ n then
    Exec.update fun frame i =>
      if h : start ≤ i.val ∧ i.val < start + 4 then color ⟨i.val - start, by omega⟩ else frame i
  else Exec.fail .bounds

def renderByte (video : VideoController) (y xByte : ℕ) : Exec Fault (Frame n) Unit := do
  let offset := y * 80 + xByte
  let b0 ← video.planeByte 0 offset
  let b1 ← video.planeByte 1 offset
  let b2 ← video.planeByte 2 offset
  let b3 ← video.planeByte 3 offset
  Exec.times (fun bit => do
    let color ← video.paletteEntry (colorIndex b0 b1 b2 b3 bit)
    let x := xByte * 8 + bit
    copyColor ((y * 640 + x) * 4) color) 8

def renderRow (video : VideoController) (y : ℕ) : Exec Fault (Frame n) Unit :=
  Exec.times (video.renderByte y) 80

def render (video : VideoController) : Exec Fault (Frame n) Unit :=
  Exec.times video.renderRow 400

/-! ## The colour of a pixel -/

theorem and_pixelMask_ne_zero (b : U8) {bit : ℕ} (hbit : bit < 8) :
    b &&& (0x80 : U8) >>> bit ≠ 0 ↔ b.getLsbD (7 - bit) = true := by
  have hmask : (0x80 : U8) >>> bit = BitVec.twoPow 8 (7 - bit) := by
    revert bit
    decide
  have hone : BitVec.twoPow 8 (7 - bit) ≠ 0#8 := by
    revert bit
    decide
  rw [hmask, BitVec.and_twoPow]
  cases b.getLsbD (7 - bit) <;> simp [hone]

/-- The palette index whose bits are those of the pixel in the planes. -/
def pixelIndex (bits : Fin 4 → Bool) : Fin 16 :=
  ⟨(bits 0).toNat + 2 * (bits 1).toNat + 4 * (bits 2).toNat + 8 * (bits 3).toNat, by
    have h0 := (bits 0).toNat_lt
    have h1 := (bits 1).toNat_lt
    have h2 := (bits 2).toNat_lt
    have h3 := (bits 3).toNat_lt
    omega⟩

theorem testBit_pixelIndex (bits : Fin 4 → Bool) (plane : Fin 4) :
    (pixelIndex bits).val.testBit plane = bits plane := by
  have htable : ∀ a b c d : Bool, ∀ plane : Fin 4,
      (a.toNat + 2 * b.toNat + 4 * c.toNat + 8 * d.toNat).testBit plane =
        (![a, b, c, d] : Fin 4 → Bool) plane := by
    decide
  have hbits : bits = ![bits 0, bits 1, bits 2, bits 3] := by
    funext p
    fin_cases p <;> rfl
  rw [pixelIndex, htable, ← hbits]

theorem colorIndex_eq (b : Fin 4 → U8) {bit : ℕ} (hbit : bit < 8) :
    colorIndex (b 0) (b 1) (b 2) (b 3) bit =
      pixelIndex fun plane => (b plane).getLsbD (7 - bit) := by
  have htable : ∀ a b c d : Bool,
      (if a = true then 1 else 0) ||| (if b = true then 2 else 0) |||
          (if c = true then 4 else 0) ||| (if d = true then 8 else 0) =
        a.toNat + 2 * b.toNat + 4 * c.toNat + 8 * d.toNat := by
    decide
  unfold colorIndex pixelIndex
  simp only [and_pixelMask_ne_zero _ hbit]
  exact htable _ _ _ _

def pixels : ℕ := 640 * 400

theorem pixel_byte_lt {q : ℕ} (hq : q < pixels) : q / 8 < planeSize := by
  have hpixels : pixels = 256000 := rfl
  have hsize : planeSize = 32000 := rfl
  omega

/-- Colour of the pixel number `q`, counted row by row. -/
def pixelColor (video : VideoController) (q : Fin pixels) : Fin 4 → U8 :=
  video.palette (pixelIndex fun plane =>
    (video.planes plane ⟨q / 8, pixel_byte_lt q.isLt⟩).getLsbD (7 - q % 8))

/-- The first `q` pixels of the frame show the planes. -/
def Painted (video : VideoController) (q : ℕ) (frame : Frame n) : Prop :=
  ∀ (p : Fin pixels) (c : Fin 4) (i : Fin n), i.val = p * 4 + c → p < q →
    frame i = video.pixelColor p c

theorem copyColor_paints
    {video : VideoController} {frame : Frame n} {q : Fin pixels} (hn : pixels * 4 ≤ n)
    (hpainted : Painted video q frame) :
    ∃ next, copyColor (q * 4) (video.pixelColor q) frame = .ok ((), next) ∧
      Painted video (q + 1) next := by
  have hq := q.isLt
  have hfits : q.val * 4 + 4 ≤ n := by omega
  unfold copyColor
  rw [if_pos hfits]
  refine ⟨_, rfl, ?_⟩
  intro p c i hi hp
  have hc := c.isLt
  by_cases hlast : p = q
  · subst hlast
    have hin : p.val * 4 ≤ i.val ∧ i.val < p.val * 4 + 4 := by omega
    have hoff : (⟨i.val - p.val * 4, by omega⟩ : Fin 4) = c := by
      apply Fin.ext
      simp only
      omega
    simp only [dif_pos hin, hoff]
  · have hne : p.val ≠ q.val := fun heq => hlast (Fin.ext heq)
    have hout : ¬ (q.val * 4 ≤ i.val ∧ i.val < q.val * 4 + 4) := by omega
    simp only [dif_neg hout]
    exact hpainted p c i hi (by omega)

theorem planeByte_ok {video : VideoController} {plane : Fin 4} {offset : ℕ}
    (h : offset < planeSize) (frame : Frame n) :
    video.planeByte plane offset frame = .ok (video.planes plane ⟨offset, h⟩, frame) := by
  unfold planeByte
  rw [dif_pos h]
  rfl

theorem paletteEntry_ok {video : VideoController} {k : ℕ} {index : Fin 16} (hk : k = index)
    (frame : Frame n) : video.paletteEntry k frame = .ok (video.palette index, frame) := by
  subst hk
  unfold paletteEntry
  rw [dif_pos index.isLt]
  rfl

/-! ## The loops -/

section Loops

variable {video : VideoController} {frame : Frame n}

theorem renderByte_paints
    {y xByte : ℕ} (hn : pixels * 4 ≤ n) (hy : y < 400) (hx : xByte < 80)
    (hpainted : Painted video (y * 640 + xByte * 8) frame) :
    ∃ next, video.renderByte y xByte frame = .ok ((), next) ∧
      Painted video (y * 640 + (xByte + 1) * 8) next := by
  have hpixels : pixels = 256000 := rfl
  have hoffset : y * 80 + xByte < planeSize := by
    have hsize : planeSize = 32000 := rfl
    omega
  unfold renderByte
  rw [bind_ok (planeByte_ok hoffset frame), bind_ok (planeByte_ok hoffset frame),
    bind_ok (planeByte_ok hoffset frame), bind_ok (planeByte_ok hoffset frame)]
  have hlast : y * 640 + (xByte + 1) * 8 = y * 640 + xByte * 8 + 8 := by omega
  have hfirst : Painted video (y * 640 + xByte * 8 + 0) frame := by
    rwa [Nat.add_zero]
  rw [hlast]
  apply times_ok (I := fun bit => Painted video (y * 640 + xByte * 8 + bit)) hfirst
  intro bit hbit frame hpainted
  have hq : y * 640 + xByte * 8 + bit < pixels := by omega
  have hcolor : video.pixelColor ⟨y * 640 + xByte * 8 + bit, hq⟩ =
      video.palette (pixelIndex fun plane =>
        (video.planes plane ⟨y * 80 + xByte, hoffset⟩).getLsbD (7 - bit)) := by
    have hdiv : (y * 640 + xByte * 8 + bit) / 8 = y * 80 + xByte := by omega
    have hmod : (y * 640 + xByte * 8 + bit) % 8 = bit := by omega
    simp only [pixelColor, hdiv, hmod]
  have hindex := colorIndex_eq
    (fun plane => video.planes plane ⟨y * 80 + xByte, hoffset⟩) hbit
  have hentry := @paletteEntry_ok n video _ _ hindex frame
  rw [← hcolor] at hentry
  rcases copyColor_paints (q := ⟨_, hq⟩) hn hpainted with ⟨next, hcopy, hnext⟩
  refine ⟨next, ?_, ?_⟩
  · rw [bind_ok hentry, ← Nat.add_assoc]
    exact hcopy
  · rw [← Nat.add_assoc]
    exact hnext

theorem renderRow_paints
    {y : ℕ} (hn : pixels * 4 ≤ n) (hy : y < 400)
    (hpainted : Painted video (y * 640) frame) :
    ∃ next, video.renderRow y frame = .ok ((), next) ∧
      Painted video ((y + 1) * 640) next := by
  have hrow : (y + 1) * 640 = y * 640 + 80 * 8 := by omega
  have hfirst : Painted video (y * 640 + 0 * 8) frame := by
    rwa [Nat.zero_mul, Nat.add_zero]
  rw [hrow]
  apply times_ok (I := fun xByte => Painted video (y * 640 + xByte * 8)) hfirst
  intro xByte hx frame hpainted
  exact renderByte_paints hn hy hx hpainted

/-- Rendering into a large enough frame never leaves a buffer, and every pixel
gets its colour. -/
theorem render_paints (video : VideoController) (hn : pixels * 4 ≤ n) (frame : Frame n) :
    ∃ next, video.render frame = .ok ((), next) ∧ Painted video pixels next := by
  apply times_ok (I := fun y => Painted video (y * 640))
  · intro p c i _ hp
    omega
  · intro y hy frame hpainted
    exact renderRow_paints hn hy hpainted

end Loops

end VideoController

end Kita98
