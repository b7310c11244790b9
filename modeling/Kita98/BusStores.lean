import Kita98.Bus

/-!
# What the bus stores

A byte written on the bus lands in one of five stores: the plane byte of its
window, or main memory.  The bytes of all five, each under the address that a
write to it uses, are one byte store over the 20-bit addresses, and every bus
write is a write to that store.  Main memory under a window is never written
by the bus.
-/

namespace Kita98

open ByteStore WordBits Memory

/-- The first address of the window of each plane. -/
def windowBase : Fin 4 → ℕ := ![0xA8000, 0xB0000, 0xB8000, 0xE0000]

/-- The plane byte that takes a write to an address. -/
def planeAt (c : Cell) : Option (Fin 4 × Fin planeSize) :=
  match VideoController.window (c.setWidth 32) with
  | none => none
  | some (plane, offset) =>
      if h : offset < planeSize then some (plane, ⟨offset, h⟩) else none

/-- A bus write to the address goes to a plane. -/
def Intercepted (c : Cell) : Prop := (planeAt c).isSome = true

instance (c : Cell) : Decidable (Intercepted c) := by
  unfold Intercepted
  infer_instance

/-! ## The windows by address -/

theorem window_range
    (c : Cell) (lo hi : ℕ) (hlo : lo < 2 ^ 32) (hhi : hi < 2 ^ 32) (plane : Fin 4)
    {rest rest' : Option (Fin 4 × ℕ)} (hrest : rest = rest') :
    (if BitVec.ofNat 32 lo ≤ c.setWidth 32 ∧ c.setWidth 32 ≤ BitVec.ofNat 32 hi then
        some (plane, (c.setWidth 32 - BitVec.ofNat 32 lo).toNat)
      else rest) =
      if lo ≤ c.toNat ∧ c.toNat ≤ hi then some (plane, c.toNat - lo) else rest' := by
  have hlt := c.isLt
  have hc : (c.setWidth 32).toNat = c.toNat := by
    rw [BitVec.toNat_setWidth]
    omega
  have hlo' : (BitVec.ofNat 32 lo).toNat = lo := by
    rw [BitVec.toNat_ofNat, Nat.mod_eq_of_lt hlo]
  have hhi' : (BitVec.ofNat 32 hi).toNat = hi := by
    rw [BitVec.toNat_ofNat, Nat.mod_eq_of_lt hhi]
  by_cases hin : lo ≤ c.toNat ∧ c.toNat ≤ hi
  · have hbase : BitVec.ofNat 32 lo ≤ c.setWidth 32 := by
      rw [BitVec.le_def, hlo', hc]
      exact hin.1
    have htop : c.setWidth 32 ≤ BitVec.ofNat 32 hi := by
      rw [BitVec.le_def, hhi', hc]
      exact hin.2
    rw [if_pos ⟨hbase, htop⟩, if_pos hin, BitVec.toNat_sub_of_le hbase, hlo', hc]
  · have hout :
        ¬ (BitVec.ofNat 32 lo ≤ c.setWidth 32 ∧ c.setWidth 32 ≤ BitVec.ofNat 32 hi) := by
      rw [BitVec.le_def, BitVec.le_def, hlo', hhi', hc]
      exact hin
    rw [if_neg hout, if_neg hin, hrest]

theorem window_cell (c : Cell) :
    VideoController.window (c.setWidth 32) =
      if 0xA8000 ≤ c.toNat ∧ c.toNat ≤ 0xAFFFF then some (0, c.toNat - 0xA8000)
      else if 0xB0000 ≤ c.toNat ∧ c.toNat ≤ 0xB7FFF then some (1, c.toNat - 0xB0000)
      else if 0xB8000 ≤ c.toNat ∧ c.toNat ≤ 0xBFFFF then some (2, c.toNat - 0xB8000)
      else if 0xE0000 ≤ c.toNat ∧ c.toNat ≤ 0xE7FFF then some (3, c.toNat - 0xE0000)
      else none := by
  unfold VideoController.window
  apply window_range c 0xA8000 0xAFFFF (by decide) (by decide)
  apply window_range c 0xB0000 0xB7FFF (by decide) (by decide)
  apply window_range c 0xB8000 0xBFFFF (by decide) (by decide)
  exact window_range c 0xE0000 0xE7FFF (by decide) (by decide) 3 rfl

theorem planeAt_eq_some_iff (c : Cell) (plane : Fin 4) (offset : Fin planeSize) :
    planeAt c = some (plane, offset) ↔ c.toNat = windowBase plane + offset := by
  have hoffset := offset.isLt
  have hsize : planeSize = 32000 := rfl
  unfold planeAt
  rw [window_cell]
  split_ifs <;> fin_cases plane <;> simp [windowBase, Fin.ext_iff] <;> omega

/-- The 32000 bytes at the start of each window, and no others. -/
theorem intercepted_iff (c : Cell) :
    Intercepted c ↔
      0xA8000 ≤ c.toNat ∧ c.toNat ≤ 0xAFCFF ∨ 0xB0000 ≤ c.toNat ∧ c.toNat ≤ 0xB7CFF ∨
        0xB8000 ≤ c.toNat ∧ c.toNat ≤ 0xBFCFF ∨ 0xE0000 ≤ c.toNat ∧ c.toNat ≤ 0xE7CFF := by
  have hsize : planeSize = 32000 := rfl
  unfold Intercepted planeAt
  rw [window_cell]
  split_ifs <;> simp <;> omega

theorem planeAt_inj
    {c c' : Cell} {plane : Fin 4} {offset : Fin planeSize}
    (hc : planeAt c = some (plane, offset)) (hc' : planeAt c' = some (plane, offset)) :
    c = c' := by
  rw [planeAt_eq_some_iff] at hc hc'
  exact BitVec.eq_of_toNat_eq (hc.trans hc'.symm)

theorem exists_planeAt (plane : Fin 4) (offset : Fin planeSize) :
    ∃ c : Cell, planeAt c = some (plane, offset) := by
  refine ⟨BitVec.ofNat 20 (windowBase plane + offset), ?_⟩
  have hoffset := offset.isLt
  have hsize : planeSize = 32000 := rfl
  have hsmall : windowBase plane + offset < 2 ^ 20 := by
    fin_cases plane <;> simp [windowBase] <;> omega
  rw [planeAt_eq_some_iff, BitVec.toNat_ofNat, Nat.mod_eq_of_lt hsmall]

/-! ## One store -/

namespace Bus

/-- The byte that bus writes to an address replace. -/
def visible (bus : Bus) (c : Cell) : U8 :=
  match planeAt c with
  | some (plane, offset) => bus.video.planes plane offset
  | none => bus.mem.data c

theorem visible_of_plane
    {bus : Bus} {c : Cell} {plane : Fin 4} {offset : Fin planeSize}
    (hc : planeAt c = some (plane, offset)) :
    bus.visible c = bus.video.planes plane offset := by
  rw [visible, hc]

theorem visible_of_not_intercepted
    {bus : Bus} {c : Cell} (hc : ¬ Intercepted c) : bus.visible c = bus.mem.data c := by
  have hnone : planeAt c = none := Option.not_isSome_iff_eq_none.mp hc
  rw [visible, hnone]

theorem memWriteU8_of_plane
    {bus : Bus} {c : Cell} {plane : Fin 4} {offset : Fin planeSize} (v : U8)
    (hc : planeAt c = some (plane, offset)) :
    bus.memWriteU8 (c.setWidth 32) v =
      { bus with video := bus.video.setPlane plane offset v } := by
  unfold planeAt at hc
  unfold memWriteU8 VideoController.updateVram
  cases hwindow : VideoController.window (c.setWidth 32) with
  | none =>
      rw [hwindow] at hc
      cases hc
  | some target =>
      obtain ⟨plane', offset'⟩ := target
      rw [hwindow] at hc
      by_cases hsmall : offset' < planeSize
      · simp only [hsmall, dif_pos, Option.some.injEq, Prod.mk.injEq] at hc ⊢
        obtain ⟨rfl, rfl⟩ := hc
        rfl
      · simp only [hsmall, dif_neg, not_false_eq_true] at hc
        cases hc

theorem memWriteU8_of_not_intercepted
    {bus : Bus} {c : Cell} (v : U8) (hc : ¬ Intercepted c) :
    bus.memWriteU8 (c.setWidth 32) v = { bus with mem := ⟨write bus.mem.data c v⟩ } := by
  have hcell := cell_setWidth c
  have hnone : planeAt c = none := Option.not_isSome_iff_eq_none.mp hc
  unfold planeAt at hnone
  unfold memWriteU8 VideoController.updateVram
  cases hwindow : VideoController.window (c.setWidth 32) with
  | none => simp [writeU8, hcell]
  | some target =>
      obtain ⟨plane', offset'⟩ := target
      rw [hwindow] at hnone
      by_cases hsmall : offset' < planeSize
      · simp only [hsmall, dif_pos] at hnone
        cases hnone
      · simp [hsmall, writeU8, hcell]

theorem visible_memWriteU8 (bus : Bus) (c : Cell) (v : U8) :
    (bus.memWriteU8 (c.setWidth 32) v).visible = write bus.visible c v := by
  funext c'
  cases hplane : planeAt c with
  | some target =>
      obtain ⟨plane, offset⟩ := target
      rw [memWriteU8_of_plane v hplane]
      by_cases heq : c' = c
      · subst heq
        rw [write_self, visible_of_plane hplane]
        simp [VideoController.setPlane]
      · rw [write_of_ne _ _ heq]
        unfold visible
        cases hplane' : planeAt c' with
        | none => rfl
        | some target' =>
            obtain ⟨plane', offset'⟩ := target'
            by_cases hsame : plane' = plane
            · subst hsame
              have hother : offset' ≠ offset := by
                rintro rfl
                exact heq (planeAt_inj hplane' hplane)
              simp [VideoController.setPlane, Function.update_of_ne hother]
            · simp [VideoController.setPlane, Function.update_of_ne hsame]
  | none =>
      have hmain : ¬ Intercepted c := by
        unfold Intercepted
        simp [hplane]
      rw [memWriteU8_of_not_intercepted v hmain]
      by_cases heq : c' = c
      · subst heq
        rw [write_self, visible_of_not_intercepted hmain]
        exact write_self _ _ _
      · rw [write_of_ne _ _ heq]
        unfold visible
        cases planeAt c' with
        | none => exact write_of_ne _ _ heq
        | some target => rfl

theorem memWriteU8_data_of_intercepted
    {bus : Bus} {c' : Cell} (c : Cell) (v : U8) (hc' : Intercepted c') :
    (bus.memWriteU8 (c.setWidth 32) v).mem.data c' = bus.mem.data c' := by
  by_cases hc : Intercepted c
  · obtain ⟨⟨plane, offset⟩, hplane⟩ := Option.isSome_iff_exists.mp hc
    rw [memWriteU8_of_plane v hplane]
  · have hne : c' ≠ c := by
      rintro rfl
      exact hc hc'
    rw [memWriteU8_of_not_intercepted v hc]
    exact write_of_ne _ _ hne

/-! ## Bytes at consecutive addresses -/

/-- `mem_write_u8` for each byte of a list. -/
def storeBytes (bus : Bus) : Cell → List U8 → Bus
  | _, [] => bus
  | c, byte :: bytes => storeBytes (bus.memWriteU8 (c.setWidth 32) byte) (c + 1) bytes

theorem visible_storeBytes (bus : Bus) (c : Cell) (bytes : List U8) :
    (bus.storeBytes c bytes).visible = load bus.visible c bytes := by
  induction bytes generalizing bus c with
  | nil => rfl
  | cons byte bytes ih => rw [storeBytes, ih, visible_memWriteU8, load]

theorem storeBytes_data_of_intercepted
    (bus : Bus) (c : Cell) (bytes : List U8) {c' : Cell} (hc' : Intercepted c') :
    (bus.storeBytes c bytes).mem.data c' = bus.mem.data c' := by
  induction bytes generalizing bus c with
  | nil => rfl
  | cons byte bytes ih => rw [storeBytes, ih, memWriteU8_data_of_intercepted c byte hc']

/-- The second byte of a word at the last address wraps to the first one. -/
theorem memWriteU16_eq_storeBytes (bus : Bus) (c : Cell) (v : U16) :
    bus.memWriteU16 (c.setWidth 32) v = bus.storeBytes c [lowByte v, highByte v] := by
  have hsecond : ∀ bus' : Bus, bus'.memWriteU8 (c.setWidth 32 + 1) (highByte v) =
      bus'.memWriteU8 ((c + 1).setWidth 32) (highByte v) := by
    intro bus'
    by_cases hlast : c = 0xFFFFF
    · subst hlast
      rfl
    · have hnext : (c + 1).setWidth 32 = c.setWidth 32 + 1 := by
        bv_omega
      rw [hnext]
  rw [memWriteU16, hsecond]
  rfl

end Bus

/-! ## OUT reaches neither main memory nor a plane -/

theorem ioWriteU8_mem (bus : Bus) (port : U16) (val : U8) :
    (bus.ioWriteU8 port val).mem = bus.mem := by
  unfold Bus.ioWriteU8
  split
  all_goals first
    | rfl
    | (split <;> rfl)

theorem ioWriteU8_planes (bus : Bus) (port : U16) (val : U8) :
    (bus.ioWriteU8 port val).video.planes = bus.video.planes := by
  have hport : (bus.video.writePort port val).planes = bus.video.planes := by
    unfold VideoController.writePort
    split <;> rfl
  unfold Bus.ioWriteU8
  split
  all_goals first
    | rfl
    | exact hport
    | (split <;> rfl)

theorem visible_ioWriteU8 (bus : Bus) (port : U16) (val : U8) :
    (bus.ioWriteU8 port val).visible = bus.visible := by
  funext c
  unfold Bus.visible
  rw [ioWriteU8_mem, ioWriteU8_planes]

/-! ## Comparing two buses -/

/-- Two buses with the same main memory and the same planes. -/
structure SameStores (bus bus' : Bus) : Prop where
  mem : bus.mem = bus'.mem
  planes : bus.video.planes = bus'.video.planes

theorem sameStores_iff (bus bus' : Bus) :
    SameStores bus bus' ↔
      ∀ c, bus.mem.data c = bus'.mem.data c ∧ bus.visible c = bus'.visible c := by
  constructor
  · rintro ⟨hmem, hplanes⟩ c
    constructor
    · rw [hmem]
    · unfold Bus.visible
      rw [hmem, hplanes]
  · intro hcells
    constructor
    · apply Memory.ext
      funext c
      exact (hcells c).1
    · funext plane offset
      obtain ⟨c, hc⟩ := exists_planeAt plane offset
      rw [← Bus.visible_of_plane hc, ← Bus.visible_of_plane hc]
      exact (hcells c).2

end Kita98
