import Kita98.BusStores
import Kita98.RegsImage

/-!
# Running the body of a block

The emitted code of a body and the interpretation of the same instructions,
each summarised by what it leaves in every word, flag and byte.  The code
stores the immediate of register `i` in word `i` of the image, where the
register itself is word `2 * i`, and it stores its IP in the word of SI.
-/

namespace Kita98

open WordBits Memory

/-! ## Summaries of a body -/

namespace BodyInstr

/-- The last immediate moved to a register that `hits` picks. -/
def assign (hits : Reg16 → Bool) (v : U16) : BodyInstr → U16
  | movReg r imm => if hits r then imm else v
  | _ => v

def ax (v : U16) : BodyInstr → U16
  | movReg r imm => if r = .AX then imm else v
  | addAx imm => v + imm
  | _ => v

def stored (ds : U16) (c : Cell) (v : U8) : BodyInstr → U8
  | movMem disp imm => if c = cell (phys ds (disp.setWidth 32)) then imm else v
  | _ => v

/-- AX, and the operands of the last addition. -/
def added (state : U16 × Option (U16 × U16)) (instr : BodyInstr) :
    U16 × Option (U16 × U16) :=
  match instr with
  | addAx imm => (state.1 + imm, some (state.1, imm))
  | instr => (instr.ax state.1, state.2)

def bytes : BodyInstr → ℕ
  | movReg _ _ => 3
  | movMem _ _ => 5
  | addAx _ => 3
  | out _ => 2

end BodyInstr

def assigned (hits : Reg16 → Bool) (body : List BodyInstr) (v : U16) : U16 :=
  body.foldl (BodyInstr.assign hits) v

def storedAt (ds : U16) (c : Cell) (body : List BodyInstr) (v : U8) : U8 :=
  body.foldl (BodyInstr.stored ds c) v

/-- The operands of the last `ADD` of a body that starts with `ax` in AX. -/
def lastAdd (body : List BodyInstr) (ax : U16) : Option (U16 × U16) :=
  (body.foldl BodyInstr.added (ax, none)).2

def bodyBytes (body : List BodyInstr) : ℕ := (body.map BodyInstr.bytes).sum

def addFlags (flags : U32) (a b : U16) : U32 :=
  ({ Regs.new with flags := flags }.updateAdd16 a b (a + b)).flags

theorem updateAdd16_flags (regs : Regs) (a b : U16) :
    (regs.updateAdd16 a b (a + b)).flags = addFlags regs.flags a b := by
  simp only [addFlags, Regs.updateAdd16, Regs.updateFlagsU16, Regs.setOf, Regs.setAf,
    Regs.setCf, Regs.setPf, Regs.setSf, Regs.setZf, Regs.setFlag]

theorem addFlags_addFlags (flags : U32) (a b a' b' : U16) :
    addFlags (addFlags flags a b) a' b' = addFlags flags a' b' := by
  unfold addFlags Regs.updateAdd16 Regs.updateFlagsU16 Regs.setOf Regs.setAf Regs.setCf
    Regs.setPf Regs.setSf Regs.setZf Regs.setFlag
  ext i hi
  simp only [getElem_setMask _ _ _ hi]
  split_ifs <;> rfl

def flagsAfter (flags : U32) : Option (U16 × U16) → U32
  | none => flags
  | some (a, b) => addFlags flags a b

theorem flagsAfter_flagsAfter (flags : U32) (first second : Option (U16 × U16)) :
    flagsAfter (flagsAfter flags first) second = flagsAfter flags (second.or first) := by
  cases second with
  | none => rfl
  | some operands =>
      cases first with
      | none => rfl
      | some operands' => exact addFlags_addFlags _ _ _ _ _

/-- The addition that an instruction is, in front of `ax` in AX. -/
def BodyInstr.addition (ax : U16) : BodyInstr → Option (U16 × U16)
  | addAx imm => some (ax, imm)
  | _ => none

theorem added_eq (state : U16 × Option (U16 × U16)) (instr : BodyInstr) :
    instr.added state = (instr.ax state.1, (instr.addition state.1).or state.2) := by
  cases instr <;> rfl

theorem foldl_added (body : List BodyInstr) (ax : U16) (acc : Option (U16 × U16)) :
    (body.foldl BodyInstr.added (ax, acc)).2 = (lastAdd body ax).or acc := by
  induction body generalizing ax acc with
  | nil => rfl
  | cons instr body ih =>
      unfold lastAdd
      rw [List.foldl_cons, List.foldl_cons, added_eq, added_eq, ih, ih, Option.or_assoc,
        Option.or_none]

theorem lastAdd_cons (instr : BodyInstr) (body : List BodyInstr) (ax : U16) :
    lastAdd (instr :: body) ax = (lastAdd body (instr.ax ax)).or (instr.addition ax) := by
  rw [lastAdd, List.foldl_cons, added_eq, foldl_added, Option.or_none]

/-! ## The emitted code -/

/-- Bus and registers while emitted code runs, with the address that the
translator had reached. -/
structure NativeState where
  currIp : U32
  bus : Bus
  regs : Regs

def BodyInstr.native (ds : U16) (s : NativeState) (instr : BodyInstr) : NativeState :=
  let currIp := s.currIp + instr.size
  let bus :=
    match instr with
    | movMem disp imm => s.bus.memWriteU8 (phys ds (disp.setWidth 32)) imm
    | out port => s.bus.ioWriteU8 (port.setWidth 16) (lowByte (s.regs.word 0))
    | _ => s.bus
  let regs :=
    match instr with
    | movReg r imm => s.regs.storeWord (2 * r.index) imm
    | addAx imm => s.regs.storeWord (2 * 0) (s.regs.word 0 + imm)
    | _ => s.regs
  ⟨currIp, bus, regs.storeWord (2 * 12) (currIp.setWidth 16)⟩

def nativeBody (ds : U16) (body : List BodyInstr) (s : NativeState) : NativeState :=
  body.foldl (BodyInstr.native ds) s

theorem runCode_instr (ds : U16) (instr : BodyInstr) (s : NativeState) (ops : List IrOp) :
    runCode
        ((instr.op ds :: .syncIp ((s.currIp + instr.size).setWidth 16) :: ops).flatMap emit)
        s.bus s.regs =
      runCode (ops.flatMap emit) (instr.native ds s).bus (instr.native ds s).regs := by
  cases instr with
  | movReg r imm =>
      have hcode : emit (.movRegImm r imm) = [.movWord (2 * r.index) imm] := by
        rw [Nat.mul_comm]
        rfl
      rw [BodyInstr.op, List.flatMap_cons, hcode]
      rfl
  | movMem disp imm => rfl
  | addAx imm => rfl
  | out port => rfl

theorem runCode_assemble
    {ds : U16} {ending : BlockEnd} {body : List BodyInstr} {s : NativeState}
    {ops : List IrOp} (hops : assemble ds ending s.currIp body = .ok ops) :
    ∃ endOps, ending.ops (nativeBody ds body s).currIp = .ok endOps ∧
      runCode (compileBlock ops).code s.bus s.regs =
        runCode (endOps.flatMap emit) (nativeBody ds body s).bus (nativeBody ds body s).regs := by
  induction body generalizing s ops with
  | nil => exact ⟨ops, hops, rfl⟩
  | cons instr body ih =>
      unfold assemble at hops
      cases hrest : assemble ds ending (s.currIp + instr.size) body with
      | error e =>
          rw [hrest] at hops
          cases hops
      | ok rest =>
          rw [hrest] at hops
          cases hops
          rcases @ih (instr.native ds s) rest hrest with ⟨endOps, hend, hrun⟩
          refine ⟨endOps, hend, ?_⟩
          rw [compileBlock, runCode_instr]
          exact hrun

/-! ## What the emitted code of a body leaves -/

namespace BodyInstr

variable (ds : U16) (s : NativeState) (instr : BodyInstr)

/-- The immediate of register `i` goes to word `i`. -/
theorem native_word {w : ℕ} (hw : w < 16) (hax : w ≠ 0) (hsi : w ≠ 12) :
    (instr.native ds s).regs.word w =
      instr.assign (fun r => r.index = w) (s.regs.word w) := by
  cases instr with
  | movReg r imm =>
      have hindex : r.index < 16 := by
        cases r <;> decide
      simp only [native, assign]
      rw [Regs.word_storeWord _ _ (by decide) hw, if_neg hsi,
        Regs.word_storeWord _ _ hindex hw]
      by_cases heq : r.index = w
      · simp [heq]
      · simp [heq, Ne.symm heq]
  | addAx imm =>
      simp only [native, assign]
      rw [Regs.word_storeWord _ _ (by decide) hw, if_neg hsi,
        Regs.word_storeWord _ _ (by decide) hw, if_neg hax]
  | movMem disp imm =>
      simp only [native, assign]
      rw [Regs.word_storeWord _ _ (by decide) hw, if_neg hsi]
  | out port =>
      simp only [native, assign]
      rw [Regs.word_storeWord _ _ (by decide) hw, if_neg hsi]

theorem native_ax : (instr.native ds s).regs.word 0 = instr.ax (s.regs.word 0) := by
  cases instr with
  | movReg r imm =>
      have hindex : r.index < 16 := by
        cases r <;> decide
      simp only [native, ax]
      rw [Regs.word_storeWord _ _ (by decide) (by decide), if_neg (by decide),
        Regs.word_storeWord _ _ hindex (by decide)]
      cases r <;> rfl
  | addAx imm =>
      simp only [native, ax]
      rw [Regs.word_storeWord _ _ (by decide) (by decide), if_neg (by decide),
        Regs.word_storeWord _ _ (by decide) (by decide), if_pos rfl]
  | movMem disp imm =>
      simp only [native, ax]
      rw [Regs.word_storeWord _ _ (by decide) (by decide), if_neg (by decide)]
  | out port =>
      simp only [native, ax]
      rw [Regs.word_storeWord _ _ (by decide) (by decide), if_neg (by decide)]

/-- Nothing but the general registers is ever stored to. -/
theorem native_context :
    (instr.native ds s).regs.seg = s.regs.seg ∧ (instr.native ds s).regs.ip = s.regs.ip ∧
      (instr.native ds s).regs.flags = s.regs.flags := by
  cases instr with
  | movReg r imm =>
      have hindex : r.index < 16 := by
        cases r <;> decide
      simp only [native]
      rw [Regs.storeWord_seg _ _ (by decide), Regs.storeWord_seg _ _ hindex,
        Regs.storeWord_ip _ _ (by decide), Regs.storeWord_ip _ _ hindex,
        Regs.storeWord_flags _ _ (by decide), Regs.storeWord_flags _ _ hindex]
      exact ⟨rfl, rfl, rfl⟩
  | addAx imm => exact ⟨rfl, rfl, rfl⟩
  | movMem disp imm => exact ⟨rfl, rfl, rfl⟩
  | out port => exact ⟨rfl, rfl, rfl⟩

theorem native_visible (c : Cell) :
    (instr.native ds s).bus.visible c = instr.stored ds c (s.bus.visible c) := by
  cases instr with
  | movReg r imm => rfl
  | addAx imm => rfl
  | movMem disp imm =>
      simp only [native, stored]
      rw [← setWidth_cell_phys, Bus.visible_memWriteU8, setWidth_cell_phys]
      by_cases heq : c = cell (phys ds (disp.setWidth 32))
      · rw [if_pos heq, heq, ByteStore.write_self]
      · rw [if_neg heq, ByteStore.write_of_ne _ _ heq]
  | out port =>
      simp only [native, stored]
      rw [visible_ioWriteU8]

theorem native_hidden {c : Cell} (hc : Intercepted c) :
    (instr.native ds s).bus.mem.data c = s.bus.mem.data c := by
  cases instr with
  | movReg r imm => rfl
  | addAx imm => rfl
  | movMem disp imm =>
      simp only [native]
      rw [← setWidth_cell_phys]
      exact Bus.memWriteU8_data_of_intercepted _ _ hc
  | out port =>
      simp only [native]
      rw [ioWriteU8_mem]

end BodyInstr

/-- What the emitted code of a body leaves, apart from the word of SI, which
every IP store overwrites. -/
structure NativeRun (ds : U16) (body : List BodyInstr) (s s' : NativeState) : Prop where
  words : ∀ w, w < 16 → w ≠ 0 → w ≠ 12 →
    s'.regs.word w = assigned (fun r => r.index = w) body (s.regs.word w)
  ax : s'.regs.word 0 = body.foldl BodyInstr.ax (s.regs.word 0)
  seg : s'.regs.seg = s.regs.seg
  ip : s'.regs.ip = s.regs.ip
  flags : s'.regs.flags = s.regs.flags
  visible : ∀ c, s'.bus.visible c = storedAt ds c body (s.bus.visible c)
  hidden : ∀ c, Intercepted c → s'.bus.mem.data c = s.bus.mem.data c
  currIp : s'.currIp = s.currIp + BitVec.ofNat 32 (bodyBytes body)

theorem nativeRun (ds : U16) (body : List BodyInstr) (s : NativeState) :
    NativeRun ds body s (nativeBody ds body s) := by
  induction body generalizing s with
  | nil =>
      constructor
      · intro w _ _ _
        rfl
      · rfl
      · rfl
      · rfl
      · rfl
      · intro c
        rfl
      · intro c _
        rfl
      · simp [nativeBody, bodyBytes]
  | cons instr body ih =>
      rcases ih (instr.native ds s) with ⟨hwords, hax, hseg, hip, hflags, hvisible, hhidden, hcurr⟩
      rcases instr.native_context ds s with ⟨hseg', hip', hflags'⟩
      constructor
      · intro w hw hzero hsi
        refine (hwords w hw hzero hsi).trans ?_
        rw [instr.native_word ds s hw hzero hsi]
        rfl
      · refine hax.trans ?_
        rw [instr.native_ax ds s]
        rfl
      · exact hseg.trans hseg'
      · exact hip.trans hip'
      · exact hflags.trans hflags'
      · intro c
        refine (hvisible c).trans ?_
        rw [instr.native_visible ds s c]
        rfl
      · intro c hc
        exact (hhidden c hc).trans (instr.native_hidden ds s hc)
      · refine hcurr.trans ?_
        have hsize : instr.size = BitVec.ofNat 32 instr.bytes := by
          cases instr <;> rfl
        have hnative : (instr.native ds s).currIp = s.currIp + instr.size := rfl
        rw [hnative, hsize, bodyBytes, bodyBytes, List.map_cons, List.sum_cons,
          BitVec.ofNat_add, BitVec.add_assoc]

/-! ## What interpretation of a body leaves -/

theorem word_congr {regs regs' : Regs} (hgp : regs.gp = regs'.gp) {w : ℕ} (hw : w < 16) :
    regs.word w = regs'.word w :=
  (Regs.gp_eq_iff_words _ _).mp hgp w hw

namespace BodyInstr

variable (core : Core) (instr : BodyInstr)

/-- The immediate of register `i` goes to word `2 * i`. -/
theorem interp_word {w : ℕ} (hw : w < 16) (hax : w ≠ 0) :
    (instr.interp core).cpu.regs.word w =
      instr.assign (fun r => 2 * r.index = w) (core.cpu.regs.word w) := by
  cases instr with
  | movReg r imm =>
      have hword : ((movReg r imm).interp core).cpu.regs.word w =
          if w = 2 * r.index then imm else (core.skip 3).cpu.regs.word w :=
        Regs.word_set16 _ _ _ hw
      have hskip : (core.skip 3).cpu.regs.gp = core.cpu.regs.gp := rfl
      rw [hword, word_congr hskip hw]
      by_cases heq : 2 * r.index = w
      · simp [assign, heq]
      · simp [assign, heq, Ne.symm heq]
  | addAx imm =>
      have hgp : ((addAx imm).interp core).cpu.regs.gp =
          (core.cpu.regs.set16 .AX (core.cpu.regs.get16 .AX + imm)).gp := rfl
      have hother : ¬ w = 2 * Reg16.AX.index := hax
      rw [word_congr hgp hw, Regs.word_set16 _ _ _ hw, if_neg hother]
      rfl
  | movMem disp imm =>
      have hgp : ((movMem disp imm).interp core).cpu.regs.gp = core.cpu.regs.gp := rfl
      exact word_congr hgp hw
  | out port =>
      have hgp : ((out port).interp core).cpu.regs.gp = core.cpu.regs.gp := rfl
      exact word_congr hgp hw

theorem interp_ax :
    (instr.interp core).cpu.regs.get16 .AX = instr.ax (core.cpu.regs.get16 .AX) := by
  cases instr with
  | movReg r imm =>
      by_cases hr : r = .AX
      · subst hr
        exact Regs.get16_set16_self _ _ _
      · simp only [ax, if_neg hr]
        exact Regs.get16_set16_of_ne _ _ (Ne.symm hr)
  | addAx imm => exact Regs.get16_set16_self _ _ _
  | movMem disp imm => rfl
  | out port => rfl

theorem interp_context :
    (instr.interp core).cpu.regs.seg = core.cpu.regs.seg ∧
      (instr.interp core).cpu.regs.ip = skipIp instr.bytes core.cpu.regs.ip ∧
        (instr.interp core).cpu.halted = core.cpu.halted ∧
          (instr.interp core).bus.video.planes = core.bus.video.planes := by
  cases instr with
  | movReg r imm => exact ⟨rfl, rfl, rfl, rfl⟩
  | addAx imm => exact ⟨rfl, rfl, rfl, rfl⟩
  | movMem disp imm => exact ⟨rfl, rfl, rfl, rfl⟩
  | out port => exact ⟨rfl, rfl, rfl, ioWriteU8_planes _ _ _⟩

theorem interp_flags :
    (instr.interp core).cpu.regs.flags =
      flagsAfter core.cpu.regs.flags (instr.addition (core.cpu.regs.get16 .AX)) := by
  cases instr with
  | movReg r imm => rfl
  | addAx imm => exact updateAdd16_flags _ _ _
  | movMem disp imm => rfl
  | out port => rfl

theorem interp_data (c : Cell) :
    (instr.interp core).bus.mem.data c =
      instr.stored (core.cpu.regs.getSeg .DS) c (core.bus.mem.data c) := by
  cases instr with
  | movReg r imm => rfl
  | addAx imm => rfl
  | movMem disp imm =>
      simp only [stored]
      by_cases heq : c = cell (phys (core.cpu.regs.getSeg .DS) (disp.setWidth 32))
      · rw [if_pos heq, heq]
        exact ByteStore.write_self _ _ _
      · rw [if_neg heq]
        exact ByteStore.write_of_ne _ _ heq
  | out port =>
      have hmem : ((out port).interp core).bus.mem = core.bus.mem := ioWriteU8_mem _ _ _
      rw [hmem]
      rfl

end BodyInstr

structure GuestRun (body : List BodyInstr) (core core' : Core) : Prop where
  words : ∀ w, w < 16 → w ≠ 0 →
    core'.cpu.regs.word w =
      assigned (fun r => 2 * r.index = w) body (core.cpu.regs.word w)
  ax : core'.cpu.regs.get16 .AX = body.foldl BodyInstr.ax (core.cpu.regs.get16 .AX)
  seg : core'.cpu.regs.seg = core.cpu.regs.seg
  ip : core'.cpu.regs.ip = skipIp (bodyBytes body) core.cpu.regs.ip
  halted : core'.cpu.halted = core.cpu.halted
  planes : core'.bus.video.planes = core.bus.video.planes
  flags : core'.cpu.regs.flags =
    flagsAfter core.cpu.regs.flags (lastAdd body (core.cpu.regs.get16 .AX))
  data : ∀ c, core'.bus.mem.data c =
    storedAt (core.cpu.regs.getSeg .DS) c body (core.bus.mem.data c)

theorem guestRun (body : List BodyInstr) (core : Core) :
    GuestRun body core (interpBody body core) := by
  induction body generalizing core with
  | nil =>
      constructor
      · intro w _ _
        rfl
      all_goals first
        | rfl
        | (intro c; rfl)
  | cons instr body ih =>
      rcases ih (instr.interp core) with ⟨hwords, hax, hseg, hip, hhalted, hplanes, hflags, hdata⟩
      rcases instr.interp_context core with ⟨hseg', hip', hhalted', hplanes'⟩
      have hds : (instr.interp core).cpu.regs.getSeg .DS = core.cpu.regs.getSeg .DS :=
        congrFun hseg' .DS
      constructor
      · intro w hw hzero
        refine (hwords w hw hzero).trans ?_
        rw [instr.interp_word core hw hzero]
        rfl
      · refine hax.trans ?_
        rw [instr.interp_ax core]
        rfl
      · exact hseg.trans hseg'
      · refine hip.trans ?_
        rw [hip', ← skipIp_add]
        rfl
      · exact hhalted.trans hhalted'
      · exact hplanes.trans hplanes'
      · refine hflags.trans ?_
        rw [instr.interp_flags core, instr.interp_ax core, flagsAfter_flagsAfter,
          lastAdd_cons]
      · intro c
        refine (hdata c).trans ?_
        rw [hds, instr.interp_data core c]
        rfl

end Kita98
