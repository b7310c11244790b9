import Kita98.InterruptFrame
import Kita98.RegisterBytes

/-!
# Pushing and popping

Words that have been pushed come back in reverse order, wherever SS:SP points:
up to a whole segment of them shares no byte.  PUSHA and PUSHF are lists of
such words, and their counterparts restore the low halves only.
-/

namespace Kita98

open WordBits BitFields ByteStore WordStack Memory Exec

def pushAll : List U16 → Routine Unit
  | [] => pure ()
  | word :: words => do
      push16 word
      pushAll words

def popAll : ℕ → Routine (List U16)
  | 0 => pure []
  | n + 1 => do
      let word ← pop16
      let words ← popAll n
      return word :: words

/-! ## Depth -/

/-- The machine with SP at depth `d` and `data` as its memory. -/
def Core.atDepth (core : Core) (d : ℕ) (data : Cell → U8) : Core :=
  (core.setRegs (core.cpu.regs.set16 .SP (core.cpu.regs.get16 .SP - BitVec.ofNat 16 d))).setMem
    ⟨data⟩

variable {core : Core} {d : ℕ} {data : Cell → U8}

theorem atDepth_zero (core : Core) (mem : Memory) :
    core.atDepth 0 mem.data = core.setMem mem := by
  have hsp : core.cpu.regs.get16 .SP - BitVec.ofNat 16 0 = core.cpu.regs.get16 .SP :=
    BitVec.sub_zero _
  rw [Core.atDepth, hsp, Regs.set16_get16]
  rfl

theorem atDepth_sp :
    (core.atDepth d data).cpu.regs.get16 .SP = core.cpu.regs.get16 .SP - BitVec.ofNat 16 d :=
  Regs.get16_set16_self _ _ _

theorem push16_atDepth (word : U16) :
    push16 word (core.atDepth d data) =
      .ok ((), core.atDepth (d + 2)
        (writeWord data (stackAddr core.cpu.regs (d + 2)) word)) := by
  have hsp : core.cpu.regs.get16 .SP - BitVec.ofNat 16 d - 2 =
      core.cpu.regs.get16 .SP - BitVec.ofNat 16 (d + 2) := by
    bv_omega
  have hmem : (core.atDepth d data).bus.mem.segWriteU16 (core.cpu.regs.getSeg .SS)
      ((core.cpu.regs.get16 .SP - BitVec.ofNat 16 (d + 2)).setWidth 32) word =
        ⟨writeWord data (stackAddr core.cpu.regs (d + 2)) word⟩ :=
    Memory.ext (writeU16_data _ _ _)
  have hset : (core.atDepth d data).cpu.regs.set16 .SP
      (core.cpu.regs.get16 .SP - BitVec.ofNat 16 (d + 2)) =
        core.cpu.regs.set16 .SP (core.cpu.regs.get16 .SP - BitVec.ofNat 16 (d + 2)) :=
    Regs.set16_set16 _ _ _ _
  unfold push16
  dsimp only
  rw [atDepth_sp, hsp, hset]
  exact congrArg (fun mem => Except.ok ((), (core.setRegs _).setMem mem)) hmem

theorem pop16_atDepth :
    pop16 (core.atDepth (d + 2) data) =
      .ok (readWord data (stackAddr core.cpu.regs (d + 2)), core.atDepth d data) := by
  have hsp : core.cpu.regs.get16 .SP - BitVec.ofNat 16 (d + 2) + 2 =
      core.cpu.regs.get16 .SP - BitVec.ofNat 16 d := by
    bv_omega
  have hword : (core.atDepth (d + 2) data).bus.mem.segReadU16 (core.cpu.regs.getSeg .SS)
      ((core.cpu.regs.get16 .SP - BitVec.ofNat 16 (d + 2)).setWidth 32) =
        readWord data (stackAddr core.cpu.regs (d + 2)) :=
    readU16_eq _ _
  have hset : (core.atDepth (d + 2) data).cpu.regs.set16 .SP
      (core.cpu.regs.get16 .SP - BitVec.ofNat 16 d) =
        core.cpu.regs.set16 .SP (core.cpu.regs.get16 .SP - BitVec.ofNat 16 d) :=
    Regs.set16_set16 _ _ _ _
  unfold pop16
  dsimp only
  rw [atDepth_sp, hsp, hset]
  exact congrArg (fun word => Except.ok (word, core.atDepth d data)) hword

/-! ## Lists of words -/

theorem pushAll_atDepth (words : List U16) :
    pushAll words (core.atDepth d data) =
      .ok ((), core.atDepth (d + 2 * words.length)
        (push (stackAddr core.cpu.regs) data d words)) := by
  induction words generalizing d data with
  | nil => rfl
  | cons word words ih =>
      have hdeep : d + 2 * (word :: words).length = d + 2 + 2 * words.length := by
        rw [List.length_cons]
        omega
      rw [pushAll, bind_ok (push16_atDepth word), ih, hdeep]
      rfl

/-- The words above depth `d` come off the stack, the last one first. -/
theorem popAll_atDepth (words : List U16)
    (hlies : ∀ (i : ℕ) (hi : i < words.length),
      readWord data (stackAddr core.cpu.regs (2 * (i + 1))) = words[i]) :
    popAll words.length (core.atDepth (2 * words.length) data) =
      .ok (words.reverse, core.atDepth 0 data) := by
  induction words using List.reverseRecOn with
  | nil => rfl
  | append_singleton words word ih =>
      have hlast := hlies words.length (by simp)
      rw [List.getElem_concat_length rfl] at hlast
      have hrest := ih fun i hi => by
        rw [hlies i (by simp; omega), List.getElem_append_left hi]
      have hlength : (words ++ [word]).length = words.length + 1 := List.length_append
      rw [hlength, popAll, Nat.mul_succ, bind_ok pop16_atDepth, bind_ok hrest, List.reverse_concat,
        ← hlast]
      rfl

/-- The first byte of a word that is pushed, or the one behind it. -/
def PushedCell (regs : Regs) (words : List U16) (c : Cell) : Prop :=
  ∃ i < words.length, c = stackAddr regs (2 * (i + 1)) ∨ c = stackAddr regs (2 * (i + 1)) + 1

/-- The words come back in reverse order, and apart from their bytes the
machine is as it was. -/
def Returned (core : Core) (words : List U16) : Prop :=
  ∃ mem : Memory,
    (pushAll words >>= fun _ => popAll words.length) core =
      .ok (words.reverse, core.setMem mem) ∧
    ∀ c, ¬ PushedCell core.cpu.regs words c → mem.data c = core.bus.mem.data c

theorem pushed_outside {words : List U16} {c : Cell} (hout : ¬ PushedCell core.cpu.regs words c) :
    push (stackAddr core.cpu.regs) data 0 words c = data c := by
  apply push_outside
  intro i hi
  rw [Nat.zero_add]
  constructor
  · intro hsame
    exact hout ⟨i, hi, .inl hsame⟩
  · intro hsame
    exact hout ⟨i, hi, .inr hsame⟩

theorem pushed_lies {words : List U16} (hlength : words.length ≤ 32768) (i : ℕ)
    (hi : i < words.length) :
    readWord (push (stackAddr core.cpu.regs) data 0 words)
      (stackAddr core.cpu.regs (2 * (i + 1))) = words[i] := by
  have hfits : 0 + 2 * words.length ≤ 2 ^ 16 := by omega
  have hread := readWord_push (stackAddr_spread core.cpu.regs) data hfits i hi
  rw [Nat.zero_add] at hread
  exact hread

theorem words_returned {words : List U16} (hlength : words.length ≤ 32768) :
    Returned core words := by
  have hpush := @pushAll_atDepth core 0 core.bus.mem.data words
  rw [atDepth_zero, Nat.zero_add] at hpush
  refine ⟨⟨push (stackAddr core.cpu.regs) core.bus.mem.data 0 words⟩, ?_, ?_⟩
  · show (pushAll words >>= _) (core.setMem core.bus.mem) = _
    rw [bind_ok hpush, popAll_atDepth words (pushed_lies hlength)]
    exact congrArg (fun core => Except.ok (words.reverse, core)) (atDepth_zero core ⟨_⟩)
  · intro c hout
    exact pushed_outside hout

/-! ## PUSHA and POPA -/

/-- SS and SP are the same, so the same words lie on top. -/
structure SameTop (regs regs' : Regs) : Prop where
  ss : regs'.getSeg .SS = regs.getSeg .SS
  sp : regs'.get16 .SP = regs.get16 .SP

/-- The machine between a push and its pop, with SP as it was in front of both. -/
def Core.resumed (core : Core) (between : Regs) : Core :=
  core.setRegs (between.set16 .SP (core.cpu.regs.get16 .SP))

theorem resumed_atDepth {between : Regs} (htop : SameTop (core.atDepth d data).cpu.regs between) :
    (core.atDepth d data).setRegs between = (core.resumed between).atDepth d data := by
  have hset : (core.resumed between).cpu.regs.set16 .SP
      ((core.resumed between).cpu.regs.get16 .SP - BitVec.ofNat 16 d) = between := by
    have hsp : (core.resumed between).cpu.regs.get16 .SP = core.cpu.regs.get16 .SP :=
      Regs.get16_set16_self _ _ _
    rw [hsp, ← @atDepth_sp core d data, ← htop.sp]
    exact (Regs.set16_set16 _ _ _ _).trans (Regs.set16_get16 _ _)
  unfold Core.atDepth at *
  rw [hset]
  rfl

theorem resumed_stackAddr
    {between : Regs} (htop : SameTop (core.atDepth d data).cpu.regs between) :
    stackAddr (core.resumed between).cpu.regs = stackAddr core.cpu.regs := by
  have hss : (core.resumed between).cpu.regs.getSeg .SS = core.cpu.regs.getSeg .SS := htop.ss
  have hsp : (core.resumed between).cpu.regs.get16 .SP = core.cpu.regs.get16 .SP :=
    Regs.get16_set16_self _ _ _
  funext depth
  unfold stackAddr stackCell
  rw [hss, hsp]

theorem pushReg16_atDepth {r : Reg16} (hr : r ≠ .SP) :
    pushReg16 r (core.atDepth d data) =
      .ok ((), core.atDepth (d + 2)
        (writeWord data (stackAddr core.cpu.regs (d + 2)) (core.cpu.regs.get16 r))) := by
  have hvalue : (core.atDepth d data).cpu.regs.get16 r = core.cpu.regs.get16 r :=
    Regs.get16_set16_of_ne _ _ hr
  rw [pushReg16, bind_ok (getRegs_apply _ _), hvalue, push16_atDepth]

/-- The words of PUSHA, in the order in which they are pushed. -/
def pushaWords (regs : Regs) : List U16 :=
  [.AX, .CX, .DX, .BX, .SP, .BP, .SI, .DI].map regs.get16

theorem pusha_atDepth :
    pusha (core.atDepth 0 data) =
      .ok (.proceed, core.atDepth 16
        (push (stackAddr core.cpu.regs) data 0 (pushaWords core.cpu.regs))) := by
  have hsp : (core.atDepth 0 data).cpu.regs.get16 .SP = core.cpu.regs.get16 .SP :=
    atDepth_sp.trans (BitVec.sub_zero _)
  rw [pusha, bind_ok (getRegs_apply _ _), hsp, bind_ok (pushReg16_atDepth (by decide)),
    bind_ok (pushReg16_atDepth (by decide)), bind_ok (pushReg16_atDepth (by decide)),
    bind_ok (pushReg16_atDepth (by decide)), bind_ok (push16_atDepth _),
    bind_ok (pushReg16_atDepth (by decide)), bind_ok (pushReg16_atDepth (by decide)),
    bind_ok (pushReg16_atDepth (by decide))]
  simp only [pushaWords, List.map, push]
  rfl

def popaRegs (regs : Regs) (word : ℕ → U16) : Regs :=
  ((((((regs.set16 .DI (word 16)).set16 .SI (word 14)).set16 .BP (word 12)).set16
    .BX (word 8)).set16 .DX (word 6)).set16 .CX (word 4)).set16 .AX (word 2)

theorem popa_atDepth :
    popa (core.atDepth 16 data) =
      .ok (.proceed, (core.atDepth 0 data).setRegs
        (popaRegs (core.atDepth 0 data).cpu.regs
          fun depth => readWord data (stackAddr core.cpu.regs depth))) := by
  rw [popa, bind_ok pop16_atDepth, bind_ok pop16_atDepth, bind_ok pop16_atDepth,
    bind_ok pop16_atDepth, bind_ok pop16_atDepth, bind_ok pop16_atDepth, bind_ok pop16_atDepth,
    bind_ok pop16_atDepth]
  rfl

/-- The low halves of the registers are those of `before`; all else is as it was. -/
structure RestoresLow (before between after : Regs) : Prop where
  low : ∀ r, after.get16 r = before.get16 r
  high : ∀ r, field (after.gp r) 16 16 = field (between.gp r) 16 16
  seg : after.seg = between.seg
  ip : after.ip = between.ip
  flags : after.flags = between.flags

theorem popaRegs_restores
    {before between : Regs} {word : ℕ → U16}
    (hwords : ∀ (i : ℕ) (hi : i < (pushaWords before).length),
      word (2 * (i + 1)) = (pushaWords before)[i]) :
    RestoresLow before between (popaRegs (between.set16 .SP (before.get16 .SP)) word) := by
  have hlength : (pushaWords before).length = 8 := rfl
  have hax : word 2 = before.get16 .AX := hwords 0 (by omega)
  have hcx : word 4 = before.get16 .CX := hwords 1 (by omega)
  have hdx : word 6 = before.get16 .DX := hwords 2 (by omega)
  have hbx : word 8 = before.get16 .BX := hwords 3 (by omega)
  have hbp : word 12 = before.get16 .BP := hwords 5 (by omega)
  have hsi : word 14 = before.get16 .SI := hwords 6 (by omega)
  have hdi : word 16 = before.get16 .DI := hwords 7 (by omega)
  constructor
  · intro r
    cases r <;>
      simp [popaRegs, Regs.get16_set16_of_ne, hax, hcx, hdx, hbx, hbp, hsi, hdi]
  · intro r
    simp only [popaRegs, Regs.high_set16]
  · rfl
  · rfl
  · rfl

/-- Whatever the registers hold in between, POPA gives their low halves back. -/
def PushaRestores (core : Core) : Prop :=
  ∃ mid, dispatchStack 0x60 core = .ok (.proceed, mid) ∧
    mid.cpu.regs = core.cpu.regs.set16 .SP (core.cpu.regs.get16 .SP - 16) ∧
    ∀ between, SameTop mid.cpu.regs between →
      ∃ after, dispatchStack 0x61 (mid.setRegs between) = .ok (.proceed, mid.setRegs after) ∧
        RestoresLow core.cpu.regs between after

theorem resumed_zero (between : Regs) :
    (core.resumed between).atDepth 0 data = (core.resumed between).setMem ⟨data⟩ :=
  atDepth_zero (core.resumed between) ⟨data⟩

theorem dispatchStack_pusha : dispatchStack 0x60 = pusha := rfl

theorem dispatchStack_popa : dispatchStack 0x61 = popa := rfl

theorem pusha_restores (core : Core) : PushaRestores core := by
  have hpush := @pusha_atDepth core core.bus.mem.data
  rw [atDepth_zero] at hpush
  have hwords := @pushed_lies core core.bus.mem.data (pushaWords core.cpu.regs)
    (show 8 ≤ 32768 by decide)
  generalize push (stackAddr core.cpu.regs) core.bus.mem.data 0 (pushaWords core.cpu.regs) = data
    at hpush hwords
  unfold PushaRestores
  rw [dispatchStack_pusha, dispatchStack_popa]
  refine ⟨core.atDepth 16 data, hpush, rfl, ?_⟩
  intro between htop
  have hpop := @popa_atDepth (core.resumed between) data
  rw [resumed_stackAddr htop, resumed_zero] at hpop
  refine ⟨popaRegs (between.set16 .SP (core.cpu.regs.get16 .SP))
    fun depth => readWord data (stackAddr core.cpu.regs depth), ?_, popaRegs_restores hwords⟩
  rw [resumed_atDepth htop]
  exact hpop

/-! ## PUSHF and POPF -/

/-- Whatever the flags are in between, POPF gives their low half back. -/
def PushfRestores (core : Core) : Prop :=
  ∃ mid, dispatchStack 0x9C core = .ok (.proceed, mid) ∧
    mid.cpu.regs = core.cpu.regs.set16 .SP (core.cpu.regs.get16 .SP - 2) ∧
    ∀ between, SameTop mid.cpu.regs between →
      ∃ flags, dispatchStack 0x9D (mid.setRegs between) =
          .ok (.proceed, mid.setRegs
            { between.set16 .SP (core.cpu.regs.get16 .SP) with flags := flags }) ∧
        flags.setWidth 16 = core.cpu.regs.flags.setWidth 16 ∧
        field flags 16 16 = field between.flags 16 16

theorem dispatchStack_pushf : dispatchStack 0x9C = pushf := rfl

theorem dispatchStack_popf : dispatchStack 0x9D = popf := rfl

theorem pushf_restores (core : Core) : PushfRestores core := by
  have hpush := @push16_atDepth core 0 core.bus.mem.data (core.cpu.regs.flags.setWidth 16)
  have hword := readWord_writeWord_self core.bus.mem.data (core.cpu.regs.flags.setWidth 16)
    (cell_succ_ne (stackAddr core.cpu.regs (0 + 2)))
  rw [atDepth_zero] at hpush
  generalize writeWord core.bus.mem.data (stackAddr core.cpu.regs (0 + 2))
    (core.cpu.regs.flags.setWidth 16) = data at hpush hword
  unfold PushfRestores
  rw [dispatchStack_pushf, dispatchStack_popf]
  refine ⟨core.atDepth (0 + 2) data, ?_, rfl, ?_⟩
  · rw [pushf, bind_ok (getRegs_apply _ _)]
    exact bind_ok hpush
  intro between htop
  have hpop := @pop16_atDepth (core.resumed between) 0 data
  rw [resumed_stackAddr htop, hword, resumed_zero] at hpop
  have hflags := setHalf_eq between.flags (core.cpu.regs.flags.setWidth 16)
  refine ⟨(between.flags &&& 0xFFFF0000#32) |||
    (core.cpu.regs.flags.setWidth 16).setWidth 32, ?_, ?_, ?_⟩
  · rw [resumed_atDepth htop, popf, bind_ok hpop]
    rfl
  · rw [hflags, half_eq, field_setField_self _ (by decide)]
  · rw [hflags, field_setField_apart _ (.inr (by decide)) (by decide)]

/-- Lists of words, the registers and the flags come back from the stack. -/
theorem stack_discipline (core : Core) :
    (∀ words : List U16, words.length ≤ 32768 → Returned core words) ∧
      PushaRestores core ∧ PushfRestores core :=
  ⟨fun _ hlength => words_returned hlength, pusha_restores core, pushf_restores core⟩

/-- SP = 3: the second word is pushed to FFFF and the cell behind the segment. -/
def oddStackCore : Core where
  cpu := { Interpreter.new with regs := Regs.new.set16 .SP 3 }
  bus := Bus.new none fun _ => 0

theorem stack_discipline_odd : Returned oddStackCore [1, 2, 3] :=
  (stack_discipline oddStackCore).1 [1, 2, 3] (by decide)

end Kita98
