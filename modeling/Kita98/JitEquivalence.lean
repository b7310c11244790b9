import Kita98.BlockRuns

/-!
# A block against its guest instructions

The emitted code stores immediates at twice the register index and IP in the
word of SI, computes no flags and never touches IP or the halt flag.  It can
agree with interpretation only where that leaves everything as it was: when no
instruction was translated, or when the interpreter meets the same instructions,
the last of them jumps back to the first, and the words, flags and bytes
concerned already hold what either side puts there.
-/

namespace Kita98

open WordBits Memory Kita98.Core

/-- The freshly compiled block at CS:IP runs from `core` to `after`. -/
def FreshRun (jit : JitRuntime) (core : Core) (result : StepResult) (after : Core) : Prop :=
  ∃ jit' bus regs,
    jit.emptied.execute core.bus core.cpu.regs = .ok (result, jit', bus, regs) ∧
      after = { core with cpu := { core.cpu with regs := regs }, bus := bus }

/-- Two outcomes agree on the registers, the halt flag, memory and planes. -/
structure SameOutcome (after after' : Core) : Prop where
  gp : after.cpu.regs.gp = after'.cpu.regs.gp
  seg : after.cpu.regs.seg = after'.cpu.regs.seg
  ip : after.cpu.regs.ip = after'.cpu.regs.ip
  flags : after.cpu.regs.flags = after'.cpu.regs.flags
  halted : after.cpu.halted = after'.cpu.halted
  stores : SameStores after.bus after'.bus

/-- The block does what interpreting its instructions one by one does. -/
def BlockAgrees (core : Core) (result : StepResult) (after : Core) : Prop :=
  ∃ guest, InterpretsBlock (guestBlock core) core result guest ∧ SameOutcome after guest

/-- No instruction was translated. -/
def IdleBlock (block : List BodyInstr × BlockEnd) : Prop :=
  block.1 = [] ∧ (block.2 = .unsupported ∨ block.2 = .unknown)

/-- Byte `i` behind the instructions `front`, which have done their stores. -/
def Core.byteBehind (core : Core) (front : List BodyInstr) (i : ℕ) : U8 :=
  let c := cell (phys (core.cpu.regs.getSeg .CS)
    (skipIp (bodyBytes front + i) core.cpu.regs.ip))
  storedAt (core.cpu.regs.getSeg .DS) c front (core.bus.mem.data c)

def Core.instrBehind (core : Core) (front : List BodyInstr) : BodyInstr ⊕ BlockEnd :=
  let byte := core.byteBehind front
  decodeFields (byte 0) (byte 1) (joinBytes (byte 1) (byte 2)) (joinBytes (byte 2) (byte 3))
    (byte 4)

/-- The bytes at CS:(IP modulo 65536) still spell each instruction of the block when
those in front of it have done their stores. -/
structure Refetched (core : Core) (block : List BodyInstr × BlockEnd) : Prop where
  body : ∀ front instr rest, block.1 = front ++ instr :: rest →
    core.instrBehind front = .inl instr
  last : block.2.IsInstr → core.instrBehind block.1 = .inr block.2

/-- The block is refetched as it was translated and jumps back to its first byte, and
whatever the emitted code or the instructions set is set that way before. -/
structure LoopsInPlace (core : Core) (body : List BodyInstr) (rel : U8) : Prop where
  refetched : Refetched core (body, .jmp rel)
  returns :
    (core.cpu.regs.ip + BitVec.ofNat 32 (bodyBytes body + 2) + rel.signExtend 32) &&&
      0xFFFF#32 = core.cpu.regs.ip
  words : ∀ w, w < 16 → w ≠ 0 → w ≠ 12 →
    assigned (fun r => r.index = w) body (core.cpu.regs.word w) =
      assigned (fun r => 2 * r.index = w) body (core.cpu.regs.word w)
  si : core.cpu.regs.ip.setWidth 16 =
    assigned (fun r => 2 * r.index = 12) body (core.cpu.regs.word 12)
  flags : ∀ a b, lastAdd body (core.cpu.regs.get16 .AX) = some (a, b) →
    addFlags core.cpu.regs.flags a b = core.cpu.regs.flags
  stores : ∀ c, Intercepted c →
    storedAt (core.cpu.regs.getSeg .DS) c body (core.bus.mem.data c) = core.bus.mem.data c ∧
      storedAt (core.cpu.regs.getSeg .DS) c body (core.bus.visible c) = core.bus.visible c

/-! ## What the interpreter fetches -/

theorem guestInstr_interpBody (core : Core) (front : List BodyInstr) :
    (interpBody front core).guestInstr = core.instrBehind front := by
  have hrun := guestRun front core
  have hcs : (interpBody front core).cpu.regs.getSeg .CS = core.cpu.regs.getSeg .CS :=
    congrFun hrun.seg .CS
  have hbyte : ∀ i, (interpBody front core).codeByte
      (skipIp i (interpBody front core).cpu.regs.ip) = core.byteBehind front i := by
    intro i
    unfold Core.codeByte segReadU8 readU8 Core.byteBehind
    rw [hcs, hrun.ip, ← skipIp_add]
    exact hrun.data _
  unfold Core.guestInstr Core.instrBehind
  simp only [hbyte]

theorem interpretsBlock_iff_refetched {block : List BodyInstr × BlockEnd} {core after : Core}
    {result : StepResult} :
    InterpretsBlock block core result after ↔
      Refetched core block ∧ (result, after) = block.2.interp (interpBody block.1 core) := by
  rw [interpretsBlock_iff]
  simp only [guestInstr_interpBody]
  constructor
  · rintro ⟨hbody, hlast, hafter⟩
    exact ⟨⟨hbody, hlast⟩, hafter⟩
  · rintro ⟨⟨hbody, hlast⟩, hafter⟩
    exact ⟨hbody, hlast, hafter⟩

/-! ## Addresses -/

theorem jumpRel_skip (n : ℕ) (ip rel : U32) :
    (skipIp (n + 1) ip + rel) &&& 0xFFFF#32 =
      (ip + BitVec.ofNat 32 (n + 1) + rel) &&& 0xFFFF#32 := by
  apply BitVec.eq_of_toNat_eq
  rw [toNat_and_mask, toNat_and_mask, BitVec.toNat_add, BitVec.toNat_add, BitVec.toNat_add,
    skipIp_toNat, BitVec.toNat_ofNat]
  omega

theorem bodyBytes_le (body : List BodyInstr) : bodyBytes body ≤ 5 * body.length := by
  induction body with
  | nil => simp [bodyBytes]
  | cons instr body ih =>
      have hinstr : instr.bytes ≤ 5 := by
        cases instr <;> simp [BodyInstr.bytes]
      have hcons : bodyBytes (instr :: body) = instr.bytes + bodyBytes body := by
        rw [bodyBytes, List.map_cons, List.sum_cons]
        rfl
      rw [hcons, List.length_cons]
      omega

theorem bodyBytes_pos {body : List BodyInstr} (hbody : body ≠ []) : 0 < bodyBytes body := by
  cases body with
  | nil => exact absurd rfl hbody
  | cons instr body =>
      have hinstr : 0 < instr.bytes := by
        cases instr <;> simp [BodyInstr.bytes]
      rw [bodyBytes, List.map_cons, List.sum_cons]
      omega

/-! ## The fresh block -/

theorem runCode_end
    {ending : BlockEnd} {currIp : U32} {endOps : List IrOp}
    (hend : ending.ops currIp = .ok endOps) (bus : Bus) (regs : Regs) :
    (runCode (endOps.flatMap emit) bus regs).2.1 = bus ∧
      (runCode (endOps.flatMap emit) bus regs).2.2.ip = regs.ip := by
  unfold BlockEnd.ops at hend
  split at hend
  · cases hend
    exact ⟨rfl, rfl⟩
  · cases hend
    exact ⟨rfl, rfl⟩
  · cases hend
    exact ⟨rfl, rfl⟩
  · cases hend
    exact ⟨rfl, rfl⟩
  · split at hend <;> cases hend
    exact ⟨rfl, rfl⟩
  · cases hend
    exact ⟨rfl, rfl⟩

def nativeStart (core : Core) : NativeState := ⟨core.cpu.regs.ip, core.bus, core.cpu.regs⟩

def nativeEnd (core : Core) : NativeState :=
  nativeBody (core.cpu.regs.getSeg .DS) (guestBlock core).1 (nativeStart core)

/-- A fresh block runs its body, then the code of its end; the result is what
RAX holds, if it was set. -/
theorem freshRun_eq
    {jit : JitRuntime} {core after : Core} {result : StepResult}
    (hrun : FreshRun jit core result after) :
    ∃ endOps rax bus regs,
      (guestBlock core).2.ops (nativeEnd core).currIp = .ok endOps ∧
        runCode (endOps.flatMap emit) (nativeEnd core).bus (nativeEnd core).regs =
            (rax, bus, regs) ∧
          after = { core with cpu := { core.cpu with regs := regs }, bus := bus } ∧
            ∀ n, rax = some n → result = decodeRax n := by
  rcases hrun with ⟨jit', bus', regs', hexecute, hafter⟩
  unfold JitRuntime.execute JitRuntime.emptied at hexecute
  simp only at hexecute
  cases hops : translateBlock core.bus core.cpu.regs (JitRuntime.physIp core.cpu.regs) with
  | error e =>
      rw [hops] at hexecute
      cases hexecute
  | ok ops =>
      rcases @runCode_assemble _ _ _ (nativeStart core) ops
        ((translateBlock_eq core).symm.trans hops) with ⟨endOps, hend, hcode⟩
      rw [hops] at hexecute
      rcases hresult : runCode (endOps.flatMap emit) (nativeEnd core).bus
        (nativeEnd core).regs with ⟨rax, bus, regs⟩
      refine ⟨endOps, rax, bus, regs, hend, hresult, ?_⟩
      have hblock : runCode (compileBlock ops).code core.bus core.cpu.regs =
          (rax, bus, regs) := hcode.trans hresult
      cases ops with
      | nil =>
          cases hexecute
          cases hblock
          refine ⟨hafter, ?_⟩
          intro n hn
          cases hn
      | cons op ops =>
          simp only [JitRuntime.runBlock, hblock] at hexecute
          cases rax with
          | none =>
              cases hexecute
              refine ⟨hafter, ?_⟩
              intro n hn
              cases hn
          | some n =>
              cases hexecute
              refine ⟨hafter, ?_⟩
              intro n' hn
              cases hn
              rfl

theorem freshRun_ip
    {jit : JitRuntime} {core after : Core} {result : StepResult}
    (hrun : FreshRun jit core result after) : after.cpu.regs.ip = core.cpu.regs.ip := by
  rcases freshRun_eq hrun with ⟨endOps, rax, bus, regs, hend, hcode, rfl, -⟩
  have hip := (runCode_end hend (nativeEnd core).bus (nativeEnd core).regs).2
  rw [hcode] at hip
  exact hip.trans (nativeRun _ _ _).ip

/-! ## Blocks that move IP -/

theorem guestBlock_bytes (core : Core) : bodyBytes (guestBlock core).1 ≤ 250 := by
  have hbytes := bodyBytes_le (guestBlock core).1
  have hlength := (decodeBlock_length core.bus.mem (core.cpu.regs.getSeg .CS) blockLimit
    core.cpu.regs.ip (JitRuntime.physIp core.cpu.regs)).1
  have hlimit : blockLimit = 50 := rfl
  have hblock : (guestBlock core).1.length ≤ blockLimit := hlength
  omega

/-- Interpretation moves IP unless nothing was translated or a jump comes
back. -/
theorem guest_ip_ne
    {core : Core} (hidle : ¬ IdleBlock (guestBlock core))
    (hjmp : ∀ rel, (guestBlock core).2 ≠ .jmp rel) :
    ((guestBlock core).2.interp (interpBody (guestBlock core).1 core)).2.cpu.regs.ip ≠
      core.cpu.regs.ip := by
  have hbytes := guestBlock_bytes core
  have hbody := (guestRun (guestBlock core).1 core).ip
  have hnonempty : (guestBlock core).2 = .limit ∨ (guestBlock core).2 = .unsupported ∨
      (guestBlock core).2 = .unknown → 0 < bodyBytes (guestBlock core).1 := by
    intro hend
    apply bodyBytes_pos
    intro hnil
    rcases hend with hend | hend | hend
    · have hlength := (decodeBlock_length core.bus.mem (core.cpu.regs.getSeg .CS) blockLimit
        core.cpu.regs.ip (JitRuntime.physIp core.cpu.regs)).2 hend
      have hzero : (guestBlock core).1.length = blockLimit := hlength
      rw [hnil] at hzero
      cases hzero
    · exact hidle ⟨hnil, .inl hend⟩
    · exact hidle ⟨hnil, .inr hend⟩
  cases hend : (guestBlock core).2 with
  | limit =>
      intro heq
      exact skipIp_ne _ (hnonempty (.inl hend)) (by omega) (hbody.symm.trans heq)
  | unsupported =>
      intro heq
      exact skipIp_ne _ (hnonempty (.inr (.inl hend))) (by omega) (hbody.symm.trans heq)
  | unknown =>
      intro heq
      exact skipIp_ne _ (hnonempty (.inr (.inr hend))) (by omega) (hbody.symm.trans heq)
  | jmp rel => exact absurd hend (hjmp rel)
  | int num =>
      intro heq
      have hskip : skipIp (bodyBytes (guestBlock core).1 + 2) core.cpu.regs.ip =
          core.cpu.regs.ip := by
        rw [skipIp_add, ← hbody]
        exact heq
      exact skipIp_ne _ (by omega) (by omega) hskip
  | hlt =>
      intro heq
      have hskip : skipIp (bodyBytes (guestBlock core).1 + 1) core.cpu.regs.ip =
          core.cpu.regs.ip := by
        rw [skipIp_add, ← hbody]
        exact heq
      exact skipIp_ne _ (by omega) (by omega) hskip

/-! ## Blocks that jump back -/

theorem setWidth_and_mask (x : U32) : (x &&& 0xFFFF#32).setWidth 16 = x.setWidth 16 := by
  have hones : (0xFFFF#32).setWidth 16 = BitVec.allOnes 16 := by decide
  rw [BitVec.setWidth_and, hones, BitVec.and_allOnes]

theorem setWidth_signExtend_rel : ∀ rel : U8,
    (rel.signExtend 32).setWidth 16 = rel.signExtend 16 := by
  decide +kernel

/-- The IP store behind a jump back names the block's first byte. -/
theorem sync_target
    {ip : U32} {n : ℕ} {rel : U8}
    (hreturns : (ip + BitVec.ofNat 32 (n + 2) + rel.signExtend 32) &&& 0xFFFF#32 = ip) :
    (ip + BitVec.ofNat 32 n).setWidth 16 + 2 + rel.signExtend 16 = ip.setWidth 16 := by
  have hlow := congrArg (BitVec.setWidth 16) hreturns
  rw [setWidth_and_mask, BitVec.setWidth_add _ _ (by decide), setWidth_signExtend_rel,
    BitVec.ofNat_add, ← BitVec.add_assoc, BitVec.setWidth_add _ _ (by decide)] at hlow
  exact hlow

structure JumpNative (core : Core) (rel : U8) (after : Core) : Prop where
  words : ∀ w, w < 16 → w ≠ 0 → w ≠ 12 → after.cpu.regs.word w =
    assigned (fun r => r.index = w) (guestBlock core).1 (core.cpu.regs.word w)
  ax : after.cpu.regs.word 0 =
    (guestBlock core).1.foldl BodyInstr.ax (core.cpu.regs.word 0)
  si : after.cpu.regs.word 12 =
    (core.cpu.regs.ip + BitVec.ofNat 32 (bodyBytes (guestBlock core).1)).setWidth 16 + 2 +
      rel.signExtend 16
  seg : after.cpu.regs.seg = core.cpu.regs.seg
  flags : after.cpu.regs.flags = core.cpu.regs.flags
  halted : after.cpu.halted = core.cpu.halted
  visible : ∀ c, after.bus.visible c =
    storedAt (core.cpu.regs.getSeg .DS) c (guestBlock core).1 (core.bus.visible c)
  hidden : ∀ c, Intercepted c → after.bus.mem.data c = core.bus.mem.data c

theorem jump_outcomes
    {jit : JitRuntime} {core after : Core} {result : StepResult} {rel : U8}
    (hrun : FreshRun jit core result after) (hend : (guestBlock core).2 = .jmp rel) :
    result = .proceed ∧ after.bus = (nativeEnd core).bus ∧
      after.cpu.halted = core.cpu.halted ∧
        after.cpu.regs = (nativeEnd core).regs.storeWord (2 * 12)
          ((nativeEnd core).currIp.setWidth 16 + 2 + rel.signExtend 16) := by
  rcases freshRun_eq hrun with ⟨endOps, rax, bus, regs, hops, hcode, rfl, hresult⟩
  rw [hend] at hops
  cases hops
  cases hcode
  exact ⟨hresult 0 rfl, rfl, rfl, rfl⟩

theorem jumpNative
    {jit : JitRuntime} {core after : Core} {result : StepResult} {rel : U8}
    (hrun : FreshRun jit core result after) (hend : (guestBlock core).2 = .jmp rel) :
    result = .proceed ∧ JumpNative core rel after := by
  rcases jump_outcomes hrun hend with ⟨hresult, hbus, hhalted, hregs⟩
  have hbody : NativeRun (core.cpu.regs.getSeg .DS) (guestBlock core).1 (nativeStart core)
      (nativeEnd core) := nativeRun _ _ _
  have hword : ∀ w, w < 16 → after.cpu.regs.word w =
      if w = 12 then (nativeEnd core).currIp.setWidth 16 + 2 + rel.signExtend 16
      else (nativeEnd core).regs.word w := by
    intro w hw
    rw [hregs]
    exact Regs.word_storeWord _ _ (by decide) hw
  refine ⟨hresult, ?_⟩
  constructor
  · intro w hw hzero hsi
    rw [hword w hw, if_neg hsi]
    exact hbody.words w hw hzero hsi
  · rw [hword 0 (by decide), if_neg (by decide)]
    exact hbody.ax
  · rw [hword 12 (by decide), if_pos rfl, hbody.currIp]
    rfl
  · rw [hregs, Regs.storeWord_seg _ _ (by decide)]
    exact hbody.seg
  · rw [hregs, Regs.storeWord_flags _ _ (by decide)]
    exact hbody.flags
  · exact hhalted
  · rw [hbus]
    exact hbody.visible
  · rw [hbus]
    exact hbody.hidden

structure JumpGuest (core : Core) (rel : U8) (guest : Core) : Prop where
  words : ∀ w, w < 16 → w ≠ 0 → guest.cpu.regs.word w =
    assigned (fun r => 2 * r.index = w) (guestBlock core).1 (core.cpu.regs.word w)
  ax : guest.cpu.regs.word 0 =
    (guestBlock core).1.foldl BodyInstr.ax (core.cpu.regs.word 0)
  ip : guest.cpu.regs.ip =
    (core.cpu.regs.ip + BitVec.ofNat 32 (bodyBytes (guestBlock core).1 + 2) +
      rel.signExtend 32) &&& 0xFFFF#32
  seg : guest.cpu.regs.seg = core.cpu.regs.seg
  flags : guest.cpu.regs.flags =
    flagsAfter core.cpu.regs.flags
      (lastAdd (guestBlock core).1 (core.cpu.regs.get16 .AX))
  halted : guest.cpu.halted = core.cpu.halted
  data : ∀ c, guest.bus.mem.data c =
    storedAt (core.cpu.regs.getSeg .DS) c (guestBlock core).1 (core.bus.mem.data c)
  planes : guest.bus.video.planes = core.bus.video.planes

theorem jumpGuest (core : Core) (rel : U8) :
    JumpGuest core rel ((BlockEnd.jmp rel).interp (interpBody (guestBlock core).1 core)).2 := by
  have hbody := guestRun (guestBlock core).1 core
  have hlow : ∀ regs : Regs, regs.word 0 = regs.get16 .AX := fun regs =>
    regs.word_low .AX
  generalize interpBody (guestBlock core).1 core = done at hbody
  have hgp : ((BlockEnd.jmp rel).interp done).2.cpu.regs.gp = done.cpu.regs.gp := rfl
  have hip : ((BlockEnd.jmp rel).interp done).2.cpu.regs.ip =
      (skipIp 2 done.cpu.regs.ip + rel.signExtend 32) &&& 0xFFFF#32 := rfl
  constructor
  · intro w hw hzero
    rw [word_congr hgp hw]
    exact hbody.words w hw hzero
  · rw [word_congr hgp (by decide), hlow, hlow]
    exact hbody.ax
  · rw [hip, hbody.ip, ← skipIp_add]
    exact jumpRel_skip _ _ _
  · exact hbody.seg
  · exact hbody.flags
  · exact hbody.halted
  · exact hbody.data
  · exact hbody.planes

/-- Emitted code and interpretation of a block that ends in a jump agree
exactly on the conditions of a loop in place. -/
theorem sameOutcome_iff_loopsInPlace
    {core after guest : Core} {rel : U8}
    (hrefetched : Refetched core ((guestBlock core).1, .jmp rel))
    (hip : after.cpu.regs.ip = core.cpu.regs.ip)
    (hnative : JumpNative core rel after) (hguest : JumpGuest core rel guest) :
    SameOutcome after guest ↔ LoopsInPlace core (guestBlock core).1 rel := by
  constructor
  · intro hsame
    have hreturns := hguest.ip.symm.trans (hsame.ip.symm.trans hip)
    have hgp := (Regs.gp_eq_iff_words _ _).mp hsame.gp
    refine ⟨hrefetched, hreturns, ?_, ?_, ?_, ?_⟩
    · intro w hw hzero hsi
      rw [← hnative.words w hw hzero hsi, ← hguest.words w hw hzero]
      exact hgp w hw
    · rw [← hguest.words 12 (by decide) (by decide), ← hgp 12 (by decide), hnative.si]
      exact (sync_target hreturns).symm
    · intro a b hadd
      have hflags := hguest.flags.symm.trans (hsame.flags.symm.trans hnative.flags)
      rwa [hadd] at hflags
    · intro c hc
      rcases (sameStores_iff _ _).mp hsame.stores c with ⟨hmem, hview⟩
      rcases Option.isSome_iff_exists.mp hc with ⟨⟨plane, offset⟩, hplane⟩
      constructor
      · rw [← hguest.data c, ← hmem, hnative.hidden c hc]
      · rw [← hnative.visible c, hview, Bus.visible_of_plane hplane,
          Bus.visible_of_plane hplane, hguest.planes]
  · intro hloops
    refine ⟨?_, hnative.seg.trans hguest.seg.symm, ?_, ?_,
      hnative.halted.trans hguest.halted.symm, ?_⟩
    · rw [Regs.gp_eq_iff_words]
      intro w hw
      by_cases hzero : w = 0
      · subst hzero
        rw [hnative.ax, hguest.ax]
      · rw [hguest.words w hw hzero]
        by_cases hsi : w = 12
        · subst hsi
          rw [hnative.si, sync_target hloops.returns, hloops.si]
        · rw [hnative.words w hw hzero hsi, hloops.words w hw hzero hsi]
    · rw [hip, hguest.ip, hloops.returns]
    · rw [hnative.flags, hguest.flags]
      cases hadd : lastAdd (guestBlock core).1 (core.cpu.regs.get16 .AX) with
      | none => rfl
      | some operands => exact (hloops.flags _ _ hadd).symm
    · rw [sameStores_iff]
      intro c
      by_cases hc : Intercepted c
      · rcases Option.isSome_iff_exists.mp hc with ⟨⟨plane, offset⟩, hplane⟩
        rcases hloops.stores c hc with ⟨hmem, hview⟩
        constructor
        · rw [hnative.hidden c hc, hguest.data c, hmem]
        · rw [hnative.visible c, hview, Bus.visible_of_plane hplane,
            Bus.visible_of_plane hplane, hguest.planes]
      · have hbytes : after.bus.visible c = guest.bus.mem.data c := by
          rw [hnative.visible c, hguest.data c, Bus.visible_of_not_intercepted hc]
        constructor
        · rw [← Bus.visible_of_not_intercepted hc]
          exact hbytes
        · rw [@Bus.visible_of_not_intercepted guest.bus c hc]
          exact hbytes

theorem idle_outcome
    {jit : JitRuntime} {core after : Core} {result : StepResult}
    (hrun : FreshRun jit core result after) (hnil : (guestBlock core).1 = [])
    (hend : (guestBlock core).2 = .unsupported ∨ (guestBlock core).2 = .unknown) :
    result = .proceed ∧ after = core := by
  rcases hrun with ⟨jit', bus, regs, hexecute, rfl⟩
  unfold JitRuntime.execute JitRuntime.emptied at hexecute
  simp only at hexecute
  rw [translateBlock_eq, hnil] at hexecute
  rcases hend with hend | hend
  · rw [hend] at hexecute
    cases hexecute
    exact ⟨rfl, rfl⟩
  · rw [hend] at hexecute
    cases hexecute
    exact ⟨rfl, rfl⟩

theorem idle_agrees
    {jit : JitRuntime} {core after : Core} {result : StepResult}
    (hrun : FreshRun jit core result after) (hidle : IdleBlock (guestBlock core)) :
    BlockAgrees core result after := by
  rcases hidle with ⟨hnil, hend⟩
  have hnative : result = .proceed ∧ after = core := idle_outcome hrun hnil hend
  rcases hnative with ⟨rfl, rfl⟩
  have hinterp : InterpretsBlock (guestBlock after) after .proceed after := by
    unfold InterpretsBlock
    rw [hnil]
    refine ⟨after, .nil, ?_, ?_⟩
    · intro hinstr
      rcases hend with hend | hend <;> rw [hend] at hinstr <;> exact hinstr.elim
    · rcases hend with hend | hend <;> rw [hend] <;> rfl
  exact ⟨after, hinterp, rfl, rfl, rfl, rfl, rfl, (sameStores_iff _ _).mpr fun _ => ⟨rfl, rfl⟩⟩

theorem agrees_iff_of_freshRun
    {jit : JitRuntime} {core after : Core} {result : StepResult}
    (hrun : FreshRun jit core result after) :
    BlockAgrees core result after ↔
      IdleBlock (guestBlock core) ∨
        ∃ rel, (guestBlock core).2 = .jmp rel ∧ LoopsInPlace core (guestBlock core).1 rel := by
  have hip := freshRun_ip hrun
  constructor
  · rintro ⟨guest, hinterprets, hsame⟩
    rcases interpretsBlock_iff_refetched.mp hinterprets with ⟨hrefetched, hguest⟩
    by_cases hidle : IdleBlock (guestBlock core)
    · exact .inl hidle
    · right
      by_contra hno
      apply guest_ip_ne hidle
      · intro rel hend
        apply hno
        refine ⟨rel, hend, ?_⟩
        rw [← Prod.eta (guestBlock core), hend] at hrefetched
        rw [hend] at hguest
        have hjump := jumpGuest core rel
        rw [← hguest] at hjump
        exact (sameOutcome_iff_loopsInPlace hrefetched hip (jumpNative hrun hend).2 hjump).mp hsame
      · rw [← hguest]
        exact hsame.ip.symm.trans hip
  · rintro (hidle | ⟨rel, hend, hloops⟩)
    · exact idle_agrees hrun hidle
    · rcases jumpNative hrun hend with ⟨rfl, hnative⟩
      have hsame := (sameOutcome_iff_loopsInPlace hloops.refetched hip hnative
        (jumpGuest core rel)).mpr hloops
      refine ⟨_, interpretsBlock_iff_refetched.mpr ⟨?_, ?_⟩, hsame⟩
      · rw [← Prod.eta (guestBlock core), hend]
        exact hloops.refetched
      · rw [hend]
        rfl

/-! ## Every such block runs -/

theorem assemble_ok
    {ds : U16} {ending : BlockEnd} (body : List BodyInstr)
    (hend : ∀ currIp, ∃ ops, ending.ops currIp = .ok ops) (currIp : U32) :
    ∃ ops, assemble ds ending currIp body = .ok ops := by
  induction body generalizing currIp with
  | nil => exact hend currIp
  | cons instr body ih =>
      rcases ih (currIp + instr.size) with ⟨ops, hops⟩
      unfold assemble
      rw [hops]
      exact ⟨_, rfl⟩

theorem freshRun_exists
    (jit : JitRuntime) {core : Core}
    (hend : ∀ currIp, ∃ ops, (guestBlock core).2.ops currIp = .ok ops) :
    ∃ result after, FreshRun jit core result after := by
  obtain ⟨ops, hops⟩ := @assemble_ok (core.cpu.regs.getSeg .DS) _ (guestBlock core).1 hend
    core.cpu.regs.ip
  have htranslate :
      translateBlock core.bus core.cpu.regs (JitRuntime.physIp core.cpu.regs) = .ok ops :=
    (translateBlock_eq core).trans hops
  have hrun : ∃ run, jit.emptied.execute core.bus core.cpu.regs = .ok run := by
    unfold JitRuntime.execute JitRuntime.emptied
    simp only
    rw [htranslate]
    cases ops with
    | nil => exact ⟨_, rfl⟩
    | cons op ops => exact ⟨_, rfl⟩
  rcases hrun with ⟨⟨result, jit', bus, regs⟩, hexecute⟩
  exact ⟨result, _, jit', bus, regs, hexecute, rfl⟩

/-- The freshly compiled block at CS:IP runs and does what interpreting its
instructions one by one does. -/
def FreshBlockAgrees (jit : JitRuntime) (core : Core) : Prop :=
  ∃ result after, FreshRun jit core result after ∧ BlockAgrees core result after

theorem freshBlock_agrees_iff (jit : JitRuntime) (core : Core) :
    FreshBlockAgrees jit core ↔
      IdleBlock (guestBlock core) ∨
        ∃ rel, (guestBlock core).2 = .jmp rel ∧ LoopsInPlace core (guestBlock core).1 rel := by
  constructor
  · rintro ⟨result, after, hrun, hagrees⟩
    exact (agrees_iff_of_freshRun hrun).mp hagrees
  · intro hcondition
    have hend : ∀ currIp, ∃ ops, (guestBlock core).2.ops currIp = .ok ops := by
      intro currIp
      rcases hcondition with ⟨-, hend | hend⟩ | ⟨rel, hend, -⟩ <;> rw [hend] <;> exact ⟨_, rfl⟩
    rcases freshRun_exists jit hend with ⟨result, after, hrun⟩
    exact ⟨result, after, hrun, (agrees_iff_of_freshRun hrun).mpr hcondition⟩

/-- `MOV BYTE [0006h], 00h` in front of a jump back to it, whose displacement is at
0006h. -/
def overwritingCore : Core where
  cpu := Interpreter.new
  bus :=
    { Bus.new none (fun _ => 0) with
      mem := Memory.new.loadBytes 0 [0xC6, 0x06, 0x06, 0x00, 0x00, 0xEB, 0xF9] }

example :
    guestBlock overwritingCore = ([.movMem 6 0], .jmp 0xF9) ∧
      overwritingCore.instrBehind [.movMem 6 0] = .inr (.jmp 0) := by
  decide +kernel

/-! ## A misplaced store -/

/-- A fresh machine in front of `MOV CX, 1234h` and `HLT`. -/
def movCxCore : Core where
  cpu := Interpreter.new
  bus :=
    { Bus.new none (fun _ => 0) with
      mem := Memory.new.loadBytes 0 [0xB9, 0x34, 0x12, 0xF4] }

def idleJit : JitRuntime := ⟨fun _ => none, fun _ => 0⟩

/-- Interpretation leaves 1234h in CX; the block leaves CX at zero and 1234h in
the high half of EAX. -/
theorem movCx_misplaced :
    (∃ guest, InterpretsBlock (guestBlock movCxCore) movCxCore .halt guest ∧
        guest.cpu.regs.get16 .CX = 0x1234) ∧
      ¬ FreshBlockAgrees idleJit movCxCore := by
  have hblock : guestBlock movCxCore = ([.movReg .CX 0x1234], .hlt) := by decide +kernel
  have hbody : InterpretsBody [.movReg .CX 0x1234] movCxCore
      ((BodyInstr.movReg .CX 0x1234).interp movCxCore) :=
    .cons (by decide +kernel) .nil
  have hlast : ((BodyInstr.movReg .CX 0x1234).interp movCxCore).guestInstr = .inr .hlt := by
    decide +kernel
  constructor
  · rw [hblock]
    exact ⟨_, ⟨_, hbody, fun _ => hlast, rfl⟩, by decide +kernel⟩
  · rintro ⟨result, after, ⟨jit, bus, regs, hexecute, rfl⟩, guest, hinterprets, hsame⟩
    have hregs : (idleJit.emptied.execute movCxCore.bus movCxCore.cpu.regs).map
        (fun run => run.2.2.2.get16 .CX) = .ok 0 := by
      decide +kernel
    rw [hexecute] at hregs
    have hcx : regs.get16 .CX = 0 := Except.ok.inj hregs
    have hgp := congrFun hsame.gp .CX
    have hguest : guest.cpu.regs.gp .CX = 0x1234 := by
      have hafter := congrArg (fun last : StepResult × Core => last.2.cpu.regs.gp .CX)
        (interpretsBlock_iff_refetched.mp hinterprets).2
      rw [hblock] at hafter
      exact hafter.trans (by decide +kernel)
    rw [hguest] at hgp
    have hword : regs.get16 .CX = 0x1234 := congrArg (BitVec.setWidth 16) hgp
    rw [hcx] at hword
    revert hword
    decide

end Kita98
