import Kita98.InterpretedRuns
import Kita98.StepRules

/-!
# Counted loops of a guest

LOOP, LOOPE and LOOPNE count CX down and jump back while it is not zero, the last
two only on one value of ZF.  A body that comes from the head of the loop to its
last instruction with CX as it was makes the rounds that CX asks for, 65536 of
them if it asks for none.
-/

namespace Kita98

open WordBits Exec StepRules Relation Kita98.Core

variable {H : HostFiles}

/-! ## The three instructions -/

inductive LoopKind where
  | loopne | loope | loop
  deriving DecidableEq, Repr

namespace LoopKind

def opcode : LoopKind → U8
  | loopne => 0xE0
  | loope => 0xE1
  | loop => 0xE2

/-- Whether ZF lets the loop go on. -/
def again : LoopKind → Regs → Bool
  | loopne, regs => !regs.getZf
  | loope, regs => regs.getZf
  | loop, _ => true

end LoopKind

/-- A running machine in front of the instruction. -/
structure LoopAt (kind : LoopKind) (rel : U8) (core : Core) : Prop where
  running : core.cpu.halted = false
  opcode : core.byteAt 0 = kind.opcode
  target : core.byteAt 1 = rel

namespace Regs

def countedDown (regs : Regs) : Regs := regs.set16 .CX (regs.get16 .CX - 1)

/-- The registers behind the instruction, IP being that of the next one before. -/
def looped (kind : LoopKind) (rel : U8) (regs : Regs) : Regs :=
  if regs.countedDown.get16 .CX ≠ 0 ∧ kind.again regs then
    regs.countedDown.jumpRel (rel.signExtend 32)
  else regs.countedDown

end Regs

/-- The state behind the instruction. -/
def Core.looped (kind : LoopKind) (rel : U8) (core : Core) : Core :=
  (((core.skip 2).setPrefixes PrefixState.none).setRegs
    ((core.skip 2).cpu.regs.looped kind rel)).counted

section Instruction

variable {kind : LoopKind} {rel : U8} {core : Core}

theorem decrementCx_apply (core : Core) :
    decrementCx core =
      .ok (core.cpu.regs.countedDown.get16 .CX, core.setRegs core.cpu.regs.countedDown) := by
  unfold decrementCx
  rw [bind_ok (getRegs_apply _ _), bind_ok (modRegs_apply _ _)]
  unfold Regs.countedDown
  rw [Regs.get16_set16_self]
  rfl

theorem loopCond_apply (kind : LoopKind) (core : Core) :
    loopCond kind.opcode core =
      .ok (core.cpu.regs.countedDown.get16 .CX != 0 && kind.again core.cpu.regs,
        core.setRegs core.cpu.regs.countedDown) := by
  cases kind with
  | loopne => exact bind_ok (decrementCx_apply core)
  | loope => exact bind_ok (decrementCx_apply core)
  | loop =>
      have hrun : loopCond LoopKind.loop.opcode core =
          .ok (core.cpu.regs.countedDown.get16 .CX != 0, core.setRegs core.cpu.regs.countedDown) :=
        bind_ok (decrementCx_apply core)
      rw [hrun]
      simp only [LoopKind.again, Bool.and_true]

theorem loopRel8_apply (kind : LoopKind) (core : Core) :
    loopRel8 kind.opcode core =
      .ok (.proceed, (core.skip 1).setRegs
        ((core.skip 1).cpu.regs.looped kind (core.byteAt 0))) := by
  have hfetch : fetchU8 core = .ok (core.byteAt 0, core.skip 1) := rfl
  unfold loopRel8
  rw [bind_ok hfetch, bind_ok (loopCond_apply kind _)]
  unfold Regs.looped
  by_cases htaken : (core.skip 1).cpu.regs.countedDown.get16 .CX ≠ 0 ∧
      kind.again (core.skip 1).cpu.regs
  · have hcond : ((core.skip 1).cpu.regs.countedDown.get16 .CX != 0 &&
        kind.again (core.skip 1).cpu.regs) = true := by
      simpa using htaken
    rw [if_pos htaken, if_pos hcond]
    rfl
  · have hcond : ((core.skip 1).cpu.regs.countedDown.get16 .CX != 0 &&
        kind.again (core.skip 1).cpu.regs) ≠ true := by
      simpa using htaken
    rw [if_neg htaken, if_neg hcond]
    rfl

theorem LoopAt.executes (hat : LoopAt kind rel core) :
    executeOne core = .ok (.proceed, core.looped kind rel) := by
  have hopcode : OpcodeAt core 0 := by
    constructor
    · intro j hj
      exact absurd hj (Nat.not_lt_zero j)
    · rw [hat.opcode]
      cases kind <;> decide
  have hdispatch : dispatch (core.byteAt 0) (core.atRound 0) =
      .ok (.proceed, ((core.atRound 0).skip 1).setRegs
        (((core.atRound 0).skip 1).cpu.regs.looped kind ((core.atRound 0).byteAt 0))) := by
    have harm : dispatch kind.opcode = loopRel8 kind.opcode := by
      cases kind <;> rfl
    rw [hat.opcode, harm]
    exact loopRel8_apply kind _
  have htarget : (core.atRound 0).byteAt 0 = rel := hat.target
  rw [htarget] at hdispatch
  exact executeOne_of_dispatch hat.running hopcode hdispatch

theorem LoopAt.idle (hat : LoopAt kind rel core) : IdleBlock (guestBlock core) := by
  have hbyte : core.bus.mem.readU8 (JitRuntime.physIp core.cpu.regs) = kind.opcode := hat.opcode
  unfold guestBlock blockLimit decodeBlock decodeOne
  rw [hbyte]
  cases kind <;> exact ⟨rfl, .inr rfl⟩

end Instruction

/-! ## Rounds -/

/-- One interpreted instruction in front of which the translator does nothing. -/
def Interprets (core core' : Core) : Prop :=
  executeOne core = .ok (.proceed, core') ∧ IdleBlock (guestBlock core)

theorem LoopAt.interprets {kind : LoopKind} {rel : U8} {core : Core} (hat : LoopAt kind rel core) :
    Interprets core (core.looped kind rel) :=
  ⟨hat.executes, hat.idle⟩

/-- Where a loop instruction at `tail` jumps to. -/
def loopHead (tail : U32) (rel : U8) : U32 := (skipIp 2 tail + rel.signExtend 32) &&& 0xFFFF#32

/-- The rounds that CX asks for. -/
def roundsOf (cx : U16) : ℕ := if cx = 0 then 2 ^ 16 else cx.toNat

theorem roundsOf_pos (cx : U16) : 0 < roundsOf cx := by
  unfold roundsOf
  split
  · decide
  · rename_i hcx
    exact Nat.pos_of_ne_zero fun hzero => hcx (BitVec.eq_of_toNat_eq hzero)

theorem roundsOf_le (cx : U16) : roundsOf cx ≤ 2 ^ 16 := by
  unfold roundsOf
  split
  · exact Nat.le_refl _
  · exact Nat.le_of_lt cx.isLt

theorem ofNat_roundsOf (cx : U16) : BitVec.ofNat 16 (roundsOf cx) = cx := by
  unfold roundsOf
  split
  · rename_i hcx
    rw [hcx]
    decide
  · exact BitVec.ofNat_toNat 16 cx

section Loop

variable (kind : LoopKind) (rel : U8) (tail : U32) (Inv : ℕ → Core → Prop)

/-- In front of a round, with `k` rounds to go. -/
structure LoopHead (k : ℕ) (core : Core) : Prop where
  ip : core.cpu.regs.ip = loopHead tail rel
  count : core.cpu.regs.get16 .CX = BitVec.ofNat 16 k
  inv : Inv k core

/-- Behind the body, which has left CX alone and established the invariant of the
next round. -/
structure LoopTail (k : ℕ) (core : Core) : Prop where
  here : LoopAt kind rel core
  ip : core.cpu.regs.ip = tail
  count : core.cpu.regs.get16 .CX = BitVec.ofNat 16 k
  inv : Inv (k - 1) (core.looped kind rel)

/-- Behind the loop, with `k` rounds left. -/
structure LoopLeft (k : ℕ) (core : Core) : Prop where
  ip : core.cpu.regs.ip = skipIp 2 tail
  count : core.cpu.regs.get16 .CX = BitVec.ofNat 16 k
  inv : Inv k core
  ended : k = 0 ∨ kind.again core.cpu.regs = false

/-- The body leads from every round to its end. -/
def BodyLeads (n : ℕ) : Prop :=
  ∀ k, 0 < k → k ≤ n → Leads Interprets (LoopHead rel tail Inv k) (LoopTail kind rel tail Inv k)

end Loop

section Loop

variable {kind : LoopKind} {rel : U8} {tail : U32} {Inv : ℕ → Core → Prop}

theorem looped_cx (regs : Regs) : (regs.looped kind rel).get16 .CX = regs.get16 .CX - 1 := by
  have hcx : regs.countedDown.get16 .CX = regs.get16 .CX - 1 := Regs.get16_set16_self _ _ _
  unfold Regs.looped
  split
  · exact hcx
  · exact hcx

theorem looped_again (regs : Regs) : kind.again (regs.looped kind rel) = kind.again regs := by
  unfold Regs.looped
  cases kind <;> split <;> rfl

theorem looped_ip (regs : Regs) :
    (regs.looped kind rel).ip =
      if regs.get16 .CX - 1 ≠ 0 ∧ kind.again regs then
        (regs.ip + rel.signExtend 32) &&& 0xFFFF#32
      else regs.ip := by
  have hcx : regs.countedDown.get16 .CX = regs.get16 .CX - 1 := Regs.get16_set16_self _ _ _
  unfold Regs.looped
  rw [hcx]
  split <;> rfl

/-- The loop instruction goes back to the head or leaves the loop. -/
theorem LoopTail.next {n k : ℕ} {core : Core} (hk : k < n) (hn : n ≤ 2 ^ 16)
    (htail : LoopTail kind rel tail Inv (k + 1) core) :
    (0 < k ∧ LoopHead rel tail Inv k (core.looped kind rel)) ∨
      ∃ left < n, LoopLeft kind tail Inv left (core.looped kind rel) := by
  have hcx : (core.skip 2).cpu.regs.get16 .CX - 1 = BitVec.ofNat 16 k := by
    have hcount := htail.count
    have hkept : (core.skip 2).cpu.regs.get16 .CX = core.cpu.regs.get16 .CX := rfl
    rw [hkept, hcount, BitVec.ofNat_add]
    exact BitVec.add_sub_cancel _ _
  have hcount : (core.looped kind rel).cpu.regs.get16 .CX = BitVec.ofNat 16 k :=
    (looped_cx _).trans hcx
  have hbehind : (core.skip 2).cpu.regs.ip = skipIp 2 tail := by
    rw [← htail.ip]
    rfl
  have hip := @looped_ip kind rel (core.skip 2).cpu.regs
  rw [hcx, hbehind] at hip
  by_cases htaken : BitVec.ofNat 16 k ≠ 0 ∧ kind.again (core.skip 2).cpu.regs
  · rw [if_pos htaken] at hip
    left
    refine ⟨Nat.pos_of_ne_zero ?_, hip, hcount, htail.inv⟩
    rintro rfl
    exact htaken.1 rfl
  · rw [if_neg htaken] at hip
    right
    refine ⟨k, hk, hip, hcount, htail.inv, ?_⟩
    rcases Nat.eq_zero_or_pos k with hzero | hpos
    · exact .inl hzero
    · right
      have hne : BitVec.ofNat 16 k ≠ 0 := by
        intro hzero
        have hnat := congrArg BitVec.toNat hzero
        rw [BitVec.toNat_ofNat, Nat.mod_eq_of_lt (by omega)] at hnat
        exact absurd hnat (Nat.ne_of_gt hpos)
      have hstop : kind.again (core.skip 2).cpu.regs = false := by
        rw [← Bool.not_eq_true]
        exact fun hagain => htaken ⟨hne, hagain⟩
      exact (looped_again _).trans hstop

/-- The loop rule. -/
theorem loop_leads {n : ℕ} (hpos : 0 < n) (hn : n ≤ 2 ^ 16)
    (hbody : BodyLeads kind rel tail Inv n) :
    Leads Interprets (LoopHead rel tail Inv n)
      fun core => ∃ left < n, LoopLeft kind tail Inv left core := by
  apply Leads.countdown (n := n) ?_ n hpos (Nat.le_refl n)
  intro k hk
  apply (hbody (k + 1) (Nat.succ_pos k) hk).trans
  apply Leads.of_step
  intro core htail
  exact ⟨core.looped kind rel, htail.here.interprets, htail.next hk hn⟩

end Loop

/-! ## Loops in runs of the machine -/

theorem plainRun_of_interprets {rt : Runtime H} {core : Core} (hlimit : rt.maxInstructions = 0)
    (hreach : ReflTransGen Interprets rt.toCore core) :
    ∃ past, PlainRun rt past (rt.setCore core) ∧ ∀ old ∈ past, AtIdle old := by
  induction hreach with
  | refl => exact ⟨[], .start, fun _ hold => absurd hold List.not_mem_nil⟩
  | @tail mid last hmid hone ih =>
      rcases ih with ⟨past, hrun, hidle⟩
      have hexecutes : Executes (rt.setCore mid) := by
        constructor
        · rw [← Bool.not_eq_true]
          intro hset
          have hhalted : mid.cpu.halted = true := hset
          have hhalt := hone.1
          unfold executeOne at hhalt
          rw [bind_ok (read_apply _ _), if_pos hhalted] at hhalt
          cases hhalt
        · unfold limitReached
          have hzero : (rt.setCore mid).maxInstructions = 0 := hlimit
          rw [hzero]
          rfl
      have hstep : plainStep (rt.setCore mid) = .ok (.ok .proceed, rt.setCore last) := by
        rw [plainStep_of_executes hexecutes]
        exact @interpretStep_proceeds _ (rt.setCore mid) _ hone.1
      refine ⟨rt.setCore mid :: past, hrun.step hstep, ?_⟩
      intro old hold
      rcases List.mem_cons.mp hold with rfl | hold
      · exact hone.2
      · exact hidle old hold

theorem run_of_interprets {rt : Runtime H} {core : Core} (hlimit : rt.maxInstructions = 0)
    (hcache : IdleCache rt.jit) (hreach : ReflTransGen Interprets rt.toCore core) :
    ∃ past last, Run rt past last ∧ IdleCache last.jit ∧
      last.withJit rt.jit = rt.setCore core := by
  rcases plainRun_of_interprets hlimit hreach with ⟨past, hplain, hidle⟩
  rcases run_of_plainRun hcache hplain (fun old hold _ => hidle old hold) with
    ⟨past', last, hrun, hlast, -, hstate⟩
  exact ⟨past', last, hrun, hlast, hstate⟩

/-- A loop whose body leads from its head to its last instruction runs through,
with no more rounds than CX asks for: none are left behind it, or ZF has ended
it.  Only the processor, memory and devices have changed. -/
theorem counted_loop
    {rt : Runtime H} {kind : LoopKind} {rel : U8} {tail : U32} {Inv : ℕ → Core → Prop}
    (hlimit : rt.maxInstructions = 0) (hcache : IdleCache rt.jit)
    (hhead : rt.cpu.regs.ip = loopHead tail rel)
    (hinv : Inv (roundsOf (rt.cpu.regs.get16 .CX)) rt.toCore)
    (hbody : BodyLeads kind rel tail Inv (roundsOf (rt.cpu.regs.get16 .CX))) :
    ∃ past last, Run rt past last ∧ IdleCache last.jit ∧
      last.withJit rt.jit = rt.setCore last.toCore ∧
        ∃ left < roundsOf (rt.cpu.regs.get16 .CX), LoopLeft kind tail Inv left last.toCore := by
  have hstart : LoopHead rel tail Inv (roundsOf (rt.cpu.regs.get16 .CX)) rt.toCore :=
    ⟨hhead, (ofNat_roundsOf _).symm, hinv⟩
  rcases loop_leads (roundsOf_pos _) (roundsOf_le _) hbody rt.toCore hstart with
    ⟨core, hreach, hleft⟩
  rcases run_of_interprets hlimit hcache hreach with ⟨past, last, hrun, hlast, hstate⟩
  have hcore : last.toCore = core := congrArg (fun rt : Runtime H => rt.toCore) hstate
  rw [← hcore] at hstate hleft
  exact ⟨past, last, hrun, hlast, hstate, hleft⟩

/-! ## A loop without a body -/

/-- `LOOP` to itself at the start of memory, with CX zero. -/
def delayRuntime : Runtime HostFiles.none where
  cpu := Interpreter.new
  bus := { Bus.new none (fun _ => 0) with mem := Memory.new.loadBytes 0 [0xE2, 0xFE] }
  dos := DosRuntime.new
  jit := ⟨fun _ => none, fun _ => 0⟩
  maxInstructions := 0
  batchQueue := []
  currentBatchIndex := 0

/-- The processor runs, and the code is in place. -/
structure Delaying (core : Core) : Prop where
  running : core.cpu.halted = false
  segment : core.cpu.regs.getSeg .CS = 0
  code : core.bus.mem = delayRuntime.bus.mem

theorem Delaying.looped {core : Core} (hdelaying : Delaying core) :
    Delaying (core.looped .loop 0xFE) := by
  constructor
  · exact hdelaying.running
  · have hseg : ((core.skip 2).cpu.regs.looped .loop 0xFE).seg = core.cpu.regs.seg := by
      unfold Regs.looped
      split <;> rfl
    have hcs : core.cpu.regs.seg .CS = 0 := hdelaying.segment
    exact (congrFun hseg .CS).trans hcs
  · exact hdelaying.code

theorem delaying_body : BodyLeads .loop 0xFE 0 (fun _ => Delaying) (2 ^ 16) := by
  intro k _ _
  apply Leads.of_imp
  intro core hhead
  have hzero : loopHead 0 0xFE = 0 := by decide
  have hip := hhead.ip
  rw [hzero] at hip
  have hbyte : ∀ i, core.byteAt i = delayRuntime.bus.mem.segReadU8 0 (skipIp i 0) := by
    intro i
    unfold Core.byteAt Core.codeByte
    rw [hhead.inv.code, hhead.inv.segment, hip]
  refine ⟨⟨hhead.inv.running, ?_, ?_⟩, hip, hhead.count, hhead.inv.looped⟩
  · rw [hbyte]
    decide +kernel
  · rw [hbyte]
    decide +kernel

/-- 65536 rounds. -/
theorem counted_loop_delay :
    ∃ past last, Run delayRuntime past last ∧ IdleCache last.jit ∧
      last.withJit delayRuntime.jit = delayRuntime.setCore last.toCore ∧
        ∃ left < roundsOf (delayRuntime.cpu.regs.get16 .CX),
          LoopLeft .loop 0 (fun _ => Delaying) left last.toCore := by
  have hrounds : roundsOf (delayRuntime.cpu.regs.get16 .CX) = 2 ^ 16 := by decide +kernel
  have hbody := delaying_body
  rw [← hrounds] at hbody
  exact counted_loop rfl (fun _ _ hblock => nomatch hblock) (by decide +kernel)
    ⟨rfl, by decide +kernel, rfl⟩ hbody

end Kita98
