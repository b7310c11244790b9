import Kita98.ByteStore

/-!
# Frames of words on a stack

A stack grows down from a fixed top in a byte store whose addresses wrap
around; `addr d` is the address of the word at depth `d`.  Words of different
depths share no byte up to a limit on the depth, and up to that limit a frame
that is pushed leaves the frames above it as they were.
-/

namespace WordStack

open ByteStore

variable {n : ℕ}

/-- Two words share no byte. -/
structure Apart (a b : BitVec n) : Prop where
  same : a ≠ b
  next : a ≠ b + 1
  prev : a + 1 ≠ b

theorem Apart.symm {a b : BitVec n} (hapart : Apart a b) : Apart b a :=
  ⟨hapart.same.symm, hapart.prev.symm, hapart.next.symm⟩

theorem Apart.readWord_writeWord
    {a b : BitVec n} (hapart : Apart b a) (store : BitVec n → BitVec 8) (v : BitVec 16) :
    readWord (writeWord store a v) b = readWord store b := by
  have hlast : b + 1 ≠ a + 1 := fun hsame => hapart.same (add_right_cancel hsame)
  exact readWord_writeWord_of_disjoint store v hapart.same hapart.next hapart.prev hlast

/-- Up to the limit, words at least two bytes apart in depth share no byte. -/
structure Spread (addr : ℕ → BitVec n) (limit : ℕ) : Prop where
  apart : ∀ {d d' : ℕ}, 2 ≤ d → d + 2 ≤ d' → d' ≤ limit → Apart (addr d) (addr d')
  twoBytes : ∀ a : BitVec n, a + 1 ≠ a

/-! ## Pushing -/

/-- Push words, the first of them on top of what lies at `depth`. -/
def push (addr : ℕ → BitVec n) (store : BitVec n → BitVec 8) :
    ℕ → List (BitVec 16) → BitVec n → BitVec 8
  | _, [] => store
  | depth, word :: words => push addr (writeWord store (addr (depth + 2)) word) (depth + 2) words

theorem push_shift
    (addr : ℕ → BitVec n) (store : BitVec n → BitVec 8) (above depth : ℕ)
    (words : List (BitVec 16)) :
    push (fun d => addr (above + d)) store depth words =
      push addr store (above + depth) words := by
  induction words generalizing store depth with
  | nil => rfl
  | cons word words ih => exact ih _ (depth + 2)

theorem push_append
    (addr : ℕ → BitVec n) (store : BitVec n → BitVec 8) (depth : ℕ) (words : List (BitVec 16))
    (word : BitVec 16) :
    push addr store depth (words ++ [word]) =
      writeWord (push addr store depth words) (addr (depth + 2 * words.length + 2)) word := by
  induction words generalizing store depth with
  | nil => rfl
  | cons first words ih =>
      have hdeep : depth + 2 + 2 * words.length + 2 =
          depth + 2 * (words.length + 1) + 2 := by
        omega
      rw [List.cons_append, push, ih, push, List.length_cons, hdeep]

section Pushed

variable {addr : ℕ → BitVec n} {limit depth : ℕ} {words : List (BitVec 16)}

theorem readWord_push_above
    (hspread : Spread addr limit) (store : BitVec n → BitVec 8) {d : ℕ} (hd : 2 ≤ d)
    (habove : d ≤ depth) (hfits : depth + 2 * words.length ≤ limit) :
    readWord (push addr store depth words) (addr d) = readWord store (addr d) := by
  induction words generalizing store depth with
  | nil => rfl
  | cons word words ih =>
      rw [List.length_cons] at hfits
      have hapart : Apart (addr d) (addr (depth + 2)) :=
        hspread.apart hd (by omega) (by omega)
      have hbelow : d ≤ depth + 2 := by omega
      have hrest := ih (writeWord store (addr (depth + 2)) word) hbelow (by omega)
      rw [push, hrest, hapart.readWord_writeWord]

theorem readWord_push
    (hspread : Spread addr limit) (store : BitVec n → BitVec 8)
    (hfits : depth + 2 * words.length ≤ limit) (i : ℕ) (hi : i < words.length) :
    readWord (push addr store depth words) (addr (depth + 2 * (i + 1))) = words[i] := by
  induction words generalizing store depth i with
  | nil => simp at hi
  | cons word words ih =>
      rw [List.length_cons] at hfits hi
      have hfits' : depth + 2 + 2 * words.length ≤ limit := by omega
      rw [push]
      cases i with
      | zero =>
          have hself := readWord_writeWord_self store word (hspread.twoBytes (addr (depth + 2)))
          have hkept := readWord_push_above hspread (writeWord store (addr (depth + 2)) word)
            (Nat.le_add_left 2 depth) le_rfl hfits'
          exact hkept.trans hself
      | succ i =>
          have hrest := ih (writeWord store (addr (depth + 2)) word) hfits' i (by omega)
          rw [show depth + 2 * (i + 1 + 1) = depth + 2 + 2 * (i + 1) by omega, hrest]
          rfl

/-- Nothing is written but the words. -/
theorem push_outside
    {store : BitVec n → BitVec 8} {c : BitVec n}
    (hout : ∀ i < words.length,
      c ≠ addr (depth + 2 * (i + 1)) ∧ c ≠ addr (depth + 2 * (i + 1)) + 1) :
    push addr store depth words c = store c := by
  induction words generalizing store depth with
  | nil => rfl
  | cons word words ih =>
      have hfirst := hout 0 (Nat.succ_pos _)
      have hrest : ∀ i < words.length,
          c ≠ addr (depth + 2 + 2 * (i + 1)) ∧ c ≠ addr (depth + 2 + 2 * (i + 1)) + 1 := by
        intro i hi
        have hdeep : depth + 2 + 2 * (i + 1) = depth + 2 * (i + 1 + 1) := by omega
        rw [hdeep]
        exact hout (i + 1) (Nat.succ_lt_succ hi)
      rw [push, ih hrest]
      exact writeWord_of_ne store word hfirst.1 hfirst.2

end Pushed

/-! ## Frames -/

structure Frame where
  /-- Depth of the stack before the words are pushed. -/
  above : ℕ
  words : List (BitVec 16)

def Frame.mark (frame : Frame) : ℕ := frame.above + 2 * frame.words.length

def depth : List Frame → ℕ
  | [] => 0
  | frame :: _ => frame.mark

/-- The words of a frame lie in the store. -/
def Frame.Lies (addr : ℕ → BitVec n) (store : BitVec n → BitVec 8) (frame : Frame) : Prop :=
  ∀ (i : ℕ) (hi : i < frame.words.length),
    readWord store (addr (frame.above + 2 * (i + 1))) = frame.words[i]

/-- The words of a frame are the same in both stores. -/
def Frame.Kept (addr : ℕ → BitVec n) (store store' : BitVec n → BitVec 8) (frame : Frame) : Prop :=
  ∀ i < frame.words.length, readWord store' (addr (frame.above + 2 * (i + 1))) =
    readWord store (addr (frame.above + 2 * (i + 1)))

/-- Frames below one another within the limit, innermost first, all of them in
the store. -/
inductive Stacked (addr : ℕ → BitVec n) (limit : ℕ) (store : BitVec n → BitVec 8) :
    List Frame → Prop
  | nil : Stacked addr limit store []
  | cons {frame : Frame} {frames : List Frame} (hbelow : depth frames ≤ frame.above)
      (hfits : frame.mark ≤ limit) (hlies : frame.Lies addr store)
      (hrest : Stacked addr limit store frames) : Stacked addr limit store (frame :: frames)

namespace Stacked

variable {addr : ℕ → BitVec n} {limit : ℕ} {store store' : BitVec n → BitVec 8}
  {frames : List Frame}

theorem frames_le (hstacked : Stacked addr limit store frames) {frame : Frame}
    (hmem : frame ∈ frames) : frame.mark ≤ depth frames := by
  induction hstacked with
  | nil => simp at hmem
  | @cons top frames hbelow hfits hlies hrest ih =>
      have htop : depth (top :: frames) = top.mark := rfl
      rw [htop]
      rcases List.mem_cons.mp hmem with rfl | hmem
      · exact le_rfl
      · have hle := ih hmem
        unfold Frame.mark at hle ⊢
        omega

theorem of_kept
    (hstacked : Stacked addr limit store frames)
    (hkept : ∀ frame ∈ frames, frame.Kept addr store store') :
    Stacked addr limit store' frames := by
  induction hstacked with
  | nil => exact .nil
  | @cons frame frames hbelow hfits hlies hrest ih =>
      have hlies' : frame.Lies addr store' := by
        intro i hi
        rw [hkept frame List.mem_cons_self i hi]
        exact hlies i hi
      apply Stacked.cons hbelow hfits hlies'
      exact ih fun older hmem => hkept older (List.mem_cons_of_mem _ hmem)

/-- A frame that is pushed below the others joins them. -/
theorem push
    (hspread : Spread addr limit) (hstacked : Stacked addr limit store frames) {frame : Frame}
    (hbelow : depth frames ≤ frame.above) (hfits : frame.mark ≤ limit) :
    Stacked addr limit (WordStack.push addr store frame.above frame.words) (frame :: frames) := by
  apply Stacked.cons hbelow hfits (readWord_push hspread store hfits)
  apply hstacked.of_kept
  intro older hmem i hi
  have hmark := hstacked.frames_le hmem
  have hdeep : older.above + 2 * (i + 1) ≤ frame.above := by
    unfold Frame.mark at hmark
    omega
  exact readWord_push_above hspread store (by omega) hdeep hfits

theorem pop {frame : Frame} (hstacked : Stacked addr limit store (frame :: frames)) :
    frame.Lies addr store ∧ Stacked addr limit store frames := by
  cases hstacked with
  | cons hbelow hfits hlies hrest => exact ⟨hlies, hrest⟩

end Stacked

end WordStack
