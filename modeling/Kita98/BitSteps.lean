import Mathlib.Data.Nat.Prime.Basic
import Mathlib.Dynamics.PeriodicPts.Lemmas
import Mathlib.Tactic

/-!
# Shifts and rotations, one bit at a time

A word with a carry beside it moves by one bit, the bit that leaves it becoming
the carry.  The states after `n` moves have closed forms; a rotation through the
carry is a rotation of the ring that word and carry form together.
-/

namespace BitSteps

/-! ## Rotations -/

section Rotate

variable {w : ℕ} (x : BitVec w) (m n : ℕ)

theorem rotateLeft_rotateLeft : (x.rotateLeft m).rotateLeft n = x.rotateLeft (m + n) := by
  apply BitVec.eq_of_getMsbD_eq
  intro i hi
  have hless : (n + i) % w < w := Nat.mod_lt _ (by omega)
  rw [BitVec.getMsbD_rotateLeft, BitVec.getMsbD_rotateLeft, BitVec.getMsbD_rotateLeft,
    Nat.add_mod_mod, ← Nat.add_assoc]
  simp [hi, hless]

theorem rotateLeft_of_dvd (hdvd : w ∣ n) : x.rotateLeft n = x := by
  apply BitVec.eq_of_getMsbD_eq
  intro i hi
  have hsame : (n + i) % w = i := by
    rw [Nat.add_mod, Nat.mod_eq_zero_of_dvd hdvd, Nat.zero_add, Nat.mod_mod, Nat.mod_eq_of_lt hi]
  rw [BitVec.getMsbD_rotateLeft, hsame]
  simp [hi]

theorem dvd_sub_mod_add (hw : 0 < w) : w ∣ w - n % w + n := by
  have hless := Nat.mod_lt n hw
  have hsum : w - n % w + n = w + w * (n / w) := by
    have hdiv := Nat.mod_add_div n w
    omega
  rw [hsum]
  exact (dvd_refl w).add (Nat.dvd_mul_right w _)

theorem rotateRight_eq_rotateLeft (hw : 0 < w) : x.rotateRight n = x.rotateLeft (w - n % w) := by
  have hless := Nat.mod_lt n hw
  by_cases hzero : n % w = 0
  · rw [rotateLeft_of_dvd x (w - n % w) (by rw [hzero, Nat.sub_zero]), BitVec.rotateRight_def, hzero,
      BitVec.shiftLeft_eq_zero (by omega)]
    simp
  · have hmod : (w - n % w) % w = w - n % w := Nat.mod_eq_of_lt (by omega)
    have hback : w - (w - n % w) = n % w := by omega
    rw [BitVec.rotateLeft_def, hmod, hback, BitVec.rotateRight_def, BitVec.or_comm]

theorem rotateLeft_rotateRight : (x.rotateRight n).rotateLeft n = x := by
  rcases Nat.eq_zero_or_pos w with hw | hw
  · subst hw
    exact Subsingleton.elim _ _
  · rw [rotateRight_eq_rotateLeft x n hw, rotateLeft_rotateLeft]
    exact rotateLeft_of_dvd x _ (dvd_sub_mod_add n hw)

theorem rotateRight_rotateLeft : (x.rotateLeft n).rotateRight n = x := by
  rcases Nat.eq_zero_or_pos w with hw | hw
  · subst hw
    exact Subsingleton.elim _ _
  · rw [rotateRight_eq_rotateLeft _ n hw, rotateLeft_rotateLeft, Nat.add_comm]
    exact rotateLeft_of_dvd x _ (dvd_sub_mod_add n hw)

theorem rotateLeft_injective : Function.Injective fun x : BitVec w => x.rotateLeft n := by
  intro x y hsame
  rw [← rotateRight_rotateLeft x n, ← rotateRight_rotateLeft y n]
  exact congrArg (fun z => z.rotateRight n) hsame

theorem rotateRight_zero : x.rotateRight 0 = x :=
  calc x.rotateRight 0 = (x.rotateRight 0).rotateLeft 0 :=
        (rotateLeft_of_dvd _ 0 (Nat.dvd_zero w)).symm
    _ = x := rotateLeft_rotateRight x 0

theorem rotateRight_rotateRight : (x.rotateRight m).rotateRight n = x.rotateRight (m + n) := by
  apply rotateLeft_injective (m + n)
  calc ((x.rotateRight m).rotateRight n).rotateLeft (m + n)
      = (((x.rotateRight m).rotateRight n).rotateLeft n).rotateLeft m := by
        rw [rotateLeft_rotateLeft, Nat.add_comm]
    _ = x := by rw [rotateLeft_rotateRight, rotateLeft_rotateRight]
    _ = (x.rotateRight (m + n)).rotateLeft (m + n) := (rotateLeft_rotateRight x _).symm

/-- The bit that leaves at the top comes in at the bottom. -/
theorem rotateLeft_one_low (hw : 0 < w) : (x.rotateLeft 1).getLsbD 0 = x.msb := by
  have hzero : (1 + (w - 1)) % w = 0 := by
    rw [Nat.add_sub_cancel' hw, Nat.mod_self]
  rw [BitVec.getLsbD_eq_getMsbD, BitVec.getMsbD_rotateLeft, Nat.sub_zero, hzero, BitVec.msb]
  simp [hw]

theorem rotateRight_one_msb (hw : 0 < w) : (x.rotateRight 1).msb = x.getLsbD 0 := by
  rw [← rotateLeft_one_low _ hw, rotateLeft_rotateRight]

theorem rotateLeft_low (hpos : 0 < n) (hle : n ≤ w) :
    (x.rotateLeft n).getLsbD 0 = x.getLsbD (w - n) := by
  have hw : 0 < w := by omega
  have hindex : (n + (w - 1)) % w = n - 1 := by
    rw [show n + (w - 1) = n - 1 + w by omega, Nat.add_mod_right, Nat.mod_eq_of_lt (by omega)]
  have hback : w - 1 - (n - 1) = w - n := by omega
  have hless : n - 1 < w := by omega
  rw [BitVec.getLsbD_eq_getMsbD, BitVec.getMsbD_rotateLeft, Nat.sub_zero, hindex,
    BitVec.getMsbD_eq_getLsbD, hback]
  simp [hw, hless]

theorem rotateRight_msb (hpos : 0 < n) (hle : n ≤ w) :
    (x.rotateRight n).msb = x.getLsbD (n - 1) := by
  obtain ⟨n, rfl⟩ := Nat.exists_eq_succ_of_ne_zero hpos.ne'
  have hinside : 0 < w - n := by omega
  rw [Nat.succ_eq_add_one, ← rotateRight_rotateRight, rotateRight_one_msb _ (by omega),
    BitVec.getLsbD_rotateRight_of_lt (by omega), Nat.add_zero, Nat.add_sub_cancel]
  simp [hinside]

end Rotate

/-! ## The bit that a shift loses last -/

section Shift

variable {w n : ℕ} (x : BitVec w)

theorem shiftLeft_msb (hpos : 0 < n) (hle : n ≤ w) : (x <<< (n - 1)).msb = x.getLsbD (w - n) := by
  have hback : w - 1 - (n - 1) = w - n := by omega
  have hless : w - 1 < w := by omega
  have hinside : ¬ w - 1 < n - 1 := by omega
  rw [BitVec.msb_eq_getLsbD_last, BitVec.getLsbD_shiftLeft, hback]
  simp [hless, hinside]

theorem sshiftRight_low (hless : n < w) : (x.sshiftRight n).getLsbD 0 = x.getLsbD n := by
  have hpos : 0 < w := by omega
  have hnot : ¬ w ≤ 0 := by omega
  rw [BitVec.getLsbD_sshiftRight, Nat.add_zero]
  simp [hless, hnot]

end Shift

/-! ## Moves by one bit -/

/-- What enters at the other end: the bit that left, the old carry, or nothing
new. -/
inductive Move where
  | rol | ror | rcl | rcr | shl | shr | sar
  deriving DecidableEq, Repr

section Moves

variable {w : ℕ}

/-- The carry on top of the word. -/
def ring (s : BitVec w × Bool) : BitVec (w + 1) := BitVec.cons s.2 s.1

def unring (r : BitVec (w + 1)) : BitVec w × Bool := (r.setWidth w, r.msb)

def Move.next (move : Move) (s : BitVec w × Bool) : BitVec w × Bool :=
  match move with
  | .rol => (s.1.rotateLeft 1, s.1.msb)
  | .ror => (s.1.rotateRight 1, s.1.getLsbD 0)
  | .rcl => ((s.1 <<< 1) ||| (BitVec.ofBool s.2).setWidth w, s.1.msb)
  | .rcr => ((s.1 >>> 1) ||| ((BitVec.ofBool s.2).setWidth w <<< (w - 1)), s.1.getLsbD 0)
  | .shl => (s.1 <<< 1, s.1.msb)
  | .shr => (s.1 >>> 1, s.1.getLsbD 0)
  | .sar => (s.1.sshiftRight 1, s.1.getLsbD 0)

/-- The state after `n` moves, where there are any. -/
def Move.after (move : Move) (n : ℕ) (s : BitVec w × Bool) : BitVec w × Bool :=
  match move with
  | .rol => (s.1.rotateLeft n, (s.1.rotateLeft n).getLsbD 0)
  | .ror => (s.1.rotateRight n, (s.1.rotateRight n).msb)
  | .rcl => unring ((ring s).rotateLeft n)
  | .rcr => unring ((ring s).rotateRight n)
  | .shl => (s.1 <<< n, (s.1 <<< (n - 1)).msb)
  | .shr => (s.1 >>> n, s.1.getLsbD (n - 1))
  | .sar => (s.1.sshiftRight n, (s.1.sshiftRight (n - 1)).getLsbD 0)

theorem unring_ring (s : BitVec w × Bool) : unring (ring s) = s :=
  Prod.ext BitVec.setWidth_cons BitVec.msb_cons

theorem ring_unring (r : BitVec (w + 1)) : ring (unring r) = r := BitVec.cons_msb_setWidth r

theorem ring_rcl (hw : 0 < w) (s : BitVec w × Bool) :
    ring (Move.rcl.next s) = (ring s).rotateLeft 1 := by
  apply BitVec.eq_of_getLsbD_eq
  intro i hi
  rw [BitVec.getLsbD_rotateLeft_of_le (by omega), ring, ring, BitVec.getLsbD_cons,
    BitVec.getLsbD_cons, BitVec.getLsbD_cons, Bool.cond_eq_ite]
  rcases Nat.eq_zero_or_pos i with hzero | hpos
  · subst hzero
    have hne : 0 ≠ w := by omega
    simp [Move.next, hne, hw]
  · have hone : ¬ i < 1 := by omega
    have hne : i - 1 ≠ w := by omega
    by_cases hlast : i = w
    · subst hlast
      simp [Move.next, hone, hne, BitVec.msb_eq_getLsbD_last]
    · have hless : i < w := by omega
      have hlow : i ≠ 0 := by omega
      simp [Move.next, hone, hne, hlast, hi, hless, hlow, BitVec.getLsbD_ofBool,
        -BitVec.getLsbD_eq_getElem]

theorem ring_rcr (hw : 0 < w) (s : BitVec w × Bool) :
    ring (Move.rcr.next s) = (ring s).rotateRight 1 := by
  apply BitVec.eq_of_getLsbD_eq
  intro i hi
  rw [BitVec.getLsbD_rotateRight_of_lt (by omega), ring, ring, BitVec.getLsbD_cons,
    BitVec.getLsbD_cons, BitVec.getLsbD_cons, Bool.cond_eq_ite, Nat.add_sub_cancel]
  by_cases hlast : i = w
  · subst hlast
    have hne : 0 ≠ i := by omega
    simp [Move.next, hne]
  · have hless : i < w := by omega
    by_cases htop : 1 + i = w
    · subst htop
      simp [Move.next, hless]
    · have hbelow : i < w - 1 := by omega
      simp [Move.next, hlast, htop, hless, hbelow]

/-- The words that a move goes through, when the carry has no part in them. -/
theorem word_iterate {f : BitVec w × Bool → BitVec w × Bool} {g : ℕ → BitVec w → BitVec w}
    (hzero : ∀ x, g 0 x = x) (hadd : ∀ n x, g 1 (g n x) = g (n + 1) x)
    (hword : ∀ s, (f s).1 = g 1 s.1) (n : ℕ) (s : BitVec w × Bool) : (f^[n] s).1 = g n s.1 := by
  induction n with
  | zero => exact (hzero s.1).symm
  | succ n ih => rw [Function.iterate_succ_apply', hword, ih, hadd]

/-- The rings that a move goes through. -/
theorem ring_iterate {f : BitVec w × Bool → BitVec w × Bool}
    {g : ℕ → BitVec (w + 1) → BitVec (w + 1)} (hzero : ∀ r, g 0 r = r)
    (hadd : ∀ n r, g 1 (g n r) = g (n + 1) r) (hring : ∀ s, ring (f s) = g 1 (ring s)) (n : ℕ)
    (s : BitVec w × Bool) : ring (f^[n] s) = g n (ring s) := by
  induction n with
  | zero => exact (hzero _).symm
  | succ n ih => rw [Function.iterate_succ_apply', hring, ih, hadd]

theorem rcl_iterate (hw : 0 < w) (n : ℕ) (s : BitVec w × Bool) :
    Move.rcl.next^[n] s = Move.rcl.after n s := by
  have hring := @ring_iterate w Move.rcl.next (fun n r => r.rotateLeft n)
    (fun r => rotateLeft_of_dvd r 0 (Nat.dvd_zero _)) (fun n r => rotateLeft_rotateLeft r n 1)
    (ring_rcl hw) n s
  rw [← unring_ring (Move.rcl.next^[n] s), hring]
  rfl

theorem rcr_iterate (hw : 0 < w) (n : ℕ) (s : BitVec w × Bool) :
    Move.rcr.next^[n] s = Move.rcr.after n s := by
  have hring := @ring_iterate w Move.rcr.next (fun n r => r.rotateRight n)
    rotateRight_zero (fun n r => rotateRight_rotateRight r n 1) (ring_rcr hw) n s
  rw [← unring_ring (Move.rcr.next^[n] s), hring]
  rfl

/-- Moves one bit at a time lead to the closed forms. -/
theorem next_iterate (hw : 0 < w) (move : Move) {n : ℕ} (hpos : 0 < n) (s : BitVec w × Bool) :
    move.next^[n] s = move.after n s := by
  cases move with
  | rcl => exact rcl_iterate hw n s
  | rcr => exact rcr_iterate hw n s
  | rol =>
      obtain ⟨n, rfl⟩ := Nat.exists_eq_succ_of_ne_zero hpos.ne'
      have hword := @word_iterate w Move.rol.next (fun n x => x.rotateLeft n)
        (fun x => rotateLeft_of_dvd x 0 (Nat.dvd_zero w)) (fun n x => rotateLeft_rotateLeft x n 1)
        (fun _ => rfl) n s
      rw [Function.iterate_succ_apply', Move.next, hword, Move.after, Nat.succ_eq_add_one,
        ← rotateLeft_rotateLeft,
        rotateLeft_one_low _ hw]
  | ror =>
      obtain ⟨n, rfl⟩ := Nat.exists_eq_succ_of_ne_zero hpos.ne'
      have hword := @word_iterate w Move.ror.next (fun n x => x.rotateRight n)
        rotateRight_zero (fun n x => rotateRight_rotateRight x n 1) (fun _ => rfl) n s
      rw [Function.iterate_succ_apply', Move.next, hword, Move.after, Nat.succ_eq_add_one,
        ← rotateRight_rotateRight,
        rotateRight_one_msb _ hw]
  | shl =>
      obtain ⟨n, rfl⟩ := Nat.exists_eq_succ_of_ne_zero hpos.ne'
      have hword := @word_iterate w Move.shl.next (fun n x => x <<< n)
        BitVec.shiftLeft_zero (fun n x => (BitVec.shiftLeft_add x n 1).symm)
        (fun _ => rfl) n s
      rw [Function.iterate_succ_apply', Move.next, hword, Move.after, ← BitVec.shiftLeft_add]
      rfl
  | shr =>
      obtain ⟨n, rfl⟩ := Nat.exists_eq_succ_of_ne_zero hpos.ne'
      have hword := @word_iterate w Move.shr.next (fun n x => x >>> n)
        BitVec.ushiftRight_zero (fun n x => (BitVec.shiftRight_add x n 1).symm)
        (fun _ => rfl) n s
      rw [Function.iterate_succ_apply', Move.next, hword, Move.after, ← BitVec.shiftRight_add,
        BitVec.getLsbD_ushiftRight]
      rfl
  | sar =>
      obtain ⟨n, rfl⟩ := Nat.exists_eq_succ_of_ne_zero hpos.ne'
      have hword := @word_iterate w Move.sar.next (fun n x => x.sshiftRight n)
        (fun _ => BitVec.sshiftRight_zero) (fun n x => BitVec.sshiftRight_add.symm)
        (fun _ => rfl) n s
      rw [Function.iterate_succ_apply', Move.next, hword, Move.after, ← BitVec.sshiftRight_add]
      rfl

/-! ## States that a rotation through the carry leaves alone -/

def Uniform (s : BitVec w × Bool) : Prop := s.1 = if s.2 then BitVec.allOnes w else 0

instance (s : BitVec w × Bool) : Decidable (Uniform s) := by
  unfold Uniform
  infer_instance

theorem getLsbD_of_uniform {s : BitVec w × Bool} (hs : Uniform s) {i : ℕ} (hi : i < w) :
    s.1.getLsbD i = s.2 := by
  rw [hs]
  cases s.2 <;> simp [hi]

theorem rcl_uniform (hw : 0 < w) {s : BitVec w × Bool} (hs : Uniform s) :
    Move.rcl.next s = s := by
  apply Prod.ext
  · apply BitVec.eq_of_getLsbD_eq
    intro i hi
    rw [getLsbD_of_uniform hs hi, Move.next, BitVec.getLsbD_or, BitVec.getLsbD_shiftLeft]
    rcases Nat.eq_zero_or_pos i with hzero | hpos
    · simp [hzero, hw]
    · have hone : ¬ i < 1 := by omega
      have hlow : i ≠ 0 := by omega
      rw [getLsbD_of_uniform hs (show i - 1 < w by omega)]
      simp [hi, hone, hlow, BitVec.getLsbD_ofBool]
  · rw [Move.next, BitVec.msb_eq_getLsbD_last, getLsbD_of_uniform hs (by omega)]

theorem uniform_of_rcl {s : BitVec w × Bool} (hs : Move.rcl.next s = s) : Uniform s := by
  have hbit : ∀ i, i < w → s.1.getLsbD i = s.2 := by
    intro i hi
    induction i with
    | zero =>
        rw [← congrArg Prod.fst hs, Move.next, BitVec.getLsbD_or]
        simp [hi]
    | succ i ih =>
        have hprev := ih (by omega)
        rw [← congrArg Prod.fst hs, Move.next, BitVec.getLsbD_or, BitVec.getLsbD_shiftLeft]
        simp [hi, -BitVec.getLsbD_eq_getElem, hprev]
  apply BitVec.eq_of_getLsbD_eq
  intro i hi
  rw [hbit i hi]
  cases s.2 <;> simp [hi]

theorem unring_eq_iff (r : BitVec (w + 1)) (s : BitVec w × Bool) : unring r = s ↔ r = ring s := by
  constructor
  · intro hr
    rw [← hr, ring_unring]
  · intro hr
    rw [hr, unring_ring]

/-- A ring of prime length comes back to itself after whole rounds only, unless
it looks the same everywhere. -/
theorem rcl_iterate_eq_iff (hw : 0 < w) (hprime : (w + 1).Prime) (n : ℕ) (s : BitVec w × Bool) :
    Move.rcl.next^[n] s = s ↔ w + 1 ∣ n ∨ Uniform s := by
  have hround : ∀ n, w + 1 ∣ n → Move.rcl.next^[n] s = s := by
    intro n hdvd
    rw [rcl_iterate hw, Move.after, rotateLeft_of_dvd _ n hdvd, unring_ring]
  constructor
  · intro hfixed
    by_cases hdvd : w + 1 ∣ n
    · exact .inl hdvd
    · have hcoprime : n.gcd (w + 1) = 1 :=
        Nat.Coprime.symm ((Nat.Prime.coprime_iff_not_dvd hprime).mpr hdvd)
      have hone := Function.IsPeriodicPt.gcd hfixed (hround (w + 1) (dvd_refl _))
      rw [hcoprime] at hone
      exact .inr (uniform_of_rcl hone)
  · intro hcases
    rcases hcases with hdvd | hs
    · exact hround n hdvd
    · exact Function.iterate_fixed (rcl_uniform hw hs) n

theorem rcr_iterate_eq_iff (hw : 0 < w) (hprime : (w + 1).Prime) (n : ℕ) (s : BitVec w × Bool) :
    Move.rcr.next^[n] s = s ↔ w + 1 ∣ n ∨ Uniform s := by
  rw [← rcl_iterate_eq_iff hw hprime, rcr_iterate hw, rcl_iterate hw, Move.after, Move.after,
    unring_eq_iff, unring_eq_iff]
  constructor
  · intro hright
    rw [← hright, rotateLeft_rotateRight, hright]
  · intro hleft
    rw [← hleft, rotateRight_rotateLeft, hleft]

end Moves

end BitSteps
