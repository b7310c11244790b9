import Kita98.Dispatch

/-!
# The prefix loop of `execute_one`

The loop reads byte after byte from CS:IP on, and IP wraps at 64 KiB.  Round
`k` works on the `k`-th byte, with the effects of the bytes before it, so the
loop is described by the bytes alone.
-/

namespace Kita98

open WordBits Kita98.Core Exec

/-- The loop goes on behind the byte. -/
def Skipped (byte : U8) : Prop := prefixEffect byte ≠ none

instance (byte : U8) : Decidable (Skipped byte) :=
  decidable_of_iff ((prefixEffect byte).isSome = true) (by
    unfold Skipped
    rw [Option.isSome_iff_ne_none])

namespace Core

variable (core : Core)

/-- The `k`-th byte from CS:IP on. -/
def byteAt (k : ℕ) : U8 := core.codeByte (skipIp k core.cpu.regs.ip)

/-- The prefix state behind the first `k` bytes. -/
def prefixesAt : ℕ → PrefixState
  | 0 => PrefixState.none
  | k + 1 => (prefixEffect (core.byteAt k)).getD id (prefixesAt k)

def setPrefixes (prefixes : PrefixState) : Core :=
  { core with cpu := { core.cpu with prefixes := prefixes } }

/-- The state in round `k`, with the `k`-th byte fetched. -/
def atRound (k : ℕ) : Core := (core.skip (k + 1)).setPrefixes (core.prefixesAt k)

end Core

/-! ## Rounds of a loop -/

theorem skipIp_succ (k : ℕ) (ip : U32) : skipIp (k + 1) ip = nextIp (skipIp k ip) :=
  skipIp_add k 1 ip

section Rounds

variable (effect : U8 → Option (PrefixState → PrefixState)) (core : Core)

/-- The prefix state behind `k` more prefix bytes. -/
def Core.passed : ℕ → PrefixState
  | 0 => core.cpu.prefixes
  | k + 1 => (effect (core.byteAt k)).getD id (passed k)

/-- The machine with `k` more prefix bytes and the one behind them fetched. -/
def Core.behind (k : ℕ) : Core := (core.skip (k + 1)).setPrefixes (core.passed effect k)

variable {effect core} {k : ℕ}

theorem skipPrefixes_round (fuel : ℕ) (hpassed : effect (core.byteAt k) ≠ none) :
    skipPrefixes effect (fuel + 1) (core.byteAt k) (core.behind effect k) =
      skipPrefixes effect fuel (core.byteAt (k + 1)) (core.behind effect (k + 1)) := by
  rcases Option.ne_none_iff_exists'.mp hpassed with ⟨f, hf⟩
  have hmod : modPrefixes f (core.behind effect k) =
      .ok ((), (core.skip (k + 1)).setPrefixes (core.passed effect (k + 1))) := by
    unfold Core.passed
    rw [hf]
    rfl
  have hfetch : fetchU8 ((core.skip (k + 1)).setPrefixes (core.passed effect (k + 1))) =
      .ok (core.byteAt (k + 1), core.behind effect (k + 1)) := by
    unfold fetchU8 Core.behind Core.skip
    rw [skipIp_succ (k + 1)]
    rfl
  rw [skipPrefixes, hf]
  simp only
  rw [bind_ok hmod, bind_ok hfetch]

theorem skipPrefixes_rounds (fuel : ℕ) (hpassed : ∀ j < k, effect (core.byteAt j) ≠ none) :
    skipPrefixes effect (fuel + k) (core.byteAt 0) (core.behind effect 0) =
      skipPrefixes effect fuel (core.byteAt k) (core.behind effect k) := by
  induction k generalizing fuel with
  | zero => rfl
  | succ k ih =>
      have hrounds := ih (fuel + 1) fun j hj => hpassed j (Nat.lt_succ_of_lt hj)
      have hlast := skipPrefixes_round fuel (hpassed k (Nat.lt_succ_self k))
      rw [show fuel + (k + 1) = fuel + 1 + k by omega, hrounds, hlast]

end Rounds

/-- The loop of `execute_one` starts without a prefix in force. -/
theorem atRound_eq_behind (core : Core) (k : ℕ) :
    core.atRound k = (core.setPrefixes PrefixState.none).behind prefixEffect k := by
  have hprefixes : core.prefixesAt k =
      (core.setPrefixes PrefixState.none).passed prefixEffect k := by
    induction k with
    | zero => rfl
    | succ k ih =>
        unfold Core.prefixesAt Core.passed
        rw [ih]
        rfl
  unfold Core.atRound Core.behind
  rw [hprefixes]
  rfl

theorem skipPrefixes_atRound
    {core : Core} {n : ℕ} (fuel : ℕ) (hskipped : ∀ k < n, Skipped (core.byteAt k)) :
    skipPrefixes prefixEffect (fuel + n) (core.byteAt 0) (core.atRound 0) =
      skipPrefixes prefixEffect fuel (core.byteAt n) (core.atRound n) := by
  rw [atRound_eq_behind, atRound_eq_behind]
  exact @skipPrefixes_rounds _ (core.setPrefixes PrefixState.none) n fuel hskipped

/-! ## The fetch of an opcode -/

/-- `fetchOpcode` with a bound of its own on the rounds of the loop. -/
def fetchOpcodeWithin (fuel : ℕ) : Routine U8 := do
  modPrefixes fun _ => PrefixState.none
  let first ← fetchU8
  skipPrefixes prefixEffect fuel first

theorem fetchOpcodeWithin_apply (fuel : ℕ) (core : Core) :
    fetchOpcodeWithin fuel core =
      skipPrefixes prefixEffect fuel (core.byteAt 0) (core.atRound 0) := rfl

/-- The first byte that is no prefix byte is the opcode. -/
structure OpcodeAt (core : Core) (k : ℕ) : Prop where
  skipped : ∀ j < k, Skipped (core.byteAt j)
  found : ¬ Skipped (core.byteAt k)

theorem OpcodeAt.unique {core : Core} {k k' : ℕ} (hopcode : OpcodeAt core k)
    (hopcode' : OpcodeAt core k') : k = k' := by
  rcases Nat.lt_trichotomy k k' with hlt | heq | hgt
  · exact absurd (hopcode'.skipped k hlt) hopcode.found
  · exact heq
  · exact absurd (hopcode.skipped k' hgt) hopcode'.found

theorem fetchOpcodeWithin_of_opcodeAt
    {core : Core} {k fuel : ℕ} (hopcode : OpcodeAt core k) (hfuel : k < fuel) :
    fetchOpcodeWithin fuel core = .ok (core.byteAt k, core.atRound k) := by
  rcases Nat.exists_eq_add_of_lt hfuel with ⟨spare, rfl⟩
  have hrounds := skipPrefixes_atRound (spare + 1) hopcode.skipped
  have hnone : prefixEffect (core.byteAt k) = none := not_not.mp hopcode.found
  rw [fetchOpcodeWithin_apply, show k + spare + 1 = spare + 1 + k by omega, hrounds,
    skipPrefixes, hnone]
  rfl

theorem fetchOpcodeWithin_of_all_skipped
    {core : Core} (fuel : ℕ) (hskipped : ∀ k, Skipped (core.byteAt k)) :
    fetchOpcodeWithin fuel core = .error .hang := by
  have hrounds := @skipPrefixes_atRound _ fuel 0 fun k _ => hskipped k
  rw [fetchOpcodeWithin_apply, ← Nat.zero_add fuel, hrounds]
  rfl

theorem opcodeAt_of_not_skipped {core : Core} (hfound : ∃ k, ¬ Skipped (core.byteAt k)) :
    ∃ k, OpcodeAt core k := by
  refine ⟨Nat.find hfound, ?_, Nat.find_spec hfound⟩
  intro j hj
  exact not_not.mp (Nat.find_min hfound hj)

/-! ## Once round the segment -/

/-- Every byte that the loop can come to is a prefix byte: the one at CS:IP
and all those of the code segment. -/
def OnlyPrefixes (core : Core) : Prop :=
  Skipped (core.codeByte core.cpu.regs.ip) ∧
    ∀ offset : U16, Skipped (core.codeByte (offset.setWidth 32))

theorem byteAt_add_period (core : Core) (k : ℕ) :
    core.byteAt (k + 1 + 2 ^ 16) = core.byteAt (k + 1) := by
  have hip : skipIp (k + 1 + 2 ^ 16) core.cpu.regs.ip = skipIp (k + 1) core.cpu.regs.ip := by
    apply BitVec.eq_of_toNat_eq
    rw [show k + 1 + 2 ^ 16 = (k + 2 ^ 16) + 1 by omega, skipIp_toNat, skipIp_toNat]
    omega
  unfold Core.byteAt
  rw [hip]

/-- A first byte of some kind is met within one round of the segment. -/
theorem lt_prefixFuel
    {core : Core} {P : U8 → Prop} {k : ℕ} (hbefore : ∀ j < k, P (core.byteAt j))
    (hfirst : ¬ P (core.byteAt k)) : k < prefixFuel := by
  by_contra hlarge
  have hsplit : k = (k - 2 ^ 16 - 1) + 1 + 2 ^ 16 := by
    unfold prefixFuel at hlarge
    omega
  have hsame := byteAt_add_period core (k - 2 ^ 16 - 1)
  rw [← hsplit] at hsame
  have hlast := hbefore (k - 2 ^ 16 - 1 + 1) (by omega)
  rw [← hsame] at hlast
  exact hfirst hlast

theorem OpcodeAt.lt_prefixFuel {core : Core} {k : ℕ} (hopcode : OpcodeAt core k) :
    k < prefixFuel :=
  Kita98.lt_prefixFuel hopcode.skipped hopcode.found

theorem skipIp_eq_offset (k : ℕ) (ip : U32) :
    skipIp (k + 1) ip = (BitVec.ofNat 16 (ip.toNat + (k + 1))).setWidth 32 := by
  apply BitVec.eq_of_toNat_eq
  rw [skipIp_toNat, BitVec.toNat_setWidth, BitVec.toNat_ofNat]
  omega

theorem onlyPrefixes_iff (core : Core) :
    OnlyPrefixes core ↔ ∀ k, Skipped (core.byteAt k) := by
  constructor
  · rintro ⟨hfirst, hall⟩ k
    cases k with
    | zero => exact hfirst
    | succ k =>
        unfold Core.byteAt
        rw [skipIp_eq_offset]
        exact hall _
  · intro hskipped
    constructor
    · exact hskipped 0
    · intro offset
      have hk := hskipped ((offset.toNat + (2 ^ 32 - 1) * core.cpu.regs.ip.toNat + 2 ^ 16 - 1) + 1)
      unfold Core.byteAt at hk
      rw [skipIp_eq_offset] at hk
      have hoffset : BitVec.ofNat 16 (core.cpu.regs.ip.toNat +
          ((offset.toNat + (2 ^ 32 - 1) * core.cpu.regs.ip.toNat + 2 ^ 16 - 1) + 1)) =
            offset := by
        apply BitVec.eq_of_toNat_eq
        rw [BitVec.toNat_ofNat]
        omega
      rw [hoffset] at hk
      exact hk

end Kita98
