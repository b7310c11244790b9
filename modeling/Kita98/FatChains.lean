import Kita98.FatRoundTrip

/-!
# The chain of a file and what is read of it

The clusters that the FAT strings together are arbitrary data: the chain may end
early, return to itself or lead out of the image.  Reading follows it until the
size is reached, and a chain that breaks off before that is not reported.
-/

namespace Kita98

open Disk

namespace FatFileSystem

/-- The cluster `n` links behind `c`. -/
def chainAt (fs : FatFileSystem) (disk : Disk) : U16 → ℕ → Except Error U16
  | c, 0 => .ok c
  | c, n + 1 =>
      match fs.getNextCluster disk c with
      | .error e => .error e
      | .ok next => chainAt fs disk next n

def clusterLba (fs : FatFileSystem) (c : U16) : ℕ :=
  fs.dataLba + (c.toNat - 2) * fs.sectorsPerClusterPhys

def clusterBytes (fs : FatFileSystem) : ℕ := fs.sectorsPerClusterPhys * sectorSize

def clusterContent (fs : FatFileSystem) (disk : Disk) (c : U16) : List U8 :=
  slice disk.data (disk.headerOffset + fs.clusterLba c * sectorSize) fs.clusterBytes

/-- The loop follows the cluster and finds it in the image. -/
def Readable (fs : FatFileSystem) (disk : Disk) (c : U16) : Prop :=
  fs.followsCluster c ∧ disk.Holds (fs.clusterLba c) fs.sectorsPerClusterPhys

instance (fs : FatFileSystem) (disk : Disk) (c : U16) : Decidable (fs.Readable disk c) := by
  unfold Readable
  infer_instance

section Rounds

variable {fs : FatFileSystem} {disk : Disk} {size : ℕ} {c : U16} {data : List U8}

theorem clusterBytes_pos (fs : FatFileSystem) : 0 < fs.clusterBytes :=
  Nat.mul_pos fs.sectorsPerClusterPhys_pos (by decide)

theorem readCluster_of_readable (hreadable : fs.Readable disk c) :
    disk.readSectors (fs.clusterLba c) fs.sectorsPerClusterPhys =
      .ok (fs.clusterContent disk c) := by
  rcases holds_iff.mp hreadable.2 with ⟨bytes, hbytes⟩
  rw [hbytes, (readSectors_ok_iff.mp hbytes).2]
  rfl

theorem clusterContent_length (hreadable : fs.Readable disk c) :
    (fs.clusterContent disk c).length = fs.clusterBytes :=
  readSectors_length (readCluster_of_readable hreadable)

/-- The loop leaves the chain at a cluster that it does not read. -/
theorem readRound_of_not_readable (hstop : ¬ fs.Readable disk c) :
    readRound fs disk size c data = .inl (.ok data) := by
  unfold readRound
  by_cases hfollows : fs.followsCluster c
  · rw [if_pos hfollows]
    cases hread : disk.readSectors (fs.clusterLba c) fs.sectorsPerClusterPhys with
    | error e =>
        unfold clusterLba at hread
        rw [hread]
    | ok bytes => exact absurd ⟨hfollows, holds_iff.mpr ⟨bytes, hread⟩⟩ hstop
  · rw [if_neg hfollows]

theorem appended_length (hreadable : fs.Readable disk c) :
    (data ++ fs.clusterContent disk c).length = data.length + fs.clusterBytes := by
  rw [List.length_append, clusterContent_length hreadable]

theorem readRound_full (hreadable : fs.Readable disk c)
    (hfull : size ≤ data.length + fs.clusterBytes) :
    readRound fs disk size c data =
      .inl (.ok ((data ++ fs.clusterContent disk c).take size)) := by
  have hread := readCluster_of_readable hreadable
  unfold clusterLba at hread
  unfold readRound
  rw [if_pos hreadable.1, hread]
  simp only
  rw [if_pos]
  rw [appended_length hreadable]
  exact hfull

theorem readRound_error {e : Error} (hreadable : fs.Readable disk c)
    (hshort : data.length + fs.clusterBytes < size) (hnext : fs.getNextCluster disk c = .error e) :
    readRound fs disk size c data = .inl (.error e) := by
  have hread := readCluster_of_readable hreadable
  unfold clusterLba at hread
  unfold readRound
  rw [if_pos hreadable.1, hread]
  simp only
  rw [if_neg, hnext]
  rw [appended_length hreadable]
  omega

theorem readRound_next {next : U16} (hreadable : fs.Readable disk c)
    (hshort : data.length + fs.clusterBytes < size) (hnext : fs.getNextCluster disk c = .ok next) :
    readRound fs disk size c data = .inr (next, data ++ fs.clusterContent disk c) := by
  have hread := readCluster_of_readable hreadable
  unfold clusterLba at hread
  unfold readRound
  rw [if_pos hreadable.1, hread]
  simp only
  rw [if_neg, hnext]
  rw [appended_length hreadable]
  omega

theorem chainAt_error {e : Error} (hnext : fs.getNextCluster disk c = .error e) (n : ℕ) :
    fs.chainAt disk c (n + 1) = .error e := by
  rw [chainAt, hnext]

theorem chainAt_next {next : U16} (hnext : fs.getNextCluster disk c = .ok next) (n : ℕ) :
    fs.chainAt disk c (n + 1) = fs.chainAt disk next n := by
  rw [chainAt, hnext]

/-- Every cluster that the size calls for is read, once `data` has been read. -/
def Covers (fs : FatFileSystem) (disk : Disk) (size : ℕ) (c : U16) (done : ℕ) : Prop :=
  ∀ n c', done + n * fs.clusterBytes < size → fs.chainAt disk c n = .ok c' → fs.Readable disk c'

theorem covers_of_next {next : U16} {done : ℕ} (hreadable : fs.Readable disk c)
    (hnext : fs.getNextCluster disk c = .ok next) :
    Covers fs disk size c done ↔ Covers fs disk size next (done + fs.clusterBytes) := by
  have hplace : ∀ n, done + (n + 1) * fs.clusterBytes =
      done + fs.clusterBytes + n * fs.clusterBytes := by
    intro n
    rw [Nat.add_mul, Nat.one_mul]
    omega
  constructor
  · intro hcovers n c' hshort hchain
    apply hcovers (n + 1) c' (by rw [hplace]; exact hshort)
    rw [chainAt_next hnext, hchain]
  · intro hcovers n c' hshort hchain
    cases n with
    | zero =>
        cases hchain
        exact hreadable
    | succ n =>
        rw [hplace] at hshort
        rw [chainAt_next hnext] at hchain
        exact hcovers n c' hshort hchain

theorem covers_of_last {done : ℕ} (hreadable : fs.Readable disk c)
    (hlast : ∀ n c', done + (n + 1) * fs.clusterBytes < size →
      fs.chainAt disk c (n + 1) ≠ .ok c') :
    Covers fs disk size c done := by
  intro n c' hshort hchain
  cases n with
  | zero =>
      cases hchain
      exact hreadable
  | succ n => exact absurd hchain (hlast n c' hshort)

/-- The first clusters of the chain, all of them read. -/
def Along (fs : FatFileSystem) (disk : Disk) (c : U16) (clusters : List U16) : Prop :=
  ∀ n c', clusters[n]? = some c' → fs.chainAt disk c n = .ok c' ∧ fs.Readable disk c'

theorem along_nil : Along fs disk c [] := by
  intro n c' hmem
  simp at hmem

theorem along_cons {clusters : List U16} (hreadable : fs.Readable disk c)
    (hrest : ∀ n c', clusters[n]? = some c' →
      fs.chainAt disk c (n + 1) = .ok c' ∧ fs.Readable disk c') :
    Along fs disk c (c :: clusters) := by
  intro n c' hmem
  cases n with
  | zero =>
      cases hmem
      exact ⟨rfl, hreadable⟩
  | succ n => exact hrest n c' hmem

/-- What the loop returns is what it had, continued along the chain and cut off at
the size. -/
theorem readLoop_along {fuel : ℕ} {out : List U8} (hfuel : size < fuel + data.length)
    (hle : data.length ≤ size) (hrun : readLoop fs disk size fuel c data = .ok out) :
    ∃ clusters, Along fs disk c clusters ∧
      out = (data ++ clusters.flatMap (fs.clusterContent disk)).take size := by
  induction fuel generalizing c data with
  | zero => omega
  | succ fuel ih =>
      rw [readLoop_succ] at hrun
      by_cases hreadable : fs.Readable disk c
      · by_cases hfull : size ≤ data.length + fs.clusterBytes
        · rw [readRound_full hreadable hfull] at hrun
          cases hrun
          refine ⟨[c], along_cons hreadable (by simp), ?_⟩
          rw [List.flatMap_singleton]
        · have hbelow : data.length + fs.clusterBytes < size := Nat.lt_of_not_le hfull
          cases hnext : fs.getNextCluster disk c with
          | error e =>
              rw [readRound_error hreadable hbelow hnext] at hrun
              cases hrun
          | ok next =>
              have hpos := fs.clusterBytes_pos
              have hlength := @appended_length _ _ _ data hreadable
              rw [readRound_next hreadable hbelow hnext] at hrun
              rcases @ih next (data ++ fs.clusterContent disk c) (by omega) (by omega) hrun
                with ⟨clusters, halong, hout⟩
              refine ⟨c :: clusters, along_cons hreadable ?_, ?_⟩
              · intro n c' hmem
                rw [chainAt_next hnext]
                exact halong n c' hmem
              · rw [hout, List.flatMap_cons, List.append_assoc]
      · rw [readRound_of_not_readable hreadable] at hrun
        cases hrun
        refine ⟨[], along_nil, ?_⟩
        rw [List.flatMap_nil, List.append_nil, List.take_of_length_le hle]

/-- The loop returns either an error or the whole file just when no cluster that it
needs is missing. -/
theorem readLoop_complete_iff {fuel : ℕ} (hfuel : size < fuel + data.length)
    (hshort : data.length < size) :
    (∀ out, readLoop fs disk size fuel c data = .ok out → out.length = size) ↔
      Covers fs disk size c data.length := by
  induction fuel generalizing c data with
  | zero => omega
  | succ fuel ih =>
      rw [readLoop_succ]
      by_cases hreadable : fs.Readable disk c
      · by_cases hfull : size ≤ data.length + fs.clusterBytes
        · rw [readRound_full hreadable hfull]
          constructor
          · intro _
            apply covers_of_last hreadable
            intro n c' hbelow
            rw [Nat.add_mul, Nat.one_mul] at hbelow
            omega
          · rintro _ out hout
            cases hout
            rw [List.length_take, appended_length hreadable, Nat.min_eq_left hfull]
        · have hbelow : data.length + fs.clusterBytes < size := Nat.lt_of_not_le hfull
          cases hnext : fs.getNextCluster disk c with
          | error e =>
              rw [readRound_error hreadable hbelow hnext]
              constructor
              · intro _
                apply covers_of_last hreadable
                intro n c' _ hchain
                rw [chainAt_error hnext] at hchain
                cases hchain
              · rintro _ out hout
                cases hout
          | ok next =>
              have hpos := fs.clusterBytes_pos
              have hlength := @appended_length _ _ _ data hreadable
              rw [readRound_next hreadable hbelow hnext, covers_of_next hreadable hnext, ← hlength]
              exact @ih next (data ++ fs.clusterContent disk c) (by omega) (by omega)
      · rw [readRound_of_not_readable hreadable]
        constructor
        · intro hall
          exact absurd (hall data rfl) (Nat.ne_of_lt hshort)
        · intro hcovers
          exact absurd (hcovers 0 c (by omega) rfl) hreadable

end Rounds

/-- `read_file` returns an error, or as many bytes as the entry says. -/
def NeverShort (fs : FatFileSystem) (disk : Disk) (entry : DirEntry) : Prop :=
  ∀ data, fs.readFile disk entry = .ok data → data.length = entry.size.toNat

theorem readFile_along {fs : FatFileSystem} {disk : Disk} {entry : DirEntry} {data : List U8}
    (hread : fs.readFile disk entry = .ok data) :
    ∃ clusters, Along fs disk entry.firstCluster clusters ∧
      data = (clusters.flatMap (fs.clusterContent disk)).take entry.size.toNat := by
  rcases readLoop_along (by simp) (Nat.zero_le _) hread with ⟨clusters, halong, hdata⟩
  exact ⟨clusters, halong, by simpa using hdata⟩

/-- No cluster that the size calls for may be missing: an end mark or an unreadable
cluster before that gives a shorter file. -/
theorem neverShort_iff (fs : FatFileSystem) (disk : Disk) (entry : DirEntry) :
    NeverShort fs disk entry ↔ Covers fs disk entry.size.toNat entry.firstCluster 0 := by
  rcases Nat.eq_zero_or_pos entry.size.toNat with hzero | hpos
  · have hnever : NeverShort fs disk entry := by
      intro data hread
      rcases readFile_along hread with ⟨clusters, -, hdata⟩
      rw [hdata, hzero, List.take_zero, List.length_nil]
    have hcovers : Covers fs disk entry.size.toNat entry.firstCluster 0 := by
      intro n c hbelow
      omega
    exact iff_of_true hnever hcovers
  · exact readLoop_complete_iff (by simp) hpos

/-- The chain of an entry with one byte ends before its first cluster; the file is
delivered empty. -/
theorem empty_file_delivered :
    detect (singleDisk 0) = .ok (singleVolume.fileSystem 0) ∧
      (∃ entries, (singleVolume.fileSystem 0).listRootDir (singleDisk 0) = .ok entries ∧
        (singleFile 0).entry ∈ entries) ∧
      (singleFile 0).entry.size = 1 ∧
      (singleVolume.fileSystem 0).readFile (singleDisk 0) (singleFile 0).entry = .ok [] ∧
      ¬ NeverShort (singleVolume.fileSystem 0) (singleDisk 0) (singleFile 0).entry := by
  have hv := singleVolume_onDisk 0
  have hstop : ¬ (singleVolume.fileSystem 0).Readable (singleDisk 0) 0 := by
    rintro ⟨hfollows, -⟩
    exact absurd hfollows.1 (by decide)
  have hread : (singleVolume.fileSystem 0).readFile (singleDisk 0) (singleFile 0).entry =
      .ok [] := by
    have hround := @readRound_of_not_readable _ _ (singleFile 0).entry.size.toNat _ [] hstop
    have hfirst : (singleFile 0).entry.firstCluster = 0 := rfl
    rw [readFile, readLoop_succ, hfirst, hround]
    rfl
  refine ⟨hv.detect_eq (by decide) (fun _ hlt => absurd hlt (Nat.not_lt_zero _)),
    hv.mem_listRootDir (singleFile_listed 0), rfl, hread, ?_⟩
  intro hnever
  exact absurd (hnever [] hread) (by decide)

end FatFileSystem

end Kita98
