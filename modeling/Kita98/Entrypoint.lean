import Kita98.BatchQueue
import Kita98.KeyedSort

/-!
# The file a disk starts with

A batch file before an executable: GAME.BAT, START.BAT, AUTOEXEC.BAT, any other
batch file, and without one the largest EXE file.
-/

namespace Kita98

open FirstHits KeyedSort

section Entrypoint

variable (upper : Char → Text)

def hasExt (ext : String) (entry : DirEntry) : Bool := upperText upper entry.ext == ext.toList

def fileSize (entry : DirEntry) : ℕ := entry.size.toNat

/-- The search of `find_entrypoint` in the root directory. -/
def chooseEntry (entries : List DirEntry) : Option DirEntry :=
  (named upper entries "GAME.BAT".toList).or <|
    (named upper entries "START.BAT".toList).or <|
      (named upper entries "AUTOEXEC.BAT".toList).or <|
        (entries.find? (hasExt upper "BAT")).or <|
          (sortByKey fileSize (entries.filter (hasExt upper "EXE"))).getLast?

def FatFileSystem.findEntrypoint (fs : FatFileSystem) (disk : Disk) : Except Error DirEntry :=
  match fs.listRootDir disk with
  | .error e => .error e
  | .ok entries =>
      match chooseEntry upper entries with
      | some entry => .ok entry
      | none => .error .noEntrypoint

/-! ## Preference -/

def isNamed (name : String) (entry : DirEntry) : Bool :=
  upperText upper entry.fullName == name.toList

def batchSearches : List (DirEntry → Bool) :=
  [isNamed upper "GAME.BAT", isNamed upper "START.BAT", isNamed upper "AUTOEXEC.BAT",
    hasExt upper "BAT"]

/-- 0 to 3 for a batch file, 4 for any other. -/
def batchRank (entry : DirEntry) : ℕ := level (batchSearches upper) entry

/-- What makes an entry one to start with, wherever it stands in the directory. -/
inductive Preferred (entries : List DirEntry) (entry : DirEntry) : Prop
  | batch (hbatch : batchRank upper entry < 4)
      (hbest : ∀ other ∈ entries, batchRank upper entry ≤ batchRank upper other)
  | exe (hnone : ∀ other ∈ entries, 4 ≤ batchRank upper other)
      (hexe : hasExt upper "EXE" entry = true)
      (hlargest : ∀ other ∈ entries, hasExt upper "EXE" other = true →
        fileSize other ≤ fileSize entry)

/-- Among batch files of one rank the first counts, among EXE files of one size
the last. -/
inductive IsEntrypoint (entries : List DirEntry) (entry : DirEntry) : Prop
  | batch (hbatch : batchRank upper entry < 4)
      (hbest : ∀ other ∈ entries, batchRank upper entry ≤ batchRank upper other)
      (hfirst : entries.find? (fun other => batchRank upper other = batchRank upper entry) =
        some entry)
  | exe (hnone : ∀ other ∈ entries, 4 ≤ batchRank upper other)
      (hlargest : ∀ other ∈ entries, hasExt upper "EXE" other = true →
        fileSize other ≤ fileSize entry)
      (hlast : ((entries.filter (hasExt upper "EXE")).filter fun other =>
        fileSize other = fileSize entry).getLast? = some entry)

/-- Neither a batch file nor an EXE file. -/
def Startless (entries : List DirEntry) : Prop :=
  ∀ entry ∈ entries, 4 ≤ batchRank upper entry ∧ hasExt upper "EXE" entry = false

variable {upper} {entries : List DirEntry} {entry : DirEntry}

theorem chooseEntry_eq (entries : List DirEntry) :
    chooseEntry upper entries =
      ((batchSearches upper).findSome? fun p => entries.find? p).or
        (sortByKey fileSize (entries.filter (hasExt upper "EXE"))).getLast? := by
  simp only [chooseEntry, batchSearches, List.findSome?_cons, List.findSome?_nil]
  rw [show named upper entries "GAME.BAT".toList = entries.find? (isNamed upper "GAME.BAT") from rfl,
    show named upper entries "START.BAT".toList = entries.find? (isNamed upper "START.BAT") from rfl,
    show named upper entries "AUTOEXEC.BAT".toList =
      entries.find? (isNamed upper "AUTOEXEC.BAT") from rfl]
  cases entries.find? (isNamed upper "GAME.BAT") with
  | some e => rfl
  | none =>
      cases entries.find? (isNamed upper "START.BAT") with
      | some e => rfl
      | none =>
          cases entries.find? (isNamed upper "AUTOEXEC.BAT") with
          | some e => rfl
          | none => cases entries.find? (hasExt upper "BAT") <;> rfl

theorem chooseEntry_iff :
    chooseEntry upper entries = some entry ↔ IsEntrypoint upper entries entry := by
  rw [chooseEntry_eq]
  cases hbatch : (batchSearches upper).findSome? fun p => entries.find? p with
  | some e =>
      rw [Option.some_or]
      obtain ⟨hlt, hbest, hfirst⟩ := findSome_find_iff.mp hbatch
      constructor
      · intro hsome
        cases hsome
        exact .batch hlt hbest hfirst
      · intro hentry
        cases hentry with
        | batch hlt' hbest' hfirst' =>
            rw [← hbatch]
            exact findSome_find_iff.mpr ⟨hlt', hbest', hfirst'⟩
        | exe hnone hlargest hlast =>
            have hle := hnone e (List.mem_of_find?_eq_some hfirst)
            exact absurd hlt (Nat.not_lt_of_le hle)
  | none =>
      have hnone := findSome_find_eq_none_iff.mp hbatch
      rw [Option.none_or, getLast_sortByKey_iff]
      constructor
      · rintro ⟨hlargest, hlast⟩
        refine .exe hnone ?_ hlast
        intro other hother hexe
        exact hlargest other (List.mem_filter.mpr ⟨hother, hexe⟩)
      · intro hentry
        cases hentry with
        | batch hlt hbest hfirst =>
            have hle := hnone entry (List.mem_of_find?_eq_some hfirst)
            exact absurd hlt (Nat.not_lt_of_le hle)
        | exe _ hlargest hlast =>
            refine ⟨?_, hlast⟩
            intro other hother
            obtain ⟨hmem, hexe⟩ := List.mem_filter.mp hother
            exact hlargest other hmem hexe

theorem chooseEntry_eq_none_iff :
    chooseEntry upper entries = none ↔ Startless upper entries := by
  rw [chooseEntry_eq, Option.or_eq_none_iff, findSome_find_eq_none_iff,
    getLast_sortByKey_eq_none_iff, List.filter_eq_nil_iff]
  simp only [Bool.not_eq_true]
  constructor
  · rintro ⟨hbatch, hexe⟩ entry hentry
    exact ⟨hbatch entry hentry, hexe entry hentry⟩
  · intro hnone
    exact ⟨fun entry hentry => (hnone entry hentry).1, fun entry hentry => (hnone entry hentry).2⟩

/-! ## The order of the directory -/

theorem IsEntrypoint.mem (hentry : IsEntrypoint upper entries entry) : entry ∈ entries := by
  cases hentry with
  | batch hlt hbest hfirst => exact List.mem_of_find?_eq_some hfirst
  | exe hnone hlargest hlast =>
      exact List.mem_of_mem_filter (List.mem_of_mem_filter (List.mem_of_getLast? hlast))

theorem IsEntrypoint.preferred (hentry : IsEntrypoint upper entries entry) :
    Preferred upper entries entry := by
  cases hentry with
  | batch hlt hbest hfirst => exact .batch hlt hbest
  | exe hnone hlargest hlast =>
      have hexe := (List.mem_filter.mp (List.mem_of_mem_filter (List.mem_of_getLast? hlast))).2
      exact .exe hnone hexe hlargest

theorem Preferred.perm {entries' : List DirEntry} (hperm : entries'.Perm entries)
    (hentry : Preferred upper entries entry) : Preferred upper entries' entry := by
  cases hentry with
  | batch hlt hbest => exact .batch hlt fun other hother => hbest other (hperm.mem_iff.mp hother)
  | exe hnone hexe hlargest =>
      exact .exe (fun other hother => hnone other (hperm.mem_iff.mp hother)) hexe
        fun other hother => hlargest other (hperm.mem_iff.mp hother)

/-- A batch file is found when it stands in front, an EXE file at the end. -/
theorem exists_perm_chooseEntry (hmem : entry ∈ entries)
    (hentry : Preferred upper entries entry) :
    ∃ entries' : List DirEntry, entries'.Perm entries ∧
      chooseEntry upper entries' = some entry := by
  obtain ⟨front, back, rfl⟩ := List.append_of_mem hmem
  cases hentry with
  | batch hlt hbest =>
      have hperm : (entry :: (front ++ back)).Perm (front ++ entry :: back) :=
        List.perm_middle.symm
      refine ⟨_, hperm, chooseEntry_iff.mpr (.batch hlt ?_ ?_)⟩
      · intro other hother
        exact hbest other (hperm.mem_iff.mp hother)
      · exact List.find?_cons_of_pos (decide_eq_true rfl)
  | exe hnone hexe hlargest =>
      have hperm : (front ++ back ++ [entry]).Perm (front ++ entry :: back) := by
        rw [List.append_assoc]
        exact (List.perm_append_singleton entry back).append_left front
      refine ⟨_, hperm, chooseEntry_iff.mpr (.exe ?_ ?_ ?_)⟩
      · intro other hother
        exact hnone other (hperm.mem_iff.mp hother)
      · intro other hother
        exact hlargest other (hperm.mem_iff.mp hother)
      · simp [List.filter_append, hexe]

/-- The file does not depend on the order of the directory exactly when one file
is preferred to all others. -/
theorem entrypoint_stable_iff (entries : List DirEntry) :
    (∀ entries' : List DirEntry, entries'.Perm entries →
        chooseEntry upper entries' = chooseEntry upper entries) ↔
      ∀ a ∈ entries, ∀ b ∈ entries, Preferred upper entries a → Preferred upper entries b →
        a = b := by
  constructor
  · intro hstable a ha b hb hpa hpb
    obtain ⟨first, hfirst, hfinda⟩ := exists_perm_chooseEntry ha hpa
    obtain ⟨second, hsecond, hfindb⟩ := exists_perm_chooseEntry hb hpb
    have hsame : some a = some b := by
      rw [← hfinda, ← hfindb, hstable first hfirst, hstable second hsecond]
    exact Option.some.inj hsame
  · intro hone entries' hperm
    cases hchoice : chooseEntry upper entries with
    | none =>
        rw [chooseEntry_eq_none_iff] at hchoice ⊢
        intro entry hentry
        exact hchoice entry (hperm.mem_iff.mp hentry)
    | some entry =>
        have hentry := chooseEntry_iff.mp hchoice
        cases hchoice' : chooseEntry upper entries' with
        | none =>
            have hnone : chooseEntry upper entries = none := by
              rw [chooseEntry_eq_none_iff] at hchoice' ⊢
              intro other hother
              exact hchoice' other (hperm.mem_iff.mpr hother)
            rw [hchoice] at hnone
            cases hnone
        | some entry' =>
            have hentry' := chooseEntry_iff.mp hchoice'
            rw [hone entry' (hperm.mem_iff.mp hentry'.mem) entry hentry.mem
              (hentry'.preferred.perm hperm.symm) hentry.preferred]

/-! ## On a disk -/

theorem listRootDir_ne_noEntrypoint (fs : FatFileSystem) (disk : Disk) :
    fs.listRootDir disk ≠ .error .noEntrypoint := by
  unfold FatFileSystem.listRootDir Disk.readSectors
  simp only
  split
  · next e he =>
      split at he
      · cases he
        simp
      · cases he
  · simp

theorem find_entrypoint_iff (fs : FatFileSystem) (disk : Disk) :
    (∀ entry, fs.findEntrypoint upper disk = .ok entry ↔
        ∃ entries, fs.listRootDir disk = .ok entries ∧ IsEntrypoint upper entries entry) ∧
      (fs.findEntrypoint upper disk = .error .noEntrypoint ↔
        ∃ entries, fs.listRootDir disk = .ok entries ∧ Startless upper entries) := by
  have hother := listRootDir_ne_noEntrypoint fs disk
  unfold FatFileSystem.findEntrypoint
  cases hlist : fs.listRootDir disk with
  | error e =>
      rw [hlist] at hother
      refine ⟨fun entry => ⟨fun h => (by cases h), ?_⟩, ⟨fun h => (hother (congrArg _ (Except.error.inj h))).elim, ?_⟩⟩
      · rintro ⟨entries, hentries, -⟩
        cases hentries
      · rintro ⟨entries, hentries, -⟩
        cases hentries
  | ok entries =>
      simp only [Except.ok.injEq, exists_eq_left', ← chooseEntry_iff, ← chooseEntry_eq_none_iff]
      cases chooseEntry upper entries <;> simp

end Entrypoint

end Kita98
