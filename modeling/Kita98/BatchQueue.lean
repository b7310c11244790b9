import Kita98.BatchFile
import Kita98.FirstHits

/-!
# Which files a batch file runs

A word without a dot stands for its COM file before its EXE file.  The search
takes the first of either in the directory instead, so the queue is right in
every order of the directory exactly where a word has one file to find.
-/

namespace Kita98

open FirstHits

section Queue

variable (upper : Char → Text)

/-- The word of a line that is looked up. -/
def requestedWord (line : Text) : Option Text :=
  (splitWhitespace line).head?.bind fun exeName =>
    if builtins.contains (upperText upper (cleanName exeName)) then none
    else some (cleanName exeName)

def requestedWords (content : List U8) : List Text :=
  (parseBat upper content).filterMap (requestedWord upper)

def named (root : List DirEntry) (name : Text) : Option DirEntry :=
  root.find? fun f => upperText upper f.fullName == name

def resolve (root : List DirEntry) (word : Text) : Option DirEntry :=
  if '.' ∈ word then named upper root word
  else (named upper root (word ++ ".COM".toList)).or (named upper root (word ++ ".EXE".toList))

/-- The files that the lines stand for, in their order. -/
def resolvedQueue (content : List U8) (root : List DirEntry) : List DirEntry :=
  (requestedWords upper content).filterMap (resolve upper root)

/-- In every order of the directory the queue holds the files that the lines
stand for. -/
def ResolvesInAnyOrder (content : List U8) (root : List DirEntry) : Prop :=
  ∀ root' : List DirEntry, root'.Perm root →
    batchQueue upper content root' = resolvedQueue upper content root

/-- What the search for a word accepts. -/
def hits (word : Text) (f : DirEntry) : Bool :=
  (targets word).contains (upperText upper f.fullName)

theorem foldl_pushCommand (root queue : List DirEntry) (commands : List Text) :
    commands.foldl (pushCommand upper root) queue =
      queue ++ (commands.filterMap (requestedWord upper)).filterMap fun word =>
        root.find? (hits upper word) := by
  induction commands generalizing queue with
  | nil => exact (List.append_nil queue).symm
  | cons cmd commands ih =>
      rw [List.foldl_cons, ih, List.filterMap_cons]
      unfold pushCommand requestedWord
      cases (splitWhitespace cmd).head? with
      | none => rfl
      | some exeName =>
          by_cases hbuiltin : builtins.contains (upperText upper (cleanName exeName)) = true
          · simp only [Option.bind_some, if_pos hbuiltin]
          · simp only [Option.bind_some, if_neg hbuiltin, List.filterMap_cons]
            cases hfind : root.find? (hits upper (cleanName exeName)) with
            | none =>
                have hfind' : (root.find? fun f =>
                  (targets (cleanName exeName)).contains (upperText upper f.fullName)) = none := hfind
                rw [hfind']
            | some target =>
                have hfind' : (root.find? fun f =>
                  (targets (cleanName exeName)).contains (upperText upper f.fullName)) =
                    some target := hfind
                rw [hfind']
                simp

theorem batchQueue_eq (content : List U8) (root : List DirEntry) :
    batchQueue upper content root =
      (requestedWords upper content).filterMap fun word => root.find? (hits upper word) := by
  rw [batchQueue, foldl_pushCommand, List.nil_append]
  rfl

theorem hits_iff (word : Text) (f : DirEntry) :
    hits upper word f = true ↔ upperText upper f.fullName ∈ targets word :=
  List.contains_iff_mem

theorem named_eq_some {root : List DirEntry} {name : Text} {f : DirEntry}
    (hnamed : named upper root name = some f) :
    f ∈ root ∧ upperText upper f.fullName = name := by
  unfold named at hnamed
  have hname := List.find?_some hnamed
  exact ⟨List.mem_of_find?_eq_some hnamed, beq_iff_eq.mp hname⟩

/-- With one file to find, the search finds the file that the word stands for. -/
theorem find_eq_resolve {root : List DirEntry} {word : Text}
    (hone : OneHit (hits upper word) root) :
    root.find? (hits upper word) = resolve upper root word := by
  unfold resolve
  by_cases hdot : '.' ∈ word
  · rw [if_pos hdot, named]
    congr 1
    funext f
    rw [hits, targets, if_pos hdot, Bool.eq_iff_iff, List.contains_iff_mem, beq_iff_eq,
      List.mem_singleton]
  · have htargets : targets word = [word ++ ".COM".toList, word ++ ".EXE".toList] := if_neg hdot
    rw [if_neg hdot]
    cases hcom : named upper root (word ++ ".COM".toList) with
    | some f =>
        obtain ⟨hmem, hname⟩ := named_eq_some upper hcom
        have hhit : hits upper word f = true := by
          rw [hits_iff, htargets, hname]
          exact List.mem_cons_self
        exact find_of_oneHit hone hmem hhit
    | none =>
        cases hexe : named upper root (word ++ ".EXE".toList) with
        | some f =>
            obtain ⟨hmem, hname⟩ := named_eq_some upper hexe
            have hhit : hits upper word f = true := by
              rw [hits_iff, htargets, hname]
              exact List.mem_cons_of_mem _ List.mem_cons_self
            exact find_of_oneHit hone hmem hhit
        | none =>
            have hnocom := List.find?_eq_none.mp hcom
            have hnoexe := List.find?_eq_none.mp hexe
            rw [Option.none_or, List.find?_eq_none]
            intro f hf hhit
            rw [hits_iff, htargets, List.mem_cons, List.mem_singleton] at hhit
            rcases hhit with hname | hname
            · exact hnocom f hf (beq_iff_eq.mpr hname)
            · exact hnoexe f hf (beq_iff_eq.mpr hname)

theorem batch_queue_iff (content : List U8) (root : List DirEntry) :
    ResolvesInAnyOrder upper content root ↔
      ∀ word ∈ requestedWords upper content, OneHit (hits upper word) root := by
  constructor
  · intro hresolves word hword
    apply find_stable_iff.mp
    intro root' hperm
    have hqueue := (hresolves root' hperm).trans (hresolves root (List.Perm.refl root)).symm
    rw [batchQueue_eq, batchQueue_eq, filterMap_eq_iff fun _ _ => find_isSome_perm hperm] at hqueue
    exact hqueue word hword
  · intro hone root' hperm
    rw [batchQueue_eq, resolvedQueue]
    apply List.filterMap_congr
    intro word hword
    rw [find_perm (hone word hword) hperm, find_eq_resolve upper (hone word hword)]

end Queue

/-! ## A COM file behind an EXE file -/

def gameExe : DirEntry := ⟨"GAME".toList, "EXE".toList, 0, 2, 4096⟩

def gameCom : DirEntry := ⟨"GAME".toList, "COM".toList, 0, 3, 512⟩

def gameBat : List U8 := [0x47, 0x41, 0x4D, 0x45, 0x0D, 0x0A]

theorem exe_before_com :
    batchQueue upperChar gameBat [gameExe, gameCom] = [gameExe] ∧
      resolvedQueue upperChar gameBat [gameExe, gameCom] = [gameCom] ∧
      ¬ ResolvesInAnyOrder upperChar gameBat [gameExe, gameCom] := by
  have hqueue : batchQueue upperChar gameBat [gameExe, gameCom] = [gameExe] := by decide +kernel
  have hresolved : resolvedQueue upperChar gameBat [gameExe, gameCom] = [gameCom] := by
    decide +kernel
  refine ⟨hqueue, hresolved, ?_⟩
  intro hresolves
  have hsame := hresolves _ (List.Perm.refl _)
  rw [hqueue, hresolved] at hsame
  exact absurd hsame (by decide)

end Kita98
