import Kita98.ServiceReports

/-!
# File handles

Files of the disk image and files of the host share one table.  An image file
gets the number of open files plus 100 as its handle, a host file the next
value of a counter that starts at 5.  A session keeps, beside the table, a
record of every open that has not been closed since.
-/

namespace Kita98

open Exec

variable {H : HostFiles}

/-! ## Operations on the table -/

def DosRuntime.openImage (data : List U8) : Exec Fault (DosRuntime H) U16 := fun dos =>
  let count : U16 := BitVec.ofNat 16 dos.files.entries.length
  if 100 + count.toNat < 2 ^ 16 then
    let handle : U16 := 100 + count
    .ok (handle, dos.insert handle (.virt data 0))
  else .error .overflow

inductive FileOp where
  | openImage (data : List U8)
  | openHost (path : Text)
  | close (handle : U16)

/-- The handle an operation returns and the table it leaves. -/
def FileOp.run : FileOp → Exec Fault (DosRuntime H) (Option U16)
  | openImage data => do
      let handle ← DosRuntime.openImage data
      return some handle
  | openHost path => do
      let result ← DosRuntime.openFile path
      return result.toOption
  | close handle => do
      Exec.update fun dos => dos.close handle
      return none

/-- The open that INT 21h AH=3Dh makes of a path. -/
def FileOp.ofPath (disk : Option Disk) (path : Text) : FileOp :=
  match findOnDisk disk path with
  | some (_, data) => .openImage data
  | none => .openHost path

/-- The registers report a handle, or that there is none. -/
def ReportsHandle (result : Option U16) (regs : Regs) : Prop :=
  match result with
  | some handle => regs.get16 .AX = handle ∧ regs.getCf = false
  | none => regs.getCf = true

theorem openVirtual_runs
    {data : List U8} {m after : Machine H} (hrun : openVirtual data m = .ok ((), after)) :
    ∃ result, (FileOp.openImage data).run m.dos = .ok (result, after.dos) ∧
      ReportsHandle result after.cpu.regs := by
  unfold openVirtual at hrun
  simp only [bind_apply, read_apply] at hrun
  split at hrun
  · next hfits =>
      cases hrun
      refine ⟨some (100 + BitVec.ofNat 16 m.dos.files.entries.length), ?_, ?_⟩
      · simp only [FileOp.run, DosRuntime.openImage, bind_apply, if_pos hfits]
        rfl
      · simp [ReportsHandle, Regs.getCf]
  · cases hrun

theorem int21Open_runs
    {m after : Machine H} (hrun : int21Open m = .ok ((), after)) :
    ∃ bytes result, pathAt m.toCore 0 = some bytes ∧
      (FileOp.ofPath m.bus.disk (pathText bytes)).run m.dos = .ok (result, after.dos) ∧
        ReportsHandle result after.cpu.regs := by
  unfold int21Open at hrun
  rcases bind_eq_ok hrun with ⟨bytes, scanned, hscan, hrest⟩
  rcases focus_eq_ok hscan with ⟨core, hcore, rfl⟩
  rcases scanDsDx_ok hcore with ⟨hpath, rfl⟩
  simp only [bind_apply, read_apply] at hrest
  cases hfound : findOnDisk m.bus.disk (pathText bytes) with
  | some found =>
      rw [hfound] at hrest
      have hrequest : FileOp.ofPath m.bus.disk (pathText bytes) = .openImage found.2 := by
        simp [FileOp.ofPath, hfound]
      rcases openVirtual_runs hrest with ⟨result, hop, hreports⟩
      exact ⟨bytes, result, hpath, hrequest ▸ hop, hreports⟩
  | none =>
      rw [hfound] at hrest
      rcases bind_eq_ok hrest with ⟨result, opened, hopen, hset⟩
      rcases focus_eq_ok hopen with ⟨dos, hdos, rfl⟩
      have hrequest : FileOp.ofPath m.bus.disk (pathText bytes) =
          .openHost (pathText bytes) := by
        simp [FileOp.ofPath, hfound]
      have hop : (FileOp.openHost (pathText bytes)).run m.dos =
          .ok (result.toOption, dos) :=
        bind_ok hdos
      refine ⟨bytes, result.toOption, hpath, ?_, ?_⟩
      · rw [hrequest, hop]
        cases result <;> cases hset <;> rfl
      · cases result <;> cases hset <;>
          simp [ReportsHandle, Except.toOption, Regs.getCf]

/-! ## Sessions -/

/-- What numbered a file: an image file by the files that were open, a host
file by the host files opened before it. -/
inductive Origin where
  | image (opened : ℕ)
  | host (earlier : ℕ)
  deriving DecidableEq

def Origin.number : Origin → ℕ
  | image opened => 100 + opened
  | host earlier => 5 + earlier

/-- An open file: the handle its open returned, and what was opened. -/
structure OpenFile (H : HostFiles) where
  handle : U16
  origin : Origin
  file : FileHandle H

/-- The table, the opens that have not been closed since, latest first, and
the number of host files opened so far. -/
structure Session (H : HostFiles) where
  dos : DosRuntime H
  live : List (OpenFile H)
  hostOpens : ℕ

namespace Session

def new : Session H := ⟨DosRuntime.new, [], 0⟩

def perform (op : FileOp) (s : Session H) : Except Fault (Session H) :=
  match op with
  | .openImage data =>
      match DosRuntime.openImage data s.dos with
      | .error e => .error e
      | .ok (handle, dos) =>
          .ok ⟨dos, ⟨handle, .image s.live.length, .virt data 0⟩ :: s.live, s.hostOpens⟩
  | .openHost path =>
      match DosRuntime.openFile path s.dos, H.openFile path with
      | .error e, _ => .error e
      | .ok (.ok handle, dos), some file =>
          .ok ⟨dos, ⟨handle, .host s.hostOpens, .real file⟩ :: s.live, s.hostOpens + 1⟩
      | .ok (_, dos), _ => .ok { s with dos := dos }
  | .close handle =>
      .ok { s with
        dos := s.dos.close handle
        live := s.live.filter fun f => f.handle ≠ handle }

/-- No two open files share a handle, and each is found under its own. -/
structure Unique (s : Session H) : Prop where
  distinct : (s.live.map OpenFile.handle).Nodup
  reachable : ∀ f ∈ s.live, s.dos.files.lookup f.handle = some f.file

/-- The counts an open would take its number from are not those of a file that
is still open. -/
def Apart (s : Session H) : FileOp → Prop
  | .openImage _ => ∀ f ∈ s.live, f.origin ≠ .image s.live.length ∧
      f.origin ≠ .host (s.live.length + 95)
  | .openHost path => (H.openFile path).isSome = true →
      ∀ f ∈ s.live, ∀ opened, f.origin = .image opened → opened + 95 ≠ s.hostOpens
  | .close _ => True

end Session

def DosRuntime.imageHandle (dos : DosRuntime H) : U16 :=
  100 + BitVec.ofNat 16 dos.files.entries.length

def Session.imageFile (s : Session H) (data : List U8) : OpenFile H :=
  ⟨s.dos.imageHandle, .image s.live.length, .virt data 0⟩

def Session.hostFile (s : Session H) (file : H.File) : OpenFile H :=
  ⟨s.dos.nextHandle, .host s.hostOpens, .real file⟩

/-- What an operation can do to a session. -/
inductive Session.Performed (s : Session H) : FileOp → Session H → Prop
  | image (data : List U8)
      (hfits : 100 + (BitVec.ofNat 16 s.dos.files.entries.length).toNat < 2 ^ 16) :
      Performed s (.openImage data)
        ⟨s.dos.insert s.dos.imageHandle (.virt data 0), s.imageFile data :: s.live,
          s.hostOpens⟩
  | host {path : Text} {file : H.File} (hopens : H.openFile path = some file)
      (hfits : s.dos.nextHandle ≠ 0xFFFF) :
      Performed s (.openHost path)
        ⟨{ s.dos.insert s.dos.nextHandle (.real file) with
            nextHandle := s.dos.nextHandle + 1 },
          s.hostFile file :: s.live, s.hostOpens + 1⟩
  | refused {path : Text} (hopens : H.openFile path = none) : Performed s (.openHost path) s
  | close (handle : U16) :
      Performed s (.close handle)
        { s with
          dos := s.dos.close handle
          live := s.live.filter fun f => f.handle ≠ handle }

theorem Session.performed_of_ok
    {s s' : Session H} {op : FileOp} (hop : s.perform op = .ok s') : s.Performed op s' := by
  cases op with
  | openImage data =>
      unfold perform DosRuntime.openImage at hop
      by_cases hfits : 100 + (BitVec.ofNat 16 s.dos.files.entries.length).toNat < 2 ^ 16
      · simp only [if_pos hfits] at hop
        cases hop
        exact .image data hfits
      · simp only [if_neg hfits] at hop
        cases hop
  | openHost path =>
      unfold perform DosRuntime.openFile at hop
      cases hopens : H.openFile path with
      | none =>
          simp only [hopens] at hop
          cases hop
          exact .refused hopens
      | some file =>
          by_cases hlast : s.dos.nextHandle = 0xFFFF
          · simp only [hopens, if_pos hlast] at hop
            cases hop
          · simp only [hopens, if_neg hlast] at hop
            cases hop
            exact .host hopens hlast
  | close handle =>
      cases hop
      exact .close handle

theorem Session.Performed.dos
    {s s' : Session H} {op : FileOp} (hperformed : s.Performed op s') :
    ∃ result, op.run s.dos = .ok (result, s'.dos) := by
  cases hperformed with
  | image data hfits =>
      refine ⟨some s.dos.imageHandle, bind_ok ?_⟩
      simp only [DosRuntime.openImage, if_pos hfits]
      rfl
  | @host path file hopens hfits =>
      have hopen : DosRuntime.openFile path s.dos =
          .ok (.ok s.dos.nextHandle,
            { s.dos.insert s.dos.nextHandle (.real file) with
              nextHandle := s.dos.nextHandle + 1 }) := by
        simp only [DosRuntime.openFile, hopens, if_neg hfits]
      exact ⟨some s.dos.nextHandle, bind_ok hopen⟩
  | @refused path hopens =>
      have hopen : DosRuntime.openFile path s.dos = .ok (.error .host, s.dos) := by
        simp only [DosRuntime.openFile, hopens]
      exact ⟨none, bind_ok hopen⟩
  | close handle => exact ⟨none, rfl⟩

/-- A session: the states and operations so far, latest first. -/
inductive Served : List (Session H × FileOp) → Session H → Prop
  | new : Served [] Session.new
  | perform {past : List (Session H × FileOp)} {s s' : Session H} {op : FileOp}
      (hserved : Served past s) (hop : s.perform op = .ok s') :
      Served ((s, op) :: past) s'

/-! ## Numbers and handles -/

namespace Session

/-- What holds of a session as long as no handle was given out twice: the
table holds the open files and nothing else, and every file has the handle its
origin numbers. -/
structure Ordered (s : Session H) : Prop where
  unique : s.Unique
  keys : ∀ handle, handle ∈ s.dos.files → ∃ f ∈ s.live, f.handle = handle
  numbers : ∀ f ∈ s.live, f.handle.toNat = f.origin.number
  counter : s.dos.nextHandle.toNat = 5 + s.hostOpens
  earlier : ∀ f ∈ s.live, ∀ k, f.origin = .host k → k < s.hostOpens

theorem ordered_new : (new : Session H).Ordered := by
  constructor
  · constructor <;> simp [new]
  · intro handle hmem
    simp [new, DosRuntime.new] at hmem
  · simp [new]
  · rfl
  · simp [new]

variable {s s' : Session H}

theorem Ordered.count (hs : s.Ordered) : s.dos.files.entries.length = s.live.length := by
  have hmem : ∀ handle, handle ∈ s.dos.files.keys ↔ handle ∈ s.live.map OpenFile.handle := by
    intro handle
    rw [List.mem_map, ← AList.mem_keys]
    constructor
    · intro hkey
      rcases hs.keys handle hkey with ⟨f, hf, heq⟩
      exact ⟨f, hf, heq⟩
    · rintro ⟨f, hf, rfl⟩
      rw [← AList.lookup_isSome, hs.unique.reachable f hf]
      rfl
  have hperm : s.dos.files.keys.Perm (s.live.map OpenFile.handle) :=
    (List.perm_ext_iff_of_nodup s.dos.files.keys_nodup hs.unique.distinct).mpr hmem
  have hlength := hperm.length_eq
  simpa [AList.keys, List.keys] using hlength

/-- Handles start at 5, so the count fits into sixteen bits. -/
theorem Ordered.live_lt (hs : s.Ordered) : s.live.length < 2 ^ 16 := by
  have hnodup : ((s.live.map OpenFile.handle).map BitVec.toNat).Nodup :=
    hs.unique.distinct.map fun a b heq => BitVec.eq_of_toNat_eq heq
  have hsubset : (s.live.map OpenFile.handle).map BitVec.toNat ⊆ List.range' 5 65531 := by
    intro n hn
    simp only [List.mem_map] at hn
    rcases hn with ⟨handle, ⟨f, hf, rfl⟩, rfl⟩
    have hlt := f.handle.isLt
    have hnumber := hs.numbers f hf
    have hge : 5 ≤ f.origin.number := by
      cases f.origin <;> simp only [Origin.number] <;> omega
    rw [List.mem_range'_1]
    omega
  have hle := (hnodup.subperm hsubset).length_le
  simp only [List.length_map, List.length_range'] at hle
  omega

section Enter

variable {dos : DosRuntime H} {f : OpenFile H} {hostOpens : ℕ}

theorem unique_enter_iff
    (hs : s.Unique) (hfiles : dos.files = s.dos.files.insert f.handle f.file) :
    Unique ⟨dos, f :: s.live, hostOpens⟩ ↔ ∀ g ∈ s.live, g.handle ≠ f.handle := by
  constructor
  · intro hunique g hg heq
    have hdistinct := hunique.distinct
    rw [List.map_cons, List.nodup_cons] at hdistinct
    apply hdistinct.1
    rw [← heq]
    exact List.mem_map_of_mem hg
  · intro hfree
    constructor
    · rw [List.map_cons, List.nodup_cons]
      refine ⟨?_, hs.distinct⟩
      intro hmem
      rcases List.mem_map.mp hmem with ⟨g, hg, heq⟩
      exact hfree g hg heq
    · intro g hg
      rw [List.mem_cons] at hg
      simp only [hfiles]
      rcases hg with rfl | hg
      · exact AList.lookup_insert _
      · rw [AList.lookup_insert_ne (hfree g hg)]
        exact hs.reachable g hg

theorem Ordered.enter
    (hs : s.Ordered) (hfiles : dos.files = s.dos.files.insert f.handle f.file)
    (hnumber : f.handle.toNat = f.origin.number)
    (hcounter : dos.nextHandle.toNat = 5 + hostOpens)
    (hearlier : ∀ g ∈ f :: s.live, ∀ k, g.origin = .host k → k < hostOpens)
    (hunique : Unique ⟨dos, f :: s.live, hostOpens⟩) :
    Ordered ⟨dos, f :: s.live, hostOpens⟩ := by
  refine ⟨hunique, ?_, ?_, hcounter, hearlier⟩
  · intro handle hmem
    simp only [hfiles, AList.mem_insert] at hmem
    rcases hmem with rfl | hmem
    · exact ⟨f, List.mem_cons_self, rfl⟩
    · rcases hs.keys handle hmem with ⟨g, hg, heq⟩
      exact ⟨g, List.mem_cons_of_mem _ hg, heq⟩
  · intro g hg
    rcases List.mem_cons.mp hg with rfl | hg
    · exact hnumber
    · exact hs.numbers g hg

end Enter

theorem Ordered.free_iff
    (hs : s.Ordered) {handle : U16} {n : ℕ} (hnumber : handle.toNat = n) :
    (∀ f ∈ s.live, f.handle ≠ handle) ↔ ∀ f ∈ s.live, f.origin.number ≠ n := by
  have hone : ∀ f ∈ s.live, f.handle = handle ↔ f.origin.number = n := by
    intro f hf
    rw [← hs.numbers f hf, ← hnumber]
    constructor
    · intro heq
      rw [heq]
    · exact BitVec.eq_of_toNat_eq
  constructor <;> intro hfree f hf heq
  · exact hfree f hf ((hone f hf).mpr heq)
  · exact hfree f hf ((hone f hf).mp heq)

theorem apart_image_iff (data : List U8) :
    s.Apart (.openImage data) ↔ ∀ f ∈ s.live, f.origin.number ≠ 100 + s.live.length := by
  constructor <;> intro hapart f hf
  · intro heq
    cases horigin : f.origin with
    | image opened =>
        rw [horigin] at heq
        apply (hapart f hf).1
        rw [horigin, Nat.add_left_cancel heq]
    | host earlier =>
        rw [horigin] at heq
        apply (hapart f hf).2
        have hearlier : earlier = s.live.length + 95 := by
          simp only [Origin.number] at heq
          omega
        rw [horigin, hearlier]
  · constructor <;> intro horigin <;> apply hapart f hf <;> rw [horigin]
    · rfl
    · simp only [Origin.number]
      omega

theorem Ordered.apart_host_iff
    (hs : s.Ordered) {path : Text} (hopens : (H.openFile path).isSome = true) :
    s.Apart (.openHost path) ↔ ∀ f ∈ s.live, f.origin.number ≠ 5 + s.hostOpens := by
  constructor
  · intro hapart f hf heq
    cases horigin : f.origin with
    | image opened =>
        rw [horigin] at heq
        simp only [Origin.number] at heq
        exact hapart hopens f hf opened horigin (by omega)
    | host earlier =>
        have hlt := hs.earlier f hf earlier horigin
        rw [horigin] at heq
        simp only [Origin.number] at heq
        omega
  · intro hnumber _ f hf opened horigin heq
    apply hnumber f hf
    rw [horigin]
    simp only [Origin.number]
    omega

theorem Ordered.close (hs : s.Ordered) (handle : U16) :
    Ordered { s with
      dos := s.dos.close handle
      live := s.live.filter fun f => f.handle ≠ handle } := by
  have hkept : ∀ f ∈ s.live.filter (fun f => f.handle ≠ handle),
      f ∈ s.live ∧ f.handle ≠ handle := by
    intro f hf
    simpa using hf
  refine ⟨⟨?_, ?_⟩, ?_, ?_, hs.counter, ?_⟩
  · exact hs.unique.distinct.sublist ((List.filter_sublist).map _)
  · intro f hf
    rw [DosRuntime.close, AList.lookup_erase_ne (hkept f hf).2]
    exact hs.unique.reachable f (hkept f hf).1
  · intro other hmem
    rw [DosRuntime.close, AList.mem_erase] at hmem
    rcases hs.keys other hmem.2 with ⟨f, hf, heq⟩
    refine ⟨f, ?_, heq⟩
    rw [List.mem_filter]
    exact ⟨hf, by simpa [heq] using hmem.1⟩
  · intro f hf
    exact hs.numbers f (hkept f hf).1
  · intro f hf
    exact hs.earlier f (hkept f hf).1

/-- One operation: unique handles stay unique exactly if the counts are apart,
and then the session stays in order. -/
theorem Ordered.perform
    {op : FileOp} (hs : s.Ordered) (hop : s.Performed op s') :
    (s'.Unique ↔ s.Apart op) ∧ (s'.Unique → s'.Ordered) := by
  cases hop with
  | image data hfits =>
      have hlt := hs.live_lt
      rw [hs.count, BitVec.toNat_ofNat, Nat.mod_eq_of_lt hlt] at hfits
      have hnumber : s.dos.imageHandle.toNat = 100 + s.live.length := by
        have hhundred : (100 : U16).toNat = 100 := rfl
        rw [DosRuntime.imageHandle, hs.count, BitVec.toNat_add, BitVec.toNat_ofNat,
          Nat.mod_eq_of_lt hlt, hhundred, Nat.mod_eq_of_lt hfits]
      constructor
      · rw [apart_image_iff, ← hs.free_iff hnumber]
        exact unique_enter_iff (f := s.imageFile data) hs.unique rfl
      · have hcounter : (s.dos.insert s.dos.imageHandle (.virt data 0)).nextHandle.toNat =
            5 + s.hostOpens := hs.counter
        apply hs.enter (f := s.imageFile data) rfl hnumber hcounter
        intro g hg k horigin
        rcases List.mem_cons.mp hg with rfl | hg
        · cases horigin
        · exact hs.earlier g hg k horigin
  | @host path file hopens hfits =>
      have hlast : s.dos.nextHandle.toNat ≠ 2 ^ 16 - 1 := by
        intro heq
        exact hfits (BitVec.eq_of_toNat_eq heq)
      have hlt := s.dos.nextHandle.isLt
      have hone : (1 : U16).toNat = 1 := rfl
      constructor
      · rw [hs.apart_host_iff (by simp [hopens]), ← hs.free_iff hs.counter]
        exact unique_enter_iff (f := s.hostFile file) hs.unique rfl
      · apply hs.enter (f := s.hostFile file) rfl hs.counter
        · have hcounter := hs.counter
          simp only [BitVec.toNat_add, hone]
          omega
        · intro g hg k horigin
          rcases List.mem_cons.mp hg with rfl | hg
          · cases horigin
            exact Nat.lt_succ_self _
          · exact Nat.lt_succ_of_lt (hs.earlier g hg k horigin)
  | @refused path hopens =>
      constructor
      · constructor
        · intro _ hsome
          simp [hopens] at hsome
        · intro _
          exact hs.unique
      · intro _
        exact hs
  | close handle =>
      constructor
      · constructor
        · intro _
          trivial
        · intro _
          exact (hs.close handle).unique
      · intro _
        exact hs.close handle

end Session

/-! ## Whole sessions -/

theorem ordered_of_served
    {past : List (Session H × FileOp)} {s : Session H} (hserved : Served past s)
    (hpast : ∀ p ∈ past, p.1.Apart p.2) : s.Ordered := by
  induction hserved with
  | new => exact Session.ordered_new
  | @perform past s s' op hserved hop ih =>
      have hs : s.Ordered := ih fun p hp => hpast p (List.mem_cons_of_mem _ hp)
      have hstep := hs.perform (Session.performed_of_ok hop)
      exact hstep.2 (hstep.1.mpr (hpast (s, op) List.mem_cons_self))

theorem handles_unique_iff
    {past : List (Session H × FileOp)} {s : Session H} (hserved : Served past s) :
    (∀ p ∈ past, p.1.Unique) ∧ s.Unique ↔ ∀ p ∈ past, p.1.Apart p.2 := by
  induction hserved with
  | new => simpa using Session.ordered_new.unique
  | @perform past s s' op hserved hop ih =>
      rw [List.forall_mem_cons, List.forall_mem_cons]
      constructor
      · rintro ⟨⟨hunique, hpast⟩, hlast⟩
        have hapart := ih.mp ⟨hpast, hunique⟩
        have hs := ordered_of_served hserved hapart
        exact ⟨(hs.perform (Session.performed_of_ok hop)).1.mp hlast, hapart⟩
      · rintro ⟨hlast, hapart⟩
        have hs := ordered_of_served hserved hapart
        have hpast := ih.mpr hapart
        exact ⟨⟨hs.unique, hpast.1⟩, (hs.perform (Session.performed_of_ok hop)).1.mpr hlast⟩

/-! ## Two files open, the first one closed -/

def emptyImage : FileOp := .openImage []

def Session.afterOps : List FileOp → Session H
  | [] => new
  | op :: past => ((afterOps past).perform op).toOption.getD (afterOps past)

theorem served_one : Served [(Session.new, emptyImage)]
    (Session.afterOps [emptyImage] : Session HostFiles.none) :=
  .perform .new rfl

theorem served_two :
    Served [(Session.afterOps [emptyImage], emptyImage), (Session.new, emptyImage)]
      (Session.afterOps [emptyImage, emptyImage] : Session HostFiles.none) :=
  .perform served_one rfl

/-- The later of two files is closed, and its handle is free for the next. -/
theorem handles_unique_reused :
    ∃ past, Served past (Session.afterOps [emptyImage, .close 101, emptyImage, emptyImage] :
        Session HostFiles.none) ∧ past.length = 4 ∧
      ((∀ p ∈ past, p.1.Unique) ∧
          (Session.afterOps [emptyImage, .close 101, emptyImage, emptyImage] :
            Session HostFiles.none).Unique ↔ ∀ p ∈ past, p.1.Apart p.2) := by
  have hclose : Session.perform (.close 101)
      (.afterOps [emptyImage, emptyImage] : Session HostFiles.none) =
        .ok (.afterOps [.close 101, emptyImage, emptyImage]) := rfl
  have hthird : Session.perform emptyImage
      (.afterOps [.close 101, emptyImage, emptyImage] : Session HostFiles.none) =
        .ok (.afterOps [emptyImage, .close 101, emptyImage, emptyImage]) := rfl
  have hserved := (served_two.perform hclose).perform hthird
  exact ⟨_, hserved, rfl, handles_unique_iff hserved⟩

def reopened : Session HostFiles.none :=
  .afterOps [emptyImage, .close 100, emptyImage, emptyImage]

theorem served_reopened : ∃ past, Served past reopened := by
  have hclose : Session.perform (.close 100)
      (.afterOps [emptyImage, emptyImage] : Session HostFiles.none) =
        .ok (.afterOps [.close 100, emptyImage, emptyImage]) := rfl
  have hthird : Session.perform emptyImage
      (.afterOps [.close 100, emptyImage, emptyImage] : Session HostFiles.none) =
        .ok reopened := rfl
  exact ⟨_, .perform (.perform served_two hclose) hthird⟩

/-- Files 100 and 101 are opened and file 100 is closed; the next file is given
the handle 101 as well. -/
theorem handle_given_twice :
    ∃ past, Served past reopened ∧
      reopened.live.map OpenFile.handle = [101, 101] ∧ ¬ reopened.Unique := by
  have hhandles : reopened.live.map OpenFile.handle = [101, 101] := by
    decide +kernel
  rcases served_reopened with ⟨past, hserved⟩
  refine ⟨past, hserved, hhandles, ?_⟩
  intro hunique
  have hdistinct := hunique.distinct
  rw [hhandles] at hdistinct
  revert hdistinct
  decide

end Kita98
