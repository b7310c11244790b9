import Kita98.ExecTransfer
import Kita98.FileHandles
import Kita98.FileSession
import Kita98.MachineTrace
import Kita98.MemoryHistory

/-!
# Reading a file to its end

Whatever else the machine does between them, the reads on a handle deliver the
file piece by piece: only the services of INT 21h touch the open files, and one
on another handle leaves this one where it is.  A read that asks for bytes and
gets none has come to the end.
-/

namespace Kita98

open Exec Memory

variable {H : HostFiles}

/-! ## Pieces -/

/-- The pieces that reads have taken from a file, put together, and where they
have left it. -/
structure Delivered (file : FileModel) (asked : ℕ) (bytes : List U8) (now : FileModel) : Prop where
  pieces : bytes = (file.data.drop file.pos).take asked
  place : now = { file with pos := file.pos + bytes.length }

namespace Delivered

variable {file now : FileModel} {asked : ℕ} {bytes : List U8}

theorem zero (file : FileModel) : Delivered file 0 [] file := ⟨rfl, rfl⟩

theorem length_le (hdelivered : Delivered file asked bytes now) :
    bytes.length ≤ file.data.length - file.pos := by
  rw [hdelivered.pieces, List.length_take, List.length_drop]
  exact Nat.min_le_right _ _

/-- What is left of the file is what the pieces leave. -/
theorem rest (hdelivered : Delivered file asked bytes now) :
    now.data.drop now.pos = (file.data.drop file.pos).drop asked := by
  rw [hdelivered.place, List.drop_drop]
  simp only
  have hlength : bytes.length = min asked (file.data.length - file.pos) := by
    rw [hdelivered.pieces, List.length_take, List.length_drop]
  rw [hlength]
  rcases Nat.le_total asked (file.data.length - file.pos) with hle | hge
  · rw [Nat.min_eq_left hle]
  · rw [Nat.min_eq_right hge, List.drop_eq_nil_of_le (by omega), List.drop_eq_nil_of_le (by omega)]

theorem read (hdelivered : Delivered file asked bytes now) (n : ℕ) :
    Delivered file (asked + n) (bytes ++ (now.read n).1) (now.read n).2 := by
  have hbytes : (now.read n).1 = ((file.data.drop file.pos).drop asked).take n := by
    unfold FileModel.read
    rw [hdelivered.rest]
  have hlength : (now.read n).1.length = min n (now.data.length - now.pos) := by
    unfold FileModel.read
    rw [List.length_take, List.length_drop]
  constructor
  · rw [hbytes, hdelivered.pieces, List.take_add]
  · rw [List.length_append, hlength, ← Nat.add_assoc]
    unfold FileModel.read
    rw [hdelivered.place]

/-- A piece that is empty although bytes were asked for is the end of the file. -/
theorem all_of_empty (hdelivered : Delivered file asked bytes now) {n : ℕ} (hn : n ≠ 0)
    (hempty : (now.read n).1 = []) : file.data.length - file.pos ≤ bytes.length := by
  have hrest : now.data.length ≤ now.pos := by
    unfold FileModel.read at hempty
    rcases List.take_eq_nil_iff.mp hempty with hzero | hnil
    · exact absurd hzero hn
    · exact List.drop_eq_nil_iff.mp hnil
  rw [hdelivered.place] at hrest
  simp only at hrest
  omega

theorem eq_all (hdelivered : Delivered file asked bytes now)
    (hall : file.data.length - file.pos ≤ bytes.length) :
    bytes = file.data.drop file.pos := by
  have hasked : (file.data.drop file.pos).length ≤ asked := by
    have hlength := hall
    rw [hdelivered.pieces, List.length_take, List.length_drop] at hlength
    rw [List.length_drop]
    omega
  rw [hdelivered.pieces, List.take_of_length_le hasked]

end Delivered

/-! ## The bytes of one read -/

theorem readBytes_loadBytes (mem : Memory) (addr : U32) (bytes : List U8)
    (hfits : bytes.length ≤ 2 ^ 20) :
    (mem.loadBytes addr bytes).readBytes addr bytes.length = bytes := by
  apply List.ext_getElem
  · simp [Memory.readBytes]
  · intro i hi hi'
    have hindex : (cell (addr + BitVec.ofNat 32 i) - cell addr).toNat = i := by
      rw [cell_add, BitVec.add_comm, BitVec.add_sub_cancel, cell, BitVec.toNat_setWidth,
        BitVec.toNat_ofNat]
      omega
    simp only [Memory.readBytes, List.getElem_map, List.getElem_range]
    change ByteStore.load mem.data (cell addr) bytes _ = _
    rw [ByteStore.load_apply _ _ _ _ hfits, hindex, List.getElem?_eq_getElem hi']
    rfl

/-! ## The services on other handles -/

theorem onCore_keeps_dos
    {α : Type} {routine : Routine α} {m m' : Machine H} {a : α}
    (hrun : onCore routine m = .ok (a, m')) : m'.dos = m.dos := by
  rcases focus_eq_ok hrun with ⟨core, -, rfl⟩
  rfl

theorem lookup_insert_of_ne
    {dos : DosRuntime H} {handle other : U16} (file : FileHandle H) (hne : handle ≠ other) :
    (dos.insert other file).files.lookup handle = dos.files.lookup handle :=
  AList.lookup_insert_ne hne

theorem fileOp_lookup
    {op : FileOp} {dos dos' : DosRuntime H} {result : Option U16} {handle : U16}
    (hopen : ∀ closed, op ≠ .close closed) (hrun : op.run dos = .ok (result, dos'))
    (hne : result ≠ some handle) : dos'.files.lookup handle = dos.files.lookup handle := by
  cases op with
  | close closed => exact absurd rfl (hopen closed)
  | openImage data =>
      rcases bind_eq_ok hrun with ⟨given, opened, hopened, hlast⟩
      cases hlast
      unfold DosRuntime.openImage at hopened
      simp only at hopened
      split at hopened
      · cases hopened
        exact lookup_insert_of_ne _ fun heq => hne (congrArg some heq.symm)
      · cases hopened
  | openHost path =>
      rcases bind_eq_ok hrun with ⟨given, opened, hopened, hlast⟩
      cases hlast
      unfold DosRuntime.openFile at hopened
      cases hfile : H.openFile path with
      | none =>
          rw [hfile] at hopened
          cases hopened
          rfl
      | some file =>
          rw [hfile] at hopened
          simp only at hopened
          split at hopened
          · cases hopened
          · cases hopened
            exact lookup_insert_of_ne _ fun heq => hne (congrArg some heq.symm)

theorem ofPath_ne_close (disk : Option Disk) (path : Text) (closed : U16) :
    FileOp.ofPath disk path ≠ .close closed := by
  unfold FileOp.ofPath
  split <;> exact FileOp.noConfusion

theorem int21Open_lookup
    {m after : Machine H} {handle : U16} (hrun : int21Open m = .ok ((), after))
    (hne : after.cpu.regs.getCf = false → after.cpu.regs.get16 .AX ≠ handle) :
    after.dos.files.lookup handle = m.dos.files.lookup handle := by
  rcases int21Open_runs hrun with ⟨bytes, result, -, hop, hreports⟩
  apply fileOp_lookup (ofPath_ne_close _ _) hop
  intro hresult
  rw [hresult] at hreports
  exact hne hreports.2 hreports.1

theorem dosRead_lookup
    {dos dos' : DosRuntime H} {handle other : U16} {n : ℕ} {result : Except Error (List U8)}
    (hne : handle ≠ other) (hrun : DosRuntime.read other n dos = .ok (result, dos')) :
    dos'.files.lookup handle = dos.files.lookup handle := by
  unfold DosRuntime.read at hrun
  cases hfile : dos.files.lookup other with
  | none =>
      rw [hfile] at hrun
      cases hrun
      rfl
  | some file =>
      simp only [hfile] at hrun
      cases hread : file.read n with
      | none =>
          simp only [hread] at hrun
          cases hrun
          rfl
      | some got =>
          simp only [hread] at hrun
          cases hrun
          exact lookup_insert_of_ne _ hne

theorem dosSeek_lookup
    {dos dos' : DosRuntime H} {handle other : U16} {offset : ℕ} {whence : U8}
    {result : Except Error ℕ} (hne : handle ≠ other)
    (hrun : DosRuntime.seek other offset whence dos = .ok (result, dos')) :
    dos'.files.lookup handle = dos.files.lookup handle := by
  unfold DosRuntime.seek at hrun
  cases hfile : dos.files.lookup other with
  | none =>
      rw [hfile] at hrun
      cases hrun
      rfl
  | some file =>
      simp only [hfile] at hrun
      cases htarget : DosRuntime.seekTarget offset whence with
      | none =>
          simp only [htarget] at hrun
          cases hrun
          rfl
      | some target =>
          simp only [htarget] at hrun
          cases hseek : file.seek target with
          | none =>
              simp only [hseek] at hrun
              cases hrun
              rfl
          | some got =>
              simp only [hseek] at hrun
              cases hrun
              exact lookup_insert_of_ne _ hne

theorem int21Read_lookup
    {m after : Machine H} {handle : U16} (hne : handle ≠ m.cpu.regs.get16 .BX)
    (hrun : int21Read m = .ok ((), after)) :
    after.dos.files.lookup handle = m.dos.files.lookup handle := by
  unfold int21Read at hrun
  rw [bind_ok (onCore_getRegs_apply _ m), bind_ok (onCore_getRegs_apply _ m)] at hrun
  rcases bind_eq_ok hrun with ⟨result, read, hread, hlast⟩
  rcases focus_eq_ok hread with ⟨dos, hdos, rfl⟩
  have hsame := dosRead_lookup hne hdos
  cases result <;> rw [onCore_keeps_dos hlast] <;> exact hsame

theorem int21Seek_lookup
    {m after : Machine H} {handle : U16} (hne : handle ≠ m.cpu.regs.get16 .BX)
    (hrun : int21Seek m = .ok ((), after)) :
    after.dos.files.lookup handle = m.dos.files.lookup handle := by
  unfold int21Seek at hrun
  rw [bind_ok (onCore_getRegs_apply _ m), bind_ok (onCore_getRegs_apply _ m),
    bind_ok (onCore_getRegs_apply _ m)] at hrun
  rcases bind_eq_ok hrun with ⟨result, sought, hseek, hlast⟩
  rcases focus_eq_ok hseek with ⟨dos, hdos, rfl⟩
  have hsame := dosSeek_lookup hne hdos
  cases result <;> rw [onCore_keeps_dos hlast] <;> exact hsame

/-! ## Actions -/

/-- How many bytes an action asks the handle for, if it is a read on it. -/
def readCount (handle : U16) : Action × Machine H → Option ℕ
  | (.service num, m) =>
      if num = 0x21 ∧ m.cpu.regs.get8 .AH = 0x3F ∧ m.cpu.regs.get16 .BX = handle then
        some (m.cpu.regs.get16 .CX).toNat
      else none
  | _ => none

/-- What the program finds at DS:DX behind a read, as many bytes as AX says. -/
def piece (handle : U16) (entry : Action × Machine H) : List U8 :=
  match readCount handle entry, entry.1.perform entry.2 with
  | some _, .ok (_, after) =>
      after.bus.mem.readBytes (Memory.phys (entry.2.cpu.regs.getSeg .DS)
        ((entry.2.cpu.regs.get16 .DX).setWidth 32)) (after.cpu.regs.get16 .AX).toNat
  | _, _ => []

/-- No open is given the handle again, and no seek moves it. -/
structure Spares (handle : U16) (action : Action) (m : Machine H) : Prop where
  opens : action = .service 0x21 → m.cpu.regs.get8 .AH = 0x3D → ∀ after, action.Leads m after →
    after.cpu.regs.getCf = false → after.cpu.regs.get16 .AX ≠ handle
  seeks : action = .service 0x21 → m.cpu.regs.get8 .AH = 0x42 → m.cpu.regs.get16 .BX ≠ handle

theorem leads_int21 {m m' : Machine H} :
    (Action.service 0x21).Leads m m' ↔ handleInt21 m = .ok ((), m') := by
  have hperform : ((Action.service 0x21).perform : Handler H Unit) = (do
      let _ ← (do
        handleInt21
        return true)
      return ()) := rfl
  unfold Action.Leads
  rw [hperform]
  constructor
  · intro hrun
    rcases bind_eq_ok hrun with ⟨handled, served, hserved, hlast⟩
    rcases bind_eq_ok hserved with ⟨u, after, hdos, hdone⟩
    cases hdone
    cases hlast
    exact hdos
  · intro hrun
    exact bind_ok (bind_ok hrun)

theorem handleInt21_lookup
    {m after : Machine H} {handle : U16} (hrun : handleInt21 m = .ok ((), after))
    (hopens : m.cpu.regs.get8 .AH = 0x3D → after.cpu.regs.getCf = false →
      after.cpu.regs.get16 .AX ≠ handle)
    (hreads : m.cpu.regs.get8 .AH = 0x3F → m.cpu.regs.get16 .BX ≠ handle)
    (hseeks : m.cpu.regs.get8 .AH = 0x42 → m.cpu.regs.get16 .BX ≠ handle) :
    after.dos.files.lookup handle = m.dos.files.lookup handle := by
  unfold handleInt21 at hrun
  rw [bind_ok (onCore_getRegs_apply _ m)] at hrun
  generalize hah : m.cpu.regs.get8 .AH = ah at hrun hopens hreads hseeks
  split at hrun
  · exact int21Open_lookup hrun (hopens rfl)
  · exact int21Read_lookup (hreads rfl).symm hrun
  · exact int21Seek_lookup (hseeks rfl).symm hrun
  · rw [onCore_keeps_dos hrun]

/-- Only the services of INT 21h touch the open files. -/
theorem Action.keeps_dos {action : Action} {m m' : Machine H}
    (hother : action ≠ .service 0x21) (hleads : action.Leads m m') : m'.dos = m.dos := by
  cases action with
  | service num =>
      have hnum : num ≠ 0x21 := fun heq => hother (congrArg Action.service heq)
      rcases bind_eq_ok hleads with ⟨handled, served, hserved, hlast⟩
      cases hlast
      unfold handleInterrupt at hserved
      cases hnative : (nativeHandler num : Option (Handler H Unit)) with
      | none =>
          rw [hnative] at hserved
          cases hserved
          rfl
      | some handler =>
          rw [hnative] at hserved
          rcases bind_eq_ok hserved with ⟨u, after, hrun, hdone⟩
          cases hdone
          unfold nativeHandler at hnative
          split at hnative
          all_goals first
            | exact absurd rfl hnum
            | (cases hnative; done)
            | (cases hnative
               exact onCore_keeps_dos hrun)
  | instruction => exact onCore_keeps_dos hleads
  | block ops => exact onCore_keeps_dos hleads
  | enter => exact onCore_keeps_dos hleads
  | leave => exact onCore_keeps_dos hleads
  | vector num => exact onCore_keeps_dos hleads
  | load data => exact onCore_keeps_dos hleads
  | stop => exact onCore_keeps_dos hleads

theorem lookup_of_spares
    {handle : U16} {action : Action} {m m' : Machine H} (hleads : action.Leads m m')
    (hspares : Spares handle action m) (hnone : readCount handle (action, m) = none) :
    m'.dos.files.lookup handle = m.dos.files.lookup handle := by
  by_cases hdos : action = .service 0x21
  · rw [hdos] at hleads
    apply handleInt21_lookup (leads_int21.mp hleads)
    · intro hah
      exact hspares.opens hdos hah m' (by rw [hdos]; exact hleads)
    · intro hah hbx
      have hsome : readCount handle (Action.service 0x21, m) =
          some (m.cpu.regs.get16 .CX).toNat := if_pos ⟨rfl, hah, hbx⟩
      rw [hdos, hsome] at hnone
      cases hnone
    · exact hspares.seeks hdos
  · rw [Action.keeps_dos hdos hleads]

theorem read_length_le (file : FileModel) (n : ℕ) : (file.read n).1.length ≤ n := by
  unfold FileModel.read
  rw [List.length_take]
  exact Nat.min_le_left _ _

theorem piece_of_read
    {handle : U16} {action : Action} {m m' : Machine H} {file : FileModel} {n : ℕ}
    (hholds : Holds handle m.dos file) (hcount : readCount handle (action, m) = some n)
    (hleads : action.Leads m m') :
    piece handle (action, m) = (file.read n).1 ∧ Holds handle m'.dos (file.read n).2 := by
  have hread : action = .service 0x21 ∧ m.cpu.regs.get8 .AH = 0x3F ∧
      m.cpu.regs.get16 .BX = handle ∧ n = (m.cpu.regs.get16 .CX).toNat := by
    unfold readCount at hcount
    split at hcount
    · next num heq =>
        cases heq
        split at hcount
        · next hthis =>
            cases hcount
            exact ⟨congrArg _ hthis.1, hthis.2.1, hthis.2.2, rfl⟩
        · cases hcount
    · cases hcount
  rcases hread with ⟨rfl, hah, hbx, rfl⟩
  rcases int21Read_serves hholds hbx with ⟨dos, hrun, hnext⟩
  have hdos : handleInt21 m = .ok ((),
      ⟨m.toCore.answerRead (file.read (m.cpu.regs.get16 .CX).toNat).1, dos⟩) := by
    unfold handleInt21
    rw [bind_ok (onCore_getRegs_apply _ m), hah]
    exact hrun
  have hperform := leads_int21.mpr hdos
  unfold Action.Leads at hleads hperform
  rw [hperform] at hleads
  cases hleads
  refine ⟨?_, hnext⟩
  have hlength := read_length_le file (m.cpu.regs.get16 .CX).toNat
  have hcx := (m.cpu.regs.get16 .CX).isLt
  unfold piece
  rw [hcount]
  simp only [hperform]
  generalize (file.read (m.cpu.regs.get16 .CX).toNat).1 = got at hlength
  have hax : ((m.toCore.answerRead got).cpu.regs.get16 .AX).toNat = got.length := by
    have hset : (m.toCore.answerRead got).cpu.regs.get16 .AX = BitVec.ofNat 16 got.length :=
      Regs.get16_set16_self _ _ _
    rw [hset, BitVec.toNat_ofNat]
    omega
  rw [hax]
  exact readBytes_loadBytes m.bus.mem _ got (by omega)

/-! ## Runs -/

/-- The bytes that the reads along a trace have asked for. -/
def asked (handle : U16) (past : List (Action × Machine H)) : ℕ :=
  (past.filterMap (readCount handle)).sum

/-- What they have delivered, put together. -/
def delivered (handle : U16) (past : List (Action × Machine H)) : List U8 :=
  past.reverse.flatMap (piece handle)

/-- A read has asked for bytes and got none. -/
def AtEnd (handle : U16) (past : List (Action × Machine H)) : Prop :=
  ∃ entry ∈ past, ∃ n, readCount handle entry = some n ∧ n ≠ 0 ∧ piece handle entry = []

theorem delivered_cons (handle : U16) (entry : Action × Machine H)
    (past : List (Action × Machine H)) :
    delivered handle (entry :: past) = delivered handle past ++ piece handle entry := by
  simp [delivered]

theorem piece_of_none {handle : U16} {entry : Action × Machine H}
    (hnone : readCount handle entry = none) : piece handle entry = [] := by
  unfold piece
  rw [hnone]

theorem trace_delivers
    {handle : U16} {start m : Machine H} {past : List (Action × Machine H)} {file : FileModel}
    (hholds : Holds handle start.dos file) (htrace : MachineTrace start past m)
    (hspares : ∀ entry ∈ past, Spares handle entry.1 entry.2) :
    ∃ now, Holds handle m.dos now ∧
      Delivered file (asked handle past) (delivered handle past) now ∧
        (AtEnd handle past → file.data.length - file.pos ≤ (delivered handle past).length) := by
  induction htrace with
  | start =>
      refine ⟨file, hholds, .zero file, ?_⟩
      rintro ⟨entry, hentry, -⟩
      cases hentry
  | @next past action m m' hbefore hleads ih =>
      rcases ih fun entry hentry => hspares entry (List.mem_cons_of_mem _ hentry) with
        ⟨now, hnow, hdelivered, hend⟩
      rw [delivered_cons]
      cases hcount : readCount handle (action, m) with
      | none =>
          have hasked : asked handle ((action, m) :: past) = asked handle past := by
            unfold asked
            rw [List.filterMap_cons_none hcount]
          have hlookup := lookup_of_spares hleads (hspares _ List.mem_cons_self) hcount
          rw [hasked, piece_of_none hcount, List.append_nil]
          refine ⟨now, hlookup.trans hnow, hdelivered, ?_⟩
          rintro ⟨entry, hentry, n, hn, hrest⟩
          rcases List.mem_cons.mp hentry with rfl | hentry
          · rw [hcount] at hn
            cases hn
          · exact hend ⟨entry, hentry, n, hn, hrest⟩
      | some n =>
          have hasked : asked handle ((action, m) :: past) = asked handle past + n := by
            unfold asked
            rw [List.filterMap_cons_some hcount, List.sum_cons, Nat.add_comm]
          rcases piece_of_read hnow hcount hleads with ⟨hpiece, hnext⟩
          rw [hasked, hpiece]
          refine ⟨_, hnext, hdelivered.read n, ?_⟩
          rintro ⟨entry, hentry, k, hk, hzero, hempty⟩
          rw [List.length_append]
          rcases List.mem_cons.mp hentry with rfl | hentry
          · rw [hcount] at hk
            cases hk
            rw [hpiece] at hempty
            have hall := hdelivered.all_of_empty hzero hempty
            omega
          · have hall := hend ⟨entry, hentry, k, hk, hzero, hempty⟩
            omega

/-- AH=3Dh with the name of a file of the disk image. -/
structure Opens (m : Machine H) (data : List U8) : Prop where
  ah : m.cpu.regs.get8 .AH = 0x3D
  found : ∃ bytes entry, pathAt m.toCore 0 = some bytes ∧
    findOnDisk m.bus.disk (pathText bytes) = some (entry, data)

theorem Opens.holds
    {m after : Machine H} {data : List U8} (hopens : Opens m data)
    (hrun : handleInt21 m = .ok ((), after)) :
    Holds (after.cpu.regs.get16 .AX) after.dos ⟨data, 0⟩ := by
  rcases hopens.found with ⟨bytes, entry, hpath, hfound⟩
  unfold handleInt21 at hrun
  rw [bind_ok (onCore_getRegs_apply _ m), hopens.ah] at hrun
  have hopen : int21Open m = .ok ((), after) := hrun
  rcases int21Open_runs hopen with ⟨bytes', result, hpath', hop, hreports⟩
  rw [hpath] at hpath'
  cases hpath'
  have himage : FileOp.ofPath m.bus.disk (pathText bytes) = .openImage data := by
    unfold FileOp.ofPath
    rw [hfound]
  rw [himage] at hop
  rcases bind_eq_ok hop with ⟨handle, opened, hopened, hlast⟩
  unfold DosRuntime.openImage at hopened
  simp only at hopened
  split at hopened
  · cases hopened
    have hdos := congrArg Prod.snd (Except.ok.inj hlast)
    have hgiven := congrArg Prod.fst (Except.ok.inj hlast)
    simp only at hdos hgiven
    rw [← hgiven] at hreports
    rw [hreports.1, ← hdos]
    exact AList.lookup_insert _
  · cases hopened

theorem Opens.delivers
    {m start last : Machine H} {past : List (Action × Machine H)} {data : List U8}
    (hopens : Opens m data) (hleads : (Action.service 0x21).Leads m start)
    (htrace : MachineTrace start past last)
    (hspares : ∀ entry ∈ past, Spares (start.cpu.regs.get16 .AX) entry.1 entry.2) :
    delivered (start.cpu.regs.get16 .AX) past =
        data.take (asked (start.cpu.regs.get16 .AX) past) ∧
      (AtEnd (start.cpu.regs.get16 .AX) past →
        delivered (start.cpu.regs.get16 .AX) past = data) := by
  have hholds := hopens.holds (leads_int21.mp hleads)
  rcases trace_delivers hholds htrace hspares with ⟨now, -, hdelivered, hend⟩
  exact ⟨hdelivered.pieces, fun hat => hdelivered.eq_all (hend hat)⟩

/-- The reads on the handle of a file deliver it from its first byte on, and all
of it once one of them has come to the end. -/
theorem file_delivered
    {m start last : Machine H} {past : List (Action × Machine H)} {data : List U8}
    (hopens : Opens m data) (hleads : (Action.service 0x21).Leads m start)
    (htrace : MachineTrace start past last)
    (hspares : ∀ entry ∈ past, Spares (start.cpu.regs.get16 .AX) entry.1 entry.2) :
    delivered (start.cpu.regs.get16 .AX) past =
        data.take (asked (start.cpu.regs.get16 .AX) past) ∧
      (AtEnd (start.cpu.regs.get16 .AX) past →
        delivered (start.cpu.regs.get16 .AX) past = data) :=
  hopens.delivers hleads htrace hspares

/-! ## A file of two bytes -/

/-- A machine that asks DOS to open `A.COM`. -/
def openingMachine : Machine HostFiles.none :=
  { execRuntime.toMachine with
    toCore := execRuntime.toCore.setRegs (execRuntime.cpu.regs.set16 .AX 0x3D00) }

theorem openingMachine_ah : openingMachine.cpu.regs.get8 .AH = 0x3D := by decide +kernel

theorem openingMachine_path :
    pathAt openingMachine.toCore 0 = some [0x41, 0x2E, 0x43, 0x4F, 0x4D] := by
  decide +kernel

theorem openingMachine_opens : Opens openingMachine program := by
  have htext : pathText [0x41, 0x2E, 0x43, 0x4F, 0x4D] = ['A', '.', 'C', 'O', 'M'] := by
    decide +kernel
  refine ⟨openingMachine_ah, _, programEntry, openingMachine_path, ?_⟩
  rw [htext]
  exact program_found

/-- What a program may do to ask for five bytes of handle 100. -/
def askingOps : List IrOp := [.movRegImm .AX 0x3F00, .movRegImm .SI 100, .movRegImm .DX 5]

def servedFrom (m : Machine HostFiles.none) : Option Unit :=
  ((Action.service 0x21).perform m).toOption.map fun _ => ()

/-- The handle, what AH is behind the block, what is asked for, and whether it is
served. -/
def openingReport (start : Machine HostFiles.none) :
    U16 × Option (U8 × Option ℕ × Option Unit) :=
  (start.cpu.regs.get16 .AX,
    ((Action.block askingOps).perform start).toOption.map fun mid =>
      (mid.2.cpu.regs.get8 .AH, readCount 100 (.service 0x21, mid.2), servedFrom mid.2))

theorem openingMachine_served :
    ∃ start, (Action.service 0x21).Leads openingMachine start ∧
      openingReport start = (100, some (0x3F, some 5, some ())) :=
  Action.leads_of_map openingReport (by decide +kernel)

/-- A run behind the opening in which five bytes are asked for. -/
structure ReadsFive (start : Machine HostFiles.none) (past : List (Action × Machine HostFiles.none))
    (last : Machine HostFiles.none) : Prop where
  opened : (Action.service 0x21).Leads openingMachine start
  trace : MachineTrace start past last
  spares : ∀ entry ∈ past, Spares (start.cpu.regs.get16 .AX) entry.1 entry.2
  five : asked (start.cpu.regs.get16 .AX) past = 5

theorem openingMachine_reads : ∃ start past last, ReadsFive start past last := by
  rcases openingMachine_served with ⟨start, hopened, hreport⟩
  rcases Prod.mk.inj hreport with ⟨hhandle, hblock⟩
  rcases Action.leads_of_map (fun mid : Machine HostFiles.none => (mid.cpu.regs.get8 .AH,
    readCount 100 (.service 0x21, mid), servedFrom mid)) hblock with ⟨mid, hmid, hfacts⟩
  rcases Prod.mk.inj hfacts with ⟨hah, hrest⟩
  rcases Prod.mk.inj hrest with ⟨hcount, hserved⟩
  rcases Action.leads_of_map (fun _ => ()) hserved with ⟨last, hlast, -⟩
  refine ⟨start, [(.service 0x21, mid), (.block askingOps, start)], last, ?_⟩
  constructor
  · exact hopened
  · exact (LabelledTrace.single hmid).next hlast
  · intro entry hentry
    rcases List.mem_pair.mp hentry with rfl | rfl
    · constructor
      · intro _ hopen
        rw [hah] at hopen
        exact absurd hopen (by decide)
      · intro _ hseek
        rw [hah] at hseek
        exact absurd hseek (by decide)
    · constructor
      · intro hservice
        cases hservice
      · intro hservice
        cases hservice
  · unfold asked
    rw [hhandle, List.filterMap_cons_some hcount]
    rfl

theorem file_delivered_program :
    ∃ start past last, ReadsFive start past last ∧
      delivered (start.cpu.regs.get16 .AX) past = program := by
  rcases openingMachine_reads with ⟨start, past, last, hreads⟩
  have hpieces :=
    (file_delivered openingMachine_opens hreads.opened hreads.trace hreads.spares).1
  rw [hreads.five] at hpieces
  exact ⟨start, past, last, hreads, hpieces⟩

end Kita98
