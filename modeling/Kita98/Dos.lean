import Kita98.FatFileSystem
import Kita98.Interpreter
import Mathlib.Data.List.AList

/-!
# DOS file handles

A handle names a file of the host or the contents of a file of the disk image
behind a cursor.  The host's file system is a parameter of the model.
-/

namespace Kita98

inductive SeekFrom where
  | start (n : ℕ)
  | current (offset : ℤ)
  | fromEnd (offset : ℤ)

/-- The host's files: opening by path, reading at most `n` bytes, seeking. -/
structure HostFiles where
  File : Type
  openFile : Text → Option File
  read : File → ℕ → Option (List U8 × File)
  seek : File → SeekFrom → Option (ℕ × File)

def HostFiles.none : HostFiles where
  File := Empty
  openFile := fun _ => Option.none
  read := fun file _ => nomatch file
  seek := fun file _ => nomatch file

inductive FileHandle (H : HostFiles) where
  | real (file : H.File)
  | virt (data : List U8) (pos : ℕ)

namespace FileHandle

variable {H : HostFiles}

/-- `Read::read` into a buffer of `n` bytes. -/
def read (n : ℕ) : FileHandle H → Option (List U8 × FileHandle H)
  | real file => (H.read file n).map fun (bytes, file) => (bytes.take n, real file)
  | virt data pos =>
      let bytes := (data.drop pos).take n
      some (bytes, virt data (pos + bytes.length))

/-- A cursor refuses positions outside `0 .. 2 ^ 64`. -/
def cursorTarget (base offset : ℤ) : Option ℕ :=
  if 0 ≤ base + offset ∧ base + offset < 2 ^ 64 then some (base + offset).toNat
  else none

def seek (target : SeekFrom) : FileHandle H → Option (ℕ × FileHandle H)
  | real file => (H.seek file target).map fun (pos, file) => (pos, real file)
  | virt data pos =>
      let target :=
        match target with
        | .start n => some n
        | .current offset => cursorTarget pos offset
        | .fromEnd offset => cursorTarget data.length offset
      target.map fun pos => (pos, virt data pos)

end FileHandle

structure DosRuntime (H : HostFiles) where
  files : AList fun _ : U16 => FileHandle H
  nextHandle : U16

namespace DosRuntime

variable {H : HostFiles}

def new : DosRuntime H := ⟨∅, 5⟩

def insert (dos : DosRuntime H) (handle : U16) (file : FileHandle H) : DosRuntime H :=
  { dos with files := dos.files.insert handle file }

/-- `next_handle += 1` is a checked addition. -/
def openFile (path : Text) : Exec Fault (DosRuntime H) (Except Error U16) := fun dos =>
  match H.openFile path with
  | none => .ok (.error .host, dos)
  | some file =>
      let handle := dos.nextHandle
      if handle = 0xFFFF then .error .overflow
      else .ok (.ok handle,
        { dos.insert handle (.real file) with nextHandle := handle + 1 })

def read (handle : U16) (n : ℕ) : Exec Fault (DosRuntime H) (Except Error (List U8)) :=
  fun dos =>
    match dos.files.lookup handle with
    | none => .ok (.error (.invalidHandle handle), dos)
    | some file =>
        match file.read n with
        | none => .ok (.error .host, dos)
        | some (bytes, file) => .ok (.ok bytes, dos.insert handle file)

/-- The position as `whence` reads the offset; `offset as u64` is the offset
itself, which is never negative. -/
def seekTarget (offset : ℕ) (whence : U8) : Option SeekFrom :=
  match whence with
  | 0 => some (.start offset)
  | 1 => some (.current offset)
  | 2 => some (.fromEnd offset)
  | _ => none

def seek (handle : U16) (offset : ℕ) (whence : U8) :
    Exec Fault (DosRuntime H) (Except Error ℕ) :=
  fun dos =>
    match dos.files.lookup handle with
    | none => .ok (.error (.invalidHandle handle), dos)
    | some file =>
        match seekTarget offset whence with
        | none => .ok (.error .invalidWhence, dos)
        | some target =>
            match file.seek target with
            | none => .ok (.error .host, dos)
            | some (pos, file) => .ok (.ok pos, dos.insert handle file)

/-! ## When an operation fails -/

theorem openFile_isNone
    {path : Text} {dos dos' : DosRuntime H} {result : Except Error U16}
    (hrun : openFile path dos = .ok (result, dos')) :
    result.toOption.isNone = (H.openFile path).isNone := by
  unfold openFile at hrun
  cases hfile : H.openFile path with
  | none =>
      rw [hfile] at hrun
      cases hrun
      rfl
  | some file =>
      rw [hfile] at hrun
      simp only at hrun
      split at hrun <;> cases hrun
      rfl

/-- Whether a read fails: no such handle, or the host refuses. -/
def readFails (dos : DosRuntime H) (handle : U16) (n : ℕ) : Bool :=
  match dos.files.lookup handle with
  | none => true
  | some file => (file.read n).isNone

theorem read_isNone
    {handle : U16} {n : ℕ} {dos dos' : DosRuntime H} {result : Except Error (List U8)}
    (hrun : read handle n dos = .ok (result, dos')) :
    result.toOption.isNone = dos.readFails handle n := by
  unfold read at hrun
  unfold readFails
  cases hfile : dos.files.lookup handle with
  | none =>
      rw [hfile] at hrun
      cases hrun
      rfl
  | some file =>
      rw [hfile] at hrun
      cases hread : file.read n with
      | none =>
          simp only [hread] at hrun ⊢
          cases hrun
          rfl
      | some found =>
          simp only [hread] at hrun ⊢
          cases hrun
          rfl

/-- Whether a seek fails: no such handle, no such origin, or a position
outside the file's range. -/
def seekFails (dos : DosRuntime H) (handle : U16) (offset : ℕ) (whence : U8) : Bool :=
  match dos.files.lookup handle with
  | none => true
  | some file =>
      match seekTarget offset whence with
      | none => true
      | some target => (file.seek target).isNone

theorem seek_isNone
    {handle : U16} {offset : ℕ} {whence : U8} {dos dos' : DosRuntime H}
    {result : Except Error ℕ}
    (hrun : seek handle offset whence dos = .ok (result, dos')) :
    result.toOption.isNone = dos.seekFails handle offset whence := by
  unfold seek at hrun
  unfold seekFails
  cases hfile : dos.files.lookup handle with
  | none =>
      rw [hfile] at hrun
      cases hrun
      rfl
  | some file =>
      rw [hfile] at hrun
      cases htarget : seekTarget offset whence with
      | none =>
          simp only [htarget] at hrun ⊢
          cases hrun
          rfl
      | some target =>
          cases hseek : file.seek target with
          | none =>
              simp only [htarget, hseek] at hrun ⊢
              cases hrun
              rfl
          | some found =>
              simp only [htarget, hseek] at hrun ⊢
              cases hrun
              rfl

def close (handle : U16) (dos : DosRuntime H) : DosRuntime H :=
  { dos with files := dos.files.erase handle }

end DosRuntime

end Kita98
