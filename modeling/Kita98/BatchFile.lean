import Kita98.FatFileSystem

/-!
# Batch files

The text of a batch file and the files that its lines name.  `upper` stands for
`char::to_uppercase`, whose table is not restricted here.
-/

namespace Kita98

open WordBits

/-! ## Text of the standard library -/

/-- The characters with the Unicode property `White_Space`. -/
def isWhitespace (c : Char) : Bool :=
  let n := c.toNat
  (0x09 ≤ n ∧ n ≤ 0x0D) ∨ n = 0x20 ∨ n = 0x85 ∨ n = 0xA0 ∨ n = 0x1680 ∨
    (0x2000 ≤ n ∧ n ≤ 0x200A) ∨ n = 0x2028 ∨ n = 0x2029 ∨ n = 0x202F ∨ n = 0x205F ∨ n = 0x3000

/-- `str::trim` -/
def trimText (s : Text) : Text :=
  ((s.dropWhile isWhitespace).reverse.dropWhile isWhitespace).reverse

/-- `str::lines`; a line ends with LF or CR LF, and nothing follows the last end. -/
def lines : Text → List Text
  | [] => []
  | c :: rest =>
      if c = Char.ofNat 10 then [] :: lines rest
      else if c = Char.ofNat 13 ∧ rest.head? = some (Char.ofNat 10) then lines rest
      else
        match lines rest with
        | [] => [[c]]
        | line :: more => (c :: line) :: more

/-- `str::split_whitespace` -/
def splitWhitespace (s : Text) : List Text :=
  (s.splitOnP isWhitespace).filter fun word => !word.isEmpty

/-- What may follow the first byte of a character: the range of the next byte and
the number of bytes. -/
def utf8Tail (b : U8) : Option (U8 × U8 × ℕ) :=
  if b < 0xC2 then none
  else if b ≤ 0xDF then some (0x80, 0xBF, 1)
  else if b = 0xE0 then some (0xA0, 0xBF, 2)
  else if b = 0xED then some (0x80, 0x9F, 2)
  else if b ≤ 0xEF then some (0x80, 0xBF, 2)
  else if b = 0xF0 then some (0x90, 0xBF, 3)
  else if b ≤ 0xF3 then some (0x80, 0xBF, 3)
  else if b = 0xF4 then some (0x80, 0x8F, 3)
  else none

/-- The continuation bytes that are there, at most `n` of them. -/
def continuation (low high : U8) : ℕ → List U8 → List U8
  | 0, _ => []
  | _, [] => []
  | n + 1, b :: rest =>
      if low ≤ b ∧ b ≤ high then b :: continuation 0x80 0xBF n rest else []

def decodeUtf8 (first : U8) (tail : List U8) : Char :=
  Char.ofNat (tail.foldl (fun v b => 64 * v + b.toNat % 64) (first.toNat % 2 ^ (6 - tail.length)))

/-- `String::from_utf8_lossy`, with U+FFFD for every maximal part of a character
that does not go on; each round takes a byte at least. -/
def fromUtf8LossyLoop : ℕ → List U8 → Text
  | 0, _ => []
  | _, [] => []
  | fuel + 1, b :: rest =>
      if b < 0x80 then Char.ofNat b.toNat :: fromUtf8LossyLoop fuel rest
      else
        match utf8Tail b with
        | none => Char.ofNat 0xFFFD :: fromUtf8LossyLoop fuel rest
        | some (low, high, n) =>
            let tail := continuation low high n rest
            let c := if tail.length = n then decodeUtf8 b tail else Char.ofNat 0xFFFD
            c :: fromUtf8LossyLoop fuel (rest.drop tail.length)

def fromUtf8Lossy (bytes : List U8) : Text := fromUtf8LossyLoop bytes.length bytes

/-! ## The lines of a batch file -/

section Batch

variable (upper : Char → Text)

def upperText (s : Text) : Text := s.flatMap upper

/-- `FatFileSystem::parse_bat` -/
def parseBat (content : List U8) : List Text :=
  ((lines (fromUtf8Lossy content)).map fun l => upperText upper (trimText l)).filter fun l =>
    !l.isEmpty

/-- The word without the `@` in front of it. -/
def cleanName (exeName : Text) : Text :=
  match exeName with
  | '@' :: rest => rest
  | _ => exeName

def builtins : List Text :=
  ["ECHO", "REM", "SET", "CLS", "PAUSE", "IF", "GOTO"].map String.toList

def targets (cleanName : Text) : List Text :=
  if '.' ∈ cleanName then [cleanName]
  else [cleanName ++ ".COM".toList, cleanName ++ ".EXE".toList]

/-- The body of the loop over the commands. -/
def pushCommand (root queue : List DirEntry) (cmd : Text) : List DirEntry :=
  match (splitWhitespace cmd).head? with
  | none => queue
  | some exeName =>
      if builtins.contains (upperText upper (cleanName exeName)) then queue
      else
        match root.find? fun f =>
          (targets (cleanName exeName)).contains (upperText upper f.fullName) with
        | some target => queue ++ [target]
        | none => queue

/-- The batch queue that `Runtime::new` builds from the text of the file and the
root directory. -/
def batchQueue (content : List U8) (root : List DirEntry) : List DirEntry :=
  (parseBat upper content).foldl (pushCommand upper root) []

end Batch

end Kita98
