/-!
# The digest SHA-1

The digest of a byte string: the string is padded to blocks of 64 bytes, each
block is spread over eighty words, and eighty rounds mix each word into five
words of state.
-/

namespace CommitReports.Digest

/-- The five words of state. -/
structure Sha1State where
  a : UInt32
  b : UInt32
  c : UInt32
  d : UInt32
  e : UInt32
  deriving DecidableEq, Repr

/-- The state before the first block. -/
def Sha1State.initial : Sha1State :=
  { a := 0x67452301, b := 0xEFCDAB89, c := 0x98BADCFE, d := 0x10325476, e := 0xC3D2E1F0 }

/-- A word rotated to the left. -/
def rotateLeft (x : UInt32) (n : UInt32) : UInt32 := (x <<< n) ||| (x >>> (32 - n))

/-- A number as eight bytes, the greatest first. -/
def bigEndian64 (n : Nat) : ByteArray :=
  ⟨((List.range 8).map fun i => (n / Nat.pow 256 (7 - i)).toUInt8).toArray⟩

/-- The string with a one bit, zeros and its length in bits behind it, so that it fills blocks. -/
def pad (bytes : ByteArray) : ByteArray :=
  let zeros := (119 - bytes.size % 64) % 64
  (bytes.push 0x80) ++ ⟨Array.replicate zeros 0⟩ ++ bigEndian64 (bytes.size * 8)

/-- The word at a position, its greatest byte first. -/
def wordAt (bytes : ByteArray) (i : Nat) : UInt32 :=
  let byte (k : Nat) : UInt32 := (bytes.data.getD (i + k) 0).toUInt32
  (byte 0 <<< 24) ||| (byte 1 <<< 16) ||| (byte 2 <<< 8) ||| byte 3

/-- The eighty words that the block at a position is spread over. -/
def schedule (bytes : ByteArray) (start : Nat) : Array UInt32 :=
  let first := (Array.range 16).map fun i => wordAt bytes (start + 4 * i)
  (List.range 64).foldl (fun words i =>
    let word (k : Nat) : UInt32 := words.getD (i + k) 0
    words.push (rotateLeft (word 13 ^^^ word 8 ^^^ word 2 ^^^ word 0) 1)) first

/-- One round. -/
def round (words : Array UInt32) (s : Sha1State) (i : Nat) : Sha1State :=
  let (f, k) : UInt32 × UInt32 :=
    if i < 20 then ((s.b &&& s.c) ||| (~~~s.b &&& s.d), 0x5A827999)
    else if i < 40 then (s.b ^^^ s.c ^^^ s.d, 0x6ED9EBA1)
    else if i < 60 then ((s.b &&& s.c) ||| (s.b &&& s.d) ||| (s.c &&& s.d), 0x8F1BBCDC)
    else (s.b ^^^ s.c ^^^ s.d, 0xCA62C1D6)
  { a := rotateLeft s.a 5 + f + s.e + k + words.getD i 0
    b := s.a
    c := rotateLeft s.b 30
    d := s.c
    e := s.d }

/-- The state after the block at a position. -/
def Sha1State.absorb (s : Sha1State) (bytes : ByteArray) (start : Nat) : Sha1State :=
  let t := (List.range 80).foldl (round (schedule bytes start)) s
  { a := s.a + t.a, b := s.b + t.b, c := s.c + t.c, d := s.d + t.d, e := s.e + t.e }

/-- A word as eight digits to base sixteen. -/
def hexWord (x : UInt32) : String :=
  let digits := Nat.toDigits 16 x.toNat
  String.ofList (List.replicate (8 - digits.length) '0' ++ digits)

/-- The digest of a byte string, as forty digits to base sixteen. -/
def sha1 (bytes : ByteArray) : String :=
  let padded := pad bytes
  let s := (List.range (padded.size / 64)).foldl (fun s i => s.absorb padded (64 * i))
    Sha1State.initial
  String.join ([s.a, s.b, s.c, s.d, s.e].map hexWord)

end CommitReports.Digest
