/-!
# Signatures

Who made a commit, and when: a name, an address between angle brackets, the
seconds since 1970 and an offset from universal time. The last brackets of the
line count; what stands outside of letters at the ends of name and address is
dropped; a time that is missing is 0, and an offset that is missing, unreadable
or too large is none.
-/

namespace CommitReports.Git

/-- Who made something, and when. -/
structure Signature where
  name : List UInt8
  email : List UInt8
  seconds : Int
  /-- The offset from universal time in minutes. -/
  offset : Int
  deriving DecidableEq, Repr

/-- Why a line holds no signature. -/
inductive SignatureFault where
  /-- Nothing follows the word that the line begins with, or it begins with another word. -/
  | word
  /-- No address stands between angle brackets. -/
  | address
  /-- What follows the address is no time. -/
  | time
  /-- The line has no end. -/
  | ending
  deriving DecidableEq, Repr

/-- The wording of a fault. -/
def SignatureFault.message : SignatureFault → String
  | .word => "failed to parse signature - expected prefix doesn\x27t match actual"
  | .address => "failed to parse signature - malformed e-mail"
  | .time => "failed to parse signature - invalid Unix timestamp"
  | .ending => "failed to parse signature - no newline given"

namespace Signature

/-- A byte that is dropped at the ends of a name or an address: blanks and controls, and the
characters `, : ; < > " \ '`. -/
def isCrud (b : UInt8) : Bool :=
  b ≤ 32 || [44, 58, 59, 60, 62, 34, 92, 39].contains b

/-- Bytes without the crud at their ends, up to the first NUL. -/
def trim (bytes : List UInt8) : List UInt8 :=
  (((bytes.dropWhile isCrud).reverse.dropWhile isCrud).reverse).takeWhile (· != 0)

/-- The bytes before the last occurrence of one, and those after it. -/
def splitLast (b : UInt8) (bytes : List UInt8) : Option (List UInt8 × List UInt8) :=
  let after := (bytes.reverse.takeWhile (· != b)).reverse
  if after.length < bytes.length then
    some (bytes.take (bytes.length - after.length - 1), after)
  else none

/-- Whether a byte is a digit. -/
def isDigit (b : UInt8) : Bool := 48 ≤ b && b ≤ 57

/-- Whether a byte is a blank. -/
def isSpace (b : UInt8) : Bool := b == 32 || (9 ≤ b && b ≤ 13)

/-- A decimal number of 64 bits after blanks and a sign, and what follows it. -/
def readInteger (bytes : List UInt8) : Option (Int × List UInt8) :=
  let start := bytes.dropWhile isSpace
  let (negative, rest) : Bool × List UInt8 := match start with
    | 45 :: rest => (true, rest)
    | 43 :: rest => (false, rest)
    | rest => (false, rest)
  let digits := rest.takeWhile isDigit
  let n : Int := digits.foldl (fun (n : Int) b => n * 10 + (b.toNat - 48 : Nat)) 0
  let n := if negative then -n else n
  if digits = [] ∨ n < Int64.minValue.toInt ∨ Int64.maxValue.toInt < n then none
  else some (n, rest.dropWhile isDigit)

/-- An offset from its sign and the number of its four digits. More than 14 hours or 59 minutes
count as none. -/
def offsetOf (sign : UInt8) (n : Int) : Int :=
  let hours := Int.tdiv n 100
  let minutes := Int.tmod n 100
  if hours ≤ 14 ∧ minutes ≤ 59 then
    if sign = 45 then -(hours * 60 + minutes) else hours * 60 + minutes
  else 0

/-- The offset at the end of a signature. -/
def readOffset : List UInt8 → Int
  | _ :: sign :: rest =>
    if sign = 45 ∨ sign = 43 then
      match readInteger rest with
      | some (n, _) => offsetOf sign n
      | none => 0
    else 0
  | _ => 0

/-- The time after the address, one byte after its bracket. -/
def readTime : List UInt8 → Option (Int × Int)
  | _ :: b :: rest => (readInteger (b :: rest)).map fun (seconds, rest) => (seconds, readOffset rest)
  | _ => some (0, 0)

/-- Reads a signature. -/
def read (line : List UInt8) : Except SignatureFault Signature :=
  match splitLast 60 line with
  | none => .error .address
  | some (beforeOpening, afterOpening) =>
    match splitLast 62 afterOpening with
    | none => .error .address
    | some (email, time) =>
      match readTime time with
      | none => .error .time
      | some (seconds, offset) =>
        .ok { name := trim beforeOpening, email := trim email, seconds, offset }

end Signature

end CommitReports.Git
