/-!
# Text from bytes

Bytes that are UTF-8 are read as the text they encode (`decode?`). Where bytes
need not be UTF-8 but have to be shown, `decodeLossy` writes U+FFFD for every
longest part of them that starts a character but cannot be finished, and for
every byte that starts none; all other characters are read as usual.
-/

namespace CommitReports.Text

/-- The text that the bytes encode; `none` if they are not UTF-8. -/
def decode? (bytes : ByteArray) : Option String := String.fromUTF8? bytes

/-- What must follow a first byte: how many more bytes, and the least and the greatest that the
next of them may be. No byte follows one that starts no character of several bytes. -/
def continuation (first : UInt8) : Nat × UInt8 × UInt8 :=
  if first < 0xC2 then (0, 0, 0)
  else if first ≤ 0xDF then (1, 0x80, 0xBF)
  else if first = 0xE0 then (2, 0xA0, 0xBF)
  else if first = 0xED then (2, 0x80, 0x9F)
  else if first ≤ 0xEF then (2, 0x80, 0xBF)
  else if first = 0xF0 then (3, 0x90, 0xBF)
  else if first ≤ 0xF3 then (3, 0x80, 0xBF)
  else if first = 0xF4 then (3, 0x80, 0x8F)
  else (0, 0, 0)

/-- The longest run of at most `count` bytes that may continue a character, the first of them
between `low` and `high`. -/
def continuing : Nat → UInt8 → UInt8 → List UInt8 → List UInt8
  | 0, _, _, _ => []
  | _, _, _, [] => []
  | count + 1, low, high, b :: rest =>
    if low ≤ b && b ≤ high then b :: continuing count 0x80 0xBF rest else []

/-- The character with a first byte and the bytes after it, the lengths being right. -/
def assemble (first : UInt8) (tail : List UInt8) : Char :=
  let lead := match tail.length with
    | 1 => first.toNat % 0x20
    | 2 => first.toNat % 0x10
    | _ => first.toNat % 0x08
  Char.ofNat (tail.foldl (fun n b => n * 64 + b.toNat % 64) lead)

/-- The characters that the bytes encode, U+FFFD standing for each longest malformed part. -/
def decodeLossyChars : List UInt8 → List Char
  | [] => []
  | first :: rest =>
    if first < 0x80 then Char.ofNat first.toNat :: decodeLossyChars rest
    else
      let (count, low, high) := continuation first
      let tail := continuing count low high rest
      let c := if 0 < count ∧ tail.length = count then assemble first tail else '\uFFFD'
      c :: decodeLossyChars (rest.drop tail.length)
  termination_by bytes => bytes.length
  decreasing_by all_goals simp [List.length_drop]; try omega

/-- The text that the bytes encode, U+FFFD standing for each longest malformed part. -/
def decodeLossy (bytes : ByteArray) : String :=
  match decode? bytes with
  | some text => text
  | none => String.ofList (decodeLossyChars bytes.toList)

end CommitReports.Text
