import CommitReports.Text.Hexadecimal
import CommitReports.Toml.Value

/-!
# Numbers, truth values and dates

A value that does not start with a quote or a bracket is the longest run of
characters that numbers, truth values and dates are made of; `scalar?` says which
value the whole run denotes, if any. A day must exist in its month, an integer
must fit in 64 bits, and a number too great to be finite is refused.
-/

namespace CommitReports.Toml

/-! ## Numbers -/

/-- Digits without the underscores between them; there must be a digit on both sides of each. -/
def ungroup (isDigit : Char → Bool) : List Char → Option (List Char)
  | [] => none
  | [c] => if isDigit c then some [c] else none
  | c :: '_' :: rest => if isDigit c then (ungroup isDigit rest).map (c :: ·) else none
  | c :: d :: rest => if isDigit c then (ungroup isDigit (d :: rest)).map (c :: ·) else none

/-- The number that digits denote. -/
def numberOf (base : Nat) (digits : List Char) : Nat :=
  digits.foldl (fun n c => n * base + Text.hexValue c) 0

/-- An integer, if it fits in 64 bits. -/
def integer? (n : Int) : Option Value :=
  if Int64.minValue.toInt ≤ n ∧ n ≤ Int64.maxValue.toInt then some (.integer n) else none

/-- A sign, and what follows it. -/
def splitSign : List Char → Bool × List Char
  | '-' :: rest => (true, rest)
  | '+' :: rest => (false, rest)
  | rest => (false, rest)

/-- Decimal digits without a zero in front of others. -/
def decimalDigits (cs : List Char) : Option (List Char) :=
  (ungroup Char.isDigit cs).bind fun digits =>
    if digits.head? = some '0' ∧ 1 < digits.length then none else some digits

/-- An exponent: a sign and digits, zeros in front allowed. -/
def exponent? (cs : List Char) : Option Int :=
  let (negative, cs) := splitSign cs
  (ungroup Char.isDigit cs).map fun digits =>
    if negative then -(numberOf 10 digits : Int) else numberOf 10 digits

/-- A floating point number; it may not be too great. -/
def float? (negative : Bool) (n : Nat) (e : Int) : Option Value :=
  match Double.ofDecimal negative n e with
  | .infinite false => none
  | x => some (.float x)

/-- A decimal number without its sign. -/
def decimal? (negative : Bool) (cs : List Char) : Option Value :=
  let isPart (c : Char) : Bool := c.isDigit || c == '_'
  (decimalDigits (cs.takeWhile isPart)).bind fun whole =>
    match cs.dropWhile isPart with
    | [] => integer? (if negative then -(numberOf 10 whole : Int) else numberOf 10 whole)
    | '.' :: rest =>
      (ungroup Char.isDigit (rest.takeWhile isPart)).bind fun places =>
        let n := numberOf 10 (whole ++ places)
        match rest.dropWhile isPart with
        | [] => float? negative n (-(places.length : Int))
        | c :: rest =>
          if c = 'e' ∨ c = 'E' then
            (exponent? rest).bind fun e => float? negative n (e - places.length)
          else none
    | c :: rest =>
      if c = 'e' ∨ c = 'E' then (exponent? rest).bind (float? negative (numberOf 10 whole))
      else none

/-! ## Dates and times -/

/-- Two decimal digits that denote a number between `low` and `high`, and what follows. -/
def twoDigits (low high : Nat) : List Char → Option (Nat × List Char)
  | a :: b :: rest =>
    let n := numberOf 10 [a, b]
    if a.isDigit && b.isDigit && low ≤ n && n ≤ high then some (n, rest) else none
  | _ => none

/-- What follows a given character. -/
def after (c : Char) : List Char → Option (List Char)
  | d :: rest => if d = c then some rest else none
  | [] => none

/-- The number of days of a month. -/
def daysInMonth (year month : Nat) : Nat :=
  if month = 2 then
    if year % 4 = 0 ∧ (year % 100 ≠ 0 ∨ year % 400 = 0) then 29 else 28
  else if month = 4 ∨ month = 6 ∨ month = 9 ∨ month = 11 then 30
  else 31

/-- What follows a date. -/
def afterDate (cs : List Char) : Option (List Char) := do
  let (century, cs) ← twoDigits 0 99 cs
  let (rest, cs) ← twoDigits 0 99 cs
  let (month, cs) ← twoDigits 1 12 (← after '-' cs)
  let (day, cs) ← twoDigits 1 31 (← after '-' cs)
  if day ≤ daysInMonth (century * 100 + rest) month then some cs else none

/-- What follows a time of day. -/
def afterTime (cs : List Char) : Option (List Char) := do
  let (_, cs) ← twoDigits 0 23 cs
  let (_, cs) ← twoDigits 0 59 (← after ':' cs)
  let (_, cs) ← twoDigits 0 60 (← after ':' cs)
  match cs with
  | '.' :: rest =>
    if (rest.takeWhile Char.isDigit).isEmpty then none else some (rest.dropWhile Char.isDigit)
  | _ => some cs

/-- What follows an offset from universal time. -/
def afterOffset : List Char → Option (List Char)
  | c :: rest => do
    if c = 'Z' ∨ c = 'z' then some rest
    else if c = '+' ∨ c = '-' then
      let (_, rest) ← twoDigits 0 23 rest
      let (_, rest) ← twoDigits 0 59 (← after ':' rest)
      some rest
    else none
  | [] => none

/-- A time of day, with or without an offset. -/
def isTimeWithOffset (cs : List Char) : Bool :=
  match afterTime cs with
  | some [] => true
  | some rest => afterOffset rest == some []
  | none => false

/-- Whether a run is a date, a time of day, or both. -/
def isMoment (cs : List Char) : Bool :=
  afterTime cs == some [] ||
  match afterDate cs with
  | some [] => true
  | some (c :: rest) => (c == 'T' || c == 't' || c == ' ') && isTimeWithOffset rest
  | none => false

/-! ## The value of a run -/

/-- Whether a character can be part of a number, a truth value or a date. -/
def isScalarChar (c : Char) : Bool :=
  c.isAlphanum || c == '_' || c == '+' || c == '-' || c == '.' || c == ':'

/-- The value that a whole run denotes. -/
def scalar? (cs : List Char) : Option Value :=
  if isMoment cs then some .moment
  else match String.ofList cs with
  | "true" => some (.boolean true)
  | "false" => some (.boolean false)
  | "inf" | "+inf" => some (.float (.infinite false))
  | "-inf" => some (.float (.infinite true))
  | "nan" | "+nan" | "-nan" => some (.float .nan)
  | _ =>
    match cs with
    | '0' :: 'x' :: rest => (ungroup Text.isHexDigit rest).bind fun d => integer? (numberOf 16 d)
    | '0' :: 'o' :: rest =>
      (ungroup (fun c => '0' ≤ c && c ≤ '7') rest).bind fun d => integer? (numberOf 8 d)
    | '0' :: 'b' :: rest =>
      (ungroup (fun c => c == '0' || c == '1') rest).bind fun d => integer? (numberOf 2 d)
    | _ =>
      let (negative, rest) := splitSign cs
      decimal? negative rest

/-- Reads the run at the front. A date may go on after a single space with a time of day. -/
def readScalar (cs : List Char) : Option (Value × List Char) :=
  let run := cs.takeWhile isScalarChar
  let rest := cs.dropWhile isScalarChar
  match afterDate run, rest with
  | some [], ' ' :: more =>
    if (more.head?.map Char.isDigit).getD false then
      let time := more.takeWhile isScalarChar
      (scalar? (run ++ ' ' :: time)).map fun v => (v, more.dropWhile isScalarChar)
    else (scalar? run).map fun v => (v, rest)
  | _, _ => (scalar? run).map fun v => (v, rest)

end CommitReports.Toml
