/-!
# Floating point numbers of 64 bits

A finite number is `± m · 2 ^ q` with `m < 2 ^ 53`; the conversions from and to
decimal notation are exact arithmetic on natural numbers. `ofDecimal` rounds to
the nearest number, a tie to the one with even `m`. `digits` finds the shortest
decimal that reads back as the number, and of those the nearest to it.
-/

namespace CommitReports

/-- A floating point number of 64 bits. -/
inductive Double where
  | finite (negative : Bool) (m : Nat) (q : Int)
  | infinite (negative : Bool)
  | nan
  deriving DecidableEq, Repr

namespace Double

/-- The quotient rounded to the nearest natural number, a tie to the even one. -/
def roundDiv (num den : Nat) : Nat :=
  let quotient := num / den
  let rest := num % den
  if 2 * rest < den ∨ (2 * rest = den ∧ quotient % 2 = 0) then quotient else quotient + 1

/-- The fraction `num / den` as a multiple of `2 ^ q`, rounded. -/
def scale (num den : Nat) (q : Int) : Nat :=
  if 0 ≤ q then roundDiv num (den * Nat.pow 2 q.toNat) else roundDiv (num * Nat.pow 2 (-q).toNat) den

/-- The least exponent of a finite number. -/
def minExponent : Int := -1074

/-- The greatest exponent of a finite number. -/
def maxExponent : Int := 971

/-- The number nearest to `num / den`. -/
def ofFraction (negative : Bool) (num den : Nat) : Double :=
  if num = 0 then .finite negative 0 0
  else
    let estimate : Int := (Nat.log2 num : Int) - Nat.log2 den - 52
    let q0 := if scale num den estimate < Nat.pow 2 52 then estimate - 1 else estimate
    let q := max q0 minExponent
    let m := scale num den q
    let (m, q) := if m = Nat.pow 2 53 then (Nat.pow 2 52, q + 1) else (m, q)
    if maxExponent < q then .infinite negative else .finite negative m q

/-- The number nearest to `n · 10 ^ e`. -/
def ofDecimal (negative : Bool) (n : Nat) (e : Int) : Double :=
  let size : Int := (toString n).length + e
  if n = 0 then .finite negative 0 0
  else if 400 < size then .infinite negative
  else if size < -400 then .finite negative 0 0
  else if 0 ≤ e then ofFraction negative (n * Nat.pow 10 e.toNat) 1
  else ofFraction negative n (Nat.pow 10 (-e).toNat)

/-- Whether `n · 10 ^ e` reads back as the positive number `m · 2 ^ q`. -/
def readsAs (m : Nat) (q : Int) (n : Nat) (e : Int) : Bool :=
  match ofDecimal false n e, ofFraction false
      (if 0 ≤ q then m * Nat.pow 2 q.toNat else m) (if 0 ≤ q then 1 else Nat.pow 2 (-q).toNat) with
  | .finite _ a b, .finite _ c d => a == c && b == d
  | _, _ => false

/-- The position of the decimal point of `num / den`: the least `k` with `num / den < 10 ^ k`. -/
def pointOf (num den : Nat) : Int :=
  let estimate : Int := ((toString num).length : Int) - (toString den).length
  let below (k : Int) : Bool :=
    if 0 ≤ k then num < den * Nat.pow 10 k.toNat else num * Nat.pow 10 (-k).toNat < den
  if below estimate then estimate else estimate + 1

/-- The shortest digits `d` and the exponent `e` such that `d · 10 ^ e` reads back as the positive
number `m · 2 ^ q`, the nearer of two. -/
def digits (m : Nat) (q : Int) : Nat × Int :=
  let num := if 0 ≤ q then m * Nat.pow 2 q.toNat else m
  let den := if 0 ≤ q then 1 else Nat.pow 2 (-q).toNat
  let point := pointOf num den
  let candidate (count : Nat) : Option (Nat × Int) :=
    let e := point - count
    let (a, b) := if 0 ≤ e then (num, den * Nat.pow 10 e.toNat) else (num * Nat.pow 10 (-e).toNat, den)
    let low := a / b
    let near := if 2 * (a % b) ≤ b then [low, low + 1] else [low + 1, low]
    (near.find? fun d => readsAs m q d e).map fun d => (d, e)
  ((List.range 17).findSome? fun n => candidate (n + 1)).getD (num / den, 0)

/-- Digits without the zeros at their end, with the exponent raised to match. -/
def stripZeros : (fuel : Nat) → Nat × Int → Nat × Int
  | 0, d => d
  | fuel + 1, (n, e) => if n ≠ 0 ∧ n % 10 = 0 then stripZeros fuel (n / 10, e + 1) else (n, e)

/-- A number in positional notation, with at least one digit after the point. -/
def positional (n : Nat) (e : Int) : String :=
  let text := toString n
  if 0 ≤ e then text ++ String.ofList (List.replicate e.toNat '0') ++ ".0"
  else
    let places := (-e).toNat
    let padded := String.ofList (List.replicate (places + 1 - text.length) '0') ++ text
    (padded.take (padded.length - places)).toString ++ "." ++
      (padded.drop (padded.length - places)).toString

/-- A number as text: positional, with the fewest digits that read back and a decimal point. -/
def text : Double → String
  | .nan => "NaN"
  | .infinite negative => if negative then "-inf" else "inf"
  | .finite negative m q =>
    let sign := if negative then "-" else ""
    if m = 0 then sign ++ "0.0"
    else
      let (n, e) := stripZeros 20 (digits m q)
      sign ++ positional n e

end Double

end CommitReports
