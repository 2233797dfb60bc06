import RecordGraph.Number.Binary

/-!
# Shortest decimal text

The text of a double-precision number: the fewest digits that read back as the same number, of
those the digits nearest to it, and of two equally near ones the greater. The number is written
positionally, without an exponent and without a fraction part that would be zero.
-/

namespace RecordGraph.Number

/-- The number `digits * 10 ^ exponent`. -/
structure Decimal where
  digits : Nat
  exponent : Int
  deriving DecidableEq, Repr

def Decimal.ofBinary (significand : Nat) (exponent : Int) : Decimal :=
  if 0 ≤ exponent then ⟨significand <<< exponent.toNat, 0⟩
  else ⟨significand * Nat.pow 5 (-exponent).toNat, exponent⟩

def digitCount (n : Nat) : Nat := (Nat.toDigits 10 n).length

/-- The neighbours of a decimal on the grid of `count` leading digits, the nearer one first. -/
def Decimal.neighbours (d : Decimal) (count : Nat) : List Decimal :=
  let dropped := digitCount d.digits - count
  let unit := Nat.pow 10 dropped
  let low : Decimal := ⟨d.digits / unit, d.exponent + dropped⟩
  let high : Decimal := ⟨d.digits / unit + 1, d.exponent + dropped⟩
  if dropped = 0 then [d]
  else if 2 * (d.digits % unit) < unit then [low, high] else [high, low]

/-- The shortest decimal that reads back as the positive double with the given bits. -/
def shortest (bits : Nat) (exact : Decimal) : Decimal :=
  let counts := (List.range 17).map (· + 1)
  match counts.findSome? (fun n =>
      (exact.neighbours n).find? fun d => double.ofDecimal false d.digits d.exponent = bits) with
  | some d => d
  | none => exact

/-- A decimal written positionally; zeros that end the fraction are left out. -/
def Decimal.text (d : Decimal) : String :=
  let digits := Nat.toDigits 10 d.digits
  if 0 ≤ d.exponent then
    String.ofList (digits ++ List.replicate (if d.digits = 0 then 0 else d.exponent.toNat) '0')
  else
    let places := (-d.exponent).toNat
    let padded := List.replicate (places + 1 - digits.length) '0' ++ digits
    let whole := padded.take (padded.length - places)
    let fraction := (padded.drop (padded.length - places)).reverse.dropWhile (· == '0')
    if fraction.isEmpty then String.ofList whole
    else String.ofList (whole ++ '.' :: fraction.reverse)

def doubleText (bits : Nat) : String :=
  match double.decode bits with
  | .nan => "NaN"
  | .infinite negative => if negative then "-inf" else "inf"
  | .finite negative significand exponent =>
    let sign := if negative then "-" else ""
    if significand = 0 then sign ++ "0"
    else sign ++ (shortest (bits % double.signBit) (.ofBinary significand exponent)).text

end RecordGraph.Number
