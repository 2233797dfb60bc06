/-!
# Binary floating point

Numbers of an interchange format, held by their bits. A nonnegative rational is rounded to the
nearest number of the format, a tie to the even significand. All arithmetic is exact, on natural
numbers, so that conversions between integers and the two formats can be reasoned about.
-/

namespace RecordGraph.Number

/-- An interchange format, given by the widths of its fields. -/
structure Format where
  fractionBits : Nat
  exponentBits : Nat

def single : Format := ⟨23, 8⟩

def double : Format := ⟨52, 11⟩

namespace Format

/-- The bits of positive infinity: all exponent bits set. -/
def infinity (f : Format) : Nat := ((1 <<< f.exponentBits) - 1) <<< f.fractionBits

/-- The bits of the quiet not-a-number without a payload. -/
def quietNaN (f : Format) : Nat := f.infinity + (1 <<< (f.fractionBits - 1))

def signBit (f : Format) : Nat := 1 <<< (f.fractionBits + f.exponentBits)

/-- The power of two that the last bit of a subnormal number stands for. -/
def minExponent (f : Format) : Int := 2 - (1 <<< (f.exponentBits - 1) : Nat) - f.fractionBits

end Format

/-- `num / den` rounded to a natural number, a tie to the even one. -/
def roundDiv (num den : Nat) : Nat :=
  let low := num / den
  let twice := 2 * (num % den)
  if twice < den then low
  else if den < twice then low + 1
  else if low % 2 = 0 then low else low + 1

/-- The greatest `k` with `2 ^ k ≤ num / den`, for positive arguments. -/
def floorLog2 (num den : Nat) : Int :=
  let guess : Int := (num.log2 : Int) - den.log2
  if num <<< (-guess).toNat < den <<< guess.toNat then guess - 1 else guess

/-- The magnitude bits of `num / den` rounded to the format. Past the largest finite number this
is infinity; a carry out of the significand moves into the exponent by itself. -/
def Format.ofRatio (f : Format) (num den : Nat) : Nat :=
  if num = 0 then 0
  else
    let unit : Int := max (floorLog2 num den - f.fractionBits) f.minExponent
    let significand := roundDiv (num <<< (-unit).toNat) (den <<< unit.toNat)
    let bits := ((unit - f.minExponent).toNat <<< f.fractionBits) + significand
    min bits f.infinity

/-- The bits of a signed number of the format. -/
def Format.withSign (f : Format) (negative : Bool) (bits : Nat) : Nat :=
  if negative then f.signBit + bits else bits

def Format.ofInt (f : Format) (n : Int) : Nat :=
  f.withSign (n < 0) (f.ofRatio n.natAbs 1)

/-- The bits of the number nearest to `digits * 10 ^ exponent`. -/
def Format.ofDecimal (f : Format) (negative : Bool) (digits : Nat) (exponent : Int) : Nat :=
  f.withSign negative (f.ofRatio (digits * Nat.pow 10 exponent.toNat)
    (Nat.pow 10 (-exponent).toNat))

/-- What bits stand for. -/
inductive Decoded where
  | nan
  | infinite (negative : Bool)
  /-- The number `significand * 2 ^ exponent`. -/
  | finite (negative : Bool) (significand : Nat) (exponent : Int)
  deriving DecidableEq, Repr

/-- Reads the bits of a number of the format. -/
def Format.decode (f : Format) (bits : Nat) : Decoded :=
  let negative := bits / f.signBit % 2 = 1
  let magnitude := bits % f.signBit
  let biased := magnitude >>> f.fractionBits
  let fraction := magnitude % (1 <<< f.fractionBits)
  if f.infinity < magnitude then .nan
  else if magnitude = f.infinity then .infinite negative
  else if biased = 0 then .finite negative fraction f.minExponent
  else .finite negative ((1 <<< f.fractionBits) + fraction) (f.minExponent + (biased - 1))

/-- The bits in format `g` of a number of format `f`: the nearest one. -/
def Format.convert (f g : Format) (bits : Nat) : Nat :=
  match f.decode bits with
  | .nan => g.quietNaN
  | .infinite negative => g.withSign negative g.infinity
  | .finite negative significand exponent =>
    g.withSign negative
      (g.ofRatio (significand <<< exponent.toNat) (1 <<< (-exponent).toNat))

/-- Whether the bits are those of a zero of either sign. -/
def Format.isZero (f : Format) (bits : Nat) : Bool := bits % f.signBit = 0

end RecordGraph.Number
