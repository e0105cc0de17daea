/-! Binary floating-point numbers of 64 bits, kept as their bits, and the number nearest to a
decimal. All arithmetic is exact. -/

namespace HtmlTree.Decimal

structure Binary64 where
  bits : UInt64
  deriving DecidableEq, Repr, Inhabited

namespace Binary64

def sign : Nat := Nat.pow 2 63

def noNumber : Nat := 2047

def ofFields (negative : Bool) (exponent fraction : Nat) : Binary64 :=
  ⟨((if negative then sign else 0) + exponent * Nat.pow 2 52 + fraction).toUInt64⟩

def negative (x : Binary64) : Bool := sign ≤ x.bits.toNat

def exponent (x : Binary64) : Nat := x.bits.toNat / Nat.pow 2 52 % 2048

def fraction (x : Binary64) : Nat := x.bits.toNat % Nat.pow 2 52

def isNaN (x : Binary64) : Bool := x.exponent == noNumber && x.fraction != 0

def isInfinite (x : Binary64) : Bool := x.exponent == noNumber && x.fraction == 0

def isZero (x : Binary64) : Bool := x.exponent == 0 && x.fraction == 0

def infinity (negative : Bool) : Binary64 := ofFields negative noNumber 0

def nan : Binary64 := ofFields false noNumber (Nat.pow 2 51)

/-- A finite magnitude is the first number times two to the power of the second less 1074. -/
def magnitude (x : Binary64) : Nat × Nat :=
  if x.exponent = 0 then (x.fraction, 0) else (x.fraction + Nat.pow 2 52, x.exponent - 1)

/-- A quotient to the nearest number, a half to the even one. -/
def nearest (num den : Nat) : Nat :=
  let whole := num / den
  let twice := 2 * (num % den)
  if twice < den || (twice == den && whole % 2 == 0) then whole else whole + 1

/-- The bits of num / den, for a positive quotient. The first guess of the scale is at most one
below the right one. -/
def ofQuotient (negative : Bool) (num den : Nat) : Binary64 :=
  let guess := num.log2 + 1074 - den.log2 - 53
  let scaled (scale : Nat) : Nat := nearest (num * Nat.pow 2 1074) (den * Nat.pow 2 scale)
  let scale :=
    if scaled guess < Nat.pow 2 53 then guess
    else if scaled (guess + 1) < Nat.pow 2 53 then guess + 1
    else guess + 2
  let whole := scaled scale
  if whole < Nat.pow 2 52 then ofFields negative 0 whole
  else if scale + 1 < noNumber then ofFields negative (scale + 1) (whole - Nat.pow 2 52)
  else infinity negative

/-- The number nearest to digits · 10 ^ power. Powers far out of range are settled at once. -/
def ofDecimal (negative : Bool) (digits : Nat) (power : Int) : Binary64 :=
  let top := power + (Nat.toDigits 10 digits).length
  if digits = 0 ∨ top < -400 then ofFields negative 0 0
  else if 400 < top then infinity negative
  else if 0 ≤ power then ofQuotient negative (digits * Nat.pow 10 power.toNat) 1
  else ofQuotient negative digits (Nat.pow 10 (-power).toNat)

end Binary64

end HtmlTree.Decimal
