import HtmlTree.Decimal.Binary64

/-! The shortest decimal that reads back as a given number, and its written form: positional when
the point falls within four places before the first digit or sixteen after it, else with an
exponent of two digits or more. -/

namespace HtmlTree.Decimal

/-- A decimal: its digits as a number, times ten to a power. -/
structure Scaled where
  digits : Nat
  power : Int
  deriving DecidableEq, Repr

/-- The reals that read back as a value: from half a step below it to half a step above, the ends
with them if the value is even. All are over one denominator. -/
structure Interval where
  low : Nat
  value : Nat
  high : Nat
  den : Nat
  closed : Bool

namespace Interval

/-- The reals that round to a finite positive number. -/
def of (x : Binary64) : Interval :=
  let (m, scale) := x.magnitude
  let below := if x.fraction = 0 ∧ 1 < x.exponent then 1 else 2
  let num (n : Nat) : Nat := n * Nat.pow 2 scale
  ⟨num (4 * m - below), num (4 * m), num (4 * m + 2), 4 * Nat.pow 2 1074, m % 2 == 0⟩

def holds (i : Interval) (num den : Nat) : Bool :=
  if i.closed then i.low * den ≤ num * i.den && num * i.den ≤ i.high * den
  else i.low * den < num * i.den && num * i.den < i.high * den

/-- The decimals of one power of ten next to the value: the one not above it, then the next. -/
def neighbours (i : Interval) (power : Int) : Nat :=
  if 0 ≤ power then i.value / (i.den * Nat.pow 10 power.toNat)
  else i.value * Nat.pow 10 (-power).toNat / i.den

/-- The decimal of one power of ten that reads back and is nearest to the value. -/
def pick (i : Interval) (power : Int) : Option Nat :=
  let down := i.neighbours power
  let (unit, den) := if 0 ≤ power then (Nat.pow 10 power.toNat, 1) else (1, Nat.pow 10 (-power).toNat)
  let downHolds := down ≠ 0 && i.holds (down * unit) den
  let upHolds := i.holds ((down + 1) * unit) den
  if downHolds && upHolds then
    let gapDown := i.value * den - down * unit * i.den
    let gapUp := (down + 1) * unit * i.den - i.value * den
    some (if gapDown < gapUp || (gapDown == gapUp && down % 2 == 0) then down else down + 1)
  else if downHolds then some down
  else if upHolds then some (down + 1)
  else none

def search (i : Interval) : Nat → Int → Scaled
  | 0, power => ⟨i.neighbours power, power⟩
  | tries + 1, power =>
    match i.pick power with
    | some digits => ⟨digits, power⟩
    | none => search i tries (power - 1)

end Interval

def trimZeros : Nat → Scaled → Scaled
  | 0, d => d
  | fuel + 1, d =>
    if d.digits ≠ 0 ∧ d.digits % 10 = 0 then trimZeros fuel ⟨d.digits / 10, d.power + 1⟩ else d

def shortest (x : Binary64) : Scaled :=
  let i := Interval.of x
  let whole := (Nat.toDigits 10 (i.value / i.den)).length
  let start : Int :=
    if i.den ≤ i.value then whole else -((Nat.toDigits 10 (i.den / i.value)).length : Int) + 1
  trimZeros 400 (i.search 20 (start + 1))

def zeros (n : Nat) : List Char := List.replicate n '0'

def positional (digits : List Char) (point : Int) : List Char :=
  if point ≤ 0 then '0' :: '.' :: zeros (-point).toNat ++ digits
  else
    let before := digits.take point.toNat ++ zeros (point.toNat - digits.length)
    let after := digits.drop point.toNat
    before ++ '.' :: (if after.isEmpty then ['0'] else after)

def scientific (digits : List Char) (point : Int) : List Char :=
  let tail := if digits.length ≤ 1 then [] else '.' :: digits.drop 1
  let power := point - 1
  let places := Nat.toDigits 10 power.natAbs
  digits.take 1 ++ tail ++ 'e' :: (if power < 0 then '-' else '+') ::
    (zeros (2 - places.length) ++ places)

def unsigned (x : Binary64) : List Char :=
  if x.isZero then ['0', '.', '0']
  else
    let d := shortest x
    let digits := Nat.toDigits 10 d.digits
    let point := d.power + digits.length
    if -4 < point ∧ point ≤ 16 then positional digits point else scientific digits point

def Binary64.written (x : Binary64) : List Char :=
  if x.negative then '-' :: unsigned x else unsigned x

end HtmlTree.Decimal
