import CodeAtlas.Decimal.Binary

/-!
# The shortest decimal of a binary number

Of the decimals that round to a given binary number, the one with the fewest digits, and of these
the one nearest to the number, a tie going to the larger. For every number of digits only the two
decimals around the number have to be tried: if any decimal of that many digits rounds to it, one of
these does.
-/
namespace CodeAtlas

/-- The number `digits · 10 ^ exponent`. -/
structure Decimal where
  digits : Nat
  exponent : Int
deriving DecidableEq, Repr

namespace Decimal

def num (d : Decimal) : Nat :=
  d.digits * Nat.pow 10 d.exponent.toNat

def den (d : Decimal) : Nat :=
  Nat.pow 10 (-d.exponent).toNat

def roundsTo (d : Decimal) (x : Binary) : Bool :=
  Binary.round d.num d.den = x

/-- The distance between a decimal and a number, over the denominator of both. -/
def distance (d : Decimal) (x : Binary) : Nat :=
  let a := d.num * x.den
  let b := x.num * d.den
  (a - b) + (b - a)

/-- The place of the first digit of a ratio: `10 ^ place ≤ num / den < 10 ^ (place + 1)`. -/
def leadingPlace (num den : Nat) : Int :=
  if den ≤ num then ((Nat.toDigits 10 (num / den)).length : Int) - 1
  else -((Nat.toDigits 10 ((den - 1) / num)).length : Int)

/-- The better of the two decimals around `x` that count in units of `10 ^ exponent`, if one of them
rounds to `x`. -/
def around? (x : Binary) (exponent : Int) : Option Decimal :=
  let low : Decimal :=
    ⟨x.num * Nat.pow 10 (-exponent).toNat / (x.den * Nat.pow 10 exponent.toNat), exponent⟩
  let high : Decimal := ⟨low.digits + 1, exponent⟩
  match low.roundsTo x, high.roundsTo x with
  | true, true => if low.distance x < high.distance x then some low else some high
  | true, false => some low
  | false, true => some high
  | false, false => none

/-- The shortest decimal of a number that is not zero; seventeen digits are always enough. -/
def shortest (x : Binary) : Decimal :=
  let place := leadingPlace x.num x.den
  ((List.range 17).findSome? fun (n : Nat) => around? x (place - n)).getD ⟨0, 0⟩

def digitsOf (n : Nat) : List Char :=
  Nat.toDigits 10 n

def positional (d : Decimal) : List Char :=
  if 0 ≤ d.exponent then digitsOf d.num ++ ['.', '0']
  else
    let places := (-d.exponent).toNat
    let digits := digitsOf d.digits
    let padded := List.replicate (places + 1 - digits.length) '0' ++ digits
    let whole := padded.take (padded.length - places)
    let fraction := ((padded.drop (padded.length - places)).reverse.dropWhile (· = '0')).reverse
    whole ++ ['.'] ++ (if fraction.isEmpty then ['0'] else fraction)

def fixed (places num den : Nat) : List Char :=
  let scaled := roundDiv (num * Nat.pow 10 places) den
  let digits := digitsOf scaled
  let padded := List.replicate (places + 1 - digits.length) '0' ++ digits
  padded.take (padded.length - places) ++ ['.'] ++ padded.drop (padded.length - places)

end Decimal

end CodeAtlas
