/-!
# Binary numbers of double precision

Non-negative numbers `m · 2^e` as double precision holds them: `m` has at most fifty-three bits, and
`e` is at least -1074. Everything is computed in whole numbers. `Binary.round` gives the number
nearest to a ratio, a tie going to the even neighbour; results that are too large for the format are
infinite.
-/
namespace CodeAtlas

/-- The quotient of `num` by `den` rounded to the nearest whole number, a tie to the even one. -/
def roundDiv (num den : Nat) : Nat :=
  let q := num / den
  let r := num % den
  if 2 * r < den then q
  else if den < 2 * r then q + 1
  else if q % 2 = 0 then q else q + 1

/-- The number `mantissa · 2 ^ exponent`. -/
structure Binary where
  mantissa : Nat
  exponent : Int
deriving DecidableEq, Repr

namespace Binary

def num (x : Binary) : Nat :=
  x.mantissa * Nat.pow 2 x.exponent.toNat

def den (x : Binary) : Nat :=
  Nat.pow 2 (-x.exponent).toNat

def minExponent : Int := -1074

/-- The exponent with which the ratio has a mantissa of fifty-three bits, or the smallest
exponent. -/
def exponentOf (num den : Nat) : Int :=
  let guess := (num.log2 : Int) - (den.log2 : Int) - 53
  let above := Nat.pow 2 53 * den * Nat.pow 2 guess.toNat ≤ num * Nat.pow 2 (-guess).toNat
  max (if above then guess + 1 else guess) minExponent

def round (num den : Nat) : Binary :=
  if num = 0 then ⟨0, 0⟩
  else
    let e := exponentOf num den
    let m := roundDiv (num * Nat.pow 2 (-e).toNat) (den * Nat.pow 2 e.toNat)
    if m = Nat.pow 2 53 then ⟨Nat.pow 2 52, e + 1⟩ else ⟨m, e⟩

def overflows (x : Binary) : Bool :=
  Nat.pow 2 1024 * x.den ≤ x.num

end Binary

end CodeAtlas
