/-!
# Whole numbers among the doubles

A finite double is a whole number of steps of a power of two. It is a whole number itself if the
power is not negative, or else if the steps add up to one; its value is then exact, however large.
-/

namespace DeclIndex

namespace Double

/-- A power of two. -/
def twoTo (exponent : Nat) : Nat :=
  Nat.pow 2 exponent

/-- The field of the exponent, which is all ones for the infinities and the missing number. -/
def exponentField (bits : UInt64) : Nat :=
  bits.toNat / twoTo 52 % twoTo 11

/-- How many steps of the double's power of two its magnitude has. -/
def steps (bits : UInt64) : Nat :=
  let fraction := bits.toNat % twoTo 52
  if exponentField bits = 0 then fraction else fraction + twoTo 52

/-- The exponent of the double's power of two. -/
def exponent (bits : UInt64) : Int :=
  (max (exponentField bits) 1 : Nat) - 1075

/-- So many steps of a power of two, if they are a whole number. -/
def wholeSteps? (steps : Nat) : Int → Option Nat
  | .ofNat exponent => some (steps * twoTo exponent)
  | .negSucc below =>
    if steps % twoTo (below + 1) = 0 then some (steps / twoTo (below + 1)) else none

/-- The exact value of a double that is a whole number. -/
def whole? (value : Float) : Option Int :=
  let bits := value.toBits
  if exponentField bits = twoTo 11 - 1 then none
  else
    (wholeSteps? (steps bits) (exponent bits)).map fun magnitude =>
      if twoTo 63 ≤ bits.toNat then -(magnitude : Int) else magnitude

end Double

end DeclIndex
