import DeclIndex.Text.Blank
import DeclIndex.Text.Digit

/-!
# Integers as text

An integer in an argument may stand between white space and carry a sign. Its digits may be of any
script, and single low lines may separate them. More digits than `Integer.maxDigits` are refused,
and no integer with more digits is written.
-/

namespace DeclIndex.Text

namespace Integer

/-- The most digits that a written integer may have. -/
def maxDigits : Nat := 4300

/-- The values of the digits that are left after one was read. -/
def moreDigits? : List Char → Option (List Nat)
  | [] => some []
  | '_' :: c :: rest => do return (← digit? c) :: (← moreDigits? rest)
  | c :: rest => do return (← digit? c) :: (← moreDigits? rest)

/-- The values of the digits of a number without a sign; there must be at least one. -/
def digits? : List Char → Option (List Nat)
  | [] => none
  | c :: rest => do return (← digit? c) :: (← moreDigits? rest)

/-- The number that digits spell. -/
def magnitude? (text : List Char) : Option Nat := do
  let digits ← digits? text
  guard (digits.length ≤ maxDigits)
  return digits.foldl (fun n digit => 10 * n + digit) 0

end Integer

/-- There are not too many digits in the number to write it. -/
def Integer.isWritable (value : Int) : Bool :=
  (Nat.toDigits 10 value.natAbs).length ≤ maxDigits

/-- The decimal form of an integer, if it can be written. -/
def decimal? (value : Int) : Option String :=
  if Integer.isWritable value then some (toString value) else none

/-- The integer that a text spells, if it spells one. -/
def integer? (text : String) : Option Int :=
  match trim isSpace text.toList with
  | '-' :: rest => (Integer.magnitude? rest).map (- Int.ofNat ·)
  | '+' :: rest => (Integer.magnitude? rest).map Int.ofNat
  | rest => (Integer.magnitude? rest).map Int.ofNat

end DeclIndex.Text
