import DeclIndex.Text.Printable

/-!
# Quoted text in messages

A message shows a path or a pattern between quotes, in one line and without hidden characters. The
quotes are single ones, unless the text holds a single quote and no double one. A backslash and
the chosen quote are written after a backslash, the three common control characters have short
forms, and every other hidden character is given by the hexadecimal digits of its code.
-/

namespace DeclIndex.Text

/-- The lower-case hexadecimal digits of a number, filled up with zeros to a given count. -/
def hex (count n : Nat) : List Char :=
  let digits := Nat.toDigits 16 n
  List.replicate (count - digits.length) '0' ++ digits

namespace Quoted

/-- The quote around a text. -/
def mark (text : List Char) : Char :=
  if text.contains '\'' && !text.contains '"' then '"' else '\''

/-- A hidden character by its code, in the shortest of the three forms that holds it. -/
def byCode (c : Char) : List Char :=
  if c.toNat < 0x100 then '\\' :: 'x' :: hex 2 c.toNat
  else if c.toNat < 0x10000 then '\\' :: 'u' :: hex 4 c.toNat
  else '\\' :: 'U' :: hex 8 c.toNat

/-- One character between quotes of the given kind. -/
def escape (quote c : Char) : List Char :=
  if c = quote || c = '\\' then ['\\', c]
  else if c = '\n' then ['\\', 'n']
  else if c = '\t' then ['\\', 't']
  else if c = '\r' then ['\\', 'r']
  else if isPrintable c then [c]
  else byCode c

end Quoted

/-- The text as a message shows it. -/
def quoted (text : String) : String :=
  let quote := Quoted.mark text.toList
  String.ofList (quote :: text.toList.flatMap (Quoted.escape quote) ++ [quote])

end DeclIndex.Text
