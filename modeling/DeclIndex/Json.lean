import DeclIndex.Text.Integer
import DeclIndex.Text.Quoted

/-!
# JSON values and their written form

A value is written over several lines, each level indented by two more blanks. Every character
outside the visible ASCII range is spelled by its UTF-16 units, unless it has a short form. The
members of an object keep their order. A value with a number that has too many digits is not written
at all.
-/

namespace DeclIndex

/-- The JSON values that a report is made of. -/
inductive Json where
  | text (value : String)
  | integer (value : Int)
  | list (items : List Json)
  | object (members : List (String × Json))

namespace Json

/-- The members of an object with a value for a name, which takes the place of an older value. -/
def assign (name : String) (value : Json) : List (String × Json) → List (String × Json)
  | [] => [(name, value)]
  | member :: members =>
    if member.1 = name then (name, value) :: members else member :: assign name value members

/-- An object with some members. Of several values for one name the last one counts, in the place
of the first. -/
def ofMembers (members : List (String × Json)) : Json :=
  .object (members.foldl (fun object member => assign member.1 member.2 object) [])

/-! ## Writing -/

/-- One UTF-16 unit by its four digits. -/
def unit (code : Nat) : List Char :=
  '\\' :: 'u' :: Text.hex 4 code

/-- One character of a written text. -/
def escape (c : Char) : List Char :=
  if c = '"' || c = '\\' then ['\\', c]
  else if c = '\n' then ['\\', 'n']
  else if c = '\r' then ['\\', 'r']
  else if c = '\t' then ['\\', 't']
  else if c = '\x08' then ['\\', 'b']
  else if c = '\x0c' then ['\\', 'f']
  else if 0x20 ≤ c.toNat ∧ c.toNat < 0x7f then [c]
  else if c.toNat < 0x10000 then unit c.toNat
  else
    let above := c.toNat - 0x10000
    unit (0xd800 + above / 0x400) ++ unit (0xdc00 + above % 0x400)

/-- A written text, between quotes. -/
def writeText (value : String) : List Char :=
  '"' :: value.toList.flatMap escape ++ ['"']

/-- A new line at a level of nesting. -/
def newline (level : Nat) : List Char :=
  '\n' :: List.replicate (2 * level) ' '

mutual

/-- The written form of a value at a level of nesting. -/
def write (level : Nat) : Json → List Char
  | text value => writeText value
  | integer value => (toString value).toList
  | list [] => ['[', ']']
  | list (item :: items) =>
    '[' :: newline (level + 1) ++ write (level + 1) item ++ writeItems level items
  | object [] => ['\x7b', '\x7d']
  | object (member :: members) =>
    '\x7b' :: newline (level + 1) ++ writeMember level member ++ writeMembers level members

/-- The items after the first one, and the end of their list. -/
def writeItems (level : Nat) : List Json → List Char
  | [] => newline level ++ [']']
  | item :: items =>
    ',' :: newline (level + 1) ++ write (level + 1) item ++ writeItems level items

/-- A member: its name and its value. -/
def writeMember (level : Nat) : String × Json → List Char
  | (name, value) => writeText name ++ [':', ' '] ++ write (level + 1) value

/-- The members after the first one, and the end of their object. -/
def writeMembers (level : Nat) : List (String × Json) → List Char
  | [] => newline level ++ ['\x7d']
  | member :: members =>
    ',' :: newline (level + 1) ++ writeMember level member ++ writeMembers level members

end

/-- How a value is spelled. -/
def spelling (value : Json) : String :=
  String.ofList (write 0 value)

mutual

/-- All numbers in a value can be written. -/
def isWritable : Json → Bool
  | text _ => true
  | integer value => Text.Integer.isWritable value
  | list items => areWritable items
  | object members => haveWritable members

/-- All numbers in some items can be written. -/
def areWritable : List Json → Bool
  | [] => true
  | item :: items => isWritable item && areWritable items

/-- All numbers in the values of some members can be written. -/
def haveWritable : List (String × Json) → Bool
  | [] => true
  | (_, value) :: members => isWritable value && haveWritable members

end

/-- The written form of a value, if all its numbers can be written. -/
def render? (value : Json) : Option String :=
  if value.isWritable then some value.spelling else none

end Json

end DeclIndex
