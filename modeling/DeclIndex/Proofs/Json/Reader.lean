import DeclIndex.Json

/-!
# Reading JSON

`Json.read?` reads a JSON text. White space may stand around everything, and a string may spell any
character by an escape. Only the values that a `Json` can be are read, so fractions are refused, and
so are the words for truth values and for nothing.
-/

namespace DeclIndex.Json

/-! ## Tokens -/

/-- White space between the parts of a JSON text. -/
def isSpace (c : Char) : Bool :=
  c == ' ' || c == '\n' || c == '\r' || c == '\t'

/-- A text from its first visible character on. -/
def skip (input : List Char) : List Char :=
  input.dropWhile isSpace

/-- The value of a hexadecimal digit. -/
def hexDigit? (c : Char) : Option Nat :=
  if '0' ≤ c ∧ c ≤ '9' then some (c.toNat - '0'.toNat)
  else if 'a' ≤ c ∧ c ≤ 'f' then some (c.toNat - 'a'.toNat + 10)
  else if 'A' ≤ c ∧ c ≤ 'F' then some (c.toNat - 'A'.toNat + 10)
  else none

/-- The UTF-16 unit that the escape at the start of a text spells by its digits. -/
def readUnit? : List Char → Option (Nat × List Char)
  | '\\' :: 'u' :: a :: b :: c :: d :: rest => do
    let unit := (((← hexDigit? a) * 16 + (← hexDigit? b)) * 16 + (← hexDigit? c)) * 16
      + (← hexDigit? d)
    return (unit, rest)
  | _ => none

/-- A character that is spelled by one unit, or by two of them if it lies beyond the first plane. -/
def readSpelled? (input : List Char) : Option (Char × List Char) := do
  let (unit, rest) ← readUnit? input
  if unit < 0xd800 ∨ 0xdfff < unit then return (Char.ofNat unit, rest)
  else if 0xdc00 ≤ unit then none
  else
    let (low, rest) ← readUnit? rest
    if 0xdc00 ≤ low ∧ low ≤ 0xdfff then
      return (Char.ofNat (0x10000 + (unit - 0xd800) * 0x400 + (low - 0xdc00)), rest)
    else none

/-- The characters with a short escape. -/
def shortForm? : Char → Option Char
  | '"' => some '"'
  | '\\' => some '\\'
  | '/' => some '/'
  | 'b' => some '\x08'
  | 'f' => some '\x0c'
  | 'n' => some '\n'
  | 'r' => some '\r'
  | 't' => some '\t'
  | _ => none

/-- The first character of a string's text. -/
def readCharacter? : List Char → Option (Char × List Char)
  | [] => none
  | '\\' :: rest =>
    match rest.head?.bind shortForm? with
    | some c => some (c, rest.tail)
    | none => readSpelled? ('\\' :: rest)
  | c :: rest => if c.toNat < 0x20 then none else some (c, rest)

/-- The characters of a string up to its closing quote. -/
def readCharacters? : Nat → List Char → Option (List Char × List Char)
  | 0, _ => none
  | _ + 1, '"' :: rest => some ([], rest)
  | fuel + 1, input => do
    let (c, rest) ← readCharacter? input
    let (letters, rest) ← readCharacters? fuel rest
    return (c :: letters, rest)

/-- A string after its opening quote. -/
def readText? (input : List Char) : Option (String × List Char) := do
  let (letters, rest) ← readCharacters? input.length input
  return (String.ofList letters, rest)

/-- The character carries a number on that is not read here. -/
def isFraction (c : Char) : Bool :=
  c == '.' || c == 'e' || c == 'E'

/-- A number without a sign, which does not start with a needless zero. -/
def readNatural? (input : List Char) : Option (Nat × List Char) :=
  let digits := input.takeWhile Char.isDigit
  let rest := input.dropWhile Char.isDigit
  if digits = [] ∨ digits.head? = some '0' ∧ digits.tail ≠ [] ∨ rest.head?.any isFraction then none
  else some (Nat.ofDigitChars 10 digits 0, rest)

/-- A number with or without a minus sign. -/
def readInteger? : List Char → Option (Int × List Char)
  | '-' :: rest => do
    let (number, rest) ← readNatural? rest
    return (-Int.ofNat number, rest)
  | input => do
    let (number, rest) ← readNatural? input
    return (Int.ofNat number, rest)

/-! ## Values -/

mutual

/-- The value at the start of a text. -/
def readValue? : Nat → List Char → Option (Json × List Char)
  | 0, _ => none
  | fuel + 1, input =>
    match skip input with
    | '"' :: rest => do
      let (value, rest) ← readText? rest
      return (.text value, rest)
    | '[' :: rest =>
      if (skip rest).head? = some ']' then some (.list [], (skip rest).tail)
      else do
        let (item, rest) ← readValue? fuel rest
        let (items, rest) ← readItems? fuel rest
        return (.list (item :: items), rest)
    | '\x7b' :: rest =>
      if (skip rest).head? = some '\x7d' then some (.object [], (skip rest).tail)
      else do
        let (member, rest) ← readMember? fuel rest
        let (members, rest) ← readMembers? fuel rest
        return (.object (member :: members), rest)
    | rest => do
      let (number, rest) ← readInteger? rest
      return (.integer number, rest)

/-- The items after the first one, up to the end of their list. -/
def readItems? : Nat → List Char → Option (List Json × List Char)
  | 0, _ => none
  | fuel + 1, input =>
    match skip input with
    | ']' :: rest => some ([], rest)
    | ',' :: rest => do
      let (item, rest) ← readValue? fuel rest
      let (items, rest) ← readItems? fuel rest
      return (item :: items, rest)
    | _ => none

/-- A member: its name and its value. -/
def readMember? : Nat → List Char → Option ((String × Json) × List Char)
  | 0, _ => none
  | fuel + 1, input =>
    match skip input with
    | '"' :: rest => do
      let (name, rest) ← readText? rest
      if (skip rest).head? = some ':' then
        let (value, rest) ← readValue? fuel (skip rest).tail
        return ((name, value), rest)
      else none
    | _ => none

/-- The members after the first one, up to the end of their object. -/
def readMembers? : Nat → List Char → Option (List (String × Json) × List Char)
  | 0, _ => none
  | fuel + 1, input =>
    match skip input with
    | '\x7d' :: rest => some ([], rest)
    | ',' :: rest => do
      let (member, rest) ← readMember? fuel rest
      let (members, rest) ← readMembers? fuel rest
      return (member :: members, rest)
    | _ => none

end

/-- The value that a text spells, with nothing but white space around it. -/
def read? (input : String) : Option Json := do
  let (value, rest) ← readValue? input.toList.length input.toList
  if skip rest = [] then return value else none

end DeclIndex.Json
