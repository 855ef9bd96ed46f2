import DeclIndex.Text.Quoted

/-!
# Strict decoding of UTF-8

A decoder takes one byte at a time. Between characters it waits for an opening byte; inside a
character it knows how many bytes are still due and which range the next one must lie in, so that
overlong forms, surrogates and codes beyond the last plane are refused at the earliest byte that
gives them away. A failure names the bytes that were read of the broken character.
-/

namespace DeclIndex.Text.Utf8

/-- Why some bytes are no character. -/
inductive Reason where
  /-- No character opens with this byte. -/
  | invalidStart
  /-- The bytes end inside a character. -/
  | unexpectedEnd
  /-- A byte follows that cannot continue the character. -/
  | invalidContinuation
  deriving DecidableEq, Repr

/-- The first place where bytes stop being an encoded text. -/
structure Failure where
  /-- Where the broken character opens. -/
  start : Nat
  /-- Its opening byte. -/
  first : UInt8
  /-- How many of its bytes are there. -/
  count : Nat
  reason : Reason
  deriving DecidableEq, Repr

/-- The wording of a reason. -/
def Reason.message : Reason → String
  | .invalidStart => "invalid start byte"
  | .unexpectedEnd => "unexpected end of data"
  | .invalidContinuation => "invalid continuation byte"

/-- One byte is named with its value, several only by their positions. -/
def Failure.message (failure : Failure) : String :=
  let subject :=
    if failure.count = 1 then
      "byte 0x" ++ String.ofList (hex 2 failure.first.toNat) ++ " in position "
        ++ toString failure.start
    else
      "bytes in position " ++ toString failure.start ++ "-"
        ++ toString (failure.start + failure.count - 1)
  "'utf-8' codec can't decode " ++ subject ++ ": " ++ failure.reason.message

/-- A character that is still being read. -/
structure Pending where
  first : UInt8
  /-- How many bytes are there so far. -/
  count : Nat
  /-- How many more are due; never zero. -/
  due : Nat
  /-- The range of the next byte. -/
  low : UInt8
  high : UInt8
  /-- The bits collected so far. -/
  code : Nat

/-- What an opening byte outside ASCII announces, if any character opens with it. -/
def opening? (byte : UInt8) : Option Pending :=
  let pending (due : Nat) (low high : UInt8) (mask : Nat) : Option Pending :=
    some ⟨byte, 1, due, low, high, byte.toNat % mask⟩
  if byte < 0xc2 then none
  else if byte < 0xe0 then pending 1 0x80 0xbf 0x20
  else if byte = 0xe0 then pending 2 0xa0 0xbf 0x10
  else if byte = 0xed then pending 2 0x80 0x9f 0x10
  else if byte < 0xf0 then pending 2 0x80 0xbf 0x10
  else if byte = 0xf0 then pending 3 0x90 0xbf 0x08
  else if byte < 0xf4 then pending 3 0x80 0xbf 0x08
  else if byte = 0xf4 then pending 3 0x80 0x8f 0x08
  else none

/-- Decodes from a position on, with the character that is open there, if one is. -/
def decodeFrom (position : Nat) : Option Pending → List UInt8 → Except Failure (List Char)
  | none, [] => .ok []
  | some open_, [] =>
    .error ⟨position - open_.count, open_.first, open_.count, .unexpectedEnd⟩
  | none, byte :: rest =>
    if byte < 0x80 then
      (decodeFrom (position + 1) none rest).map (Char.ofNat byte.toNat :: ·)
    else
      match opening? byte with
      | none => .error ⟨position, byte, 1, .invalidStart⟩
      | some pending => decodeFrom (position + 1) (some pending) rest
  | some open_, byte :: rest =>
    if open_.low ≤ byte ∧ byte ≤ open_.high then
      let code := open_.code * 0x40 + byte.toNat % 0x40
      if open_.due ≤ 1 then
        (decodeFrom (position + 1) none rest).map (Char.ofNat code :: ·)
      else
        decodeFrom (position + 1)
          (some ⟨open_.first, open_.count + 1, open_.due - 1, 0x80, 0xbf, code⟩) rest
    else
      .error ⟨position - open_.count, open_.first, open_.count, .invalidContinuation⟩

/-- The text that some bytes encode. -/
def decode (bytes : List UInt8) : Except Failure (List Char) :=
  decodeFrom 0 none bytes

/-- The bytes without one byte order mark at their start. -/
def dropMark : List UInt8 → List UInt8
  | 0xef :: 0xbb :: 0xbf :: rest => rest
  | bytes => bytes

end DeclIndex.Text.Utf8
