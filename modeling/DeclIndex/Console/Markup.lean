import DeclIndex.Text.Blank

/-!
# Style tags

A tag is an opening bracket before a small letter or one of three signs, with everything up to a
closing bracket and no other opening bracket in between. It opens a style, unless it starts with a
slash. Then it closes the style that it names, or the one that was opened last if it names none.
Tags are not shown, and closing what is not open is a mistake.

A backslash before a tag makes it plain text, and two backslashes before a tag stand for one. A
backslash before any other opening bracket is not shown either.
-/

namespace DeclIndex.Markup

/-- A tag may start with this character. -/
def startsTag (c : Char) : Bool :=
  ('a' ≤ c && c ≤ 'z') || c == '#' || c == '/' || c == '@'

/-- A closing bracket comes before any opening one. -/
def closes : List Char → Bool
  | [] => false
  | c :: rest => if c = ']' then true else if c = '[' then false else closes rest

/-- After an opening bracket, the text goes on as a tag. -/
def isTag : List Char → Bool
  | [] => false
  | c :: rest => startsTag c && closes rest

/-- The name of a style without blanks around it, in small letters. -/
def styleName (name : List Char) : List Char :=
  (Text.trim Text.isBlank name).map Char.toLower

/-- The styles that are open after a tag, the latest first, given those before it and the position
of the tag. What follows an equals sign is no part of a name. -/
def afterTag (opened : List (List Char)) (position : Nat) (tag : List Char) :
    Except String (List (List Char)) :=
  match tag.takeWhile (· != '=') with
  | '/' :: name =>
    match styleName name, opened with
    | [], [] => .error ("closing tag '[/]' at position " ++ toString position
        ++ " has nothing to close")
    | [], _ :: opened => .ok opened
    | style, opened =>
      if opened.contains style then .ok (opened.erase style)
      else .error ("closing tag '[" ++ String.ofList tag ++ "]' at position " ++ toString position
        ++ " doesn't match any open tag")
  | name => .ok (styleName name :: opened)

/-- Where a reader stands in a text. -/
inductive Place where
  /-- In plain text, after some backslashes. -/
  | plain (backslashes : Nat)
  /-- In a tag, given its position and what was read of it, the latest character first. -/
  | tag (position : Nat) (read : List Char)

/-- Some backslashes. -/
def backslashes (count : Nat) : List Char := List.replicate count '\\'

/-- What is shown of the rest of a text, given the styles that are open and the position where the
rest starts. -/
def shownFrom (opened : List (List Char)) (position : Nat) :
    Place → List Char → Except String (List Char)
  | .plain count, [] => .ok (backslashes count)
  | .tag _ _, [] => .ok []
  | .tag start read, c :: rest =>
    if c = ']' then do
      let opened ← afterTag opened start read.reverse
      shownFrom opened (position + 1) (.plain 0) rest
    else shownFrom opened (position + 1) (.tag start (c :: read)) rest
  | .plain count, c :: rest =>
    if c = '\\' then shownFrom opened (position + 1) (.plain (count + 1)) rest
    else if c = '[' then
      if isTag rest then
        if count % 2 = 0 then
          (shownFrom opened (position + 1) (.tag position []) rest).map
            (backslashes (count / 2) ++ ·)
        else
          (shownFrom opened (position + 1) (.plain 0) rest).map
            (backslashes (count / 2) ++ '[' :: ·)
      else
        (shownFrom opened (position + 1) (.plain 0) rest).map (backslashes (count - 1) ++ '[' :: ·)
    else (shownFrom opened (position + 1) (.plain 0) rest).map (backslashes count ++ c :: ·)

/-- What is shown of a text. -/
def shown (text : List Char) : Except String (List Char) :=
  shownFrom [] 0 (.plain 0) text

end DeclIndex.Markup
