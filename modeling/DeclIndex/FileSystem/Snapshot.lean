import DeclIndex.FileSystem.Edit

/-!
# Snapshots of a tree

A tree can be given by a text with one entry on each line, whose fields are separated by tabs: what
the entry is, its path from the root, and for a file its bytes in hexadecimal, or for a link its
target. The word `locked` may follow for a file or a directory, and the word `closed` for a
directory whose contents were given before. A line `at` with a path says which
directory is the working directory; without one it is the root.
-/

namespace DeclIndex.FileSystem.Snapshot

/-- The value of a lower-case hexadecimal digit. -/
def nibble? (c : Char) : Option UInt8 :=
  if '0' ≤ c ∧ c ≤ '9' then some (c.toNat - '0'.toNat).toUInt8
  else if 'a' ≤ c ∧ c ≤ 'f' then some (c.toNat - 'a'.toNat + 10).toUInt8
  else none

/-- The bytes that pairs of hexadecimal digits spell. -/
def bytes? : List Char → Option (List UInt8)
  | [] => some []
  | high :: low :: rest => do
    let byte := (← nibble? high) * 16 + (← nibble? low)
    return byte :: (← bytes? rest)
  | [_] => none

/-- The tree with what one line adds to it; a line of another form adds nothing. -/
def addLine (fs : FileSystem) (line : List String) : FileSystem :=
  let put (path : String) (entry : Entry) := fs.put [] (Path.ofText path) entry
  match line with
  | "directory" :: path :: marks =>
    put path (.directory (marks.contains "locked") (marks.contains "closed"))
  | ["file", path, digits] => put path (.file ((bytes? digits.toList).getD []) false)
  | ["file", path, digits, "locked"] => put path (.file ((bytes? digits.toList).getD []) true)
  | ["link", path, target] => put path (.link target)
  | ["fifo", path] => put path .fifo
  | ["at", path] =>
    match fs.changeDirectory (Path.ofText path) with
    | .ok changed => changed
    | .error _ => fs
  | _ => fs

/-- The tree that a text describes. -/
def read (text : String) : FileSystem :=
  let lines := (text.toList.splitOn '\n').map fun line =>
    (line.splitOn '\t').map String.ofList
  lines.foldl addLine (FileSystem.withDirectory [])

end DeclIndex.FileSystem.Snapshot
