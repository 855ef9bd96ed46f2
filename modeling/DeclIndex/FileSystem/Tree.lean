import DeclIndex.Path

/-!
# Trees of entries

An entry is a file, a directory, a symbolic link or a named pipe. A tree is an entry together with
named trees below it. Only what is below a directory counts, and of two trees with one name the
first counts, so each value of the type describes a tree, whatever its lists hold.

`Tree.child?` and `Tree.names` are the views through which everything else reads a tree. Changes
are made at the end of a list of names, the outermost first. They leave everything as it is if the
names do not lead through directories.
-/

namespace DeclIndex

/-- What a name in a directory stands for. -/
inductive Entry where
  /-- A regular file. If it is locked, it cannot be read. -/
  | file (bytes : List UInt8) (locked : Bool)
  /-- A directory. If it is locked, its names cannot be listed, nor can it be opened. If it is
  closed, no name leads from it. -/
  | directory (locked : Bool) (closed : Bool := false)
  /-- A symbolic link with its target. -/
  | link (target : String)
  /-- A named pipe. -/
  | fifo
  deriving DecidableEq, Repr

namespace Entry

/-- The entry is a directory. -/
def isDirectory : Entry → Bool
  | directory _ _ => true
  | _ => false

/-- The entry is a directory from which no name leads. -/
def isClosed : Entry → Bool
  | directory _ closed => closed
  | _ => false

/-- The entry is a regular file. -/
def isFile : Entry → Bool
  | file _ _ => true
  | _ => false

end Entry

/-- The longest name of an entry, in bytes. -/
def Entry.maxNameLength : Nat := 255

/-- A text can be the name of an entry. -/
def Entry.isName (text : String) : Bool :=
  !Location.isSelf text && text != ".." && !text.toList.contains '/' && !text.toList.contains '\x00'
    && text.utf8ByteSize ≤ maxNameLength

/-- The name of an entry in its directory. -/
structure EntryName where
  text : String
  isName : Entry.isName text = true
  deriving DecidableEq, Repr

/-- An entry, and the trees below it with their names. -/
inductive Tree where
  | node (entry : Entry) (below : List (EntryName × Tree))

namespace Tree

/-- The entry at the top of a tree. -/
def entry : Tree → Entry
  | node entry _ => entry

/-- The named trees below the top, if that is a directory. -/
def children : Tree → List (EntryName × Tree)
  | node entry below => if entry.isDirectory then below else []

/-- The tree that a name stands for. -/
def child? (tree : Tree) (name : String) : Option Tree :=
  (tree.children.find? fun child => child.1.text == name).map (·.2)

/-- The names below the top of a tree, in order of their characters. -/
def names (tree : Tree) : List String :=
  (tree.children.map (·.1.text)).eraseDups.mergeSort fun name other => decide (name ≤ other)

/-! ## Changes -/

/-- A tree with another entry at its top. What is below a directory stays below a directory. -/
def relabel (tree : Tree) (entry : Entry) : Tree :=
  node entry (if entry.isDirectory then tree.children else [])

/-- A tree without what a name stands for. -/
def without (tree : Tree) (name : String) : Tree :=
  node tree.entry (tree.children.filter fun child => child.1.text != name)

/-- A tree with another one that a name stands for. -/
def withChild (tree : Tree) (name : String) (child : Tree) : Tree :=
  if h : Entry.isName name = true then
    node tree.entry ((⟨name, h⟩, child) :: (tree.without name).children)
  else tree

/-- A tree with an entry at the end of some names. -/
def insert (entry : Entry) : Tree → List String → Tree
  | tree, [] => tree.relabel entry
  | tree, name :: names =>
    match tree.child? name, names with
    | some child, names => tree.withChild name (child.insert entry names)
    | none, [] => tree.withChild name (node entry [])
    | none, _ :: _ => tree

/-- A tree without what is at the end of some names. -/
def erase : Tree → List String → Tree
  | tree, [] => tree
  | tree, [name] => tree.without name
  | tree, name :: names =>
    match tree.child? name with
    | some child => tree.withChild name (child.erase names)
    | none => tree

end Tree

end DeclIndex
