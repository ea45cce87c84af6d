/-!
# Paths

A path is the text it was written as. What it denotes depends only on its
*components*: a slash separates names, a leading slash is the root, doubled and
trailing slashes say nothing, and neither does a dot, except at the start of a
relative path, where it is kept as a component of its own.

* `EntryProbe.Path.components` – the components of a path;
* `EntryProbe.Path.fileName?`, `EntryProbe.Path.parent?` – the last component, and
  the text in front of it;
* `EntryProbe.Path.join`, `EntryProbe.Path.absolute?` – putting one path below
  another;
* `EntryProbe.Path.le` – the order of paths by their components: the root comes
  before a leading dot, a dot before two dots, and these before names, which are
  compared by their characters.
-/

namespace EntryProbe

/-- A path, as it was written. -/
structure Path where
  /-- The text of the path. -/
  text : String
  deriving Repr, DecidableEq, Inhabited

namespace Path

/-- One step of a path. -/
inductive Component where
  /-- The root directory. -/
  | root
  /-- The current directory, at the start of a relative path. -/
  | here
  /-- The parent directory. -/
  | up
  /-- A named entry. -/
  | name (text : String)
  deriving Repr, DecidableEq, Inhabited

/-- The pieces of a text between slashes; there is always at least one. -/
def pieces : List Char → List (List Char)
  | [] => [[]]
  | c :: rest =>
    if c = '/' then
      [] :: pieces rest
    else
      match pieces rest with
      | [] => [[c]]
      | first :: others => (c :: first) :: others

/-- The pieces put together again, with slashes between them. -/
def unpieces : List (List Char) → List Char
  | [] => []
  | [piece] => piece
  | piece :: rest => piece ++ '/' :: unpieces rest

/-- The component that a piece after the first one stands for. -/
def innerComponent? (piece : List Char) : Option Component :=
  if piece = [] ∨ piece = ['.'] then none
  else if piece = ['.', '.'] then some .up
  else some (.name (String.ofList piece))

/-- The component that the first piece of a relative path stands for. -/
def firstComponent? (piece : List Char) : Option Component :=
  if piece = ['.'] then some .here else innerComponent? piece

/-- The path starts at the root. -/
def isAbsolute (path : Path) : Bool :=
  path.text.toList.head? == some '/'

/-- The components of a path. -/
def components (path : Path) : List Component :=
  match pieces path.text.toList with
  | [] => []
  | first :: rest =>
    let start := if path.isAbsolute then [.root] else (firstComponent? first).toList
    start ++ rest.filterMap innerComponent?

/-- The name of the entry that a path leads to, if its last component is a
name. -/
def fileName? (path : Path) : Option String :=
  match path.components.getLast? with
  | some (.name text) => some text
  | _ => none

/-- Pieces without those at the end that stand for no component. -/
def trimPieces (rest : List (List Char)) : List (List Char) :=
  (rest.reverse.dropWhile fun piece => (innerComponent? piece).isNone).reverse

/-- The text of a path up to its last component but one. The root and the empty
path have no parent; the parent of a lone name is the empty path. -/
def parent? (path : Path) : Option Path :=
  match pieces path.text.toList with
  | [] => none
  | first :: rest =>
    let inner := trimPieces rest
    if inner = [] then
      if path.isAbsolute ∨ first = [] then none else some ⟨""⟩
    else
      let shorter := trimPieces inner.dropLast
      if path.isAbsolute then
        some ⟨String.ofList ('/' :: unpieces shorter)⟩
      else
        some ⟨String.ofList (unpieces (first :: shorter))⟩

/-- The path `below` as seen from `dir`: an absolute path stands on its own, any
other one is put after `dir` and a slash. -/
def join (dir below : Path) : Path :=
  if below.isAbsolute then below
  else if dir.text.isEmpty ∨ dir.text.toList.getLast? = some '/' then ⟨dir.text ++ below.text⟩
  else ⟨dir.text ++ "/" ++ below.text⟩

/-- A component as it is written. -/
def Component.text : Component → String
  | .root => "/"
  | .here => "."
  | .up => ".."
  | .name text => text

/-- A path put together from components. -/
def ofComponents (start : Path) (components : List Component) : Path :=
  components.foldl (fun path component => path.join ⟨component.text⟩) start

/-- The path from the root, given the current directory. Dots and doubled slashes
are dropped, steps to the parent directory are kept, and so are a trailing slash
and a pair of slashes at the start. The empty path cannot be made absolute. -/
def absolute? (cwd path : Path) : Option Path :=
  if path.text.isEmpty then
    none
  else
    let steps := path.components.filter fun component => component != .here
    let base :=
      if path.isAbsolute then
        match pieces path.text.toList with
        | _ :: [] :: third :: _ =>
          if third = [] ∧ path.text ≠ "//" then ofComponents ⟨""⟩ steps
          else ofComponents ⟨"//"⟩ (steps.filter fun component => component != .root)
        | _ => ofComponents ⟨""⟩ steps
      else
        ofComponents cwd steps
    some (if path.text.toList.getLast? = some '/' then base.join ⟨""⟩ else base)

/-- The text of a path ends in this one. -/
def hasEnding (path : Path) (ending : String) : Bool :=
  ending.toList.isSuffixOf path.text.toList

/-- The order of lists of numbers, by the first place where they differ. -/
def compareRanks : List Nat → List Nat → Ordering :=
  List.compareLex compare

/-- One name does not come after another in the order of their characters. -/
def nameLe (name other : String) : Bool :=
  (compareRanks (name.toList.map Char.toNat) (other.toList.map Char.toNat)).isLE

/-- The numbers by which components are compared: the kind first, then the
characters of a name. -/
def Component.rank : Component → List Nat
  | .root => [0]
  | .here => [1]
  | .up => [2]
  | .name text => 3 :: text.toList.map Char.toNat

/-- The key by which paths are ordered. -/
def rank (path : Path) : List (List Nat) :=
  path.components.map Component.rank

/-- One path does not come after another in the order of their components. -/
def le (path other : Path) : Bool :=
  (List.compareLex compareRanks path.rank other.rank).isLE

end Path

end EntryProbe
