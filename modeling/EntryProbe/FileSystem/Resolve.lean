import EntryProbe.FileSystem.Basic

/-!
# Where a path leads

A path is walked step by step from the root or from the current directory. Every
step has to be taken from a directory. A name that is a symbolic link is replaced by
the steps of the link's target; at most `EntryProbe.FileSystem.linkLimit` links are
followed on one walk, so that every walk ends.

A slash at the end of a path asks for a directory: it is one more step that stays
where it is.

* `EntryProbe.FileSystem.resolve` – the location that a path leads to, all links
  followed;
* `EntryProbe.FileSystem.newEntry` – the location where a path would put a new entry.
  Here the last name is not followed, and nothing may stand there.
-/

namespace EntryProbe

/-- A step of a walk. -/
inductive Step where
  /-- Stay, which only a directory allows. -/
  | here
  /-- Go to the parent directory. The root is its own parent. -/
  | up
  /-- Go to an entry of the directory. -/
  | name (text : String)
  deriving Repr, DecidableEq, Inhabited

namespace Path

/-- The step that a piece between slashes stands for, if it is not empty. -/
def stepOf? (piece : List Char) : Option Step :=
  if piece = [] then none
  else if piece = ['.'] then some .here
  else if piece = ['.', '.'] then some .up
  else some (.name (String.ofList piece))

/-- The steps of a path, where a slash at the end is a step of its own. -/
def steps (path : Path) : List Step :=
  let all := pieces path.text.toList
  all.dropLast.filterMap stepOf? ++
    (all.getLast?.map fun piece => (stepOf? piece).getD .here).toList

/-- The directory that a path starts from. -/
def start (path : Path) (cwd : Location) : Location :=
  if path.isAbsolute then [] else cwd

/-- What a path ends in. -/
inductive Ending where
  /-- A name, with the steps to the directory of that name. -/
  | name (before : List Step) (text : String) (slash : Bool)
  /-- A step that leads to a directory: the root, a dot or two dots. -/
  | directory
  deriving Repr, DecidableEq, Inhabited

/-- What a path ends in, slashes at the end apart. -/
def ending (path : Path) : Ending :=
  let all := (pieces path.text.toList).reverse
  let slash := all.head? == some []
  match all.dropWhile fun piece => piece.isEmpty with
  | [] => .directory
  | last :: before =>
    match stepOf? last with
    | some (.name text) => .name (before.reverse.filterMap stepOf?) text slash
    | _ => .directory

end Path

namespace FileSystem

/-- The number of links that are followed on one walk. -/
def linkLimit : Nat := 40

/-- Walks from a location. At a link, `jump` goes on with the steps of its target and
those that remain, from the directory that the target starts from. -/
def walk (fs : FileSystem) (jump : Location → List Step → Except IoError Location) :
    Location → List Step → Except IoError Location
  | place, [] => .ok place
  | place, step :: rest =>
    match fs.get? place with
    | none => .error .notFound
    | some (.file _) => .error .notDirectory
    | some (.link _) => .error .notDirectory
    | some .dir =>
      match step with
      | .here => walk fs jump place rest
      | .up => walk fs jump place.dropLast rest
      | .name text =>
        match fs.get? (place ++ [text]) with
        | none => .error .notFound
        | some (.link target) =>
          if target.text.isEmpty then .error .notFound
          else jump (target.start place) (target.steps ++ rest)
        | some _ => walk fs jump (place ++ [text]) rest

/-- Walks from a location and follows a limited number of links. -/
def walkWithin (fs : FileSystem) : Nat → Location → List Step → Except IoError Location
  | 0 => fs.walk fun _ _ => .error .tooManyLinks
  | links + 1 => fs.walk (fs.walkWithin links)

/-- **The location that a path leads to.** -/
def resolve (fs : FileSystem) (cwd : Location) (path : Path) : Except IoError Location :=
  if path.text.isEmpty then .error .notFound
  else fs.walkWithin linkLimit (path.start cwd) path.steps

/-- The directory that a path leads to. -/
def resolveDir (fs : FileSystem) (cwd : Location) (path : Path) : Except IoError Location := do
  let place ← fs.resolve cwd path
  if fs.isDir place then return place else throw .notDirectory

/-- The location that the last name of a path stands for, the last name not followed,
and whether a slash comes after it. A path that does not end in a name leads to
something that exists. -/
def entryOf (fs : FileSystem) (cwd : Location) (path : Path) : Except IoError (Location × Bool) :=
  if path.text.isEmpty then .error .notFound
  else
    match path.ending with
    | .name before text slash => do
      let parent ← fs.walkWithin linkLimit (path.start cwd) (before ++ [.here])
      return (parent ++ [text], slash)
    | .directory => do
      let _ ← fs.resolve cwd path
      throw .alreadyExists

/-- **Where a path puts a new file.** A slash at the end asks for a directory, which
is refused before anything is looked up. -/
def newEntry (fs : FileSystem) (cwd : Location) (path : Path) : Except IoError Location := do
  let (place, slash) ← fs.entryOf cwd path
  if slash then throw .isDirectory
  else if fs.occupied place then throw .alreadyExists
  else return place

/-- **Where a path puts a new link.** -/
def newLinkEntry (fs : FileSystem) (cwd : Location) (path : Path) : Except IoError Location := do
  let (place, slash) ← fs.entryOf cwd path
  if fs.occupied place then throw .alreadyExists
  else if slash then throw .notFound
  else return place

end FileSystem

end EntryProbe
