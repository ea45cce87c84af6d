import EntryProbe.Build.Error
import EntryProbe.FileSystem.Operations

/-!
# The files of a build

Which files a build takes follows from what it is asked for:

* nothing: the package in the current directory;
* a directory: the package in it;
* a file: that file alone;
* a word that is neither: the package of that import path below the directory of
  packages;
* several files: these files, which have to be in one directory.

A package consists of those entries of its directory that have a name the compiler
looks at and are not directories themselves, in the order of their names.
-/

namespace EntryProbe.Build

/-- The endings of the names that the compiler looks at. -/
def relevantEndings : List String :=
  [".go", ".c", ".cc", ".cpp", ".cxx", ".m", ".h", ".hh", ".hpp", ".hxx", ".s", ".swig",
   ".swigcxx", ".syso"]

/-- The names of the files that describe a module. -/
def moduleFiles : List String := ["go.mod", "go.sum"]

/-- The compiler looks at files of this name. -/
def isRelevant (name : String) : Bool :=
  relevantEndings.any (fun ending => ending.toList.isSuffixOf name.toList) ||
    moduleFiles.contains name

/-- The files of a build. -/
structure FileSet where
  /-- Their paths. -/
  paths : List Path
  /-- They were named one by one, and do not form a package. -/
  listed : Bool
  deriving Repr, DecidableEq, Inhabited

/-- The current directory. -/
def hereDir : Path := ⟨"."⟩

/-- The directory of the files, which is that of the first one. -/
def FileSet.dir (set : FileSet) : Path :=
  match set.paths.head?.bind Path.parent? with
  | some parent => if parent.text.isEmpty then hereDir else parent
  | none => hereDir

/-- The path that stands for the standard input, which holds no package. -/
def standardInput : Path := ⟨"-"⟩

/-- The names of those entries of a directory that belong to its package. -/
def packageNames (fs : FileSystem) (place : Location) : List String :=
  (fs.names place).filter fun name => isRelevant name && !fs.isDir (place ++ [name])

/-- The paths of the files of the package in a directory. Something that is not a
directory holds none. -/
def packageFiles (fs : FileSystem) (cwd : Location) (dir : Path) : Except IoError (List Path) := do
  if dir.components = standardInput.components then
    return []
  let place ← fs.resolve cwd dir
  if fs.isDir place then
    return (packageNames fs place).map fun name => dir.join ⟨name⟩
  else
    return []

/-- The package in a directory. -/
def package (fs : FileSystem) (cwd : Location) (dir : Path) : Except Error FileSet :=
  match packageFiles fs cwd dir with
  | .ok paths => .ok ⟨paths, false⟩
  | .error cause => .error (.listDir dir cause)

/-- A directory without the components that say nothing. -/
def cleanDir (dir : Path) : Path :=
  let cleaned := Path.ofComponents ⟨""⟩ (dir.components.filter fun component => component != .here)
  if cleaned.text.isEmpty then hereDir else cleaned

/-- The directory that a named file is in, cleaned. -/
def dirOf (path : Path) : Path :=
  cleanDir (path.parent?.getD ⟨""⟩)

/-- Checks that files are there and that they are in one directory, from the left. -/
def checkListed (fs : FileSystem) (cwd : Location) : Option Path → List Path → Except Error Unit
  | _, [] => .ok ()
  | first, path :: rest =>
    match fs.stat cwd path with
    | .error cause => .error (.missingInput path cause)
    | .ok _ =>
      match first with
      | none => checkListed fs cwd (some (dirOf path)) rest
      | some dir =>
        if dir.components = (dirOf path).components then checkListed fs cwd first rest
        else .error (.mixedDirectories dir (dirOf path))

/-- The directory of the packages that are named by an import path, which an empty
value does not set. -/
def gopathOf (value : Option String) : Option Path :=
  value.bind fun text => if text.isEmpty then none else some ⟨text⟩

/-- The directory of the package with an import path. -/
def packageDir (gopath importPath : Path) : Path :=
  (gopath.join ⟨"src"⟩).join importPath

/-- **The files of a build.** -/
def resolveFileSet (fs : FileSystem) (cwd : Location) (gopath : Option Path) :
    List Path → Except Error FileSet
  | [] => package fs cwd hereDir
  | [input] =>
    match fs.stat cwd input, gopath with
    | .ok .dir, _ => package fs cwd input
    | .ok _, _ => .ok ⟨[input], true⟩
    | .error _, none => .error .emptyGopath
    | .error _, some gopath => package fs cwd (packageDir gopath input)
  | inputs =>
    match checkListed fs cwd none inputs with
    | .ok () => .ok ⟨inputs, true⟩
    | .error error => .error error

/-! ### Names of the results -/

/-- The name of what a path leads to, or the whole path if it has none. -/
def baseName (path : Path) : String :=
  path.fileName?.getD path.text

/-- A text without its last dot and what comes after it. -/
def withoutExtension (text : String) : String :=
  match text.toList.reverse.dropWhile fun c => c != '.' with
  | [] => text
  | _ :: before => String.ofList before.reverse

/-- **The name that a program and its profile are called by:** that of the first input
without its extension, or that of the current directory. -/
def outputName (inputs : List Path) (cwd : Path) : String :=
  match inputs with
  | [] => baseName cwd
  | first :: _ => withoutExtension (baseName first)

end EntryProbe.Build
