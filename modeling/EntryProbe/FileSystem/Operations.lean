import EntryProbe.FileSystem.Resolve

/-!
# Operations on files

Reading, and the two ways in which a file gets a second place: as a symbolic link to
it, and as a copy. Both refuse to touch what exists. An operation that can leave
something behind when it fails gives the file system back together with its result.
-/

namespace EntryProbe.FileSystem

/-- What a path leads to. -/
def stat (fs : FileSystem) (cwd : Location) (path : Path) : Except IoError Node := do
  let place ← fs.resolve cwd path
  match fs.get? place with
  | some node => return node
  | none => throw .notFound

/-- The content of the file that a path leads to. -/
def readBytes (fs : FileSystem) (cwd : Location) (path : Path) : Except IoError ByteArray := do
  match ← fs.stat cwd path with
  | .file content => return content
  | _ => throw .isDirectory

/-- The text in the file that a path leads to. -/
def readText (fs : FileSystem) (cwd : Location) (path : Path) : Except IoError String := do
  match String.fromUTF8? (← fs.readBytes cwd path) with
  | some text => return text
  | none => throw .notText

/-- Makes a symbolic link. -/
def makeLink (fs : FileSystem) (cwd : Location) (target path : Path) :
    Except IoError FileSystem := do
  return fs.insert (← fs.newLinkEntry cwd path) (.link target)

/-- Copies a file to a new place. The new file is made before the old one is read, so
it is left behind, empty, if the old one turns out to be a directory. -/
def copyFile (fs : FileSystem) (cwd : Location) (source target : Path) :
    Except IoError Unit × FileSystem :=
  match fs.resolve cwd source, fs.newEntry cwd target with
  | .error error, _ => (.error error, fs)
  | .ok _, .error error => (.error error, fs)
  | .ok place, .ok entry =>
    match fs.get? place with
    | some (.file content) => (.ok (), fs.insert entry (.file content))
    | _ => (.error .isDirectory, fs.insert entry (.file .empty))

/-- **Gives a file a second place:** a link to its absolute path, or a copy where no
link can be made. -/
def duplicateFile (fs : FileSystem) (cwd : Location) (source target : Path) :
    Except IoError Unit × FileSystem :=
  match Path.absolute? cwd.path source with
  | none => (.error .emptyPath, fs)
  | some absolute =>
    match fs.makeLink cwd absolute target with
    | .ok linked => (.ok (), linked)
    | .error _ => fs.copyFile cwd source target

end EntryProbe.FileSystem
