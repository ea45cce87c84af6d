import EntryProbe.Path

/-!
# File systems

A file system says what stands at each location of the tree of directories. A
location is the list of the names on the way from the root; at a location there is
a regular file, a directory, a symbolic link, or nothing. The root is a directory
in every file system.

* `EntryProbe.FileSystem.get?` – what stands at a location, the one view of a file
  system that everything else is stated in;
* `EntryProbe.FileSystem.insert`, `EntryProbe.FileSystem.removeTree` – the two
  changes, with their effect on the view;
* `EntryProbe.FileSystem.names` – the names in a directory, in order.
-/

namespace EntryProbe

/-- A place in the tree of directories: the names on the way from the root. -/
abbrev Location := List String

/-- The path of a location. -/
def Location.path (place : Location) : Path :=
  Path.ofComponents ⟨""⟩ (.root :: place.map .name)

/-- What can stand at a location. -/
inductive Node where
  /-- A regular file. -/
  | file (content : ByteArray)
  /-- A directory. What it holds are the entries one step below it. -/
  | dir
  /-- A symbolic link. -/
  | link (target : Path)
  deriving Inhabited

/-- Files are the same if their bytes are. -/
instance : DecidableEq Node
  | .file content, .file other =>
    if same : content.data = other.data then
      isTrue (congrArg Node.file (ByteArray.ext same))
    else
      isFalse fun equal => same (congrArg ByteArray.data (Node.file.inj equal))
  | .dir, .dir => isTrue rfl
  | .link target, .link other =>
    if same : target = other then
      isTrue (congrArg Node.link same)
    else
      isFalse fun equal => same (Node.link.inj equal)
  | .file _, .dir => isFalse nofun
  | .file _, .link _ => isFalse nofun
  | .dir, .file _ => isFalse nofun
  | .dir, .link _ => isFalse nofun
  | .link _, .file _ => isFalse nofun
  | .link _, .dir => isFalse nofun

/-- A file that holds a text. -/
def Node.ofText (text : String) : Node :=
  .file text.toUTF8

/-- The reasons for which an operation on files can fail. -/
inductive IoError where
  /-- A name on the way, or the last one, is not there. -/
  | notFound
  /-- Something stands already where a new entry should go. -/
  | alreadyExists
  /-- Something on the way is not a directory. -/
  | notDirectory
  /-- A directory cannot be read or created as a file. -/
  | isDirectory
  /-- Too many symbolic links were met on the way. -/
  | tooManyLinks
  /-- The content of a file is not a text. -/
  | notText
  /-- The empty path denotes no place below the current directory. -/
  | emptyPath
  deriving Repr, DecidableEq, Inhabited

/-- The wording of a failure. -/
def IoError.message : IoError → String
  | .notFound => "No such file or directory (os error 2)"
  | .alreadyExists => "File exists (os error 17)"
  | .notDirectory => "Not a directory (os error 20)"
  | .isDirectory => "Is a directory (os error 21)"
  | .tooManyLinks => "Too many levels of symbolic links (os error 40)"
  | .notText => "stream did not contain valid UTF-8"
  | .emptyPath => "cannot make an empty path absolute"

/-- A file system: what stands at the locations below the root, one entry for each
location where there is something. -/
structure FileSystem where
  /-- The entries. -/
  entries : List (Location × Node)
  /-- There is one entry for a location. -/
  nodup : (entries.map Prod.fst).Nodup

namespace FileSystem

/-- The file system that has nothing below the root. -/
def empty : FileSystem := ⟨[], List.nodup_nil⟩

instance : Inhabited FileSystem := ⟨empty⟩

/-- **What stands at a location.** -/
def get? (fs : FileSystem) (place : Location) : Option Node :=
  if place = [] then some .dir else fs.entries.lookup place

/-- Something stands at a location. -/
def occupied (fs : FileSystem) (place : Location) : Bool :=
  (fs.get? place).isSome

/-- There is a directory at a location. -/
def isDir (fs : FileSystem) (place : Location) : Bool :=
  fs.get? place = some .dir

/-- The entries that are kept when others are thrown away. -/
def filter (fs : FileSystem) (keep : Location → Bool) : FileSystem where
  entries := fs.entries.filter fun entry => keep entry.1
  nodup := fs.nodup.sublist (List.filter_sublist.map _)

/-- Puts something at a location, in place of what stands there. -/
def insert (fs : FileSystem) (place : Location) (node : Node) : FileSystem where
  entries := (fs.filter fun other => other != place).entries ++ [(place, node)]
  nodup := by
    have absent : place ∉ (fs.filter fun other => other != place).entries.map Prod.fst := by
      simp [filter]
    rw [List.map_append, List.nodup_append]
    refine ⟨(fs.filter _).nodup, by simp, ?_⟩
    intro a ha b hb hab
    simp only [List.map_cons, List.map_nil, List.mem_singleton] at hb
    have same : a = place := hab.trans hb
    rw [same] at ha
    exact absent ha

/-- Takes away a location and all that is below it. -/
def removeTree (fs : FileSystem) (place : Location) : FileSystem :=
  fs.filter fun other => !place.isPrefixOf other

/-- The names of the entries of a directory, in the order of their characters. -/
def names (fs : FileSystem) (place : Location) : List String :=
  (fs.entries.filterMap fun entry =>
    if entry.1.dropLast = place then entry.1.getLast? else none).mergeSort Path.nameLe

/-- A name that no entry of a directory has: it is longer than each of them. -/
def freshName (fs : FileSystem) (place : Location) (stem : String) : String :=
  let longest := (fs.names place).foldl (fun longest name => max longest name.length) 0
  stem ++ String.ofList (List.replicate (6 + longest) '0')

/-! ### What the changes do to the view -/

@[simp] theorem get?_nil (fs : FileSystem) : fs.get? [] = some .dir := by
  simp [get?]

theorem lookup_filter {entries : List (Location × Node)} (keep : Location → Bool)
    (place : Location) :
    (entries.filter fun entry => keep entry.1).lookup place =
      if keep place then entries.lookup place else none := by
  induction entries with
  | nil => simp
  | cons entry rest ih =>
    obtain ⟨other, node⟩ := entry
    by_cases hp : place = other
    · subst hp
      by_cases hk : keep place = true <;> simp [hk, ih]
    · have hb : (place == other) = false := by simpa using hp
      by_cases hk : keep other = true <;> simp [hk, List.lookup_cons, hb, ih]

/-- **What is thrown away is gone, and all else is as before.** -/
theorem get?_filter (fs : FileSystem) (keep : Location → Bool) {place : Location}
    (below : place ≠ []) :
    (fs.filter keep).get? place = if keep place then fs.get? place else none := by
  simp only [get?, below, if_false, filter]
  exact lookup_filter keep place

/-- **What was put at a location stands there.** -/
theorem get?_insert_self (fs : FileSystem) {place : Location} (node : Node)
    (below : place ≠ []) : (fs.insert place node).get? place = some node := by
  simp [get?, below, insert, filter, List.lookup_append,
    lookup_filter (fun other => other != place)]

/-- **Putting something at a location changes no other one.** -/
theorem get?_insert_of_ne (fs : FileSystem) {place other : Location} (node : Node)
    (different : other ≠ place) : (fs.insert place node).get? other = fs.get? other := by
  by_cases below : other = []
  · simp [below]
  · have hb : (other == place) = false := by simpa using different
    simp [get?, below, insert, filter, List.lookup_append,
      lookup_filter (fun location => location != place), different, List.lookup_cons, hb]

end FileSystem

end EntryProbe
