import EntryProbe.Go.Tree

/-!
# Entry points and imports

A program starts in the function `main` of the package `main`, a function without
receiver, parameters and results. These are the questions that are asked of a file
before it is changed.
-/

namespace EntryProbe.Go

/-- The package whose function of the same name a program starts in. -/
def entryName : String := "main"

/-- An entry function: called `main`, with no receiver, no parameters and no
result. It may lack a body. -/
def FuncDecl.isEntry (decl : FuncDecl) : Bool :=
  decl.name == entryName && decl.receiver.isNone && decl.params.isEmpty && decl.result.isNone

/-- The file belongs to the package `main` and declares an entry function. -/
def SourceFile.hasEntryPoint (file : SourceFile) : Bool :=
  file.package.name == entryName && file.funcs.any FuncDecl.isEntry

/-- Some import of the file has exactly this path literal, quotes included. -/
def SourceFile.hasImport (file : SourceFile) (path : String) : Bool :=
  file.importSpecs.any fun spec => spec.path == path

end EntryProbe.Go
