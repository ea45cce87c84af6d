import EntryProbe.Go.Tree

/-!
# Walking over a tree

A walk meets the nodes of a file from the outside in and from the start to the end.
Whoever walks says at every kind of node what to do there, and is given the walk below
the node, to take it or to leave it. Where nothing is said, the walk goes on.

There are two walks. An `EntryProbe.Go.Visitor` looks at all of a file. An
`EntryProbe.Go.Editor` changes what it meets, and is never shown an import. Each has
its own functions, and both carry a state from node to node.

What is seen of a walk is told by an `EntryProbe.Go.Observer`: the kinds of nodes it
takes note of, and the kinds of nodes below which it does not go. A node of such a kind
is still met. Each node that is taken note of is an *event*; the file itself is none,
since it is where a walk starts.
-/

namespace EntryProbe.Go

/-! ### Looking at a tree -/

/-- **A visitor**: what is done at each kind of node, given the node and the walk below
it. -/
structure Visitor (σ : Type) where
  /-- At the file. -/
  onFile : SourceFile → (σ → σ) → σ → σ := fun _ walk => walk
  /-- At a declaration. -/
  onDecl : Decl → (σ → σ) → σ → σ := fun _ walk => walk
  /-- At an import declaration. -/
  onImportDecl : ImportDecl → (σ → σ) → σ → σ := fun _ walk => walk
  /-- At an imported package, which has nothing below it. -/
  onImportSpec : ImportSpec → σ → σ := fun _ => id
  /-- At a function. -/
  onFuncDecl : FuncDecl → (σ → σ) → σ → σ := fun _ walk => walk
  /-- At a block. -/
  onBlock : List Stmt → (σ → σ) → σ → σ := fun _ walk => walk
  /-- At a statement. -/
  onStmt : Stmt → (σ → σ) → σ → σ := fun _ walk => walk

namespace Visitor

variable {σ : Type} (visitor : Visitor σ)

mutual

/-- The walk below a statement: to its block, if it has one. -/
def walkStmt : Stmt → σ → σ
  | .block body => visitor.onBlock body (walkBlock body)
  | .ifThen _ body => visitor.onBlock body (walkBlock body)
  | .assign .. | .expr _ | .return_ _ | .defer .. | .verbatim _ => id

/-- The walk below a block: over its statements. -/
def walkBlock : List Stmt → σ → σ
  | [] => id
  | stmt :: rest => walkBlock rest ∘ visitor.onStmt stmt (walkStmt stmt)

end

/-- The walk below a function: to its body, if it has one. -/
def walkFuncDecl (decl : FuncDecl) : σ → σ :=
  match decl.body with
  | some body => visitor.onBlock body.stmts (visitor.walkBlock body.stmts)
  | none => id

/-- The walk below an import declaration: over the imported packages. -/
def walkImportDecl (decl : ImportDecl) (state : σ) : σ :=
  decl.specs.foldl (fun state spec => visitor.onImportSpec spec state) state

/-- The walk below a declaration. -/
def walkDecl : Decl → σ → σ
  | .imports decl => visitor.onImportDecl decl (visitor.walkImportDecl decl)
  | .func decl => visitor.onFuncDecl decl (visitor.walkFuncDecl decl)
  | .other _ => id

/-- The walk below a file: over its declarations. -/
def walkFile (file : SourceFile) (state : σ) : σ :=
  file.decls.foldl (fun state decl => visitor.onDecl decl (visitor.walkDecl decl) state) state

/-- **Visits a file.** -/
def visitFile (file : SourceFile) : σ → σ :=
  visitor.onFile file (visitor.walkFile file)

end Visitor

/-! ### Changing a tree -/

/-- **An editor**: what is done at each kind of node but an import, given the node and
the walk below it, and what the node becomes.

A file, a declaration or a function can be changed before the walk goes on below it. A
block or a statement can be changed afterwards: a statement that grows before it is
walked over could grow for ever. -/
structure Editor (σ : Type) where
  /-- At the file. -/
  onFile : SourceFile → (SourceFile → σ → SourceFile × σ) → σ → SourceFile × σ :=
    fun file walk => walk file
  /-- At a declaration. -/
  onDecl : Decl → (Decl → σ → Decl × σ) → σ → Decl × σ := fun decl walk => walk decl
  /-- At a function. -/
  onFuncDecl : FuncDecl → (FuncDecl → σ → FuncDecl × σ) → σ → FuncDecl × σ :=
    fun decl walk => walk decl
  /-- At a block. -/
  onBlock : List Stmt → (σ → List Stmt × σ) → σ → List Stmt × σ := fun _ walk => walk
  /-- At a statement. -/
  onStmt : Stmt → (σ → Stmt × σ) → σ → Stmt × σ := fun _ walk => walk

namespace Editor

variable {σ : Type} (editor : Editor σ)

mutual

/-- The walk below a statement: to its block, if it has one. -/
def walkStmt : Stmt → σ → Stmt × σ
  | .block body => fun state =>
    let (body, state) := editor.onBlock body (walkBlock body) state
    (.block body, state)
  | .ifThen condition body => fun state =>
    let (body, state) := editor.onBlock body (walkBlock body) state
    (.ifThen condition body, state)
  | .assign left op right => fun state => (.assign left op right, state)
  | .expr value => fun state => (.expr value, state)
  | .return_ results => fun state => (.return_ results, state)
  | .defer function arguments => fun state => (.defer function arguments, state)
  | .verbatim span => fun state => (.verbatim span, state)

/-- The walk below a block: over its statements. -/
def walkBlock : List Stmt → σ → List Stmt × σ
  | [] => fun state => ([], state)
  | stmt :: rest => fun state =>
    let (stmt, state) := editor.onStmt stmt (walkStmt stmt) state
    let (rest, state) := walkBlock rest state
    (stmt :: rest, state)

end

/-- The walk below a function: to its body, if it has one. -/
def walkFuncDecl (decl : FuncDecl) (state : σ) : FuncDecl × σ :=
  match decl.body with
  | some body =>
    let (stmts, state) := editor.onBlock body.stmts (editor.walkBlock body.stmts) state
    ({ decl with body := some { body with stmts } }, state)
  | none => (decl, state)

/-- The walk below a declaration: to its function, if it is one. -/
def walkDecl : Decl → σ → Decl × σ
  | .func decl, state =>
    let (decl, state) := editor.onFuncDecl decl editor.walkFuncDecl state
    (.func decl, state)
  | .imports decl, state => (.imports decl, state)
  | .other span, state => (.other span, state)

/-- The walk over declarations. -/
def walkDecls : List Decl → σ → List Decl × σ
  | [], state => ([], state)
  | decl :: rest, state =>
    let (decl, state) := editor.onDecl decl editor.walkDecl state
    let (rest, state) := walkDecls rest state
    (decl :: rest, state)

/-- The walk below a file: over its declarations. -/
def walkFile (file : SourceFile) (state : σ) : SourceFile × σ :=
  let (decls, state) := editor.walkDecls file.decls state
  ({ file with decls }, state)

/-- **Edits a file.** -/
def editFile (file : SourceFile) : σ → SourceFile × σ :=
  editor.onFile file editor.walkFile

end Editor

/-! ### Observing a walk -/

/-- The kinds of nodes that a walk meets. -/
inductive NodeKind where
  | file | decl | importDecl | importSpec | funcDecl | block | stmt
  deriving Repr, DecidableEq, Inhabited

/-- A node that a walk meets, with what tells it apart. -/
inductive Event where
  /-- A declaration. -/
  | decl (decl : Decl)
  /-- An import declaration. -/
  | importDecl (decl : ImportDecl)
  /-- An imported package. -/
  | importSpec (spec : ImportSpec)
  /-- A function. -/
  | funcDecl (decl : FuncDecl)
  /-- A block. -/
  | block (body : List Stmt)
  /-- A statement. -/
  | stmt (stmt : Stmt)
  deriving Repr, Inhabited

/-- The kind of the node that an event is about. -/
def Event.kind : Event → NodeKind
  | .decl _ => .decl
  | .importDecl _ => .importDecl
  | .importSpec _ => .importSpec
  | .funcDecl _ => .funcDecl
  | .block _ => .block
  | .stmt _ => .stmt

/-- What an observer sees of a walk. -/
structure Observer where
  /-- The kinds of nodes that are taken note of. -/
  records : NodeKind → Bool
  /-- The kinds of nodes below which the walk does not go. -/
  stops : NodeKind → Bool

namespace Observer

/-- Takes note of everything, and goes everywhere but below some kinds of nodes. -/
def stoppingAt (kinds : List NodeKind) : Observer where
  records := fun _ => true
  stops := kinds.contains

/-- Goes everywhere, and takes note of imported packages and statements only. -/
def leaves : Observer where
  records := fun kind => kind == .importSpec || kind == .stmt
  stops := fun _ => false

variable (observer : Observer)

/-- Takes note of a node, if that is asked for. -/
def note (event : Event) (seen : List Event) : List Event :=
  if observer.records event.kind then seen ++ [event] else seen

/-- What a visitor does at a node to have it observed: the node first, then what is
below it. -/
def meet (event : Event) (walk : List Event → List Event) (seen : List Event) : List Event :=
  if observer.stops event.kind then observer.note event seen
  else walk (observer.note event seen)

/-- What an editor does at a node to have it observed; the node stays as it is, but for
what the walk below it changes. -/
def meetEditing {α : Type} (event : Event) (node : α) (walk : List Event → α × List Event)
    (seen : List Event) : α × List Event :=
  if observer.stops event.kind then (node, observer.note event seen)
  else walk (observer.note event seen)

/-- The visitor that is observed. -/
def visitor : Visitor (List Event) where
  onFile := fun _ walk => if observer.stops .file then id else walk
  onDecl := fun decl => observer.meet (.decl decl)
  onImportDecl := fun decl => observer.meet (.importDecl decl)
  onImportSpec := fun spec => observer.meet (.importSpec spec) id
  onFuncDecl := fun decl => observer.meet (.funcDecl decl)
  onBlock := fun body => observer.meet (.block body)
  onStmt := fun stmt => observer.meet (.stmt stmt)

/-- The editor that is observed. -/
def editor : Editor (List Event) where
  onFile := fun file walk => if observer.stops .file then (file, ·) else walk file
  onDecl := fun decl walk => observer.meetEditing (.decl decl) decl (walk decl)
  onFuncDecl := fun decl walk => observer.meetEditing (.funcDecl decl) decl (walk decl)
  onBlock := fun body => observer.meetEditing (.block body) body
  onStmt := fun stmt => observer.meetEditing (.stmt stmt) stmt

end Observer

/-- The visitor that says something at imported packages and statements only: it takes
note of them. -/
def Visitor.leaves : Visitor (List Event) where
  onImportSpec := fun spec seen => seen ++ [.importSpec spec]
  onStmt := fun stmt walk seen => walk (seen ++ [.stmt stmt])

/-- The events of a visit to a file. -/
def events (observer : Observer) (file : SourceFile) : List Event :=
  observer.visitor.visitFile file []

/-- The events of an edit of a file. -/
def editEvents (observer : Observer) (file : SourceFile) : List Event :=
  (observer.editor.editFile file []).2

end EntryProbe.Go
