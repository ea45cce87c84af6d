import Mathlib.Data.List.Basic
import EntryProbe.Go.Traversal

/-!
# The two walks see the same

A visit and an edit have functions of their own, and both are measured against one
thing: what an observer sees from a node on,
`EntryProbe.Go.Observer.sees`, which knows only what stands directly below a node
(`EntryProbe.Go.Event.children`). A visit sees all of it, and an edit all of it but the
imports, whatever the observer asks for.

That a visit is in preorder and misses nothing is said by *addresses*. The address of
a node tells, from the top, the place of each node on the way to it among its
neighbours. Read as words of a dictionary, the addresses put a node before all that is
below it, and that before the next neighbour: listing the addresses upwards, each once,
is listing the nodes in preorder, each once.
-/

namespace EntryProbe.Go

/-! ### What stands below a node -/

/-- The nodes directly below a node, in order. -/
def Event.children : Event → List Event
  | .decl (.imports group) => [.importDecl group]
  | .decl (.func function) => [.funcDecl function]
  | .decl (.other _) => []
  | .importDecl group => group.specs.map .importSpec
  | .importSpec _ => []
  | .funcDecl function => function.body.toList.map fun body => .block body.stmts
  | .block body => body.map .stmt
  | .stmt (.block body) => [.block body]
  | .stmt (.ifThen _ body) => [.block body]
  | .stmt (.assign ..) | .stmt (.expr _) | .stmt (.return_ _) | .stmt (.defer ..)
  | .stmt (.verbatim _) => []

/-- A node is an import declaration or an imported package. -/
def Event.isImport (node : Event) : Bool :=
  node.kind == .importDecl || node.kind == .importSpec

theorem Event.sizeOf_lt_of_mem_children {node child : Event} (h : child ∈ node.children) :
    sizeOf child < sizeOf node := by
  cases node with
  | decl top =>
    cases top with
    | imports group =>
      obtain rfl := List.mem_singleton.mp h
      simp only [importDecl.sizeOf_spec, decl.sizeOf_spec, Decl.imports.sizeOf_spec]
      omega
    | func function =>
      obtain rfl := List.mem_singleton.mp h
      simp only [funcDecl.sizeOf_spec, decl.sizeOf_spec, Decl.func.sizeOf_spec]
      omega
    | other span => exact absurd h List.not_mem_nil
  | importDecl group =>
    obtain ⟨spec, hspec, rfl⟩ := List.mem_map.mp h
    have := List.sizeOf_lt_of_mem hspec
    obtain ⟨specs, span⟩ := group
    simp only [importSpec.sizeOf_spec, importDecl.sizeOf_spec, ImportDecl.mk.sizeOf_spec] at this ⊢
    omega
  | importSpec spec => exact absurd h List.not_mem_nil
  | funcDecl function =>
    obtain ⟨body, hbody, rfl⟩ := List.mem_map.mp h
    obtain ⟨name, receiver, params, result, fbody, span⟩ := function
    obtain rfl : fbody = some body := Option.mem_toList.mp hbody
    obtain ⟨stmts, bodySpan⟩ := body
    simp only [block.sizeOf_spec, funcDecl.sizeOf_spec, FuncDecl.mk.sizeOf_spec,
      Option.some.sizeOf_spec, Body.mk.sizeOf_spec]
    omega
  | block body =>
    obtain ⟨one, hone, rfl⟩ := List.mem_map.mp h
    have := List.sizeOf_lt_of_mem hone
    simp only [stmt.sizeOf_spec, block.sizeOf_spec]
    omega
  | stmt one =>
    cases one with
    | block body =>
      obtain rfl := List.mem_singleton.mp h
      simp only [block.sizeOf_spec, stmt.sizeOf_spec, Stmt.block.sizeOf_spec]
      omega
    | ifThen condition body =>
      obtain rfl := List.mem_singleton.mp h
      simp only [block.sizeOf_spec, stmt.sizeOf_spec, Stmt.ifThen.sizeOf_spec]
      omega
    | assign | expr | return_ | defer | verbatim => exact absurd h List.not_mem_nil

/-- What holds of a node as soon as it holds of the nodes below it holds of all nodes. -/
theorem Event.induction {motive : Event → Prop}
    (step : ∀ node, (∀ child ∈ node.children, motive child) → motive node) (node : Event) :
    motive node :=
  step node fun child _ => induction step child
termination_by sizeOf node
decreasing_by exact sizeOf_lt_of_mem_children ‹_›

/-! ### What is seen from a node on -/

namespace Observer

variable (observer : Observer)

/-- What an observer sees from a node on: the node, then what is seen from each node
directly below it. -/
def sees (node : Event) : List Event :=
  observer.note node [] ++
    if observer.stops node.kind then []
    else node.children.attach.flatMap fun child => sees child.1
termination_by sizeOf node
decreasing_by exact Event.sizeOf_lt_of_mem_children child.2

theorem sees_eq (node : Event) :
    observer.sees node = observer.note node [] ++
      if observer.stops node.kind then [] else node.children.flatMap observer.sees := by
  rw [sees, List.flatMap_subtype (fun _ _ => rfl), List.unattach_attach]

theorem note_eq (node : Event) (seen : List Event) :
    observer.note node seen = seen ++ observer.note node [] := by
  unfold note
  split <;> simp

/-- What is written down at a node is what is seen from there on, if the walk below the
node writes down what is seen there. -/
theorem meet_eq {node : Event} {walk : List Event → List Event}
    (hwalk : ∀ seen, walk seen = seen ++ node.children.flatMap observer.sees)
    (seen : List Event) : observer.meet node walk seen = seen ++ observer.sees node := by
  rw [meet, sees_eq, note_eq, ← List.append_assoc]
  split
  · rw [List.append_nil]
  · rw [hwalk]

/-! ### A visit -/

mutual

theorem walkStmt_visitor : ∀ (stmt : Stmt) (seen : List Event),
    observer.visitor.walkStmt stmt seen =
      seen ++ (Event.stmt stmt).children.flatMap observer.sees
  | .block body, seen => by
    have hbody : observer.visitor.onBlock body (observer.visitor.walkBlock body) seen =
        seen ++ observer.sees (.block body) := observer.meet_eq (walkBlock_visitor body) seen
    simp [Visitor.walkStmt, hbody, Event.children]
  | .ifThen condition body, seen => by
    have hbody : observer.visitor.onBlock body (observer.visitor.walkBlock body) seen =
        seen ++ observer.sees (.block body) := observer.meet_eq (walkBlock_visitor body) seen
    simp [Visitor.walkStmt, hbody, Event.children]
  | .assign .., seen | .expr _, seen | .return_ _, seen | .defer .., seen | .verbatim _, seen =>
    (List.append_nil seen).symm

theorem walkBlock_visitor : ∀ (body : List Stmt) (seen : List Event),
    observer.visitor.walkBlock body seen =
      seen ++ (Event.block body).children.flatMap observer.sees
  | [], seen => (List.append_nil seen).symm
  | stmt :: rest, seen => by
    have hstmt : observer.visitor.onStmt stmt (observer.visitor.walkStmt stmt) seen =
        seen ++ observer.sees (.stmt stmt) := observer.meet_eq (walkStmt_visitor stmt) seen
    simp [Visitor.walkBlock, hstmt, walkBlock_visitor rest, Event.children]

end

theorem walkFuncDecl_visitor (decl : FuncDecl) (seen : List Event) :
    observer.visitor.walkFuncDecl decl seen =
      seen ++ (Event.funcDecl decl).children.flatMap observer.sees := by
  rw [Visitor.walkFuncDecl, Event.children]
  cases decl.body with
  | none => exact (List.append_nil seen).symm
  | some body =>
    show observer.meet (.block body.stmts) (observer.visitor.walkBlock body.stmts) seen = _
    rw [observer.meet_eq (observer.walkBlock_visitor body.stmts)]
    simp

theorem walkImportDecl_visitor (decl : ImportDecl) (seen : List Event) :
    observer.visitor.walkImportDecl decl seen =
      seen ++ (Event.importDecl decl).children.flatMap observer.sees := by
  have hspec : ∀ (spec : ImportSpec) (seen : List Event),
      observer.visitor.onImportSpec spec seen = seen ++ observer.sees (.importSpec spec) :=
    fun spec => observer.meet_eq fun seen => (List.append_nil seen).symm
  rw [Event.children, List.flatMap_map]
  simp only [Visitor.walkImportDecl, hspec, List.foldl_append_eq_append, List.flatMap_def]

theorem walkDecl_visitor (decl : Decl) (seen : List Event) :
    observer.visitor.walkDecl decl seen =
      seen ++ (Event.decl decl).children.flatMap observer.sees := by
  cases decl with
  | imports group =>
    show observer.meet (.importDecl group) (observer.visitor.walkImportDecl group) seen = _
    rw [observer.meet_eq (observer.walkImportDecl_visitor group)]
    simp [Event.children]
  | func function =>
    show observer.meet (.funcDecl function) (observer.visitor.walkFuncDecl function) seen = _
    rw [observer.meet_eq (observer.walkFuncDecl_visitor function)]
    simp [Event.children]
  | other span => exact (List.append_nil seen).symm

/-- **The events of a visit**, counted from the declarations down. -/
theorem events_eq (file : SourceFile) :
    events observer file =
      if observer.stops .file then []
      else (file.decls.map Event.decl).flatMap observer.sees := by
  have hdecl : ∀ (decl : Decl) (seen : List Event),
      observer.visitor.onDecl decl (observer.visitor.walkDecl decl) seen =
        seen ++ observer.sees (.decl decl) :=
    fun decl => observer.meet_eq (observer.walkDecl_visitor decl)
  rw [List.flatMap_map]
  show (if observer.stops .file then id else observer.visitor.walkFile file) [] = _
  split
  · rfl
  · simp only [Visitor.walkFile, hdecl, List.foldl_append_eq_append, List.flatMap_def,
      List.nil_append]

/-! ### An edit -/

/-- What is seen from a node on, without the imports. -/
def seesEditing (node : Event) : List Event :=
  (observer.sees node).filter (!·.isImport)

/-- What is written down at a node that is no import is what is seen from there on but
for the imports, if the walk below the node does so, and the node stays as it is. -/
theorem meetEditing_eq {α : Type} {event : Event} {node : α}
    {walk : List Event → α × List Event} (himport : event.isImport = false)
    (hwalk : ∀ seen, walk seen =
      (node, seen ++ event.children.flatMap observer.seesEditing))
    (seen : List Event) :
    observer.meetEditing event node walk seen = (node, seen ++ observer.seesEditing event) := by
  have hnote : (observer.note event []).filter (!·.isImport) = observer.note event [] := by
    unfold note
    split <;> simp [himport]
  rw [meetEditing, seesEditing, sees_eq, note_eq, List.filter_append, hnote,
    ← List.append_assoc]
  split
  · rw [List.filter_nil, List.append_nil]
  · rw [hwalk, List.filter_flatMap]
    rfl

mutual

theorem walkStmt_editor : ∀ (stmt : Stmt) (seen : List Event),
    observer.editor.walkStmt stmt seen =
      (stmt, seen ++ (Event.stmt stmt).children.flatMap observer.seesEditing)
  | .block body, seen => by
    have hbody : observer.editor.onBlock body (observer.editor.walkBlock body) seen =
        (body, seen ++ observer.seesEditing (.block body)) :=
      observer.meetEditing_eq rfl (walkBlock_editor body) seen
    simp [Editor.walkStmt, hbody, Event.children]
  | .ifThen condition body, seen => by
    have hbody : observer.editor.onBlock body (observer.editor.walkBlock body) seen =
        (body, seen ++ observer.seesEditing (.block body)) :=
      observer.meetEditing_eq rfl (walkBlock_editor body) seen
    simp [Editor.walkStmt, hbody, Event.children]
  | .assign .., seen | .expr _, seen | .return_ _, seen | .defer .., seen | .verbatim _, seen =>
    congrArg _ (List.append_nil seen).symm

theorem walkBlock_editor : ∀ (body : List Stmt) (seen : List Event),
    observer.editor.walkBlock body seen =
      (body, seen ++ (Event.block body).children.flatMap observer.seesEditing)
  | [], seen => congrArg _ (List.append_nil seen).symm
  | stmt :: rest, seen => by
    have hstmt : observer.editor.onStmt stmt (observer.editor.walkStmt stmt) seen =
        (stmt, seen ++ observer.seesEditing (.stmt stmt)) :=
      observer.meetEditing_eq rfl (walkStmt_editor stmt) seen
    simp [Editor.walkBlock, hstmt, walkBlock_editor rest, Event.children]

end

theorem walkFuncDecl_editor (decl : FuncDecl) (seen : List Event) :
    observer.editor.walkFuncDecl decl seen =
      (decl, seen ++ (Event.funcDecl decl).children.flatMap observer.seesEditing) := by
  obtain ⟨name, receiver, params, result, body, span⟩ := decl
  cases body with
  | none => exact congrArg _ (List.append_nil seen).symm
  | some body =>
    have hbody : observer.editor.onBlock body.stmts (observer.editor.walkBlock body.stmts) seen =
        (body.stmts, seen ++ observer.seesEditing (.block body.stmts)) :=
      observer.meetEditing_eq rfl (observer.walkBlock_editor body.stmts) seen
    simp [Editor.walkFuncDecl, hbody, Event.children]

/-- Below an import declaration there are imports only. -/
theorem seesEditing_importDecl (decl : ImportDecl) :
    observer.seesEditing (.importDecl decl) = [] := by
  have hspec : ∀ spec, observer.seesEditing (.importSpec spec) = [] := by
    intro spec
    rw [seesEditing, sees_eq, note]
    split <;> simp [Event.children, Event.isImport, Event.kind]
  have hnote : (observer.note (.importDecl decl) []).filter (!·.isImport) = [] := by
    rw [note]
    split <;> simp [Event.isImport, Event.kind]
  rw [seesEditing, sees_eq, List.filter_append, hnote, List.nil_append]
  split
  · rfl
  · rw [List.filter_flatMap, Event.children, List.flatMap_map]
    exact List.flatMap_eq_nil_iff.mpr fun spec _ => hspec spec

theorem walkDecl_editor (decl : Decl) (seen : List Event) :
    observer.editor.walkDecl decl seen =
      (decl, seen ++ (Event.decl decl).children.flatMap observer.seesEditing) := by
  cases decl with
  | imports group => simp [Editor.walkDecl, Event.children, seesEditing_importDecl]
  | func function =>
    have hfunction : observer.editor.onFuncDecl function observer.editor.walkFuncDecl seen =
        (function, seen ++ observer.seesEditing (.funcDecl function)) :=
      observer.meetEditing_eq rfl (observer.walkFuncDecl_editor function) seen
    simp [Editor.walkDecl, hfunction, Event.children]
  | other span => exact congrArg _ (List.append_nil seen).symm

theorem walkDecls_editor (decls : List Decl) (seen : List Event) :
    observer.editor.walkDecls decls seen =
      (decls, seen ++ (decls.map Event.decl).flatMap observer.seesEditing) := by
  induction decls generalizing seen with
  | nil => exact congrArg _ (List.append_nil seen).symm
  | cons decl rest ih =>
    have hdecl : observer.editor.onDecl decl observer.editor.walkDecl seen =
        (decl, seen ++ observer.seesEditing (.decl decl)) :=
      observer.meetEditing_eq rfl (observer.walkDecl_editor decl) seen
    simp [Editor.walkDecls, hdecl, ih]

/-- **The events of an edit** are those of a visit without the imports, and the file
stays as it is. -/
theorem editFile_editor (file : SourceFile) :
    observer.editor.editFile file [] =
      (file, (events observer file).filter (!·.isImport)) := by
  rw [events_eq]
  show (if observer.stops .file then (file, ·) else observer.editor.walkFile file) [] = _
  split
  · rfl
  · simp only [Editor.walkFile, walkDecls_editor, List.nil_append, List.filter_flatMap]
    rfl

/-! ### An observer that takes note of less -/

/-- The observer that goes where `observer` goes and takes note of everything. -/
def attentive : Observer :=
  { observer with records := fun _ => true }

/-- Taking note of some kinds of nodes only is keeping those of all that is met. -/
theorem sees_eq_filter (node : Event) :
    observer.sees node = (observer.attentive.sees node).filter (observer.records ·.kind) := by
  induction node using Event.induction with
  | step node ih =>
    have hnote : observer.note node [] =
        (observer.attentive.note node []).filter (observer.records ·.kind) := by
      simp only [note, attentive, if_true, List.nil_append]
      split <;> simp_all
    rw [sees_eq, sees_eq, List.filter_append, hnote]
    show _ ++ (if observer.stops node.kind then [] else _) =
      _ ++ List.filter _ (if observer.stops node.kind then [] else _)
    split
    · rfl
    · rw [List.filter_flatMap, List.flatMap_def, List.flatMap_def, List.map_congr_left ih]

end Observer

/-! ### Preorder -/

/-- The node at an address, counted from a node: an address tells, from the top, the
place of each node on the way among its neighbours. -/
def Event.at? (node : Event) : List Nat → Option Event
  | [] => some node
  | place :: address => node.children[place]?.bind fun child => child.at? address

/-- The node at an address, counted from a row of neighbours. -/
def rowAt? (nodes : List Event) : List Nat → Option Event
  | [] => none
  | place :: address => nodes[place]?.bind fun node => node.at? address

/-- **The events are the nodes that have an address, each once and in preorder**: the
addresses go upwards as words of a dictionary do, where a word comes before all that
begin with it. -/
def IsPreorder (at? : List Nat → Option Event) (events : List Event) : Prop :=
  ∃ addresses : List (List Nat), addresses.Pairwise (· < ·) ∧
    (∀ address, address ∈ addresses ↔ (at? address).isSome) ∧
      addresses.map at? = events.map some

theorem isPreorder_rowAt?_nil : IsPreorder (rowAt? []) [] := by
  refine ⟨[], List.Pairwise.nil, fun address => ?_, rfl⟩
  cases address <;> simp [rowAt?]

/-- An address counted from a row names a neighbour. -/
theorem exists_cons_of_rowAt? {nodes : List Event} {address : List Nat}
    (h : (rowAt? nodes address).isSome) : ∃ place rest, address = place :: rest := by
  cases address with
  | nil => exact absurd h (by simp [rowAt?])
  | cons place rest => exact ⟨place, rest, rfl⟩

/-- A node comes before what is below it. -/
theorem IsPreorder.below {node : Event} {below : List Event}
    (h : IsPreorder (rowAt? node.children) below) : IsPreorder node.at? (node :: below) := by
  obtain ⟨addresses, hup, hmem, hmap⟩ := h
  have hat : ∀ address ∈ addresses, node.at? address = rowAt? node.children address := by
    intro address hin
    obtain ⟨place, rest, rfl⟩ := exists_cons_of_rowAt? ((hmem address).mp hin)
    rfl
  refine ⟨[] :: addresses, List.pairwise_cons.mpr ⟨fun address hin => ?_, hup⟩,
    fun address => ?_, ?_⟩
  · obtain ⟨place, rest, rfl⟩ := exists_cons_of_rowAt? ((hmem address).mp hin)
    exact List.nil_lt_cons place rest
  · cases address with
    | nil => simp [Event.at?]
    | cons place rest =>
      rw [List.mem_cons, or_iff_right (List.cons_ne_nil place rest)]
      exact hmem (place :: rest)
  · rw [List.map_cons, List.map_cons, List.map_congr_left hat, hmap]
    rfl

/-- With a node in front, the first place of every address of the others goes up by one;
so all of them come behind those of the node. -/
theorem pairwise_row {inside beside : List (List Nat)} (hinside : inside.Pairwise (· < ·))
    (hbeside : beside.Pairwise (· < ·))
    (hcons : ∀ address ∈ beside, ∃ place rest, address = place :: rest) :
    (inside.map (0 :: ·) ++ beside.map (List.modifyHead (· + 1))).Pairwise (· < ·) := by
  refine List.pairwise_append.mpr ⟨?_, ?_, ?_⟩
  · exact hinside.map (0 :: ·) fun a b h => List.cons_lt_cons_iff.mpr (.inr ⟨rfl, h⟩)
  · refine List.pairwise_map.mpr (hbeside.imp_of_mem fun ha hb h => ?_)
    obtain ⟨p, a, rfl⟩ := hcons _ ha
    obtain ⟨q, b, rfl⟩ := hcons _ hb
    exact List.cons_lt_cons_iff.mpr <| (List.cons_lt_cons_iff.mp h).imp Nat.succ_lt_succ
      fun h => ⟨congrArg (· + 1) h.1, h.2⟩
  · intro a ha b hb
    obtain ⟨a, -, rfl⟩ := List.mem_map.mp ha
    obtain ⟨b, hin, rfl⟩ := List.mem_map.mp hb
    obtain ⟨q, b, rfl⟩ := hcons b hin
    exact List.cons_lt_cons_iff.mpr (.inl (Nat.succ_pos q))

/-- A node and what is below it come before the neighbours that follow. -/
theorem IsPreorder.cons {node : Event} {rest first others : List Event}
    (hnode : IsPreorder node.at? first) (hrest : IsPreorder (rowAt? rest) others) :
    IsPreorder (rowAt? (node :: rest)) (first ++ others) := by
  obtain ⟨inside, hinside, hin, hfirst⟩ := hnode
  obtain ⟨beside, hbeside, hbe, hothers⟩ := hrest
  have hcons : ∀ address ∈ beside, ∃ place rest, address = place :: rest :=
    fun address hmem => exists_cons_of_rowAt? ((hbe address).mp hmem)
  have hshift : ∀ b ∈ beside,
      rowAt? (node :: rest) (List.modifyHead (· + 1) b) = rowAt? rest b := by
    intro b hb
    obtain ⟨q, b, rfl⟩ := hcons b hb
    rfl
  refine ⟨_, pairwise_row hinside hbeside hcons, fun address => ?_, ?_⟩
  · rw [List.mem_append, List.mem_map, List.mem_map]
    constructor
    · rintro (⟨a, ha, rfl⟩ | ⟨b, hb, rfl⟩)
      · exact (hin a).mp ha
      · rw [hshift b hb]
        exact (hbe b).mp hb
    · intro h
      obtain ⟨place, address, rfl⟩ := exists_cons_of_rowAt? h
      cases place with
      | zero => exact .inl ⟨address, (hin address).mpr h, rfl⟩
      | succ place => exact .inr ⟨place :: address, (hbe (place :: address)).mpr h, rfl⟩
  · rw [List.map_append, List.map_append, List.map_map, List.map_map, ← hfirst, ← hothers]
    exact congrArg _ (List.map_congr_left hshift)

/-- A row is listed by listing one of its nodes after the other. -/
theorem isPreorder_row {nodes : List Event} {listing : Event → List Event}
    (h : ∀ node ∈ nodes, IsPreorder node.at? (listing node)) :
    IsPreorder (rowAt? nodes) (nodes.flatMap listing) := by
  induction nodes with
  | nil => exact isPreorder_rowAt?_nil
  | cons node rest ih =>
    exact (h node List.mem_cons_self).cons
      (ih fun other hmem => h other (List.mem_cons_of_mem node hmem))

/-- An observer that takes note of everything and stops nowhere sees all that is below a
node, in preorder. -/
theorem isPreorder_sees {observer : Observer} (hrecords : ∀ kind, observer.records kind = true)
    (hstops : ∀ kind, observer.stops kind = false) (node : Event) :
    IsPreorder node.at? (observer.sees node) := by
  induction node using Event.induction with
  | step node ih =>
    have hsees : observer.sees node = node :: node.children.flatMap observer.sees := by
      rw [Observer.sees_eq, Observer.note, hrecords, hstops]
      rfl
    rw [hsees]
    exact (isPreorder_row ih).below

/-! ### What the walks of a file have to do with each other -/

/-- Saying nothing but at imported packages and statements is taking note of these only. -/
theorem visitor_leaves : Observer.leaves.visitor = Visitor.leaves := rfl

/-- **The two walks of a file agree.** Whatever is taken note of and wherever an observer
does not go on, an edit leaves the file as it is and has the events of a visit, less those
of the imports. A visit that takes note of everything and goes everywhere lists every node
below the file once, in preorder; one that says something at imported packages and
statements only has the events of that listing which are about these. -/
theorem visit_and_edit_agree (file : SourceFile) :
    (∀ observer : Observer,
      observer.editor.editFile file [] =
        (file, (observer.visitor.visitFile file []).filter (!·.isImport))) ∧
    IsPreorder (rowAt? (file.decls.map Event.decl)) (events (.stoppingAt []) file) ∧
    Visitor.leaves.visitFile file [] =
      (events (.stoppingAt []) file).filter fun node =>
        node.kind == .importSpec || node.kind == .stmt := by
  refine ⟨fun observer => observer.editFile_editor file, ?_, ?_⟩
  · rw [Observer.events_eq]
    exact isPreorder_row fun node _ => isPreorder_sees (fun _ => rfl) (fun _ => rfl) node
  · rw [← visitor_leaves]
    show events Observer.leaves file = _
    rw [Observer.events_eq, Observer.events_eq]
    show List.flatMap _ _ = List.filter _ (List.flatMap _ _)
    rw [List.filter_flatMap, List.flatMap_congr fun node _ => Observer.leaves.sees_eq_filter node]
    rfl

end EntryProbe.Go
