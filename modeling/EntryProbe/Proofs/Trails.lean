import EntryProbe.Proofs.Packages

/-!
# What a walk looks at

Where a path leads depends on a few locations only: those that the walk takes its steps
from (`EntryProbe.FileSystem.passes`), and the entries of these that it takes a step to. So
a change in another place is not seen, whether the path leads somewhere or nowhere; and the
content of a file is never seen by a walk at all.

* `EntryProbe.FileSystem.AlikeAt` – two file systems that a walk cannot tell apart at a
  location;
* `EntryProbe.FileSystem.resolve_eq_of_alike` – a path leads to the same location, or
  nowhere for the same reason;
* `EntryProbe.FileSystem.Adds.readText_eq` – what is added to a directory that the path does
  not go through does not matter;
* `EntryProbe.FileSystem.SameShape.resolve_eq` – neither do the contents of files.
-/

namespace EntryProbe

/-- What a walk sees of something: of a file, only that it is one. -/
def Node.shape : Node → Node
  | .file _ => .file .empty
  | node => node

namespace FileSystem

/-- A walk cannot tell two file systems apart at a location. -/
def AlikeAt (fs other : FileSystem) (place : Location) : Prop :=
  (fs.get? place).map Node.shape = (other.get? place).map Node.shape

theorem alikeAt_of_eq {fs other : FileSystem} {place : Location}
    (h : other.get? place = fs.get? place) : fs.AlikeAt other place :=
  congrArg (Option.map Node.shape) h.symm

/-- What can stand at a location in two file systems that are alike there. -/
theorem AlikeAt.cases {fs other : FileSystem} {place : Location} (h : fs.AlikeAt other place) :
    other.get? place = fs.get? place ∨
      ∃ content content', fs.get? place = some (.file content) ∧
        other.get? place = some (.file content') := by
  unfold AlikeAt at h
  rcases hnode : fs.get? place with _ | _ | _ | _ <;>
    rcases hother : other.get? place with _ | _ | _ | _ <;> simp_all [Node.shape]

/-! ### Trails -/

/-- The locations that a walk takes its steps from. At a link, `jump` goes on. -/
def trail (fs : FileSystem) (jump : Location → List Step → List Location) :
    Location → List Step → List Location
  | _, [] => []
  | place, step :: rest =>
    place ::
      match fs.get? place with
      | some .dir =>
        match step with
        | .here => trail fs jump place rest
        | .up => trail fs jump place.dropLast rest
        | .name text =>
          match fs.get? (place ++ [text]) with
          | none => []
          | some (.link target) =>
            if target.text.isEmpty then [] else jump (target.start place) (target.steps ++ rest)
          | some _ => trail fs jump (place ++ [text]) rest
      | _ => []

/-- The locations that a limited walk takes its steps from. -/
def trailWithin (fs : FileSystem) : Nat → Location → List Step → List Location
  | 0 => fs.trail fun _ _ => []
  | links + 1 => fs.trail (fs.trailWithin links)

/-- **The locations that a path goes through**, links followed. The one that it leads to is
not among them, unless the path goes on from there. -/
def passes (fs : FileSystem) (cwd : Location) (path : Path) : List Location :=
  if path.text.isEmpty then [] else fs.trailWithin linkLimit (path.start cwd) path.steps

/-- A walk cannot tell two file systems apart at a location and at its entries. -/
def AlikeBelow (fs other : FileSystem) (place : Location) : Prop :=
  fs.AlikeAt other place ∧ ∀ text, fs.AlikeAt other (place ++ [text])

section

variable {fs other : FileSystem} {place : Location} {steps : List Step}

/-- **A walk depends on its trail only.** -/
theorem walk_eq_of_alike {jump jump' : Location → List Step → Except IoError Location}
    {onward : Location → List Step → List Location}
    (hjump : ∀ place steps, (∀ spot ∈ onward place steps, fs.AlikeBelow other spot) →
      jump' place steps = jump place steps)
    (h : ∀ spot ∈ fs.trail onward place steps, fs.AlikeBelow other spot) :
    other.walk jump' place steps = fs.walk jump place steps := by
  induction steps generalizing place with
  | nil => rfl
  | cons step rest ih =>
    unfold trail at h
    rw [List.forall_mem_cons] at h
    obtain ⟨⟨hplace, hentries⟩, h⟩ := h
    unfold walk
    rcases hplace.cases with heq | ⟨content, content', hfile, hfile'⟩
    · rw [heq]
      rcases hnode : fs.get? place with _ | _ | _ | _
      · rfl
      · rfl
      · rw [hnode] at h
        rcases step with _ | _ | text
        · exact ih h
        · exact ih h
        · -- the entry is the same one, or it is a file in both file systems
          rcases (hentries text).cases with heq | ⟨content, content', hfile, hfile'⟩
          · simp only [heq]
            rcases hentry : fs.get? (place ++ [text]) with _ | content | _ | target <;>
              simp only [hentry] at h ⊢
            · exact ih h
            · exact ih h
            · split at h
              · next htext => simp [htext]
              · next htext => simpa [htext] using hjump _ _ h
          · simp only [hfile] at h
            simp only [hfile, hfile']
            exact ih h
      · rfl
    · rw [hfile, hfile']

theorem walkWithin_eq_of_alike {limit : Nat}
    (h : ∀ spot ∈ fs.trailWithin limit place steps, fs.AlikeBelow other spot) :
    other.walkWithin limit place steps = fs.walkWithin limit place steps := by
  induction limit generalizing place steps with
  | zero => exact walk_eq_of_alike (fun _ _ _ => rfl) h
  | succ limit ih => exact walk_eq_of_alike (fun _ _ => ih) h

variable {cwd : Location} {path : Path}

/-- **Where a path leads depends on what it goes through only**, and so does the reason for
which it leads nowhere. -/
theorem resolve_eq_of_alike (h : ∀ spot ∈ fs.passes cwd path, fs.AlikeBelow other spot) :
    other.resolve cwd path = fs.resolve cwd path := by
  unfold passes at h
  unfold resolve
  split
  · rfl
  · next htext =>
    rw [if_neg htext] at h
    exact walkWithin_eq_of_alike h

/-- What is read is the same if the path leads to the same place and the same stands there. -/
theorem readText_eq_of_resolve_eq (hresolve : other.resolve cwd path = fs.resolve cwd path)
    (hget : ∀ place, fs.resolve cwd path = .ok place → other.get? place = fs.get? place) :
    other.readText cwd path = fs.readText cwd path := by
  have hstat : other.stat cwd path = fs.stat cwd path := by
    rw [stat, stat, hresolve]
    rcases hplace : fs.resolve cwd path with cause | place
    · rfl
    · simp only [bind, Except.bind, hget place hplace]
  rw [readText, readText, readBytes, readBytes, hstat]

/-! ### What stands on a trail -/

theorem IsTree.occupied_dropLast (htree : fs.IsTree) (h : fs.get? place = some .dir) :
    fs.get? place.dropLast = some .dir :=
  htree.dir_of_prefix h _ (List.dropLast_prefix place)

theorem start_dir {target : Path} (h : fs.get? place = some .dir) :
    fs.get? (target.start place) = some .dir := by
  unfold Path.start
  split
  · exact fs.get?_nil
  · exact h

/-- Something stands at each location of a trail. -/
theorem occupied_of_mem_trail {onward : Location → List Step → List Location}
    (htree : fs.IsTree)
    (hjump : ∀ place steps, fs.get? place = some .dir →
      ∀ spot ∈ onward place steps, fs.occupied spot = true)
    (h : fs.occupied place = true) :
    ∀ spot ∈ fs.trail onward place steps, fs.occupied spot = true := by
  induction steps generalizing place with
  | nil => simp [trail]
  | cons step rest ih =>
    unfold trail
    rw [List.forall_mem_cons]
    refine ⟨h, ?_⟩
    rcases hnode : fs.get? place with _ | _ | _ | _
    · simp
    · simp
    · rcases step with _ | _ | text
      · exact ih h
      · exact ih (by simp [occupied, htree.occupied_dropLast hnode])
      · rcases hentry : fs.get? (place ++ [text]) with _ | content | _ | target <;>
          simp only [hentry]
        · simp
        · exact ih (by simp [occupied, hentry])
        · exact ih (by simp [occupied, hentry])
        · split
          · simp
          · exact hjump _ _ (start_dir hnode)
    · simp

theorem occupied_of_mem_trailWithin {limit : Nat} (htree : fs.IsTree)
    (h : fs.occupied place = true) :
    ∀ spot ∈ fs.trailWithin limit place steps, fs.occupied spot = true := by
  induction limit generalizing place steps with
  | zero => exact occupied_of_mem_trail htree (fun _ _ _ => nofun) h
  | succ limit ih =>
    exact occupied_of_mem_trail htree (fun _ _ hdir => ih (by simp [occupied, hdir])) h

theorem occupied_of_mem_passes (htree : fs.IsTree) (hcwd : fs.get? cwd = some .dir) :
    ∀ spot ∈ fs.passes cwd path, fs.occupied spot = true := by
  unfold passes
  split
  · exact nofun
  · exact occupied_of_mem_trailWithin htree (by simp [occupied, start_dir hcwd])

/-- Something stands where a walk leads. -/
theorem Walks.occupied {links : Nat} {last : Location} (htree : fs.IsTree)
    (h : fs.Walks links place steps last) (hplace : fs.occupied place = true) :
    fs.occupied last = true := by
  induction h with
  | done => exact hplace
  | here _ _ ih => exact ih hplace
  | up hdir _ ih => exact ih (by simp [FileSystem.occupied, htree.occupied_dropLast hdir])
  | enter _ hnode _ _ ih => exact ih (by simp [FileSystem.occupied, hnode])
  | follow hdir _ _ _ ih => exact ih (by simp [FileSystem.occupied, start_dir hdir])

theorem occupied_of_resolve (htree : fs.IsTree) (hcwd : fs.get? cwd = some .dir)
    (h : fs.resolve cwd path = .ok place) : fs.occupied place = true := by
  obtain ⟨links, -, -, hwalk⟩ := resolve_eq_ok.mp h
  exact hwalk.occupied htree (by simp [occupied, start_dir hcwd])

/-! ### Changes that a path does not see -/

variable {entries : List (String × Node)}

/-- What stood already, and is not below the directory, is as it was. -/
theorem Adds.get?_of_occupied (hadds : Adds fs other place entries) {spot : Location}
    (h : fs.occupied spot = true) : other.get? spot = fs.get? spot := by
  refine hadds.elsewhere spot ?_
  rintro entry hentry rfl
  simp [occupied, hadds.fresh entry hentry] at h

/-- **What is added to a directory that a path does not go through** does not change where it
leads. -/
theorem Adds.resolve_eq (hadds : Adds fs other place entries) (htree : fs.IsTree)
    (hcwd : fs.get? cwd = some .dir) (hpath : place ∉ fs.passes cwd path) :
    other.resolve cwd path = fs.resolve cwd path := by
  refine resolve_eq_of_alike fun spot hmem => ⟨?_, fun text => ?_⟩
  · exact alikeAt_of_eq (hadds.get?_of_occupied (occupied_of_mem_passes htree hcwd spot hmem))
  · refine alikeAt_of_eq (hadds.elsewhere _ ?_)
    rintro entry - hsame
    obtain ⟨rfl, -⟩ := List.append_inj' hsame rfl
    exact hpath hmem

theorem Adds.readText_eq (hadds : Adds fs other place entries) (htree : fs.IsTree)
    (hcwd : fs.get? cwd = some .dir) (hpath : place ∉ fs.passes cwd path) :
    other.readText cwd path = fs.readText cwd path :=
  readText_eq_of_resolve_eq (hadds.resolve_eq htree hcwd hpath) fun _ hplace =>
    hadds.get?_of_occupied (occupied_of_resolve htree hcwd hplace)

/-- **The same things stand everywhere**, and only the contents of files can differ. -/
def SameShape (fs other : FileSystem) : Prop :=
  ∀ place, fs.AlikeAt other place

theorem SameShape.refl (fs : FileSystem) : fs.SameShape fs :=
  fun _ => rfl

theorem SameShape.trans {third : FileSystem} (h : fs.SameShape other)
    (h' : other.SameShape third) : fs.SameShape third :=
  fun place => (h place).trans (h' place)

theorem SameShape.symm (h : fs.SameShape other) : other.SameShape fs :=
  fun place => (h place).symm

/-- **The contents of files do not change where a path leads.** -/
theorem SameShape.resolve_eq (h : fs.SameShape other) (cwd : Location) (path : Path) :
    other.resolve cwd path = fs.resolve cwd path :=
  resolve_eq_of_alike fun spot _ => ⟨h spot, fun _ => h _⟩

/-- A file stands where a file stood. -/
theorem SameShape.exists_file (h : fs.SameShape other) {content : ByteArray}
    (hfile : fs.get? place = some (.file content)) :
    ∃ content', other.get? place = some (.file content') := by
  rcases (h place).cases with heq | ⟨-, content', -, hfile'⟩
  · exact ⟨content, heq.trans hfile⟩
  · exact ⟨content', hfile'⟩

/-- Writing to a file changes its content. -/
theorem ChangedAt.sameShape {content content' : ByteArray}
    (h : ChangedAt fs other place (.file content'))
    (hfile : fs.get? place = some (.file content)) : fs.SameShape other := by
  intro spot
  by_cases hspot : spot = place
  · subst hspot
    rw [AlikeAt, hfile, h.here]
    rfl
  · exact alikeAt_of_eq (h.elsewhere spot hspot)

end

end FileSystem

end EntryProbe
