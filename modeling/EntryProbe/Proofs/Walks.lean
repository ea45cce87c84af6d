import EntryProbe.Proofs.PathSteps
import EntryProbe.Proofs.Reading

/-!
# Walks through a file system

A walk gives up in many ways and carries the number of links that it may still follow.
The relation `EntryProbe.FileSystem.Walks` says where a walk leads when it does not give
up, and how many links it has followed on the way; a limit on the links is then a
statement about that number (`EntryProbe.FileSystem.walkWithin_eq_ok`).

Walks can be put one after the other, and the numbers of their links add up
(`EntryProbe.FileSystem.Walks.append`). A walk meets only locations where something
stands, so that it is not disturbed by what is added elsewhere
(`EntryProbe.FileSystem.Walks.mono`). On the way to a directory the steps that stay say nothing
(`EntryProbe.FileSystem.walks_filter_here`).

A name below a directory is one more step, so that a new entry of a directory goes to the
location of that name and to no other one (`EntryProbe.FileSystem.entryOf_join`,
`EntryProbe.FileSystem.newEntry_eq`, `EntryProbe.FileSystem.newLinkEntry_eq`). A link can be had
where a file can be had, and nowhere else (`EntryProbe.FileSystem.newLinkEntry_eq_newEntry`).
-/

namespace EntryProbe

namespace FileSystem

/-- What stands in one file system also stands in the other one. -/
def Extends (before after : FileSystem) : Prop :=
  ∀ place node, before.get? place = some node → after.get? place = some node

theorem Extends.trans {first second third : FileSystem} (h : first.Extends second)
    (h' : second.Extends third) : first.Extends third :=
  fun place node hnode => h' place node (h place node hnode)

/-- **A walk**: from one location the steps lead to another one, and `links` links are
followed on the way. -/
inductive Walks (fs : FileSystem) : (links : Nat) → Location → List Step → Location → Prop
  /-- There are no steps left. -/
  | done {place : Location} : Walks fs 0 place [] place
  /-- Stay in a directory. -/
  | here {links : Nat} {place last : Location} {rest : List Step} :
      fs.get? place = some .dir → Walks fs links place rest last →
      Walks fs links place (.here :: rest) last
  /-- Go to the parent directory. -/
  | up {links : Nat} {place last : Location} {rest : List Step} :
      fs.get? place = some .dir → Walks fs links place.dropLast rest last →
      Walks fs links place (.up :: rest) last
  /-- Go to an entry that is not a link. -/
  | enter {links : Nat} {place last : Location} {rest : List Step} {text : String} {node : Node} :
      fs.get? place = some .dir → fs.get? (place ++ [text]) = some node →
      (∀ target, node ≠ .link target) → Walks fs links (place ++ [text]) rest last →
      Walks fs links place (.name text :: rest) last
  /-- Follow a link. -/
  | follow {links : Nat} {place last : Location} {rest : List Step} {text : String}
      {target : Path} :
      fs.get? place = some .dir → fs.get? (place ++ [text]) = some (.link target) →
      target.text.isEmpty = false →
      Walks fs links (target.start place) (target.steps ++ rest) last →
      Walks fs (links + 1) place (.name text :: rest) last

section

variable {fs after : FileSystem} {links links' limit : Nat} {place mid last : Location}
  {steps steps' : List Step}

/-- **A walk is not disturbed by what is added.** -/
theorem Walks.mono (h : fs.Walks links place steps last) (hext : fs.Extends after) :
    after.Walks links place steps last := by
  induction h with
  | done => exact .done
  | here hdir _ ih => exact .here (hext _ _ hdir) ih
  | up hdir _ ih => exact .up (hext _ _ hdir) ih
  | enter hdir hnode hlink _ ih => exact .enter (hext _ _ hdir) (hext _ _ hnode) hlink ih
  | follow hdir hnode htext _ ih => exact .follow (hext _ _ hdir) (hext _ _ hnode) htext ih

/-- **Walks one after the other.** -/
theorem Walks.append (h : fs.Walks links place steps mid) (h' : fs.Walks links' mid steps' last) :
    fs.Walks (links + links') place (steps ++ steps') last := by
  induction h with
  | done => simpa using h'
  | here hdir _ ih => exact .here hdir (ih h')
  | up hdir _ ih => exact .up hdir (ih h')
  | enter hdir hnode hlink _ ih => exact .enter hdir hnode hlink (ih h')
  | follow hdir hnode htext _ ih =>
    rw [Nat.add_right_comm]
    exact .follow hdir hnode htext (by simpa using ih h')

/-- A walk stops after each of its steps. -/
theorem Walks.exists_mid (h : fs.Walks links place (steps ++ steps') last) :
    ∃ first second mid, links = first + second ∧ fs.Walks first place steps mid ∧
      fs.Walks second mid steps' last := by
  generalize hall : steps ++ steps' = all at h
  -- the cut is in front of the first step or behind it; a link that is followed puts the
  -- steps of its target in front of the cut
  induction h generalizing steps with
  | done =>
    obtain ⟨rfl, rfl⟩ := List.append_eq_nil_iff.mp hall
    exact ⟨0, 0, _, rfl, .done, .done⟩
  | @here links place last rest hdir hrest ih =>
    rcases List.append_eq_cons_iff.mp hall with ⟨rfl, rfl⟩ | ⟨steps, rfl, rfl⟩
    · exact ⟨0, links, place, (Nat.zero_add _).symm, .done, .here hdir hrest⟩
    · obtain ⟨first, second, mid, rfl, hfirst, hsecond⟩ := ih rfl
      exact ⟨first, second, mid, rfl, .here hdir hfirst, hsecond⟩
  | @up links place last rest hdir hrest ih =>
    rcases List.append_eq_cons_iff.mp hall with ⟨rfl, rfl⟩ | ⟨steps, rfl, rfl⟩
    · exact ⟨0, links, place, (Nat.zero_add _).symm, .done, .up hdir hrest⟩
    · obtain ⟨first, second, mid, rfl, hfirst, hsecond⟩ := ih rfl
      exact ⟨first, second, mid, rfl, .up hdir hfirst, hsecond⟩
  | @enter links place last rest text node hdir hnode hlink hrest ih =>
    rcases List.append_eq_cons_iff.mp hall with ⟨rfl, rfl⟩ | ⟨steps, rfl, rfl⟩
    · exact ⟨0, links, place, (Nat.zero_add _).symm, .done, .enter hdir hnode hlink hrest⟩
    · obtain ⟨first, second, mid, rfl, hfirst, hsecond⟩ := ih rfl
      exact ⟨first, second, mid, rfl, .enter hdir hnode hlink hfirst, hsecond⟩
  | @follow links place last rest text target hdir hnode htext hrest ih =>
    rcases List.append_eq_cons_iff.mp hall with ⟨rfl, rfl⟩ | ⟨steps, rfl, rfl⟩
    · exact ⟨0, _, place, (Nat.zero_add _).symm, .done, .follow hdir hnode htext hrest⟩
    · obtain ⟨first, second, mid, rfl, hfirst, hsecond⟩ := ih (List.append_assoc ..)
      refine ⟨first + 1, second, mid, ?_, .follow hdir hnode htext hfirst, hsecond⟩
      rw [Nat.add_right_comm]

/-- A walk leads to one place, and follows one number of links. -/
theorem Walks.unique {last' : Location} (h : fs.Walks links place steps last)
    (h' : fs.Walks links' place steps last') : links = links' ∧ last = last' := by
  induction h generalizing links' with
  | done =>
    cases h'
    exact ⟨rfl, rfl⟩
  | here _ _ ih =>
    cases h' with
    | here _ h' => exact ih h'
  | up _ _ ih =>
    cases h' with
    | up _ h' => exact ih h'
  | enter _ hnode hlink _ ih =>
    cases h' with
    | enter _ _ _ h' => exact ih h'
    | follow _ hnode' _ _ =>
      rw [hnode] at hnode'
      exact absurd (Option.some.inj hnode') (hlink _)
  | follow _ hnode _ _ ih =>
    cases h' with
    | enter _ hnode' hlink' _ =>
      rw [hnode] at hnode'
      exact absurd (Option.some.inj hnode').symm (hlink' _)
    | follow _ hnode' _ h' =>
      rw [hnode] at hnode'
      cases hnode'
      obtain ⟨rfl, rfl⟩ := ih h'
      exact ⟨rfl, rfl⟩

/-- A step that stays asks for a directory, and does nothing else. -/
theorem walks_append_here :
    fs.Walks links place (steps ++ [.here]) last ↔
      fs.Walks links place steps last ∧ fs.get? last = some .dir := by
  constructor
  · intro h
    obtain ⟨first, second, mid, rfl, hfirst, hsecond⟩ := h.exists_mid
    cases hsecond with
    | here hdir hdone =>
      cases hdone
      exact ⟨hfirst, hdir⟩
  · rintro ⟨h, hdir⟩
    exact h.append (.here hdir .done)

/-- **Steps that stay can be left out.** -/
theorem Walks.filter_here (h : fs.Walks links place steps last) :
    fs.Walks links place (steps.filter (· != .here)) last := by
  induction steps generalizing links place with
  | nil => exact h
  | cons step steps ih =>
    obtain ⟨first, second, mid, rfl, hstep, hrest⟩ := @exists_mid _ _ _ _ [step] _ h
    by_cases hhere : step = .here
    · subst hhere
      cases hstep with
      | here _ hdone =>
        cases hdone
        rw [Nat.zero_add]
        exact ih hrest
    · rw [List.filter_cons_of_pos (by simpa using hhere)]
      exact hstep.append (ih hrest)

/-- A walk that takes a step starts in a directory. -/
theorem Walks.dir_of_ne_nil (h : fs.Walks links place steps last) (hne : steps ≠ []) :
    fs.get? place = some .dir := by
  cases h with
  | done => exact absurd rfl hne
  | here hdir _ => exact hdir
  | up hdir _ => exact hdir
  | enter hdir _ _ _ => exact hdir
  | follow hdir _ _ _ => exact hdir

/-- A walk to a directory starts in a directory. -/
theorem Walks.dir_start (h : fs.Walks links place steps last) (hlast : fs.get? last = some .dir) :
    fs.get? place = some .dir := by
  by_cases hnil : steps = []
  · subst hnil
    cases h
    exact hlast
  · exact h.dir_of_ne_nil hnil

/-- **Steps that stay say nothing on the way to a directory**: they can be left out, and put in
again. -/
theorem walks_filter_here (hlast : fs.get? last = some .dir) :
    fs.Walks links place (steps.filter (· != .here)) last ↔ fs.Walks links place steps last := by
  refine ⟨fun h => ?_, Walks.filter_here⟩
  induction steps generalizing links place with
  | nil => exact h
  | cons step steps ih =>
    by_cases hhere : step = .here
    · subst hhere
      have hrest : fs.Walks links place steps last := ih h
      exact .here (hrest.dir_start hlast) hrest
    · rw [List.filter_cons_of_pos (by simpa using hhere)] at h
      obtain ⟨first, second, mid, rfl, hstep, hrest⟩ := @Walks.exists_mid _ _ _ _ [step] _ h
      exact hstep.append (ih hrest)

/-- A link to the directory that it is in can be followed again and again. -/
theorem Walks.turns {name : String} (hdir : fs.get? place = some .dir)
    (hlink : fs.get? (place ++ [name]) = some (.link ⟨"."⟩)) (h : fs.Walks links place steps last)
    (turns : Nat) :
    fs.Walks (links + turns) place (List.replicate turns (.name name) ++ steps) last := by
  induction turns with
  | zero => simpa using h
  | succ turns ih =>
    rw [List.replicate_succ, List.cons_append]
    exact .follow hdir hlink (by decide) (.here hdir ih)

/-- The names of directories lead down to the last one of them. -/
theorem walks_names {names : List String}
    (h : ∀ front, front <+: names → fs.get? (place ++ front) = some .dir) :
    fs.Walks 0 place (names.map .name) (place ++ names) := by
  induction names generalizing place with
  | nil => simpa using Walks.done
  | cons name names ih =>
    have hplace : fs.get? place = some .dir := by simpa using h [] (List.nil_prefix)
    have hname : fs.get? (place ++ [name]) = some .dir := h [name] (by simp)
    have hrest : fs.Walks 0 (place ++ [name]) (names.map .name) (place ++ [name] ++ names) := by
      refine ih fun front hfront => ?_
      rw [List.append_assoc]
      exact h (name :: front) (by simpa using hfront)
    rw [List.append_assoc] at hrest
    exact .enter hplace hname nofun hrest

/-! ### The limit on the links -/

variable {jump : Location → List Step → Except IoError Location}

theorem exists_walks_of_walk
    (hjump : ∀ place steps, jump place steps = .ok last →
      ∃ links < limit, fs.Walks links place steps last)
    (h : fs.walk jump place steps = .ok last) :
    ∃ links ≤ limit, fs.Walks links place steps last := by
  induction steps generalizing place with
  | nil =>
    cases h
    exact ⟨0, Nat.zero_le _, .done⟩
  | cons step rest ih =>
    rcases hdir : fs.get? place with _ | content | _ | target <;>
      simp only [walk, hdir, reduceCtorEq] at h
    cases step with
    | here =>
      obtain ⟨links, hle, hrest⟩ := ih h
      exact ⟨links, hle, .here hdir hrest⟩
    | up =>
      obtain ⟨links, hle, hrest⟩ := ih h
      exact ⟨links, hle, .up hdir hrest⟩
    | name text =>
      rcases hnode : fs.get? (place ++ [text]) with _ | content | _ | target <;>
        simp only [hnode, reduceCtorEq] at h
      · obtain ⟨links, hle, hrest⟩ := ih h
        exact ⟨links, hle, .enter hdir hnode nofun hrest⟩
      · obtain ⟨links, hle, hrest⟩ := ih h
        exact ⟨links, hle, .enter hdir hnode nofun hrest⟩
      · split at h
        · cases h
        · next htext =>
          -- the jump is one link, and what it leads to has one less
          obtain ⟨links, hlt, hrest⟩ := hjump _ _ h
          exact ⟨links + 1, hlt, .follow hdir hnode (by simpa using htext) hrest⟩

theorem Walks.walk_eq (h : fs.Walks links place steps last)
    (hjump : ∀ links' place steps, links' < links → fs.Walks links' place steps last →
      jump place steps = .ok last) : fs.walk jump place steps = .ok last := by
  induction h with
  | done => rfl
  | here hdir _ ih => simpa [walk, hdir] using ih hjump
  | up hdir _ ih => simpa [walk, hdir] using ih hjump
  | @enter _ _ _ _ text node hdir hnode hlink _ ih =>
    cases node with
    | file content => simpa [walk, hdir, hnode] using ih hjump
    | dir => simpa [walk, hdir, hnode] using ih hjump
    | link target => exact absurd rfl (hlink target)
  | follow hdir hnode htext hrest _ =>
    simpa [walk, hdir, hnode, htext] using hjump _ _ _ (Nat.lt_succ_self _) hrest

/-- **A limited walk is a walk that keeps to the limit.** -/
theorem walkWithin_eq_ok :
    fs.walkWithin limit place steps = .ok last ↔
      ∃ links ≤ limit, fs.Walks links place steps last := by
  induction limit generalizing place steps with
  | zero =>
    refine ⟨exists_walks_of_walk nofun, ?_⟩
    rintro ⟨links, hle, h⟩
    exact h.walk_eq fun links' _ _ hlt _ => by omega
  | succ limit ih =>
    refine ⟨exists_walks_of_walk fun place steps h => ?_, ?_⟩
    · obtain ⟨links, hle, h⟩ := ih.mp h
      exact ⟨links, Nat.lt_succ_of_le hle, h⟩
    · rintro ⟨links, hle, h⟩
      exact h.walk_eq fun links' _ _ hlt h' => ih.mpr ⟨links', by omega, h'⟩

end

/-- A path leads to a location, and `links` links are followed on the way. -/
def Leads (fs : FileSystem) (cwd : Location) (path : Path) (links : Nat) (place : Location) :
    Prop :=
  path.text.isEmpty = false ∧ fs.Walks links (path.start cwd) path.steps place

section

variable {fs after : FileSystem} {cwd place : Location} {path : Path}

theorem resolve_eq_ok :
    fs.resolve cwd path = .ok place ↔ ∃ links ≤ linkLimit, fs.Leads cwd path links place := by
  unfold resolve
  split
  · next hempty => simp [Leads, hempty]
  · next hempty =>
    rw [walkWithin_eq_ok]
    simp only [Leads, Bool.not_eq_true] at hempty ⊢
    simp [hempty]

theorem resolveDir_eq_ok :
    fs.resolveDir cwd path = .ok place ↔
      fs.resolve cwd path = .ok place ∧ fs.get? place = some .dir := by
  unfold resolveDir
  rcases fs.resolve cwd path with cause | found
  · simp [bind, Except.bind]
  · by_cases hdir : fs.isDir found = true
    · simp only [bind, Except.bind, hdir, if_true, pure, Except.pure, Except.ok.injEq]
      simp only [isDir, decide_eq_true_eq] at hdir
      constructor
      · rintro rfl
        exact ⟨rfl, hdir⟩
      · exact And.left
    · simp only [bind, Except.bind, hdir]
      simp only [isDir, decide_eq_true_eq] at hdir
      constructor
      · exact nofun
      · rintro ⟨hfound, hplace⟩
        cases hfound
        exact absurd hplace hdir

theorem Leads.mono {links : Nat} (h : fs.Leads cwd path links place) (hext : fs.Extends after) :
    after.Leads cwd path links place :=
  ⟨h.1, h.2.mono hext⟩

/-- **A path that leads somewhere is not disturbed by what is added.** -/
theorem Extends.resolve (hext : fs.Extends after) (h : fs.resolve cwd path = .ok place) :
    after.resolve cwd path = .ok place := by
  obtain ⟨links, hle, hleads⟩ := resolve_eq_ok.mp h
  exact resolve_eq_ok.mpr ⟨links, hle, hleads.mono hext⟩

theorem Extends.resolveDir (hext : fs.Extends after) (h : fs.resolveDir cwd path = .ok place) :
    after.resolveDir cwd path = .ok place := by
  obtain ⟨hresolve, hdir⟩ := resolveDir_eq_ok.mp h
  exact resolveDir_eq_ok.mpr ⟨hext.resolve hresolve, hext _ _ hdir⟩

/-! ### Entries of a directory -/

variable {dir : Path} {name : String}

/-- The steps of a path to a directory lead there, also if others follow. -/
theorem Leads.walks_leadingSteps {links : Nat} (h : fs.Leads cwd dir links place) :
    fs.Walks links (dir.start cwd) dir.leadingSteps place := by
  obtain ⟨-, hwalk⟩ := h
  rcases dir.steps_eq_or with hsteps | hsteps
  · rwa [hsteps] at hwalk
  · rw [hsteps] at hwalk
    exact (walks_append_here.mp hwalk).1

/-- The steps of a path to a directory lead there with the slash at its end. -/
theorem Walks.leads {links : Nat} (h : fs.Walks links (dir.start cwd) dir.leadingSteps place)
    (htext : dir.text.isEmpty = false) (hplace : fs.get? place = some .dir) :
    fs.Leads cwd dir links place := by
  refine ⟨htext, (walks_filter_here hplace).mp ?_⟩
  rw [dir.filter_steps]
  exact h.filter_here

/-- **A path stands for an entry of a directory**: it ends in the name of the entry, and the
steps before the name lead to the directory. On the way `links` links are followed. -/
def NamesEntry (fs : FileSystem) (cwd : Location) (path : Path) (links : Nat) (place : Location)
    (name : String) : Prop :=
  path.text.isEmpty = false ∧ ∃ before, path.ending = .name before name false ∧
    fs.Walks links (path.start cwd) before place ∧ fs.get? place = some .dir

/-- The name is one more step. -/
theorem NamesEntry.walks {links links' : Nat} {last : Location}
    (h : fs.NamesEntry cwd path links place name)
    (hname : fs.Walks links' place [.name name] last) :
    fs.Leads cwd path (links + links') last := by
  obtain ⟨htext, before, hending, hwalk, -⟩ := h
  refine ⟨htext, ?_⟩
  rw [Path.steps_of_ending hending]
  exact hwalk.append hname

/-- **A link in a directory** leads to where its target leads, and is one more link. -/
theorem NamesEntry.leads_link {links links' : Nat} {target : Path} {last : Location}
    (h : fs.NamesEntry cwd path links place name)
    (hnode : fs.get? (place ++ [name]) = some (.link target))
    (htarget : fs.Leads place target links' last) :
    fs.Leads cwd path (links + (links' + 1)) last := by
  obtain ⟨-, -, -, -, hdir⟩ := id h
  refine h.walks (.follow hdir hnode htarget.1 ?_)
  rw [List.append_nil]
  exact htarget.2

/-- **A file in a directory** is where its name is. -/
theorem NamesEntry.leads_file {links : Nat} {content : ByteArray}
    (h : fs.NamesEntry cwd path links place name)
    (hnode : fs.get? (place ++ [name]) = some (.file content)) :
    fs.Leads cwd path links (place ++ [name]) := by
  obtain ⟨-, -, -, -, hdir⟩ := id h
  exact h.walks (.enter hdir hnode nofun .done)

theorem NamesEntry.mono {links : Nat} (h : fs.NamesEntry cwd path links place name)
    (hext : fs.Extends after) : after.NamesEntry cwd path links place name := by
  obtain ⟨htext, before, hending, hwalk, hdir⟩ := h
  exact ⟨htext, before, hending, hwalk.mono hext, hext _ _ hdir⟩

/-- A name below a directory stands for an entry of it. -/
theorem Leads.namesEntry_join {links : Nat} (h : fs.Leads cwd dir links place)
    (hdir : fs.get? place = some .dir) (hname : Path.IsName name) :
    fs.NamesEntry cwd (dir.join ⟨name⟩) links place name := by
  refine ⟨Path.text_join_isEmpty hname.toIsPiece, _, Path.ending_join h.1 hname, ?_, hdir⟩
  rw [Path.start_join h.1 hname.toIsPiece]
  exact h.walks_leadingSteps

/-- **The path from the root leads to the same place**, and over the same number of links. -/
theorem Leads.absolute {links : Nat} (hcwd : ∀ front, front <+: cwd → fs.get? front = some .dir)
    (hnames : ∀ name ∈ cwd, Path.IsName name) (h : fs.Leads cwd path links place) :
    ∃ absolute, Path.absolute? cwd.path path = some absolute ∧
      ∀ origin, fs.Leads origin absolute links place := by
  obtain ⟨absolute, heq, htext, habsolute, -, hsteps, hlast⟩ := Path.exists_absolute? hnames h.1
  refine ⟨absolute, heq, fun origin => ⟨htext, ?_⟩⟩
  have hmoved := h.2.filter_here
  rw [path.filter_steps] at hmoved
  have hwalk : fs.Walks links [] absolute.leadingSteps place := by
    rw [hsteps]
    unfold Path.start at hmoved
    split at hmoved
    · next hroot => simpa [hroot] using hmoved
    · next hroot =>
      have hdown := @walks_names fs [] cwd (by simpa using hcwd)
      simpa [hroot] using hdown.append hmoved
  rw [Path.start, if_pos habsolute]
  rcases absolute.steps_eq_or with hsame | hhere
  · rwa [hsame]
  · -- the path from the root stays at its end, so it has to end in a directory
    rw [hhere]
    refine walks_append_here.mpr ⟨hwalk, ?_⟩
    rcases hlast with hsame | hslash | hnil
    · simp [hhere] at hsame
    · have hslashWalk := h.2
      rw [hslash] at hslashWalk
      exact (walks_append_here.mp hslashWalk).2
    · rw [← Path.filterMap_moves, hnil, List.filterMap_nil] at hmoved
      cases hmoved
      unfold Path.start
      split
      · exact hcwd [] (List.nil_prefix)
      · exact hcwd cwd (List.prefix_refl cwd)

/-- **The location of an entry** is below the directory, if not too many links are followed on
the way. -/
theorem entryOf_eq_ok {spot : Location} :
    fs.entryOf cwd path = .ok (spot, false) ↔ ∃ links ≤ linkLimit, ∃ place name,
      spot = place ++ [name] ∧ fs.NamesEntry cwd path links place name := by
  constructor
  · intro h
    unfold entryOf at h
    split at h
    · cases h
    next htext =>
    split at h
    · next before text slash hending =>
      obtain ⟨parent, hwalk, hspot⟩ := Go.bind_eq_ok.mp h
      cases hspot
      obtain ⟨links, hle, hwalks⟩ := walkWithin_eq_ok.mp hwalk
      obtain ⟨hparent, hdir⟩ := walks_append_here.mp hwalks
      exact ⟨links, hle, parent, text, rfl, by simpa using htext, before, hending, hparent, hdir⟩
    · obtain ⟨found, -, hspot⟩ := Go.bind_eq_ok.mp h
      cases hspot
  · rintro ⟨links, hle, place, name, rfl, htext, before, hending, hwalk, hdir⟩
    have hparent : fs.walkWithin linkLimit (path.start cwd) (before ++ [.here]) = .ok place :=
      walkWithin_eq_ok.mpr ⟨links, hle, walks_append_here.mpr ⟨hwalk, hdir⟩⟩
    rw [entryOf, if_neg (by simp [htext]), hending]
    exact Go.bind_eq_ok.mpr ⟨place, hparent, rfl⟩

/-- **The location of an entry is not disturbed by what is added.** -/
theorem Extends.entryOf {spot : Location} (hext : fs.Extends after)
    (h : fs.entryOf cwd path = .ok (spot, false)) : after.entryOf cwd path = .ok (spot, false) := by
  obtain ⟨links, hle, parent, last, rfl, hentry⟩ := entryOf_eq_ok.mp h
  exact entryOf_eq_ok.mpr ⟨links, hle, parent, last, rfl, hentry.mono hext⟩

theorem entryOf_join (h : fs.resolveDir cwd dir = .ok place) (hname : Path.IsName name) :
    fs.entryOf cwd (dir.join ⟨name⟩) = .ok (place ++ [name], false) := by
  obtain ⟨hresolve, hdir⟩ := resolveDir_eq_ok.mp h
  obtain ⟨links, hle, hleads⟩ := resolve_eq_ok.mp hresolve
  exact entryOf_eq_ok.mpr ⟨links, hle, place, name, rfl, hleads.namesEntry_join hdir hname⟩

/-- **A new file** goes to the location that its path stands for, unless something stands
there. -/
theorem newEntry_eq (h : fs.entryOf cwd path = .ok (place, false)) :
    fs.newEntry cwd path = if fs.occupied place then .error .alreadyExists else .ok place := by
  rw [newEntry, h]
  rfl

/-- **A new link** goes to the location that its path stands for, unless something stands
there. -/
theorem newLinkEntry_eq (h : fs.entryOf cwd path = .ok (place, false)) :
    fs.newLinkEntry cwd path = if fs.occupied place then .error .alreadyExists else .ok place := by
  rw [newLinkEntry, h]
  rfl

/-- A new file can be had at a location that a path stands for and where nothing stands. -/
theorem newEntry_eq_ok {spot : Location} :
    fs.newEntry cwd path = .ok spot ↔
      fs.entryOf cwd path = .ok (spot, false) ∧ fs.get? spot = none := by
  constructor
  · intro h
    obtain ⟨⟨place, slash⟩, hentry, h⟩ := Go.bind_eq_ok.mp h
    cases slash with
    | true => cases h
    | false =>
      by_cases hoccupied : fs.occupied place = true
      · simp [hoccupied] at h
      · simp only [Bool.false_eq_true, if_false, hoccupied] at h
        cases h
        exact ⟨hentry, by simpa [occupied] using hoccupied⟩
  · rintro ⟨hentry, hfree⟩
    rw [newEntry_eq hentry, occupied, hfree]
    rfl

end

end FileSystem

end EntryProbe
