import EntryProbe.Proofs.Listing

/-!
# The order of paths

Paths are compared by their components, one after the other, and not by their texts: a doubled
slash, a slash at the end or a dot in the middle makes no difference. At the first place where
the components of two paths are not the same, the one decides that comes first
(`EntryProbe.Path.Component.Before`): the root comes before a leading dot, the dot before two
dots, these before all names, and names are in the order of their bytes. Where one path has no
component left, it comes first.

The comparison of the program goes by numbers that are given to the components
(`EntryProbe.Path.rank`). It is this order (`EntryProbe.Path.le_iff`), so that any two paths can
be compared, and paths that are alike in it are those that have the same components
(`EntryProbe.Path.alike_iff`).
-/

namespace EntryProbe.Path

/-- The place of a component among the kinds of components. -/
def Component.kind : Component → Nat
  | .root => 0
  | .here => 1
  | .up => 2
  | .name _ => 3

/-- **A component comes before another one**: by its kind, and a name by its bytes. -/
def Component.Before (component other : Component) : Prop :=
  component.kind < other.kind ∨
    ∃ name name', component = .name name ∧ other = .name name' ∧ bytes name < bytes name'

/-- **A path comes before another one**: at the first place where their components are not the
same. -/
def Before (path other : Path) : Prop :=
  List.Lex Component.Before path.components other.components

/-- **Comparing values one after the other**, by what is given to each of them, is the
lexicographic order of the values. -/
theorem compareLex_map_eq_lt_iff {α β : Type} {cmp : β → β → Ordering} [Std.LawfulEqCmp cmp]
    {f : α → β} (hf : Function.Injective f) {list other : List α} :
    List.compareLex cmp (list.map f) (other.map f) = .lt ↔
      List.Lex (fun a b => cmp (f a) (f b) = .lt) list other := by
  induction list generalizing other with
  | nil =>
    cases other with
    | nil => simp [List.compareLex]
    | cons b other => exact iff_of_true rfl .nil
  | cons a list ih =>
    cases other with
    | nil => simp [List.compareLex]
    | cons b other =>
      rw [List.map_cons, List.map_cons, List.compareLex_cons_cons, Ordering.then_eq_lt, ih,
        List.cons_lex_cons_iff, Std.LawfulEqCmp.compare_eq_iff_eq, hf.eq_iff]

theorem compareRanks_eq_lt_iff {ranks other : List Nat} :
    compareRanks ranks other = .lt ↔ ranks < other := by
  have h : compareRanks (ranks.map id) (other.map id) = .lt ↔
      List.Lex (fun a b => a < b) ranks other := by
    rw [compareRanks, compareLex_map_eq_lt_iff Function.injective_id]
    simp only [id, Nat.compare_eq_lt]
  rwa [List.map_id, List.map_id, List.lex_lt] at h

/-! ### Components -/

/-- Components are told apart by their numbers. -/
theorem Component.rank_injective : Function.Injective Component.rank := by
  intro component other h
  cases component with
  | name name =>
    cases other with
    | name name' =>
      rw [String.toList_inj.mp (List.map_injective_iff.mpr (fun _ _ => Char.toNat_inj.mp)
        (List.cons.inj h).2)]
    | root | here | up => cases h
  | root =>
    cases other with
    | root => rfl
    | here | up | name => cases h
  | here =>
    cases other with
    | here => rfl
    | root | up | name => cases h
  | up =>
    cases other with
    | up => rfl
    | root | here | name => cases h

theorem compareRanks_name (name other : String) :
    compareRanks (Component.name name).rank (Component.name other).rank =
      compareRanks (bytes name) (bytes other) := by
  rw [bytes_eq, bytes_eq, compareRanks_flatMap_charBytes]
  exact compareRanks_append [3] _ _

/-- **The numbers of components are in the order of the components.** -/
theorem Component.compareRanks_rank {component other : Component} :
    compareRanks component.rank other.rank = .lt ↔ component.Before other := by
  by_cases hnames : ∃ name name', component = .name name ∧ other = .name name'
  · obtain ⟨name, name', rfl, rfl⟩ := hnames
    rw [compareRanks_name, compareRanks_eq_lt_iff]
    simp [Before, kind]
  · -- at least one of them is no name, so that the kind decides
    have hbefore : component.Before other ↔ component.kind < other.kind := by
      refine or_iff_left ?_
      rintro ⟨name, name', rfl, rfl, -⟩
      exact hnames ⟨name, name', rfl, rfl⟩
    rw [hbefore, compareRanks_eq_lt_iff]
    cases component <;> cases other <;> simp_all [rank, kind, List.cons_lt_cons_iff]

/-! ### Paths -/

/-- **The order of paths is that of their components.** -/
theorem le_iff {path other : Path} : path.le other = true ↔ ¬ other.Before path := by
  have hlt : List.compareLex compareRanks other.rank path.rank = .lt ↔ other.Before path := by
    rw [rank, rank, compareLex_map_eq_lt_iff Component.rank_injective, Before]
    simp only [Component.compareRanks_rank]
  rw [← hlt, le, @Std.OrientedCmp.eq_swap _ (List.compareLex compareRanks)]
  cases List.compareLex compareRanks other.rank path.rank <;> decide

theorem le_refl (path : Path) : path.le path = true := by
  rw [le, @Std.ReflCmp.compare_self _ (List.compareLex compareRanks)]
  rfl

theorem le_trans (path other third : Path) (h : path.le other = true) (h' : other.le third = true) :
    path.le third = true :=
  @Std.TransCmp.isLE_trans _ (List.compareLex compareRanks) _ _ _ _ h h'

theorem le_total (path other : Path) : (path.le other || other.le path) = true := by
  rw [le, le, @Std.OrientedCmp.eq_swap _ (List.compareLex compareRanks)]
  cases List.compareLex compareRanks other.rank path.rank <;> rfl

/-- Two paths are alike: none of them comes before the other one. -/
def alike (path other : Path) : Bool :=
  path.le other && other.le path

/-- **Paths that are alike are those that have the same components.** -/
theorem alike_iff {path other : Path} :
    path.alike other = true ↔ path.components = other.components := by
  rw [alike, Bool.and_eq_true]
  constructor
  · rintro ⟨h, h'⟩
    have hrank : path.rank = other.rank :=
      @Std.LawfulEqCmp.eq_of_compare _ (List.compareLex compareRanks) _ _ _
        (Std.OrientedCmp.isLE_antisymm h h')
    exact List.map_injective_iff.mpr Component.rank_injective hrank
  · intro h
    have hrank : path.rank = other.rank := congrArg (List.map Component.rank) h
    have hsame := other.le_refl
    rw [le] at hsame
    rw [le, le, hrank]
    exact ⟨hsame, hsame⟩

end EntryProbe.Path
