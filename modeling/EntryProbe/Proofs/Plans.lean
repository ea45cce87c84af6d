import EntryProbe.Proofs.Destinations
import EntryProbe.Proofs.PathOrder

/-!
# Plans

A plan has one task for each source that can have one, and the tasks are in the order of the
paths of their sources. That order does not tell apart paths with the same components, such as
`a/b` and `a//b`, so that it alone does not settle in which order the tasks run. What settles it
is that tasks whose sources are alike stay in the order in which the sources were given
(`EntryProbe.Build.filter_mergeSort`). Hence the order in which sources are given does not matter
if none of them are alike but those that are the same.

* `EntryProbe.Build.planTasks_stable` – what a plan looks like, and what it depends on.
-/

namespace EntryProbe.Build

/-- **Sorting is stable**: values that come after one another in either order stay as they are. -/
theorem filter_mergeSort {α : Type} {le : α → α → Bool}
    (htrans : ∀ a b c, le a b = true → le b c = true → le a c = true)
    (htotal : ∀ a b, (le a b || le b a) = true) {p : α → Bool}
    (h : ∀ a b, p a = true → p b = true → le a b = true) (list : List α) :
    (list.mergeSort le).filter p = list.filter p := by
  have hpairs : (list.filter p).Pairwise fun a b => le a b = true :=
    List.pairwise_filter.mpr (List.pairwise_of_forall h)
  have hsublist := (List.sublist_mergeSort htrans htotal hpairs List.filter_sublist).filter p
  rw [List.filter_filter] at hsublist
  simp only [Bool.and_self] at hsublist
  exact (hsublist.eq_of_length ((List.mergeSort_perm list le).filter p).length_eq.symm).symm

section

variable {here : Path} {work : WorkDir} {profile : String} {sources others : List Path}
  {tasks : List Task}

/-- The order of tasks is that of their sources. -/
theorem pairwise_mergeSort_source (tasks : List Task) :
    (tasks.mergeSort fun task other => task.source.le other.source).Pairwise
      fun task other => task.source.le other.source = true :=
  List.pairwise_mergeSort (fun task other third => task.source.le_trans other.source third.source)
    (fun task other => task.source.le_total other.source) tasks

/-- **The order in which sources are given does not matter** if none of them are alike but those
that are the same. -/
theorem planTasks_of_perm (hperm : sources.Perm others)
    (hsame : ∀ path ∈ sources, ∀ other ∈ sources, path.alike other = true → path = other)
    (h : planTasks here work profile sources = .ok tasks) :
    planTasks here work profile others = .ok tasks := by
  obtain ⟨hall, rfl⟩ := planTasks_eq_ok.mp h
  refine planTasks_eq_ok.mpr ⟨fun source hmem => hall source (hperm.mem_iff.mpr hmem), ?_⟩
  refine List.Perm.eq_of_pairwise ?_ (pairwise_mergeSort_source _) (pairwise_mergeSort_source _) ?_
  · -- tasks that are alike are tasks of one source
    intro task other htask hother hle hle'
    obtain ⟨source, hsource, htask⟩ := List.mem_filterMap.mp (List.mem_mergeSort.mp htask)
    obtain ⟨source', hsource', hother⟩ := List.mem_filterMap.mp (List.mem_mergeSort.mp hother)
    obtain ⟨rfl, -⟩ := taskOf?_eq_some htask
    obtain ⟨rfl, -⟩ := taskOf?_eq_some hother
    have heq := hsame _ hsource _ (hperm.mem_iff.mpr hsource') (by rw [Path.alike, hle, hle']; rfl)
    rw [heq, hother] at htask
    exact (Option.some.inj htask).symm
  · exact (List.mergeSort_perm _ _).trans
      ((hperm.filterMap _).trans (List.mergeSort_perm _ _).symm)

/-- **A plan is the sources in order.** The order of paths is that of their components; any two
paths can be compared, and those that are alike are those that have the same components. Each
source that can have a task has one, which is for this source and brings its result to where it
belongs; the tasks are in order, and those whose sources are alike are in the order in which the
sources were given. In a work directory of its own, the destination of a task is the entry of the
name of its source. Sources that are given in another order have the same plan, if none of them
are alike but those that are the same. -/
theorem planTasks_stable (h : planTasks here work profile sources = .ok tasks) :
    ((∀ path other : Path, path.le other = true ↔ ¬ other.Before path) ∧
      (∀ path other : Path, path.alike other = true ↔ path.components = other.components) ∧
      (∀ path : Path, path.le path = true) ∧
      (∀ path other third : Path, path.le other = true → other.le third = true →
        path.le third = true) ∧
      ∀ path other : Path, path.le other = true ∨ other.le path = true) ∧
    ((tasks.map Task.source).Perm (sources.filter work.takes) ∧
      ∀ task ∈ tasks, task.profile = profile ∧ work.Receives here task.source task.destination) ∧
    (tasks.Pairwise (fun task other => task.source.le other.source = true) ∧
      ∀ path : Path, (tasks.map Task.source).filter path.alike =
        (sources.filter work.takes).filter path.alike) ∧
    (∀ dir, work = .separate dir → ∀ task ∈ tasks, ∃ name parent,
      task.source.fileName? = some name ∧ task.destination.fileName? = some name ∧
        task.destination.parent? = some parent ∧ parent.components = dir.components) ∧
    ∀ others, sources.Perm others →
      (∀ path ∈ sources, ∀ other ∈ sources, path.alike other = true → path = other) →
      planTasks here work profile others = .ok tasks := by
  have htotal : ∀ path other : Path, path.le other = true ∨ other.le path = true :=
    fun path other => by simpa using path.le_total other
  refine ⟨⟨fun _ _ => Path.le_iff, fun _ _ => Path.alike_iff, Path.le_refl, Path.le_trans, htotal⟩,
    ⟨(perm_of_planTasks h).1, ?_⟩, ⟨?_, ?_⟩, ?_, fun others hperm hsame =>
      planTasks_of_perm hperm hsame h⟩
  · obtain ⟨-, rfl⟩ := planTasks_eq_ok.mp h
    intro task hmem
    obtain ⟨source, -, htask⟩ := List.mem_filterMap.mp (List.mem_mergeSort.mp hmem)
    obtain ⟨rfl, hprofile, hreceives⟩ := taskOf?_eq_some htask
    exact ⟨hprofile, hreceives⟩
  · obtain ⟨-, rfl⟩ := planTasks_eq_ok.mp h
    exact pairwise_mergeSort_source _
  · obtain ⟨hall, rfl⟩ := planTasks_eq_ok.mp h
    intro path
    rw [← map_source_taskOf? hall, List.filter_map, List.filter_map]
    congr 1
    refine filter_mergeSort (fun task other third => task.source.le_trans other.source third.source)
      (fun task other => task.source.le_total other.source) (fun task other htask hother => ?_) _
    -- what is alike to one path is alike
    have hcomponents := (Path.alike_iff.mp htask).symm.trans (Path.alike_iff.mp hother)
    exact (Bool.and_eq_true _ _ ▸ Path.alike_iff.mpr hcomponents).1
  · rintro dir rfl task hmem
    obtain ⟨name, hname, hdestination⟩ := ((perm_of_planTasks h).2 task hmem).2
    obtain ⟨hfile, parent, hparent, hcomponents⟩ :=
      Path.exists_parent?_join dir (Path.isName_of_fileName? hname)
    rw [hdestination]
    exact ⟨name, parent, hname, hfile, hparent, hcomponents⟩

theorem planTasks_stable_repeated :
    ∃ tasks, planTasks (Location.path []) (.separate ⟨"w"⟩) "p"
        [⟨"b.go"⟩, ⟨".."⟩, ⟨"a//b.go"⟩, ⟨"./b.go"⟩, ⟨"a/b.go"⟩] = .ok tasks ∧
      (tasks.map Task.source).filter (Path.alike ⟨"a/./b.go"⟩) = [⟨"a//b.go"⟩, ⟨"a/b.go"⟩] := by
  have hplan : planTasks (Location.path []) (.separate ⟨"w"⟩) "p"
      [⟨"b.go"⟩, ⟨".."⟩, ⟨"a//b.go"⟩, ⟨"./b.go"⟩, ⟨"a/b.go"⟩] =
        .ok (List.mergeSort [⟨⟨"b.go"⟩, ⟨"w/b.go"⟩, "p"⟩, ⟨⟨"a//b.go"⟩, ⟨"w/b.go"⟩, "p"⟩,
          ⟨⟨"./b.go"⟩, ⟨"w/b.go"⟩, "p"⟩, ⟨⟨"a/b.go"⟩, ⟨"w/b.go"⟩, "p"⟩]
          fun task other => task.source.le other.source) := rfl
  refine ⟨_, hplan, ?_⟩
  rw [(planTasks_stable hplan).2.2.1.2]
  decide

end

end EntryProbe.Build
