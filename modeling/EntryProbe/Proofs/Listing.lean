import EntryProbe.FileSystem.Basic
import EntryProbe.Proofs.ByteOrder
import EntryProbe.Proofs.PathSteps
import Mathlib.Data.List.Nodup

/-!
# The names in a directory

The names in a directory are those of its entries, each of them once and in order
(`EntryProbe.FileSystem.mem_names`, `EntryProbe.FileSystem.names_nodup`,
`EntryProbe.FileSystem.names_pairwise`). There is only one such list
(`EntryProbe.FileSystem.names_eq`).

The paths of the entries of one directory are in the order of their names
(`EntryProbe.Path.le_join`): what stands in front of the names is the same for all of them.
-/

namespace EntryProbe

namespace Path

instance : Std.TransCmp compareRanks := inferInstanceAs (Std.TransCmp (List.compareLex compare))

instance : Std.LawfulEqCmp compareRanks :=
  inferInstanceAs (Std.LawfulEqCmp (List.compareLex compare))

theorem nameLe_trans (name other third : String) (h : nameLe name other = true)
    (h' : nameLe other third = true) : nameLe name third = true :=
  Std.TransCmp.isLE_trans h h'

theorem nameLe_total (name other : String) : (nameLe name other || nameLe other name) = true := by
  rw [nameLe, nameLe, @Std.OrientedCmp.eq_swap _ compareRanks]
  cases compareRanks (other.toList.map Char.toNat) (name.toList.map Char.toNat) <;> rfl

theorem nameLe_antisymm {name other : String} (h : nameLe name other = true)
    (h' : nameLe other name = true) : name = other := by
  have heq : name.toList.map Char.toNat = other.toList.map Char.toNat :=
    Std.LawfulEqCmp.eq_of_compare (Std.OrientedCmp.isLE_antisymm h h')
  exact String.toList_inj.mp (List.map_injective_iff.mpr (fun _ _ => Char.toNat_inj.mp) heq)

/-- **Paths of one directory are in the order of their names.** -/
theorem le_join {dir : Path} (hdir : dir.text.isEmpty = false) {name other : String}
    (hname : IsName name) (hother : IsName other) :
    (dir.join ⟨name⟩).le (dir.join ⟨other⟩) = nameLe name other := by
  have hcompare : ∀ front ranks others,
      List.compareLex compareRanks (front ++ [ranks]) (front ++ [others]) =
        compareRanks ranks others := by
    intro front ranks others
    induction front with
    | nil =>
      simp only [List.nil_append, List.compareLex]
      cases compareRanks ranks others <;> rfl
    | cons first front ih =>
      simp only [List.cons_append, List.compareLex, @Std.ReflCmp.compare_self _ compareRanks, ih]
  simp only [le, rank, components_join hdir hname, components_join hdir hother, List.map_append,
    List.map_cons, List.map_nil, hcompare, Component.rank, nameLe]
  exact congrArg Ordering.isLE (compareRanks_append [3] _ _)

end Path

namespace FileSystem

/-- The name that a location has in a directory. -/
theorem nameIn_eq_some {place location : Location} {name : String} :
    (if location.dropLast = place then location.getLast? else none) = some name ↔
      location = place ++ [name] := by
  constructor
  · intro h
    split at h
    · next hplace =>
      obtain ⟨front, rfl⟩ := List.getLast?_eq_some_iff.mp h
      rw [List.dropLast_concat] at hplace
      rw [hplace]
    · cases h
  · rintro rfl
    simp

theorem lookup_isSome {entries : List (Location × Node)} {place : Location} :
    (entries.lookup place).isSome = true ↔ place ∈ entries.map Prod.fst := by
  induction entries with
  | nil => simp
  | cons entry entries ih =>
    obtain ⟨other, node⟩ := entry
    by_cases hplace : place = other
    · simp [hplace]
    · have hne : (place == other) = false := by simpa using hplace
      simp only [List.lookup_cons, hne, ih, List.map_cons, List.mem_cons, hplace, false_or]

/-- **The names in a directory are those of its entries.** -/
theorem mem_names {fs : FileSystem} {place : Location} {name : String} :
    name ∈ fs.names place ↔ fs.occupied (place ++ [name]) = true := by
  rw [names, List.mem_mergeSort, occupied, get?, if_neg (by simp), lookup_isSome,
    List.mem_filterMap, List.mem_map]
  simp only [nameIn_eq_some]

theorem names_nodup (fs : FileSystem) (place : Location) : (fs.names place).Nodup := by
  have hnodup : ((fs.entries.map Prod.fst).filterMap fun location =>
      if location.dropLast = place then location.getLast? else none).Nodup := by
    refine fs.nodup.filterMap fun location other name hname hname' => ?_
    rw [Option.mem_def, nameIn_eq_some] at hname hname'
    rw [hname, hname']
  rw [List.filterMap_map] at hnodup
  exact (List.mergeSort_perm _ _).nodup_iff.mpr hnodup

theorem names_pairwise (fs : FileSystem) (place : Location) :
    (fs.names place).Pairwise fun name other => Path.nameLe name other = true :=
  List.pairwise_mergeSort Path.nameLe_trans Path.nameLe_total _

/-- **There is one list of names**: one that has the names of the entries, each once and in
order. -/
theorem names_eq {fs : FileSystem} {place : Location} {list : List String}
    (hnodup : list.Nodup) (hsorted : list.Pairwise fun name other => Path.nameLe name other = true)
    (hmem : ∀ name, name ∈ list ↔ fs.occupied (place ++ [name]) = true) :
    fs.names place = list := by
  have hperm : (fs.names place).Perm list := by
    rw [List.perm_ext_iff_of_nodup (fs.names_nodup place) hnodup]
    intro name
    rw [mem_names, hmem]
  exact hperm.eq_of_pairwise (fun _ _ _ _ => Path.nameLe_antisymm) (fs.names_pairwise place) hsorted

/-- Names that stand in order already stay as they are. -/
theorem names_of_filterMap {fs : FileSystem} {place : Location} {list : List String}
    (h : (fs.entries.filterMap fun entry =>
      if entry.1.dropLast = place then entry.1.getLast? else none) = list)
    (hsorted : list.Pairwise fun name other => Path.nameLe name other = true) :
    fs.names place = list := by
  rw [names, h, List.mergeSort_of_pairwise hsorted]

end FileSystem

end EntryProbe
