import Mathlib.Data.List.Induction
import Mathlib.Data.List.Nodup
import PhysicsPrefab.NameMap

/-!
# Maps from names as lists

A map is known from its entries in any order (`eq_of_perm`). So a list whose names differ gives the
same map in every order (`ofList_of_perm`), and a map is that of its own entries (`ofList_entries`).
-/

namespace PhysicsPrefab.NameMap

variable {α : Type} {entries others : List (String × α)} {entry : String × α}

/-- The entries of a map are among those it was made of. -/
theorem mem_of_mem_ofList (member : entry ∈ (ofList entries).entries) : entry ∈ entries := by
  have folded (map : NameMap α) (inside : entry ∈
      (entries.foldl (fun map entry => map.insert entry.1 entry.2) map).entries) :
      entry ∈ map.entries ∨ entry ∈ entries := by
    clear member
    induction entries generalizing map with
    | nil => exact .inl inside
    | cons head rest ih =>
      rcases ih _ inside with before | later
      · exact (mem_insertEntry before).elim (fun same => .inr (same ▸ List.mem_cons_self)) .inl
      · exact .inr (List.mem_cons_of_mem _ later)
  exact (folded .empty member).resolve_left nofun

/-- The names of a map differ. -/
theorem nodup_names (map : NameMap α) : (map.entries.map (·.1)).Nodup :=
  List.pairwise_map.2 (map.sorted.imp fun {first second} before same => by
    rw [same] at before
    exact String.lt_irrefl second.1 before)

/-- Two maps that hold the same names, whatever their values, hold them in the same order. -/
theorem names_eq_of_mem_iff {β : Type} {left : NameMap α} {right : NameMap β}
    (same : ∀ name, name ∈ left.names ↔ name ∈ right.names) : left.names = right.names := by
  have inOrder {γ : Type} (map : NameMap γ) : map.names.Pairwise (· < ·) :=
    List.pairwise_map.2 map.sorted
  have perm : left.names.Perm right.names :=
    (List.perm_ext_iff_of_nodup left.nodup_names right.nodup_names).2 same
  refine perm.eq_of_pairwise (fun first second _ _ forth back => ?_) (inOrder left) (inOrder right)
  exact absurd (String.lt_trans forth back) (String.lt_irrefl _)

/-- Changing the values of a map leaves its names. -/
@[simp] theorem names_mapValues {β : Type} (map : NameMap α) (change : α → β) :
    (map.mapValues change).names = map.names := by
  rw [names, mapValues, List.map_map]
  rfl

/-- Two maps of the same entries are the same. -/
theorem eq_of_perm {left right : NameMap α} (perm : left.entries.Perm right.entries) :
    left = right := by
  have same : left.entries = right.entries := by
    refine perm.eq_of_pairwise (fun first second _ _ forth back => ?_) left.sorted right.sorted
    exact absurd (String.lt_trans forth back) (String.lt_irrefl _)
  cases left
  cases right
  cases same
  rfl

/-- An entry of a new name is added to the others. -/
theorem perm_insertEntry {name : String} (value : α) (isNew : name ∉ entries.map (·.1)) :
    (insertEntry name value entries).Perm ((name, value) :: entries) := by
  induction entries with
  | nil => exact .refl _
  | cons head rest ih =>
    rw [List.map_cons, List.mem_cons, not_or] at isNew
    rw [insertEntry, if_neg isNew.1]
    split
    · exact .refl _
    · exact ((ih isNew.2).cons head).trans (.swap _ _ _)

/-- The map of a list with one more entry is the map of the list with the entry inserted. -/
theorem ofList_concat (entries : List (String × α)) (name : String) (value : α) :
    ofList (entries ++ [(name, value)]) = (ofList entries).insert name value := by
  rw [ofList, List.foldl_append]
  rfl

/-- The map of a list whose names differ has the entries of the list. -/
theorem perm_ofList (distinct : (entries.map (·.1)).Nodup) : (ofList entries).entries.Perm entries := by
  induction entries using List.reverseRecOn with
  | nil => exact .refl _
  | append_singleton rest last ih =>
    rw [List.map_append, List.nodup_append'] at distinct
    obtain ⟨restDistinct, -, apart⟩ := distinct
    have held := ih restDistinct
    have isNew : last.1 ∉ (ofList rest).entries.map (·.1) := fun member =>
      apart ((held.map _).mem_iff.1 member) (by simp)
    rw [ofList_concat]
    exact (perm_insertEntry last.2 isNew).trans ((held.cons last).trans (List.perm_append_singleton _ _).symm)

/-- A list whose names differ gives the same map in any order. -/
theorem ofList_of_perm (distinct : (entries.map (·.1)).Nodup) (perm : entries.Perm others) :
    ofList entries = ofList others := by
  have othersDistinct : (others.map (·.1)).Nodup := (perm.map _).nodup_iff.1 distinct
  exact eq_of_perm ((perm_ofList distinct).trans (perm.trans (perm_ofList othersDistinct).symm))

/-- An entry may as well be inserted after all others of a list whose names differ. -/
theorem ofList_middle {name : String} {value : α}
    (distinct : ((entries ++ (name, value) :: others).map (·.1)).Nodup) :
    ofList (entries ++ (name, value) :: others) = (ofList (entries ++ others)).insert name value := by
  rw [← ofList_concat]
  exact ofList_of_perm distinct (List.perm_middle.trans (List.perm_append_singleton _ _).symm)

/-- An entry that is inserted takes the place of a former one of its name. -/
theorem insert_insert (map : NameMap α) (name : String) (former value : α) :
    (map.insert name former).insert name value = map.insert name value := by
  have again (entries : List (String × α)) : insertEntry name value (insertEntry name former entries) =
      insertEntry name value entries := by
    induction entries with
    | nil => simp [insertEntry]
    | cons head rest ih =>
      rw [insertEntry]
      split
      · rename_i before
        simp [insertEntry, before]
      · split
        · rename_i notBefore same
          simp [insertEntry, ← same]
        · rename_i notBefore differs
          simp [insertEntry, notBefore, differs, ih]
  have same := again map.entries
  unfold insert
  congr

/-- A map is the map of its entries. -/
@[simp] theorem ofList_entries (map : NameMap α) : ofList map.entries = map :=
  eq_of_perm (perm_ofList map.nodup_names)

end PhysicsPrefab.NameMap
