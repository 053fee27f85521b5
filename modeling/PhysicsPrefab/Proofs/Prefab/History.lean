import Mathlib.Data.List.Induction
import PhysicsPrefab.Proofs.Prefab.Calls

/-!
# The history of a compilation

A compilation is known from the geometries alone that were added to it (`performAll_history`).
Its prefabs stand in the order in which their ids first came up and are those of the last
geometries with these ids; what was left out is told of the last geometries, in their own order.
-/

namespace PhysicsPrefab.Compilation

/-- The last geometry that defines a prefab. -/
def lastDefinition? (geometries : List (Geometry Float)) (id : String) :
    Option (Geometry Float) :=
  geometries.reverse.find? fun geometry => geometry.compiled.id == id

/-- The geometries that no later one defines again, in order. -/
def lastDefinitions : List (Geometry Float) → List (Geometry Float)
  | [] => []
  | geometry :: rest =>
    if rest.any fun later => later.compiled.id == geometry.compiled.id then lastDefinitions rest
    else geometry :: lastDefinitions rest

/-- One more geometry is the last definition of its prefab and of no other. -/
theorem lastDefinition?_concat (geometries : List (Geometry Float)) (geometry : Geometry Float)
    (id : String) :
    lastDefinition? (geometries ++ [geometry]) id =
      if geometry.compiled.id = id then some geometry else lastDefinition? geometries id := by
  rw [lastDefinition?, List.reverse_append, List.reverse_singleton, List.singleton_append,
    List.find?_cons]
  split
  · rename_i same
    rw [if_pos (eq_of_beq same)]
  · rename_i different
    rw [if_neg (ne_of_beq_false different), lastDefinition?]

/-- One more geometry takes the place of the last definition of its prefab, at the end. -/
theorem lastDefinitions_concat (geometries : List (Geometry Float))
    (geometry : Geometry Float) :
    lastDefinitions (geometries ++ [geometry]) =
      (lastDefinitions geometries).filter
        (fun other => other.compiled.id != geometry.compiled.id) ++ [geometry] := by
  induction geometries with
  | nil => rfl
  | cons first rest ih =>
    rw [List.cons_append, lastDefinitions, lastDefinitions, List.any_append, ih]
    cases again : rest.any fun later => later.compiled.id == first.compiled.id with
    | true => simp
    | false =>
      by_cases same : first.compiled.id = geometry.compiled.id
      · simp [same]
      · simp [same, Ne.symm same]

/-- What is told of geometries is told of each under the id of its prefab, so leaving out what is
told of one prefab leaves out its geometries. -/
theorem filter_flatMap_leftOut (id : String) (geometries : List (Geometry Float)) :
    (geometries.flatMap Geometry.leftOut).filter (fun skipped => skipped.prefabId != id) =
      (geometries.filter fun geometry => geometry.compiled.id != id).flatMap
        Geometry.leftOut := by
  induction geometries with
  | nil => rfl
  | cons geometry rest ih =>
    have told : ∀ skipped ∈ geometry.leftOut, skipped.prefabId = geometry.compiled.id :=
      fun skipped member => (geometry.leftOut_true skipped member).prefabId
    rw [List.flatMap_cons, List.filter_append, ih, List.filter_cons]
    cases kept : geometry.compiled.id != id with
    | true =>
      have all : geometry.leftOut.filter (fun skipped => skipped.prefabId != id) =
          geometry.leftOut :=
        List.filter_eq_self.2 fun skipped member => by rw [told skipped member, kept]
      rw [all, if_pos rfl, List.flatMap_cons]
    | false =>
      have none : geometry.leftOut.filter (fun skipped => skipped.prefabId != id) = [] :=
        List.filter_eq_nil_iff.2 fun skipped member => by
          rw [told skipped member, kept]
          exact Bool.false_ne_true
      rw [none, List.nil_append]
      rfl

/-- One more id is new or has come up before. -/
theorem eraseDups_concat (ids : List String) (id : String) :
    (ids ++ [id]).eraseDups = if id ∈ ids then ids.eraseDups else ids.eraseDups ++ [id] := by
  rw [List.eraseDups_append, List.removeAll]
  by_cases known : id ∈ ids <;> simp [known, List.eraseDups_cons]

/-- A compilation is what the geometries added to it make of it. -/
structure IsHistory (compilation : Compilation) (geometries : List (Geometry Float)) : Prop where
  /-- No prefab is there twice. -/
  distinct : (compilation.prefabs.map (·.id)).Nodup
  /-- The prefabs stand in the order in which their ids first came up. -/
  order : compilation.prefabs.map (·.id) = (geometries.map (·.compiled.id)).eraseDups
  /-- Each prefab is the one of the last geometry with its id. -/
  last : ∀ prefab ∈ compilation.prefabs,
    (lastDefinition? geometries prefab.id).map Geometry.compiled = some prefab
  /-- What was left out is told of the last geometries. -/
  skipped : compilation.skipped = (lastDefinitions geometries).flatMap Geometry.leftOut

/-- The compilation of nothing has no history. -/
theorem empty_isHistory : empty.IsHistory [] where
  distinct := List.nodup_nil
  order := rfl
  last := fun _ member => nomatch member
  skipped := rfl

/-- The last definitions are among the geometries. -/
theorem lastDefinitions_subset (geometries : List (Geometry Float)) :
    lastDefinitions geometries ⊆ geometries := by
  induction geometries with
  | nil => exact List.Subset.refl _
  | cons first rest ih =>
    rw [lastDefinitions]
    split
    · exact List.subset_cons_of_subset _ ih
    · exact List.cons_subset_cons _ ih

/-- Whatever is said about left out constraints is said about prefabs that are there. -/
theorem IsHistory.told {compilation : Compilation} {geometries : List (Geometry Float)}
    (history : compilation.IsHistory geometries) :
    ∀ other ∈ compilation.skipped, other.prefabId ∈ compilation.prefabs.map (·.id) := by
  intro other member
  rw [history.skipped] at member
  obtain ⟨geometry, isLast, isLeftOut⟩ := List.mem_flatMap.1 member
  have isGeometry := lastDefinitions_subset geometries isLast
  rw [(geometry.leftOut_true other isLeftOut).prefabId, history.order, List.mem_eraseDups]
  exact List.mem_map.2 ⟨geometry, isGeometry, rfl⟩

/-- One more geometry becomes part of the history. -/
theorem recordGeometry_isHistory {compilation : Compilation}
    {geometries : List (Geometry Float)} (history : compilation.IsHistory geometries)
    (geometry : Geometry Float) :
    (compilation.recordGeometry geometry).IsHistory (geometries ++ [geometry]) := by
  have prefabs : (compilation.recordGeometry geometry).prefabs =
      replace geometry.compiled compilation.prefabs := prefabs_record _ _ _
  constructor
  case distinct =>
    rw [prefabs]
    exact replace_nodup history.distinct
  case order =>
    rw [prefabs, map_id_replace history.distinct, List.map_append, List.map_singleton,
      eraseDups_concat, history.order]
    simp only [List.mem_eraseDups]
  case last =>
    intro prefab member
    rw [prefabs] at member
    rw [lastDefinition?_concat]
    rcases (mem_replace history.distinct).1 member with rfl | ⟨former, different⟩
    · simp
    · rw [if_neg (Ne.symm different)]
      exact history.last prefab former
  case skipped =>
    rw [recordGeometry, skipped_record _ _ history.told, lastDefinitions_concat,
      List.flatMap_append, List.flatMap_singleton, ← filter_flatMap_leftOut, ← history.skipped]

/-- What is compiled after calls, in terms of the geometries they add: the prefabs of the last
geometries in the order of the first ones, and what was left out of the last geometries. Every
geometry that is added then gives the prefab that is found under its id. -/
theorem performAll_history (calls : List Call) :
    (empty.performAll calls).prefabs.map some =
      ((calls.flatMap Call.geometries).map (·.compiled.id)).eraseDups.map (fun id =>
        (lastDefinition? (calls.flatMap Call.geometries) id).map Geometry.compiled) ∧
    (empty.performAll calls).skipped =
      (lastDefinitions (calls.flatMap Call.geometries)).flatMap Geometry.leftOut ∧
    ((empty.performAll calls).prefabs.map (·.id)).Nodup ∧
    ∀ geometry : Geometry Float,
      ((empty.performAll calls).addGeometry geometry).value.2 = geometry.compiled ∧
      ((empty.performAll calls).addGeometry geometry).value.1.prefab? geometry.compiled.id =
        some geometry.compiled := by
  have history : (empty.performAll calls).IsHistory (calls.flatMap Call.geometries) := by
    rw [performAll_eq]
    induction calls.flatMap Call.geometries using List.reverseRecOn with
    | nil => exact empty_isHistory
    | append_singleton geometries geometry ih =>
      rw [List.foldl_append]
      exact recordGeometry_isHistory ih geometry
  refine ⟨?_, history.skipped, history.distinct, prefab?_addGeometry _⟩
  rw [← history.order, List.map_map]
  exact List.map_congr_left fun prefab member => (history.last prefab member).symm

end PhysicsPrefab.Compilation
