import PhysicsPrefab.Prefab.Compilation
import PhysicsPrefab.Proofs.Prefab.Assembly

/-!
# Calls on a compilation

A compilation grows by calls that add a geometry or all geometries of a model. Whatever the calls
are, the geometries are added one after the other (`performAll_eq`), and each takes the place of
an earlier one with its id (`replace_eq`).
-/

namespace PhysicsPrefab

/-- A call that adds to a compilation. -/
inductive Call where
  /-- Add one geometry. -/
  | geometry (geometry : Geometry Float)
  /-- Add the geometries of a model. -/
  | model (model : Model Float)

/-- The geometries that a call adds, in order. -/
def Call.geometries : Call → List (Geometry Float)
  | .geometry added => [added]
  | .model added => added.geometries

namespace Compilation

/-- The compilation after a call. -/
def perform (compilation : Compilation) : Call → Compilation
  | .geometry geometry => (compilation.addGeometry geometry).value.1
  | .model model => (compilation.addModel model).value

/-- The compilation after calls. -/
def performAll (compilation : Compilation) (calls : List Call) : Compilation :=
  calls.foldl perform compilation

/-- The compilation after one geometry. -/
def recordGeometry (compilation : Compilation) (geometry : Geometry Float) : Compilation :=
  compilation.record geometry.compiled geometry.leftOut

/-- A geometry is recorded, and its prefab is returned. -/
theorem value_addGeometry (compilation : Compilation) (geometry : Geometry Float) :
    (compilation.addGeometry geometry).value =
      (compilation.recordGeometry geometry, geometry.compiled) := by
  unfold addGeometry
  simp only [Noted.value_bind]
  split <;> rfl

/-- Geometries are recorded one after the other. -/
theorem value_addGeometries (compilation : Compilation) (geometries : List (Geometry Float)) :
    (compilation.addGeometries geometries).value = geometries.foldl recordGeometry compilation := by
  induction geometries generalizing compilation with
  | nil => rfl
  | cons geometry rest ih =>
    rw [addGeometries, Noted.value_bind, List.foldl_cons, value_addGeometry]
    exact ih _

/-- Calls record their geometries one after the other. -/
theorem performAll_eq (compilation : Compilation) (calls : List Call) :
    compilation.performAll calls =
      (calls.flatMap Call.geometries).foldl recordGeometry compilation := by
  induction calls generalizing compilation with
  | nil => rfl
  | cons call rest ih =>
    rw [List.flatMap_cons, List.foldl_append]
    cases call with
    | geometry geometry =>
      have first : compilation.perform (.geometry geometry) =
          compilation.recordGeometry geometry :=
        congrArg Prod.fst (value_addGeometry compilation geometry)
      rw [performAll, List.foldl_cons, first, ← performAll, ih]
      rfl
    | model model =>
      have first : compilation.perform (.model model) =
          model.geometries.foldl recordGeometry compilation :=
        value_addGeometries compilation model.geometries
      rw [performAll, List.foldl_cons, first, ← performAll, ih]
      rfl

/-- A prefab of a known id is put into the place of that id, another one at the end. -/
theorem replace_eq {prefab : Prefab} {prefabs : List Prefab}
    (distinct : (prefabs.map (·.id)).Nodup) :
    replace prefab prefabs =
      if prefab.id ∈ prefabs.map (·.id) then
        prefabs.map fun other => if other.id = prefab.id then prefab else other
      else prefabs ++ [prefab] := by
  induction prefabs with
  | nil => rfl
  | cons first rest ih =>
    rw [List.map_cons, List.nodup_cons] at distinct
    by_cases same : first.id = prefab.id
    · have kept : rest.map (fun other => if other.id = prefab.id then prefab else other) =
          rest := by
        refine (List.map_congr_left fun other member => if_neg fun equal => ?_).trans
          (List.map_id rest)
        exact distinct.1 (List.mem_map.2 ⟨other, member, equal.trans same.symm⟩)
      simp [replace, same, kept]
    · simp only [replace, if_neg same, ih distinct.2, List.map_cons, List.mem_cons,
        Ne.symm same, false_or]
      split <;> simp

/-- A replaced prefab is gone and the others stay. -/
theorem mem_replace {prefab other : Prefab} {prefabs : List Prefab}
    (distinct : (prefabs.map (·.id)).Nodup) :
    other ∈ replace prefab prefabs ↔ other = prefab ∨ other ∈ prefabs ∧ other.id ≠ prefab.id := by
  rw [replace_eq distinct]
  split
  · rename_i known
    obtain ⟨former, isFormer, same⟩ := List.mem_map.1 known
    rw [List.mem_map]
    constructor
    · rintro ⟨kept, member, rfl⟩
      split
      · exact .inl rfl
      · rename_i different
        exact .inr ⟨member, different⟩
    · rintro (rfl | ⟨member, different⟩)
      · exact ⟨former, isFormer, if_pos same⟩
      · exact ⟨other, member, if_neg different⟩
  · rename_i unknown
    have different : other ∈ prefabs → other.id ≠ prefab.id := fun member same =>
      unknown (List.mem_map.2 ⟨other, member, same⟩)
    rw [List.mem_append, List.mem_singleton]
    tauto

/-- The ids after a replacement. -/
theorem map_id_replace {prefab : Prefab} {prefabs : List Prefab}
    (distinct : (prefabs.map (·.id)).Nodup) :
    (replace prefab prefabs).map (·.id) =
      if prefab.id ∈ prefabs.map (·.id) then prefabs.map (·.id)
      else prefabs.map (·.id) ++ [prefab.id] := by
  rw [replace_eq distinct]
  split
  · rw [List.map_map]
    refine List.map_congr_left fun other member => ?_
    by_cases same : other.id = prefab.id <;> simp [same]
  · rw [List.map_append, List.map_singleton]

/-- Ids stay different in a replacement. -/
theorem replace_nodup {prefab : Prefab} {prefabs : List Prefab}
    (distinct : (prefabs.map (·.id)).Nodup) : ((replace prefab prefabs).map (·.id)).Nodup := by
  rw [map_id_replace distinct]
  split
  · exact distinct
  · rename_i unknown
    exact List.nodup_append.2 ⟨distinct, by simp, fun id member other single same =>
      unknown (List.mem_singleton.1 single ▸ same ▸ member)⟩

/-- The prefab that was put in is the one that is found. -/
theorem find?_replace (prefab : Prefab) (prefabs : List Prefab) :
    (replace prefab prefabs).find? (fun other => other.id == prefab.id) = some prefab := by
  induction prefabs with
  | nil => simp [replace]
  | cons first rest ih =>
    unfold replace
    split
    · simp
    · rename_i different
      simp [different, ih]

/-- A prefab that is not found has an id that no prefab has. -/
theorem ne_id_of_prefab?_eq_none {compilation : Compilation} {id : String}
    (absent : compilation.prefab? id = none) : ∀ other ∈ compilation.prefabs, other.id ≠ id := by
  intro other member same
  have different := List.find?_eq_none.1 absent other member
  exact different (beq_iff_eq.2 same)

/-- Where no prefab has its id a prefab is put at the end. -/
theorem replace_of_unknown {prefab : Prefab} {prefabs : List Prefab}
    (unknown : ∀ other ∈ prefabs, other.id ≠ prefab.id) :
    replace prefab prefabs = prefabs ++ [prefab] := by
  induction prefabs with
  | nil => rfl
  | cons first rest ih =>
    have later := ih fun other member => unknown other (List.mem_cons_of_mem _ member)
    rw [replace, if_neg (unknown first List.mem_cons_self), later, List.cons_append]

/-- A recorded prefab takes the place of the former one of its id, if there is one. -/
theorem prefabs_record (compilation : Compilation) (prefab : Prefab)
    (skipped : List SkippedConstraint) :
    (compilation.record prefab skipped).prefabs = replace prefab compilation.prefabs := by
  unfold record
  cases found : compilation.prefab? prefab.id with
  | some former => rfl
  | none => exact (replace_of_unknown (ne_id_of_prefab?_eq_none found)).symm

/-- What was said about a prefab is forgotten when it is recorded again. A prefab that is recorded
for the first time has had nothing said about it, if all was said about prefabs that are there. -/
theorem skipped_record {compilation : Compilation} (prefab : Prefab)
    (skipped : List SkippedConstraint)
    (told : ∀ other ∈ compilation.skipped, other.prefabId ∈ compilation.prefabs.map (·.id)) :
    (compilation.record prefab skipped).skipped =
      compilation.skipped.filter (fun other => other.prefabId != prefab.id) ++ skipped := by
  unfold record
  cases found : compilation.prefab? prefab.id with
  | some former => rfl
  | none =>
    have kept : compilation.skipped.filter (fun other => other.prefabId != prefab.id) =
        compilation.skipped := by
      refine List.filter_eq_self.2 fun other member => ?_
      obtain ⟨owner, isOwner, same⟩ := List.mem_map.1 (told other member)
      have different := ne_id_of_prefab?_eq_none found owner isOwner
      rw [bne_iff_ne, ← same]
      exact different
    rw [kept]

/-- Adding a geometry returns its prefab, and the prefab is found under its id. -/
theorem prefab?_addGeometry (compilation : Compilation) (geometry : Geometry Float) :
    (compilation.addGeometry geometry).value.2 = geometry.compiled ∧
      (compilation.addGeometry geometry).value.1.prefab? geometry.compiled.id =
        some geometry.compiled := by
  rw [value_addGeometry, recordGeometry, prefab?, prefabs_record]
  exact ⟨rfl, find?_replace geometry.compiled compilation.prefabs⟩

end Compilation

end PhysicsPrefab
