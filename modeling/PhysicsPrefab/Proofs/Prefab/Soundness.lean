import PhysicsPrefab.Proofs.Prefab.Calls

/-!
# Sound compilations

Every prefab of a compilation is sound, and everything said about what was left out is true of a
prefab that is there, also after prefabs were defined again. One geometry keeps this
(`recordGeometry_sound`), so it holds after all calls (`performAll_sound`).
-/

namespace PhysicsPrefab.Compilation

/-- What holds of the compilation of some geometries. -/
structure Sound (compilation : Compilation) (geometries : List (Geometry Float)) : Prop where
  /-- No prefab is there twice. -/
  distinct : (compilation.prefabs.map (·.id)).Nodup
  /-- Each prefab is sound for one of the geometries. -/
  prefabs : ∀ prefab ∈ compilation.prefabs, ∃ geometry ∈ geometries, prefab.SoundFor geometry
  /-- What is said to be left out is true of a prefab that is there. -/
  skipped : ∀ skipped ∈ compilation.skipped,
    ∃ prefab ∈ compilation.prefabs, skipped.TrueFor prefab

/-- The compilation of nothing is sound. -/
theorem empty_sound : empty.Sound [] where
  distinct := List.nodup_nil
  prefabs := fun _ member => nomatch member
  skipped := fun _ member => nomatch member

/-- A compilation stays sound with one more geometry. -/
theorem recordGeometry_sound {compilation : Compilation} {geometries : List (Geometry Float)}
    (sound : compilation.Sound geometries) (geometry : Geometry Float) :
    (compilation.recordGeometry geometry).Sound (geometries ++ [geometry]) := by
  have prefabs : (compilation.recordGeometry geometry).prefabs =
      replace geometry.compiled compilation.prefabs := prefabs_record _ _ _
  have told : ∀ other ∈ compilation.skipped,
      other.prefabId ∈ compilation.prefabs.map (·.id) := by
    intro other member
    obtain ⟨prefab, isPrefab, isTrue⟩ := sound.skipped other member
    exact List.mem_map.2 ⟨prefab, isPrefab, isTrue.prefabId.symm⟩
  have isThere : geometry.compiled ∈ replace geometry.compiled compilation.prefabs :=
    (mem_replace sound.distinct).2 (.inl rfl)
  constructor
  case distinct =>
    rw [prefabs]
    exact replace_nodup sound.distinct
  case prefabs =>
    intro prefab member
    rw [prefabs] at member
    rcases (mem_replace sound.distinct).1 member with rfl | ⟨former, -⟩
    · exact ⟨geometry, by simp, geometry.compiled_sound⟩
    · obtain ⟨origin, isOrigin, soundFor⟩ := sound.prefabs prefab former
      exact ⟨origin, List.mem_append_left _ isOrigin, soundFor⟩
  case skipped =>
    intro skipped member
    rw [recordGeometry, skipped_record _ _ told] at member
    rw [prefabs]
    rcases List.mem_append.1 member with former | new
    · obtain ⟨isFormer, different⟩ := List.mem_filter.1 former
      obtain ⟨prefab, isPrefab, isTrue⟩ := sound.skipped skipped isFormer
      rw [isTrue.prefabId, bne_iff_ne] at different
      exact ⟨prefab, (mem_replace sound.distinct).2 (.inr ⟨isPrefab, different⟩), isTrue⟩
    · exact ⟨geometry.compiled, isThere, geometry.leftOut_true skipped new⟩

/-- A compilation stays sound with more geometries. -/
theorem foldl_recordGeometry_sound {compilation : Compilation}
    {geometries : List (Geometry Float)} (sound : compilation.Sound geometries)
    (more : List (Geometry Float)) :
    (more.foldl recordGeometry compilation).Sound (geometries ++ more) := by
  induction more generalizing compilation geometries with
  | nil => simpa using sound
  | cons geometry rest ih =>
    have next := ih (recordGeometry_sound sound geometry)
    rwa [List.append_assoc, List.singleton_append] at next

/-- Every compilation that calls lead to is sound, and its bodies are drawn exactly when they
have boxes. -/
theorem performAll_sound (calls : List Call) :
    (empty.performAll calls).Sound (calls.flatMap Call.geometries) ∧
      ∀ prefab ∈ (empty.performAll calls).prefabs, ∀ body ∈ prefab.bodies,
        (body.isVisual = true ↔ body.shapes ≠ []) := by
  have sound : (empty.performAll calls).Sound (calls.flatMap Call.geometries) := by
    rw [performAll_eq]
    simpa using foldl_recordGeometry_sound empty_sound (calls.flatMap Call.geometries)
  refine ⟨sound, fun prefab isPrefab body isBody => ?_⟩
  obtain ⟨geometry, -, soundFor⟩ := sound.prefabs prefab isPrefab
  obtain ⟨bone, -, stands⟩ := soundFor.bones body isBody
  exact stands.isVisual_iff

end PhysicsPrefab.Compilation
