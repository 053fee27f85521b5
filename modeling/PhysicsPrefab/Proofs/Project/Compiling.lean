import PhysicsPrefab.Project.Run
import PhysicsPrefab.Proofs.Prefab.Soundness

/-!
# Compiling sources

The sources are parted in order into those that take part in the physics and those that do not,
and the geometries of the former are compiled one after the other (`value_compileSources`). So no
prefab is compiled twice (`compileSources_distinct`).
-/

namespace PhysicsPrefab.Run

/-- Whether the model of a source has a part in the physics. -/
def takesPart (entry : Path × Model Float) : Bool :=
  entry.2.hasBonesUnder [bodyParent, constraintParent]

/-- Sources are parted, and the geometries of those that take part are recorded in order. -/
theorem value_compileSources (entries : List (Path × Model Float)) (compiled : Compiled) :
    (compileSources entries compiled).value =
      ⟨compiled.sources ++ (entries.filter takesPart).map (·.1),
        compiled.ignored ++ (entries.filter fun entry => !takesPart entry).map (·.1),
        ((entries.filter takesPart).flatMap (·.2.geometries)).foldl Compilation.recordGeometry
          compiled.compilation⟩ := by
  induction entries generalizing compiled with
  | nil => simp [compileSources]
  | cons entry rest ih =>
    obtain ⟨path, model⟩ := entry
    cases part : takesPart (path, model) with
    | true =>
      have isPart : model.hasBonesUnder [bodyParent, constraintParent] = true := part
      rw [compileSources, if_pos isPart, Noted.value_bind, ih, Compilation.addModel,
        Compilation.value_addGeometries]
      simp [part]
    | false =>
      have noPart : model.hasBonesUnder [bodyParent, constraintParent] = false := part
      rw [compileSources, if_neg (by simp [noPart]), Noted.value_bind, ih]
      simp [part]

/-- No prefab is compiled twice. -/
theorem compileSources_distinct (entries : List (Path × Model Float)) :
    ((compileSources entries ⟨[], [], Compilation.empty⟩).value.compilation.prefabs.map
      (·.id)).Nodup := by
  rw [value_compileSources]
  exact (Compilation.foldl_recordGeometry_sound Compilation.empty_sound _).distinct

end PhysicsPrefab.Run
