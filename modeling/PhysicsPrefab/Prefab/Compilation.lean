import PhysicsPrefab.Prefab.Basic

/-!
# Compilations

A compilation gathers the prefabs of many geometries. Of several definitions of one prefab the
last one counts, in the place of the first; what was said about the others is forgotten.
-/

namespace PhysicsPrefab

/-- What has been compiled so far. -/
structure Compilation where
  /-- The prefabs, in the order in which their names first came up. -/
  prefabs : List Prefab
  /-- The constraints that were left out of them. -/
  skipped : List SkippedConstraint

namespace Compilation

/-- The compilation of nothing. -/
def empty : Compilation := ⟨[], []⟩

/-- The prefab of a name. -/
def prefab? (compilation : Compilation) (id : String) : Option Prefab :=
  compilation.prefabs.find? fun prefab => prefab.id == id

/-- Put a prefab in the place of the first one of its id, or at the end. -/
def replace (prefab : Prefab) : List Prefab → List Prefab
  | [] => [prefab]
  | other :: rest => if other.id = prefab.id then prefab :: rest else other :: replace prefab rest

/-- The compilation with a prefab and what was left out of it. A prefab of a new id comes at the
end; one of a known id takes the place of the former one, and what was said about that is
forgotten. -/
def record (compilation : Compilation) (prefab : Prefab) (skipped : List SkippedConstraint) :
    Compilation :=
  match compilation.prefab? prefab.id with
  | some _ =>
    { prefabs := replace prefab compilation.prefabs
      skipped :=
        compilation.skipped.filter (fun other => other.prefabId != prefab.id) ++ skipped }
  | none =>
    { prefabs := compilation.prefabs ++ [prefab]
      skipped := compilation.skipped ++ skipped }

/-- The compilation with one more geometry, and the prefab of that geometry. -/
def addGeometry (compilation : Compilation) (geometry : Geometry Float) :
    Noted (Compilation × Prefab) := do
  let (prefab, skipped) ← geometry.prefab
  if (compilation.prefab? prefab.id).isSome then
    Noted.note .warn
      s!"prefab `{prefab.id}` is defined more than once, keeping the last definition"
  return (compilation.record prefab skipped, prefab)

/-- The compilation with more geometries. -/
def addGeometries (compilation : Compilation) : List (Geometry Float) → Noted Compilation
  | [] => return compilation
  | geometry :: rest => do
    let (compilation, _) ← compilation.addGeometry geometry
    compilation.addGeometries rest

/-- The compilation with the geometries of a model. -/
def addModel (compilation : Compilation) (model : Model Float) : Noted Compilation :=
  compilation.addGeometries model.geometries

end Compilation

/-- The compilation of one model. -/
def Model.compile (model : Model Float) : Noted Compilation := Compilation.empty.addModel model

end PhysicsPrefab
