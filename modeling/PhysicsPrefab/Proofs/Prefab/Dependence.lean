import PhysicsPrefab.Proofs.NameMaps
import PhysicsPrefab.Proofs.Prefab.Assembly

/-!
# What a prefab depends on

Of the bones of bodies a prefab knows names, pivots, cubes and locators, of the bones that declare
constraints only their names and the names of their locators, and of all other bones nothing. How
the two kinds are mixed is not known to it either. What becomes of a bone that declares a
constraint (`Bone.fate`) follows from the bone and the bodies, so no such bone is in the way of
another (`Geometry.prefab_dependence`).
-/

namespace PhysicsPrefab

variable {α β : Type}

/-- An option is read off the names of the locators, whatever they stand for. -/
theorem Options.lookup_congr {left : NameMap α} {right : NameMap β}
    (names : left.names = right.names) (key : String) :
    Options.lookup left key = Options.lookup right key := by
  unfold Options.lookup
  rw [names]

namespace Constraint

section SameNames

variable {left right : NameMap (Locator Float)} (names : left.names = right.names)

include names

/-- Locators of the same names give the same value for an option that may be left out. -/
theorem optional_congr (option : ConstraintOption) (decode : String → Option α) :
    optional left option decode = optional right option decode := by
  unfold optional
  rw [Options.lookup_congr names]

/-- Locators of the same names give the same value for an option that must be set. -/
theorem required_congr (option : ConstraintOption) (decode : String → Option α) :
    required left option decode = required right option decode := by
  unfold required
  rw [optional_congr names]

/-- Locators of the same names give the same hinge. -/
theorem buildHinge_congr (first second : Body Float) (maxForce : Option Float) :
    buildHinge left first second maxForce = buildHinge right first second maxForce := by
  simp only [buildHinge, required_congr names, Options.lookup_congr names]

/-- Locators of the same names say the same about what a constraint does. -/
theorem buildKind_congr (first second : Body Float) (maxForce : Option Float)
    (type : ConstraintType) :
    buildKind left first second maxForce type = buildKind right first second maxForce type := by
  cases type with
  | distance => simp only [buildKind, required_congr names]
  | lock => rfl
  | hinge => simp only [buildKind, buildHinge_congr names]
  | twist => simp only [buildKind, buildHinge_congr names, required_congr names]
  | point => simp only [buildKind, required_congr names]

end SameNames

end Constraint

/-- Of a bone that declares a constraint only the name and the names of the locators count. -/
theorem CentredBone.constraint_congr {left right : CentredBone Float}
    (name : left.name = right.name) (names : left.locators.names = right.locators.names)
    (bodies : List (Body Float)) :
    left.constraint bodies = right.constraint bodies := by
  simp only [CentredBone.constraint, Constraint.buildBetween, name, Options.lookup_congr names,
    Constraint.optional_congr names, Constraint.buildKind_congr names]

/-- The locators of a bone, none if the field is not given. -/
def Bone.givenLocators (bone : Bone α) : NameMap (Locator α) := bone.locators.getD .empty

/-- The names of the locators of a bone. -/
def Bone.locatorNames (bone : Bone α) : List String := bone.givenLocators.names

/-- Two bones would become the same body. -/
structure Bone.SameBody (left right : Bone α) : Prop where
  /-- They have one name. -/
  name : left.name = right.name
  /-- They have one pivot. -/
  pivot : left.pivot = right.pivot
  /-- They have the same cubes, where a field that is not given is as good as an empty one. -/
  cubes : left.cubes.getD [] = right.cubes.getD []
  /-- They have the same locators, likewise. -/
  locators : left.givenLocators = right.givenLocators

/-- Two bones say the same about a constraint. -/
structure Bone.SameDeclaration (left right : Bone α) : Prop where
  /-- They have one name. -/
  name : left.name = right.name
  /-- They have locators of the same names. -/
  locators : ∀ name, name ∈ left.locatorNames ↔ name ∈ right.locatorNames

namespace Geometry

/-- The bones that hang on the parent of all bodies. -/
def bodyBones (geometry : Geometry α) : List (Bone α) :=
  geometry.bones.filter fun bone => bone.parent = some bodyParent

/-- The bones that hang on the parent of all constraints and have a locator. -/
def constraintBones (geometry : Geometry α) : List (Bone α) :=
  geometry.bones.filter fun bone => bone.parent = some constraintParent ∧ bone.locatorNames ≠ []

end Geometry

section Roles

variable (bone : Bone Float)

/-- The names of the locators stay when a bone is centred. -/
theorem Bone.names_centred : bone.centred.locators.names = bone.locatorNames :=
  NameMap.names_mapValues _ _

/-- The bones of bodies are those that hang on their parent. -/
theorem Bone.role_body : bone.centred.role = .body ↔ bone.parent = some bodyParent := by
  unfold CentredBone.role
  change (if bone.parent = some bodyParent then _ else _) = _ ↔ _
  split
  · simp_all
  · split <;> simp_all

/-- The bones that declare constraints hang on their parent and have a locator. -/
theorem Bone.role_constraint : bone.centred.role = .constraint ↔
    bone.parent = some constraintParent ∧ bone.locatorNames ≠ [] := by
  have given : bone.centred.locators.isEmpty = true ↔ bone.locatorNames = [] := by
    rw [← bone.names_centred, NameMap.isEmpty, NameMap.names, List.isEmpty_iff, List.map_eq_nil_iff]
  have apart : bodyParent ≠ constraintParent := by decide
  unfold CentredBone.role
  change (if bone.parent = some bodyParent then _ else
    if bone.parent = some constraintParent && _ then _ else _) = _ ↔ _
  by_cases isBody : bone.parent = some bodyParent
  · simp [isBody, apart]
  · by_cases isConstraint : bone.parent = some constraintParent
    · cases empty : bone.centred.locators.isEmpty <;> simp_all
    · simp [isBody, isConstraint]

/-- The centred bones of bodies are those of the bones that hang on their parent. -/
theorem Geometry.bonesOf_body (geometry : Geometry Float) :
    geometry.bonesOf .body = geometry.bodyBones.map Bone.centred := by
  simp only [bonesOf, bodyBones, List.filter_map, Function.comp_def, Bone.role_body]

/-- The centred bones of constraints are those of the bones that hang on their parent and have a
locator. -/
theorem Geometry.bonesOf_constraint (geometry : Geometry Float) :
    geometry.bonesOf .constraint = geometry.constraintBones.map Bone.centred := by
  simp only [bonesOf, constraintBones, List.filter_map, Function.comp_def, Bone.role_constraint]

end Roles

/-- Bones that agree in what counts become the same body. -/
theorem Bone.SameBody.body_centred {left right : Bone Float} (same : left.SameBody right) :
    left.centred.body = right.centred.body := by
  have cubes : left.centred.cubes = right.centred.cubes := by
    simp only [Bone.centred, same.cubes, same.pivot]
  have locators : left.centred.locators = right.centred.locators := by
    change left.givenLocators.mapValues _ = right.givenLocators.mapValues _
    rw [same.locators, same.pivot]
  have name : left.centred.name = right.centred.name := same.name
  have pivot : left.centred.pivot = right.centred.pivot := same.pivot
  simp only [CentredBone.body, cubes, locators, name, pivot]

/-- Bones that say the same declare the same constraint between any bodies. -/
theorem Bone.SameDeclaration.constraint_centred {left right : Bone Float}
    (same : left.SameDeclaration right) (bodies : List (Body Float)) :
    left.centred.constraint bodies = right.centred.constraint bodies := by
  refine CentredBone.constraint_congr same.name ?_ bodies
  rw [left.names_centred, right.names_centred]
  exact NameMap.names_eq_of_mem_iff same.locators

namespace Prefab

/-- Bones that agree one by one become the same bodies. -/
theorem collectBodies_congr (id : String) {left right : List (Bone Float)}
    (same : List.Forall₂ Bone.SameBody left right) (bodies : List (Body Float)) :
    collectBodies id bodies (left.map Bone.centred) =
      collectBodies id bodies (right.map Bone.centred) := by
  induction same generalizing bodies with
  | nil => rfl
  | @cons leftBone rightBone _ _ head _ ih =>
    have name : leftBone.centred.name = rightBone.centred.name := head.name
    simp only [List.map_cons, collectBodies, name, head.body_centred, ih]

/-- Bones that say the same one by one add the same constraints. -/
theorem collectConstraints_congr (id : String) (bodies : List (Body Float))
    {left right : List (Bone Float)} (same : List.Forall₂ Bone.SameDeclaration left right) :
    collectConstraints id bodies (left.map Bone.centred) =
      collectConstraints id bodies (right.map Bone.centred) := by
  induction same with
  | nil => rfl
  | @cons leftBone rightBone _ _ head _ ih =>
    have name : leftBone.centred.name = rightBone.centred.name := head.name
    simp only [List.map_cons, collectConstraints, name, head.constraint_centred, ih]

end Prefab

/-- Geometries that agree in the bones that count compile to the same prefab, and everything told
on the way is the same. -/
theorem Geometry.prefab_congr {left right : Geometry Float}
    (identifier : left.description.identifier = right.description.identifier)
    (bodies : List.Forall₂ Bone.SameBody left.bodyBones right.bodyBones)
    (declarations : List.Forall₂ Bone.SameDeclaration left.constraintBones
      right.constraintBones) :
    left.prefab = right.prefab := by
  have bodyBones (geometry : Geometry Float) :
      (geometry.bones.map Bone.centred).filter (fun bone => bone.role = .body) =
        geometry.bodyBones.map Bone.centred := geometry.bonesOf_body
  have constraintBones (geometry : Geometry Float) :
      (geometry.bones.map Bone.centred).filter (fun bone => bone.role = .constraint) =
        geometry.constraintBones.map Bone.centred := geometry.bonesOf_constraint
  simp only [Geometry.prefab, identifier, bodyBones, constraintBones,
    Prefab.collectBodies_congr _ bodies, Prefab.collectConstraints_congr _ _ declarations]

/-- What becomes of a bone that may declare a constraint. -/
inductive Fate where
  /-- It adds a constraint. -/
  | built (constraint : Constraint)
  /-- It declares a constraint that is left out. -/
  | skipped (reason : ConstraintError)
  /-- It declares no constraint. -/
  | ignored

namespace Fate

/-- The fate that an outcome means. -/
def ofOutcome : Except ConstraintError (Option Constraint) → Fate
  | .ok (some constraint) => built constraint
  | .ok none => ignored
  | .error reason => skipped reason

/-- The constraint that is added. -/
def constraint? : Fate → Option Constraint
  | built constraint => some constraint
  | skipped _ | ignored => none

/-- What is said about a constraint that is left out. -/
def skipped? (prefabId name : String) : Fate → Option SkippedConstraint
  | skipped reason => some ⟨prefabId, name, reason⟩
  | built _ | ignored => none

end Fate

/-- What becomes of a bone, given the bodies. -/
def Bone.fate (bone : Bone Float) (bodies : List (Body Float)) : Fate :=
  .ofOutcome (bone.centred.constraint bodies).run.value

/-- A bone without locators is ignored. -/
theorem Bone.fate_of_no_locators {bone : Bone Float} (bare : bone.locatorNames = [])
    (bodies : List (Body Float)) : bone.fate bodies = .ignored := by
  have noType : (Options.lookup bone.centred.locators "type").value = none := by
    simp [Options.lookup, Options.given, bone.names_centred, bare]
  rw [Bone.fate, CentredBone.value_constraint, noType]
  rfl

namespace Geometry

variable (geometry : Geometry Float)

/-- The bodies of a prefab are the bodies of its geometry. -/
theorem bodies_compiled : geometry.compiled.bodies = geometry.bodies := by rw [compiled_eq]

/-- The constraints of a prefab are those that the bones come to, in the order of the bones. -/
theorem constraints_compiled : geometry.compiled.constraints =
    geometry.constraintBones.filterMap fun bone => (bone.fate geometry.bodies).constraint? := by
  have fate (bone : Bone Float) : Prefab.builtFrom geometry.bodies bone.centred =
      (bone.fate geometry.bodies).constraint? := by
    unfold Prefab.builtFrom Bone.fate
    rcases (bone.centred.constraint geometry.bodies).run.value with _ | (_ | _) <;> rfl
  simp only [compiled_eq, bonesOf_constraint, List.filterMap_map, Function.comp_def, fate]

/-- What was left out of a prefab is what is said about the bones, in the order of the bones. -/
theorem leftOut_fates : geometry.leftOut = geometry.constraintBones.filterMap fun bone =>
    (bone.fate geometry.bodies).skipped? geometry.compiled.id bone.name := by
  have fate (bone : Bone Float) : Prefab.skippedFrom geometry.compiled.id geometry.bodies
      bone.centred = (bone.fate geometry.bodies).skipped? geometry.compiled.id bone.name := by
    unfold Prefab.skippedFrom Bone.fate
    rcases (bone.centred.constraint geometry.bodies).run.value with _ | (_ | _) <;> rfl
  have id : geometry.compiled.id = prefabId geometry.description.identifier := by rw [compiled_eq]
  simp only [leftOut_eq, bonesOf_constraint, List.filterMap_map, Function.comp_def, ← id, fate]

/-- Whatever the bones of constraints come to one by one, without one of them only what it comes to
itself is gone. -/
theorem filterMap_constraintBones {γ : Type} {geometry : Geometry Float}
    {before after : List (Bone Float)} {bone : Bone Float}
    (bones : geometry.bones = before ++ bone :: after)
    (hangs : bone.parent = some constraintParent) (result : Bone Float → Option γ)
    (bare : bone.locatorNames = [] → result bone = none) :
    ∃ earlier later,
      { geometry with bones := before ++ after }.constraintBones.filterMap result =
        earlier ++ later ∧
      geometry.constraintBones.filterMap result =
        earlier ++ (result bone).toList ++ later := by
  have appended (some others : List (Bone Float)) :
      { geometry with bones := some ++ others }.constraintBones =
        { geometry with bones := some }.constraintBones ++
          { geometry with bones := others }.constraintBones := List.filter_append ..
  have own : { geometry with bones := [bone] }.constraintBones.filterMap result =
      (result bone).toList := by
    by_cases empty : bone.locatorNames = []
    · simp [constraintBones, empty, bare empty]
    · cases found : result bone <;> simp [constraintBones, hangs, empty, found]
  have whole : geometry = { geometry with bones := before ++ ([bone] ++ after) } := by
    rw [List.singleton_append, ← bones]
  refine ⟨{ geometry with bones := before }.constraintBones.filterMap result,
    { geometry with bones := after }.constraintBones.filterMap result, ?_, ?_⟩
  · rw [appended, List.filterMap_append]
  · rw [whole, appended, appended, List.filterMap_append, List.filterMap_append, own,
      List.append_assoc]

/-- A bone that hangs elsewhere adds nothing to the bodies. -/
theorem bodies_without {geometry : Geometry Float} {before after : List (Bone Float)}
    {bone : Bone Float} (bones : geometry.bones = before ++ bone :: after)
    (elsewhere : bone.parent ≠ some bodyParent) :
    { geometry with bones := before ++ after }.bodies = geometry.bodies := by
  have sameBones : { geometry with bones := before ++ after }.bodyBones = geometry.bodyBones := by
    simp [bodyBones, bones, elsewhere]
  rw [bodies, bodies, bonesOf_body, bonesOf_body, sameBones]

/-- What a prefab depends on. Geometries of one identifier that agree in the bones of bodies and in
what the bones of constraints declare compile to one prefab, with the same left out and the same
told. What a bone of a constraint comes to follows from it and the bodies. So without such a bone
there are the same bodies, and of constraints and of what is left out exactly its own are gone. -/
theorem prefab_dependence :
    (∀ left right : Geometry Float,
      left.description.identifier = right.description.identifier →
      List.Forall₂ Bone.SameBody left.bodyBones right.bodyBones →
      List.Forall₂ Bone.SameDeclaration left.constraintBones right.constraintBones →
      left.prefab = right.prefab) ∧
    (∀ geometry : Geometry Float,
      geometry.compiled.constraints = geometry.constraintBones.filterMap (fun bone =>
        (bone.fate geometry.compiled.bodies).constraint?) ∧
      geometry.leftOut = geometry.constraintBones.filterMap (fun bone =>
        (bone.fate geometry.compiled.bodies).skipped? geometry.compiled.id bone.name)) ∧
    (∀ (geometry : Geometry Float) (before after : List (Bone Float)) (bone : Bone Float),
      geometry.bones = before ++ bone :: after → bone.parent = some constraintParent →
      let without : Geometry Float := { geometry with bones := before ++ after }
      let fate := bone.fate geometry.compiled.bodies
      without.compiled.id = geometry.compiled.id ∧
      without.compiled.bodies = geometry.compiled.bodies ∧
      (∃ earlier later, without.compiled.constraints = earlier ++ later ∧
        geometry.compiled.constraints = earlier ++ fate.constraint?.toList ++ later) ∧
      (∃ earlier later, without.leftOut = earlier ++ later ∧
        geometry.leftOut = earlier ++
          (fate.skipped? geometry.compiled.id bone.name).toList ++ later)) := by
  refine ⟨fun _ _ identifier => prefab_congr identifier, fun geometry => ?_, ?_⟩
  · rw [bodies_compiled]
    exact ⟨geometry.constraints_compiled, geometry.leftOut_fates⟩
  · intro geometry before after bone bones hangs without fate
    have id : without.compiled.id = geometry.compiled.id := by
      rw [compiled_eq, compiled_eq]
    have elsewhere : bone.parent ≠ some bodyParent := by
      rw [hangs]
      decide
    have bodies : without.compiled.bodies = geometry.compiled.bodies := by
      rw [bodies_compiled, bodies_compiled, bodies_without bones elsewhere]
    have ignored (bare : bone.locatorNames = []) : fate = .ignored :=
      bone.fate_of_no_locators bare _
    rw [constraints_compiled, constraints_compiled, leftOut_fates, leftOut_fates,
      ← bodies_compiled, ← bodies_compiled, bodies, id]
    refine ⟨rfl, rfl, filterMap_constraintBones bones hangs _ fun bare => ?_,
      filterMap_constraintBones bones hangs _ fun bare => ?_⟩
    · exact congrArg Fate.constraint? (ignored bare)
    · exact congrArg (Fate.skipped? _ _) (ignored bare)

end Geometry

/-- A bone without cubes that hangs on a parent, with its locators all at its pivot. -/
def Bone.hung (parent name : String) (pivot : Vec3 Float) (locators : List String) : Bone Float :=
  ⟨name, some parent, pivot, some (.ofList (locators.map fun name => (name, .point pivot))), none,
    .empty⟩

/-- The geometry of a sledge: what is drawn, and how it is tied. -/
def sledge (bones : List (Bone Float)) : Geometry Float :=
  ⟨⟨"geometry.sledge", .empty⟩, bones, .empty⟩

/-- The horse before a sledge. -/
def horse : Bone Float := .hung bodyParent "horse" ⟨0, 16, 8⟩ ["mass_400", "collar"]

/-- The runner of a sledge. -/
def runner : Bone Float := .hung bodyParent "runner" ⟨0, 0, -8⟩ []

/-- The shaft between a horse and a runner. -/
def shaft (pivot : Vec3 Float) : Bone Float :=
  .hung constraintParent "shaft" pivot ["type_lock", "bodya_horse", "bodyb_runner"]

/-- Reins that lead to a driver, who is not there. -/
def reins (pivot : Vec3 Float) : Bone Float :=
  .hung constraintParent "reins" pivot ["type_distance", "bodya_driver", "bodyb_horse"]

/-- A sledge compiles to the same prefab when its bones are mixed, when bones of no use are added
and when the bones of its constraints are moved. Without the shaft only the shaft is gone. -/
theorem prefab_dependence_sledge :
    let sorted := sledge [horse, runner, shaft .zero, reins .zero]
    let mixed := sledge [shaft ⟨1, 2, 3⟩, .hung "Decoration" "bell" .zero [], horse,
      reins ⟨4, 5, 6⟩, .hung constraintParent "bare" .zero [], runner]
    let without := sledge [horse, runner, reins .zero]
    sorted.prefab = mixed.prefab ∧
    without.compiled.bodies = sorted.compiled.bodies ∧
    (∃ earlier later, without.compiled.constraints = earlier ++ later ∧
      sorted.compiled.constraints =
        earlier ++ [⟨"shaft", "horse", "runner", .lock none⟩] ++ later) ∧
    (∃ earlier later, without.leftOut = earlier ++ later ∧
      sorted.leftOut = earlier ++ [] ++ later) ∧
    sorted.leftOut.map (·.reason) = [.unknownBody .a "driver"] := by
  intro sorted mixed without
  have bodies : List.Forall₂ Bone.SameBody sorted.bodyBones mixed.bodyBones := by
    have sortedBones : sorted.bodyBones = [horse, runner] := rfl
    have mixedBones : mixed.bodyBones = [horse, runner] := rfl
    rw [sortedBones, mixedBones]
    exact List.forall₂_same.2 fun bone _ => ⟨rfl, rfl, rfl, rfl⟩
  have declarations : List.Forall₂ Bone.SameDeclaration sorted.constraintBones
      mixed.constraintBones := by
    have sortedBones : sorted.constraintBones = [shaft .zero, reins .zero] := by rfl
    have mixedBones : mixed.constraintBones = [shaft ⟨1, 2, 3⟩, reins ⟨4, 5, 6⟩] := by rfl
    rw [sortedBones, mixedBones]
    have shafts : (shaft .zero).SameDeclaration (shaft ⟨1, 2, 3⟩) := ⟨rfl, fun _ => .rfl⟩
    have leading : (reins .zero).SameDeclaration (reins ⟨4, 5, 6⟩) := ⟨rfl, fun _ => .rfl⟩
    exact .cons shafts (.cons leading .nil)
  have same := Geometry.prefab_dependence.1 sorted mixed rfl bodies declarations
  have removed := Geometry.prefab_dependence.2.2 sorted [horse, runner] [reins .zero] (shaft .zero)
    rfl rfl
  have fate : (shaft .zero).fate sorted.compiled.bodies =
      .built ⟨"shaft", "horse", "runner", .lock none⟩ := by rfl
  have told : sorted.leftOut.map (·.reason) = [.unknownBody .a "driver"] := by rfl
  rw [fate] at removed
  exact ⟨same, removed.2.1, removed.2.2.1, removed.2.2.2, told⟩

end PhysicsPrefab
