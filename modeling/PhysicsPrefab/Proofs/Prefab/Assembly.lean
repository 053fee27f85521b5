import Mathlib.Data.List.Forall2
import Mathlib.Data.List.Nodup
import PhysicsPrefab.Proofs.Prefab.Constraint
import PhysicsPrefab.Prefab.Basic

/-!
# Assembled prefabs

What can be relied on in the prefab of any geometry (`Geometry.compiled_sound`): its bodies have
different ids and stand for bones of the geometry, one box for each cube; its constraints link
two different bodies of it. Each body is found by its id, and it is that of the first bone of this
name (`Geometry.body?_compiled`). What was left out of it is told truly (`Geometry.leftOut_true`): an
unknown body is no body of the prefab.
-/

namespace PhysicsPrefab

namespace Prefab

/-- The ids of the bodies in order. -/
def bodyIds (prefab : Prefab) : List String := prefab.bodies.map (·.id)

/-- The bodies of a prefab have different ids, and its constraints name bodies of it. -/
structure Linked (prefab : Prefab) : Prop where
  /-- No id is used twice. -/
  distinct : prefab.bodyIds.Nodup
  /-- Both ends of a constraint are bodies. -/
  ends : ∀ constraint ∈ prefab.constraints,
    constraint.bodyA ∈ prefab.bodyIds ∧ constraint.bodyB ∈ prefab.bodyIds

/-- An id finds a body exactly if a body has it. -/
theorem isSome_body?_iff {prefab : Prefab} {id : String} :
    (prefab.body? id).isSome ↔ id ∈ prefab.bodyIds := by
  simp [body?, bodyIds]

/-- Both bodies of a constraint are found in a linked prefab. -/
theorem Linked.isSome_body? {prefab : Prefab} (linked : prefab.Linked) {constraint : Constraint}
    (member : constraint ∈ prefab.constraints) :
    (prefab.body? constraint.bodyA).isSome ∧ (prefab.body? constraint.bodyB).isSome :=
  ⟨isSome_body?_iff.2 (linked.ends constraint member).1,
    isSome_body?_iff.2 (linked.ends constraint member).2⟩

/-- A body of a linked prefab is found by its id, and nothing else is. -/
theorem Linked.body?_eq_some_iff {prefab : Prefab} (linked : prefab.Linked) {id : String}
    {body : Body Float} : prefab.body? id = some body ↔ body ∈ prefab.bodies ∧ body.id = id := by
  constructor
  · intro found
    exact ⟨List.mem_of_find?_eq_some found, by simpa using List.find?_some found⟩
  · rintro ⟨member, rfl⟩
    have isFound := isSome_body?_iff.2 (List.mem_map_of_mem member : body.id ∈ prefab.bodyIds)
    obtain ⟨other, found⟩ := Option.isSome_iff_exists.1 isFound
    have sameId : other.id = body.id := by simpa using List.find?_some found
    have same := List.inj_on_of_nodup_map linked.distinct (List.mem_of_find?_eq_some found) member
      sameId
    rw [found, same]

end Prefab

/-- A shape is the box of a cube whose origin is relative to the body. -/
structure Shape.IsBoxOf (shape : Shape Float) (cube : Cube Float) : Prop where
  /-- The box is as large as the cube. -/
  halfExtents : shape.halfExtents = cube.size.toBlocks.scale Scalar.half
  /-- It lies where the cube lies: a cube is placed by its lower corner. -/
  offset : shape.offset = cube.origin.toBlocks + shape.halfExtents
  /-- It is turned like the cube, or not at all. -/
  orientation : shape.orientation = (cube.rotation.map Vec3.toRadians).getD Vec3.zero

/-- A body stands for a bone that hangs on the parent of all bodies. -/
structure Body.StandsFor (body : Body Float) (bone : Bone Float) : Prop where
  /-- The bone is one of a body. -/
  parent : bone.parent = some bodyParent
  /-- The body has the name of the bone. -/
  id : body.id = bone.name
  /-- Its cubes are those of the bone, relative to the pivot of the bone. -/
  cubes : body.cubes = (bone.cubes.getD []).map (Cube.relativeTo bone.pivot)
  /-- It has one box for each cube, in the order of the cubes. -/
  shapes : List.Forall₂ Shape.IsBoxOf body.shapes body.cubes

/-- A body is drawn exactly when it collides with something. -/
theorem Body.StandsFor.isVisual_iff {body : Body Float} {bone : Bone Float}
    (stands : body.StandsFor bone) : body.isVisual = true ↔ body.shapes ≠ [] := by
  have lengths := stands.shapes.length_eq
  unfold Body.isVisual
  cases cubes : body.cubes with
  | nil =>
    rw [cubes, List.length_nil, List.length_eq_zero_iff] at lengths
    simp [lengths]
  | cons cube rest =>
    have nonempty : body.shapes ≠ [] := by
      intro empty
      simp [cubes, empty] at lengths
    simp [nonempty]

/-- What holds of the prefab of a geometry. -/
structure Prefab.SoundFor (prefab : Prefab) (geometry : Geometry Float) : Prop
    extends prefab.Linked where
  /-- The prefab has the name of the geometry. -/
  id : prefab.id = prefabId geometry.description.identifier
  /-- No constraint links a body to itself. -/
  apart : ∀ constraint ∈ prefab.constraints, constraint.bodyA ≠ constraint.bodyB
  /-- Every body stands for a bone. -/
  bones : ∀ body ∈ prefab.bodies, ∃ bone ∈ geometry.bones, body.StandsFor bone

/-- A constraint that was left out of a prefab says truly why: it belongs to the prefab, and an
unknown body is no body of it. -/
structure SkippedConstraint.TrueFor (skipped : SkippedConstraint) (prefab : Prefab) : Prop where
  /-- It belongs to the prefab. -/
  prefabId : skipped.prefabId = prefab.id
  /-- An unknown body is unknown. -/
  unknown : ∀ side id, skipped.reason = .unknownBody side id → id ∉ prefab.bodyIds

/-- The box of a cube is its box. -/
theorem Cube.shape_isBoxOf (cube : Cube Float) : cube.shape.IsBoxOf cube := ⟨rfl, rfl, rfl⟩

/-- A body has the name of its bone. -/
theorem CentredBone.body_id (bone : CentredBone Float) : bone.body.value.id = bone.name := rfl

/-- The body of a centred bone stands for the bone. -/
theorem CentredBone.body_standsFor {bone : Bone Float} (role : bone.centred.role = .body) :
    bone.centred.body.value.StandsFor bone := by
  refine ⟨?_, rfl, rfl, ?_⟩
  · unfold CentredBone.role at role
    split at role
    · assumption
    · split at role <;> cases role
  · change List.Forall₂ Shape.IsBoxOf (bone.centred.cubes.map Cube.shape) bone.centred.cubes
    rw [List.forall₂_map_left_iff]
    exact List.forall₂_same.2 fun cube _ => cube.shape_isBoxOf

namespace Prefab

/-- Bodies keep different ids while more are collected. -/
theorem collectBodies_nodup (id : String) {bodies : List (Body Float)}
    (bones : List (CentredBone Float)) (distinct : (bodies.map (·.id)).Nodup) :
    ((collectBodies id bodies bones).value.map (·.id)).Nodup := by
  induction bones generalizing bodies with
  | nil => exact distinct
  | cons bone rest ih =>
    unfold collectBodies
    split
    · exact ih distinct
    · rename_i absent
      have fresh : bone.name ∉ bodies.map (·.id) := by simpa using absent
      refine ih ?_
      rw [List.map_append, List.map_singleton, CentredBone.body_id]
      exact List.nodup_append.2 ⟨distinct, by simp,
        fun id member other single same => fresh (List.mem_singleton.1 single ▸ same ▸ member)⟩

/-- A name finds a body that was there before, or else that of the first bone of this name. -/
theorem find?_collectBodies (id : String) (bodies : List (Body Float))
    (bones : List (CentredBone Float)) (name : String) :
    (collectBodies id bodies bones).value.find? (fun body => body.id == name) =
      (bodies.find? fun body => body.id == name).or
        ((bones.find? fun bone => bone.name == name).map (·.body.value)) := by
  induction bones generalizing bodies with
  | nil => simp [collectBodies]
  | cons bone rest ih =>
    unfold collectBodies
    split
    · rename_i known
      rw [Noted.value_bind, ih, List.find?_cons]
      by_cases same : bone.name = name
      · subst same
        have found : (bodies.find? fun body => body.id == bone.name).isSome :=
          List.find?_isSome.2 (List.any_eq_true.1 known)
        obtain ⟨body, isBody⟩ := Option.isSome_iff_exists.1 found
        rw [isBody, Option.some_or, Option.some_or]
      · rw [beq_false_of_ne same]
    · change (collectBodies id (bodies ++ [bone.body.value]) rest).value.find? _ = _
      rw [ih, List.find?_append, Option.or_assoc, List.find?_cons, List.find?_cons]
      cases same : bone.name == name <;> simp [CentredBone.body_id, same]

/-- Every collected body was there before or is the body of a bone. -/
theorem mem_collectBodies {id : String} {bodies : List (Body Float)}
    {bones : List (CentredBone Float)} {body : Body Float}
    (member : body ∈ (collectBodies id bodies bones).value) :
    body ∈ bodies ∨ ∃ bone ∈ bones, body = bone.body.value := by
  induction bones generalizing bodies with
  | nil => exact .inl member
  | cons bone rest ih =>
    unfold collectBodies at member
    split at member
    · rcases ih member with before | ⟨other, inRest, same⟩
      · exact .inl before
      · exact .inr ⟨other, List.mem_cons_of_mem _ inRest, same⟩
    · rcases ih member with before | ⟨other, inRest, same⟩
      · rcases List.mem_append.1 before with before | new
        · exact .inl before
        · exact .inr ⟨bone, List.mem_cons_self, List.mem_singleton.1 new⟩
      · exact .inr ⟨other, List.mem_cons_of_mem _ inRest, same⟩

/-- The constraint that a bone adds to a prefab, if it adds one. -/
def builtFrom (bodies : List (Body Float)) (bone : CentredBone Float) : Option Constraint :=
  match (bone.constraint bodies).run.value with
  | .ok built => built
  | .error _ => none

/-- What is told about a bone whose constraint could not be built. -/
def skippedFrom (id : String) (bodies : List (Body Float)) (bone : CentredBone Float) :
    Option SkippedConstraint :=
  match (bone.constraint bodies).run.value with
  | .ok _ => none
  | .error reason => some ⟨id, bone.name, reason⟩

/-- Every bone is judged by itself: the constraints and what was left out are those of the single
bones, in their order. -/
theorem value_collectConstraints (id : String) (bodies : List (Body Float))
    (bones : List (CentredBone Float)) :
    (collectConstraints id bodies bones).value =
      (bones.filterMap (builtFrom bodies), bones.filterMap (skippedFrom id bodies)) := by
  induction bones with
  | nil => rfl
  | cons bone rest ih =>
    unfold collectConstraints
    rw [Noted.value_bind, List.filterMap_cons, List.filterMap_cons]
    cases outcome : (bone.constraint bodies).run.value with
    | error reason =>
      simp only [builtFrom, skippedFrom, outcome, Noted.value_bind, Noted.value_pure, ih]
    | ok built =>
      cases built with
      | none => simp only [builtFrom, skippedFrom, outcome, ih]
      | some constraint =>
        simp only [builtFrom, skippedFrom, outcome, Noted.value_bind, Noted.value_pure, ih]

/-- A constraint that a bone adds is the one that was built from it. -/
theorem builtFrom_eq_some {bodies : List (Body Float)} {bone : CentredBone Float}
    {constraint : Constraint} (built : builtFrom bodies bone = some constraint) :
    (bone.constraint bodies).run.value = .ok (some constraint) := by
  unfold builtFrom at built
  split at built
  · rename_i outcome
    rw [outcome, built]
  · contradiction

/-- What is told about a bone is why its constraint could not be built. -/
theorem skippedFrom_eq_some {id : String} {bodies : List (Body Float)}
    {bone : CentredBone Float} {skipped : SkippedConstraint}
    (told : skippedFrom id bodies bone = some skipped) :
    skipped.prefabId = id ∧ (bone.constraint bodies).run.value = .error skipped.reason := by
  unfold skippedFrom at told
  split at told
  · contradiction
  · rename_i outcome
    obtain rfl := Option.some.inj told
    exact ⟨rfl, outcome⟩

end Prefab

namespace Geometry

/-- The bones of a geometry that have a role, relative to their pivots. -/
def bonesOf (geometry : Geometry Float) (role : BoneRole) : List (CentredBone Float) :=
  (geometry.bones.map Bone.centred).filter fun bone => bone.role = role

/-- The bodies of a geometry. -/
def bodies (geometry : Geometry Float) : List (Body Float) :=
  (Prefab.collectBodies (prefabId geometry.description.identifier) []
    (geometry.bonesOf .body)).value

/-- The prefab that a geometry compiles to. -/
def compiled (geometry : Geometry Float) : Prefab := geometry.prefab.value.1

/-- What was left out of the prefab of a geometry. -/
def leftOut (geometry : Geometry Float) : List SkippedConstraint := geometry.prefab.value.2

/-- The prefab of a geometry in its parts. -/
theorem compiled_eq (geometry : Geometry Float) :
    geometry.compiled = ⟨prefabId geometry.description.identifier, geometry.bodies,
      (geometry.bonesOf .constraint).filterMap (Prefab.builtFrom geometry.bodies)⟩ := by
  simp only [compiled, prefab, Noted.value_bind, Noted.value_pure,
    Prefab.value_collectConstraints]
  rfl

/-- What was left out of a geometry, bone by bone. -/
theorem leftOut_eq (geometry : Geometry Float) :
    geometry.leftOut = (geometry.bonesOf .constraint).filterMap
      (Prefab.skippedFrom (prefabId geometry.description.identifier) geometry.bodies) := by
  simp only [leftOut, prefab, Noted.value_bind, Noted.value_pure,
    Prefab.value_collectConstraints]
  rfl

/-- The prefab of any geometry is sound. -/
theorem compiled_sound (geometry : Geometry Float) : geometry.compiled.SoundFor geometry := by
  rw [compiled_eq]
  have built : ∀ constraint ∈ (geometry.bonesOf .constraint).filterMap
      (Prefab.builtFrom geometry.bodies),
      constraint.bodyA ≠ constraint.bodyB ∧ constraint.bodyA ∈ geometry.bodies.map (·.id) ∧
        constraint.bodyB ∈ geometry.bodies.map (·.id) := by
    intro constraint member
    obtain ⟨bone, -, made⟩ := List.mem_filterMap.1 member
    exact (CentredBone.constraint_built (Prefab.builtFrom_eq_some made)).2
  refine ⟨⟨Prefab.collectBodies_nodup _ _ List.nodup_nil, ?_⟩, rfl, ?_, ?_⟩
  · exact fun constraint member => (built constraint member).2
  · exact fun constraint member => (built constraint member).1
  · intro body member
    rcases Prefab.mem_collectBodies member with impossible | ⟨centred, inBones, rfl⟩
    · cases impossible
    · obtain ⟨inGeometry, role⟩ := List.mem_filter.1 inBones
      obtain ⟨bone, isBone, rfl⟩ := List.mem_map.1 inGeometry
      exact ⟨bone, isBone, CentredBone.body_standsFor (by simpa using role)⟩

/-- In the prefab of a geometry a name finds the body of the first body bone that has it. -/
theorem body?_compiled (geometry : Geometry Float) (name : String) :
    geometry.compiled.body? name =
      ((geometry.bonesOf .body).find? fun bone => bone.name == name).map (·.body.value) := by
  rw [compiled_eq, Prefab.body?, bodies, Prefab.find?_collectBodies, List.find?_nil, Option.none_or]

/-- What was left out of the prefab of a geometry is told truly. -/
theorem leftOut_true (geometry : Geometry Float) :
    ∀ skipped ∈ geometry.leftOut, skipped.TrueFor geometry.compiled := by
  intro skipped member
  rw [leftOut_eq] at member
  rw [compiled_eq]
  obtain ⟨bone, -, told⟩ := List.mem_filterMap.1 member
  obtain ⟨belongs, failed⟩ := Prefab.skippedFrom_eq_some told
  refine ⟨belongs, fun side id reason inIds => ?_⟩
  obtain ⟨body, isBody, rfl⟩ := List.mem_map.1 inIds
  rw [reason] at failed
  exact CentredBone.constraint_unknownBody failed body isBody rfl

end Geometry

end PhysicsPrefab
