import PhysicsPrefab.Proofs.Prefab.Dependence

/-!
# One more body

A bone of a body that is put anywhere between the bones of a geometry adds its body and takes
nothing away (`Geometry.prefab_insertion`): a constraint that was built is built as before, and of
what was left out only that which missed this very body may have a new fate. A bone whose name an
earlier bone of a body has already changes nothing.
-/

namespace PhysicsPrefab

/-- Results that another function has as well go on in its results, in their order. -/
theorem filterMap_sublist_filterMap {α β : Type} {items : List α} {result other : α → Option β}
    (kept : ∀ item ∈ items, ∀ value, result item = some value → other item = some value) :
    (items.filterMap result).Sublist (items.filterMap other) := by
  induction items with
  | nil => exact .slnil
  | cons item rest ih =>
    have later := ih fun another member => kept another (List.mem_cons_of_mem _ member)
    cases found : result item with
    | none =>
      rw [List.filterMap_cons_none found, List.filterMap_cons]
      split
      · exact later
      · exact later.cons _
    | some value =>
      rw [List.filterMap_cons_some found,
        List.filterMap_cons_some (kept item List.mem_cons_self value found)]
      exact later.cons_cons _

namespace Prefab

variable {id : String} {bodies : List (Body Float)} {bones : List (CentredBone Float)}

/-- Bones are collected one list after the other. -/
theorem collectBodies_append (id : String) (bodies : List (Body Float))
    (bones others : List (CentredBone Float)) :
    (collectBodies id bodies (bones ++ others)).value =
      (collectBodies id (collectBodies id bodies bones).value others).value := by
  induction bones generalizing bodies with
  | nil => rfl
  | cons bone rest ih =>
    rw [List.cons_append, collectBodies, collectBodies]
    split
    · exact ih bodies
    · exact ih _

/-- A further body whose name no bone has is in nobody's way: the bones add the same bodies. -/
theorem collectBodies_middle (id : String) (earlier later : List (Body Float)) {new : Body Float}
    (fresh : ∀ bone ∈ bones, bone.name ≠ new.id) :
    ∃ added, (collectBodies id (earlier ++ later) bones).value = earlier ++ (later ++ added) ∧
      (collectBodies id (earlier ++ new :: later) bones).value =
        earlier ++ new :: (later ++ added) := by
  induction bones generalizing later with
  | nil => exact ⟨[], by simp [collectBodies], by simp [collectBodies]⟩
  | cons bone rest ih =>
    have apart : (new.id == bone.name) = false :=
      beq_false_of_ne (fresh bone List.mem_cons_self).symm
    have restFresh : ∀ other ∈ rest, other.name ≠ new.id := fun other member =>
      fresh other (List.mem_cons_of_mem _ member)
    have known : (earlier ++ new :: later).any (fun body => body.id == bone.name) =
        (earlier ++ later).any fun body => body.id == bone.name := by
      simp [apart]
    rw [collectBodies, collectBodies, known]
    split
    · exact ih later restFresh
    · obtain ⟨added, without, within⟩ := ih (later ++ [bone.body.value]) restFresh
      refine ⟨bone.body.value :: added, ?_, ?_⟩
      · simpa using without
      · simpa using within

/-- Bodies that are there stay while more are collected. -/
theorem mem_collectBodies_of_mem {body : Body Float} (member : body ∈ bodies) :
    body ∈ (collectBodies id bodies bones).value := by
  induction bones generalizing bodies with
  | nil => exact member
  | cons bone rest ih =>
    rw [collectBodies]
    split
    · exact ih member
    · exact ih (List.mem_append_left _ member)

/-- Every bone leaves a body of its name, be it its own or an earlier one. -/
theorem exists_collectBodies {bone : CentredBone Float} (member : bone ∈ bones) :
    ∃ body ∈ (collectBodies id bodies bones).value, body.id = bone.name := by
  induction bones generalizing bodies with
  | nil => nomatch member
  | cons head rest ih =>
    rw [collectBodies]
    rcases List.mem_cons.1 member with rfl | inRest
    · split
      · rename_i known
        obtain ⟨body, isThere, same⟩ := List.any_eq_true.1 known
        exact ⟨body, mem_collectBodies_of_mem isThere, eq_of_beq same⟩
      · exact ⟨bone.body.value, mem_collectBodies_of_mem (by simp), rfl⟩
    · split
      · exact ih inRest
      · exact ih inRest

end Prefab

/-- Whether what is wrong is that a body is missing. -/
def ConstraintError.misses (id : String) : ConstraintError → Bool
  | unknownBody _ missing => missing == id
  | selfReference _ | missingOption _ | invalidOption _ _ => false

section

variable {id : String} {former later : Fate}
  (stays : later = former ∨ ∃ side, former = .skipped (.unknownBody side id))

include stays

/-- Where a fate stays or a body was missing, a constraint that was built is built. -/
theorem Fate.constraint?_of_stays {constraint : Constraint}
    (built : former.constraint? = some constraint) : later.constraint? = some constraint := by
  rcases stays with rfl | ⟨side, rfl⟩
  · exact built
  · nomatch built

/-- Where a fate stays or a body was missing, what was said is said, unless that body was missing. -/
theorem Fate.skipped?_of_stays {prefabId name : String} {skipped : SkippedConstraint}
    (told : former.skipped? prefabId name = some skipped)
    (other : skipped.reason.misses id = false) : later.skipped? prefabId name = some skipped := by
  rcases stays with rfl | ⟨side, rfl⟩
  · exact told
  · obtain rfl := Option.some.inj told
    simp [ConstraintError.misses] at other

end

section OneMore

variable {earlier later : List (Body Float)} {new : Body Float}
  (isNew : ∀ body ∈ earlier ++ later, body.id ≠ new.id)

include isNew

/-- With one more body the same bodies are found, unless it is the one that was missing. -/
theorem Constraint.findBody_middle (side : Side) (id : String) :
    findBody (earlier ++ new :: later) side id = findBody (earlier ++ later) side id ∨
      findBody (earlier ++ later) side id = .error (.unknownBody side new.id) := by
  by_cases same : id = new.id
  · have unknown : (earlier ++ later).find? (fun body => body.id == id) = none :=
      List.find?_eq_none.2 fun body member => by simpa [same] using isNew body member
    right
    rw [findBody, unknown, same]
  · have other : (earlier ++ new :: later).find? (fun body => body.id == id) =
        (earlier ++ later).find? fun body => body.id == id := by
      simp [List.find?_append, Ne.symm same]
    left
    rw [findBody, findBody, other]

/-- With one more body a constraint comes to the same, unless this body was missing. -/
theorem Constraint.buildBetween_middle (name : String) (locators : NameMap (Locator Float))
    (type : ConstraintType) (bodyA bodyB : String) :
    (buildBetween name locators (earlier ++ new :: later) type bodyA bodyB).run.value =
        (buildBetween name locators (earlier ++ later) type bodyA bodyB).run.value ∨
      ∃ side, (buildBetween name locators (earlier ++ later) type bodyA bodyB).run.value =
        .error (.unknownBody side new.id) := by
  rw [value_buildBetween, value_buildBetween]
  rcases findBody_middle isNew .a bodyA with sameA | missing
  · rw [sameA]
    cases findBody (earlier ++ later) .a bodyA with
    | error error => exact .inl rfl
    | ok first =>
      rcases findBody_middle isNew .b bodyB with sameB | missing
      · exact .inl (by rw [sameB])
      · exact .inr ⟨.b, by rw [missing]; rfl⟩
  · exact .inr ⟨.a, by rw [missing]; rfl⟩

/-- With one more body a bone has the same fate, unless this body was missing. -/
theorem Bone.fate_middle (bone : Bone Float) :
    bone.fate (earlier ++ new :: later) = bone.fate (earlier ++ later) ∨
      ∃ side, bone.fate (earlier ++ later) = .skipped (.unknownBody side new.id) := by
  rw [Bone.fate, Bone.fate, CentredBone.value_constraint, CentredBone.value_constraint]
  split
  · split
    · rename_i type _
      rcases Constraint.buildBetween_middle isNew bone.centred.name bone.centred.locators type _ _
        with same | ⟨side, missing⟩
      · exact .inl (by rw [same])
      · exact .inr ⟨side, by rw [missing]; rfl⟩
    · exact .inl rfl
  · exact .inl rfl

end OneMore

namespace Geometry

variable (geometry : Geometry Float) {before after : List (Bone Float)} {bone : Bone Float}

/-- The bodies of a geometry come from the bones before a place and then from those after it. -/
theorem bodies_of_append (before after : List (Bone Float)) :
    { geometry with bones := before ++ after }.bodies =
      (Prefab.collectBodies (prefabId geometry.description.identifier)
        { geometry with bones := before }.bodies
        ({ geometry with bones := after }.bodyBones.map Bone.centred)).value := by
  simp only [bodies, bonesOf_body, bodyBones, List.filter_append, List.map_append,
    Prefab.collectBodies_append]

/-- The bones of bodies with one more in front. -/
theorem bodyBones_cons (hangs : bone.parent = some bodyParent) (after : List (Bone Float)) :
    { geometry with bones := bone :: after }.bodyBones =
      bone :: { geometry with bones := after }.bodyBones :=
  List.filter_cons_of_pos (by simp [hangs])

/-- A body has the name of a bone that hangs on the parent of all bodies. -/
theorem exists_bone_of_mem_bodies {geometry : Geometry Float} {body : Body Float}
    (member : body ∈ geometry.bodies) :
    ∃ bone ∈ geometry.bones, bone.parent = some bodyParent ∧ bone.name = body.id := by
  rw [← bodies_compiled] at member
  obtain ⟨bone, isBone, stands⟩ := geometry.compiled_sound.bones body member
  exact ⟨bone, isBone, stands.parent, stands.id.symm⟩

/-- No body has a name that no bone of a body has. -/
theorem id_ne_of_fresh {name : String}
    (fresh : ∀ other ∈ geometry.bones, other.parent = some bodyParent → other.name ≠ name)
    {body : Body Float} (member : body ∈ geometry.bodies) : body.id ≠ name := by
  obtain ⟨other, isBone, isBody, sameName⟩ := exists_bone_of_mem_bodies member
  rw [← sameName]
  exact fresh other isBone isBody

/-- A bone of a new name adds its body, and the others stay in their order. -/
theorem bodies_of_fresh (hangs : bone.parent = some bodyParent)
    (fresh : ∀ other ∈ before ++ after, other.parent = some bodyParent → other.name ≠ bone.name) :
    ∃ earlier later,
      { geometry with bones := before ++ after }.bodies = earlier ++ later ∧
      { geometry with bones := before ++ bone :: after }.bodies =
        earlier ++ bone.centred.body.value :: later := by
  let found := { geometry with bones := before }.bodies
  have notFound : found.any (fun body => body.id == bone.centred.name) = false := by
    refine List.any_eq_false.2 fun body member same => ?_
    have freshBefore : ∀ other ∈ before, other.parent = some bodyParent → other.name ≠ bone.name :=
      fun other isBefore => fresh other (List.mem_append_left _ isBefore)
    exact id_ne_of_fresh { geometry with bones := before } freshBefore member (eq_of_beq same)
  have others : ∀ other ∈ { geometry with bones := after }.bodyBones.map Bone.centred,
      other.name ≠ bone.centred.body.value.id := by
    intro other member
    obtain ⟨origin, isOrigin, rfl⟩ := List.mem_map.1 member
    obtain ⟨isAfter, isBody⟩ := List.mem_filter.1 isOrigin
    exact fresh origin (List.mem_append_right _ isAfter) (by simpa using isBody)
  obtain ⟨added, without, within⟩ :=
    Prefab.collectBodies_middle (prefabId geometry.description.identifier) found [] others
  refine ⟨found, added, ?_, ?_⟩
  · rw [bodies_of_append]
    simpa using without
  · rw [bodies_of_append, bodyBones_cons geometry hangs, List.map_cons, Prefab.collectBodies,
      notFound]
    exact within

/-- A bone whose name an earlier bone of a body has adds no body. -/
theorem bodies_of_repeated (hangs : bone.parent = some bodyParent) {other : Bone Float}
    (isBefore : other ∈ before) (isBody : other.parent = some bodyParent)
    (name : other.name = bone.name) :
    { geometry with bones := before ++ bone :: after }.bodies =
      { geometry with bones := before ++ after }.bodies := by
  have inBones : other.centred ∈ { geometry with bones := before }.bonesOf .body := by
    rw [bonesOf_body]
    exact List.mem_map_of_mem (List.mem_filter.2 ⟨isBefore, by simpa using isBody⟩)
  obtain ⟨body, isThere, same⟩ := Prefab.exists_collectBodies inBones
  have found : { geometry with bones := before }.bodies.any
      (fun body => body.id == bone.centred.name) = true :=
    List.any_eq_true.2 ⟨body, isThere, beq_iff_eq.2 (same.trans name)⟩
  rw [bodies_of_append, bodies_of_append, bodyBones_cons geometry hangs, List.map_cons,
    Prefab.collectBodies, found]
  rfl

/-- A bone of a body is not among those of constraints. -/
theorem constraintBones_of_body (hangs : bone.parent = some bodyParent) :
    { geometry with bones := before ++ bone :: after }.constraintBones =
      { geometry with bones := before ++ after }.constraintBones := by
  have apart : bodyParent ≠ constraintParent := by decide
  simp [constraintBones, hangs, apart]

/-- What one more bone of a body does, wherever it is put. If its name is new, all bodies and all
constraints stay as they were and in their order, and so does what is said about what was left out,
but for the missing bodies of this name; where the fate of a constraint changes, this body was what
it missed. If an earlier bone of a body has the name, nothing changes. -/
theorem prefab_insertion (geometry : Geometry Float) (before after : List (Bone Float))
    (bone : Bone Float) (bones : geometry.bones = before ++ after)
    (hangs : bone.parent = some bodyParent) :
    let grown : Geometry Float := { geometry with bones := before ++ bone :: after }
    ((∀ other ∈ geometry.bones, other.parent = some bodyParent → other.name ≠ bone.name) →
      grown.compiled.id = geometry.compiled.id ∧
      (∃ earlier later, geometry.compiled.bodies = earlier ++ later ∧
        grown.compiled.bodies = earlier ++ bone.centred.body.value :: later) ∧
      geometry.compiled.constraints.Sublist grown.compiled.constraints ∧
      (geometry.leftOut.filter fun skipped => !skipped.reason.misses bone.name).Sublist
        grown.leftOut ∧
      grown.constraintBones = geometry.constraintBones ∧
      ∀ declared ∈ geometry.constraintBones,
        declared.fate grown.compiled.bodies = declared.fate geometry.compiled.bodies ∨
        ∃ side, declared.fate geometry.compiled.bodies =
          .skipped (.unknownBody side bone.name)) ∧
    ((∃ other ∈ before, other.parent = some bodyParent ∧ other.name = bone.name) →
      grown.compiled = geometry.compiled ∧ grown.leftOut = geometry.leftOut) := by
  intro grown
  have whole : geometry = { geometry with bones := before ++ after } := by rw [← bones]
  have declared : grown.constraintBones = geometry.constraintBones := by
    rw [whole]
    exact constraintBones_of_body geometry hangs
  have id : grown.compiled.id = geometry.compiled.id := by
    rw [compiled_eq, compiled_eq]
  constructor
  · intro fresh
    obtain ⟨earlier, later, without, within⟩ := bodies_of_fresh geometry hangs (bones ▸ fresh)
    rw [← whole] at without
    have isNew : ∀ body ∈ earlier ++ later, body.id ≠ bone.centred.body.value.id :=
      fun body member => id_ne_of_fresh geometry fresh (without ▸ member)
    have fates (other : Bone Float) : other.fate grown.bodies = other.fate geometry.bodies ∨
        ∃ side, other.fate geometry.bodies = .skipped (.unknownBody side bone.name) := by
      rw [within, without]
      exact other.fate_middle isNew
    rw [bodies_compiled geometry, bodies_compiled grown, constraints_compiled geometry,
      constraints_compiled grown, leftOut_fates geometry, leftOut_fates grown, declared, id]
    refine ⟨rfl, ⟨earlier, later, without, within⟩, ?_, ?_, rfl, fun other _ => fates other⟩
    · exact filterMap_sublist_filterMap fun other _ _ => Fate.constraint?_of_stays (fates other)
    · rw [List.filter_filterMap]
      refine filterMap_sublist_filterMap fun other _ skipped told => ?_
      obtain ⟨was, kept⟩ := Option.filter_eq_some_iff.1 told
      exact Fate.skipped?_of_stays (fates other) was (by simpa using kept)
  · rintro ⟨other, isBefore, isBody, name⟩
    have bodies : grown.bodies = geometry.bodies := by
      rw [whole]
      exact bodies_of_repeated geometry hangs isBefore isBody name
    constructor
    · rw [compiled_eq geometry, compiled_eq grown, bonesOf_constraint, bonesOf_constraint, declared,
        bodies]
    · rw [leftOut_fates geometry, leftOut_fates grown, declared, bodies, id]

end Geometry

/-- The driver whom the reins of a sledge miss. -/
def driver : Bone Float := .hung bodyParent "driver" ⟨0, 8, 0⟩ []

/-- A driver who takes a seat on a sledge takes nothing away from it. The reins have what they
missed, and what else they lack comes to light. A second horse is passed over. -/
theorem prefab_insertion_sledge :
    let empty := sledge [horse, runner, shaft .zero, reins .zero]
    let driven := sledge [horse, driver, runner, shaft .zero, reins .zero]
    let second : Bone Float := .hung bodyParent "horse" .zero ["type_lock"]
    let doubled := sledge [horse, runner, second, shaft .zero, reins .zero]
    (∃ earlier later, empty.compiled.bodies = earlier ++ later ∧
      driven.compiled.bodies = earlier ++ driver.centred.body.value :: later) ∧
    empty.compiled.constraints.Sublist driven.compiled.constraints ∧
    empty.leftOut.map (·.reason) = [.unknownBody .a "driver"] ∧
    driven.leftOut.map (·.reason) = [.missingOption .distance] ∧
    doubled.compiled = empty.compiled ∧ doubled.leftOut = empty.leftOut := by
  intro empty driven second doubled
  have fresh : ∀ other ∈ empty.bones, other.parent = some bodyParent →
      other.name ≠ driver.name := by
    have names : ∀ name ∈ empty.bones.map (·.name), name ≠ driver.name := by decide
    exact fun other member _ => names _ (List.mem_map_of_mem member)
  have seated : empty.bones = [horse] ++ [runner, shaft .zero, reins .zero] := rfl
  have harnessed : empty.bones = [horse, runner] ++ [shaft .zero, reins .zero] := rfl
  have grown := (Geometry.prefab_insertion empty _ _ driver seated rfl).1 fresh
  have same := (Geometry.prefab_insertion empty _ _ second harnessed rfl).2
    ⟨horse, List.mem_cons_self, rfl, rfl⟩
  exact ⟨grown.2.1, grown.2.2.1, by rfl, by rfl, same⟩

end PhysicsPrefab
