import PhysicsPrefab.Prefab.Constraint

/-!
# Outcomes of constraints

A constraint that was built links two different bodies of the list it was built from
(`CentredBone.constraint_built`). One that was left out because of an unknown body names an id
that no body of that list has (`CentredBone.constraint_unknownBody`), since all that is checked
after the two look-ups finds fault with options alone.
-/

namespace PhysicsPrefab

/-- An error is about an option that is missing or cannot be read. -/
def ConstraintError.IsOptionFault : ConstraintError → Prop
  | missingOption _ | invalidOption _ _ => True
  | unknownBody _ _ | selfReference _ => False

namespace Constraint

open Noted (value_run_bind value_run_liftExcept value_run_liftNoted)

variable {α β : Type}

/-- A step is faulty at most in its options. -/
def OnlyOptionFaults (building : Building α) : Prop :=
  ∀ error, building.run.value = .error error → error.IsOptionFault

/-- Two steps are faulty at most in their options if each of them is. -/
theorem OnlyOptionFaults.bind {first : Building α} {next : α → Building β}
    (head : OnlyOptionFaults first) (tail : ∀ value, OnlyOptionFaults (next value)) :
    OnlyOptionFaults (first >>= next) := by
  intro error failed
  rw [value_run_bind] at failed
  cases answer : first.run.value with
  | error found =>
    rw [answer] at failed
    obtain rfl := Except.error.inj failed
    exact head found answer
  | ok value =>
    rw [answer] at failed
    exact tail value error failed

/-- A step with a value has no fault. -/
theorem OnlyOptionFaults.pure (value : α) : OnlyOptionFaults (pure value : Building α) := by
  intro error failed
  cases failed

/-- A look-up has no fault. -/
theorem OnlyOptionFaults.liftNoted (noted : Noted α) :
    OnlyOptionFaults (liftM noted : Building α) := by
  intro error failed
  cases failed

/-- An option that may be left out is at most undecodable. -/
theorem optional_onlyOptionFaults (locators : NameMap (Locator Float))
    (option : ConstraintOption) (decode : String → Option α) :
    OnlyOptionFaults (optional locators option decode) := by
  refine .bind (.liftNoted _) fun raw => ?_
  cases raw with
  | none => exact .pure none
  | some raw =>
    cases decoded : decode raw with
    | some value => simpa only [decoded] using OnlyOptionFaults.pure (some value)
    | none =>
      simp only [decoded]
      intro error failed
      obtain rfl := Except.error.inj failed
      trivial

/-- An option that must be set is at most missing or undecodable. -/
theorem required_onlyOptionFaults (locators : NameMap (Locator Float))
    (option : ConstraintOption) (decode : String → Option α) :
    OnlyOptionFaults (required locators option decode) := by
  refine .bind (optional_onlyOptionFaults locators option decode) fun value => ?_
  cases value with
  | some value => exact .pure value
  | none =>
    intro error failed
    obtain rfl := Except.error.inj failed
    trivial

/-- Only the options of a hinge can be wrong with it. -/
theorem buildHinge_onlyOptionFaults (locators : NameMap (Locator Float))
    (first second : Body Float) (maxForce : Option Float) :
    OnlyOptionFaults (buildHinge locators first second maxForce) :=
  .bind (required_onlyOptionFaults _ _ _) fun _ =>
  .bind (required_onlyOptionFaults _ _ _) fun _ =>
  .bind (required_onlyOptionFaults _ _ _) fun _ =>
  .bind (required_onlyOptionFaults _ _ _) fun _ =>
  .bind (.liftNoted _) fun _ => .pure _

/-- Once its bodies are found, only the options of a constraint can be wrong with it. -/
theorem buildKind_onlyOptionFaults (locators : NameMap (Locator Float))
    (first second : Body Float) (maxForce : Option Float) (type : ConstraintType) :
    OnlyOptionFaults (buildKind locators first second maxForce type) := by
  cases type with
  | distance => exact .bind (required_onlyOptionFaults _ _ _) fun _ => .pure _
  | lock => exact .pure _
  | hinge => exact .bind (buildHinge_onlyOptionFaults _ _ _ _) fun _ => .pure _
  | twist =>
    exact .bind (buildHinge_onlyOptionFaults _ _ _ _) fun _ =>
      .bind (required_onlyOptionFaults _ _ _) fun _ =>
      .bind (required_onlyOptionFaults _ _ _) fun _ => .pure _
  | point =>
    exact .bind (required_onlyOptionFaults _ _ _) fun _ =>
      .bind (required_onlyOptionFaults _ _ _) fun _ => .pure _

/-- A body that is found is in the list and has the id. -/
theorem findBody_ok {bodies : List (Body Float)} {side : Side} {id : String}
    {body : Body Float} (found : findBody bodies side id = .ok body) :
    body ∈ bodies ∧ body.id = id := by
  unfold findBody at found
  split at found
  · rename_i other here
    obtain rfl := Except.ok.inj found
    exact ⟨List.mem_of_find?_eq_some here, by simpa using List.find?_some here⟩
  · contradiction

/-- A look-up that fails names the side and the id, which no body of the list has. -/
theorem findBody_error {bodies : List (Body Float)} {side : Side} {id : String}
    {error : ConstraintError} (failed : findBody bodies side id = .error error) :
    error = .unknownBody side id ∧ ∀ body ∈ bodies, body.id ≠ id := by
  unfold findBody at failed
  split at failed
  · contradiction
  · rename_i absent
    refine ⟨(Except.error.inj failed).symm, fun body member => ?_⟩
    simpa using List.find?_eq_none.1 absent body member

/-- The checks of a constraint between named bodies, in their order. -/
theorem value_buildBetween (name : String) (locators : NameMap (Locator Float))
    (bodies : List (Body Float)) (type : ConstraintType) (bodyA bodyB : String) :
    (buildBetween name locators bodies type bodyA bodyB).run.value =
      (findBody bodies .a bodyA).bind fun first =>
      (findBody bodies .b bodyB).bind fun second =>
      if first.id = second.id then .error (.selfReference first.id)
      else (optional locators .maxForce Options.decodeNumber).run.value.bind fun maxForce =>
        (buildKind locators first second maxForce type).run.value.bind fun kind =>
        .ok ⟨name, first.id, second.id, kind⟩ := by
  unfold buildBetween
  simp only [value_run_bind, value_run_liftExcept]
  cases findBody bodies .a bodyA with
  | error error => rfl
  | ok first =>
    cases findBody bodies .b bodyB with
    | error error => rfl
    | ok second =>
      simp only [Except.bind]
      split
      · rfl
      · simp only [value_run_bind]
        rfl

/-- A constraint between named bodies that was built links two different bodies of the list. -/
theorem buildBetween_ok {name : String} {locators : NameMap (Locator Float)}
    {bodies : List (Body Float)} {type : ConstraintType} {bodyA bodyB : String}
    {constraint : Constraint}
    (built : (buildBetween name locators bodies type bodyA bodyB).run.value = .ok constraint) :
    constraint.id = name ∧ constraint.bodyA ≠ constraint.bodyB ∧
      constraint.bodyA ∈ bodies.map (·.id) ∧ constraint.bodyB ∈ bodies.map (·.id) := by
  rw [value_buildBetween] at built
  cases foundA : findBody bodies .a bodyA with
  | error error => simp [foundA, Except.bind] at built
  | ok first =>
    cases foundB : findBody bodies .b bodyB with
    | error error => simp [foundA, foundB, Except.bind] at built
    | ok second =>
      simp only [foundA, foundB, Except.bind] at built
      split at built
      · contradiction
      · rename_i apart
        split at built
        · contradiction
        · split at built
          · contradiction
          · obtain rfl := Except.ok.inj built
            exact ⟨rfl, apart, List.mem_map_of_mem (findBody_ok foundA).1,
              List.mem_map_of_mem (findBody_ok foundB).1⟩

/-- An unknown body of a constraint is no body of the list. -/
theorem buildBetween_unknownBody {name : String} {locators : NameMap (Locator Float)}
    {bodies : List (Body Float)} {type : ConstraintType} {bodyA bodyB : String}
    {side : Side} {id : String}
    (failed : (buildBetween name locators bodies type bodyA bodyB).run.value =
      .error (.unknownBody side id)) :
    ∀ body ∈ bodies, body.id ≠ id := by
  rw [value_buildBetween] at failed
  cases foundA : findBody bodies .a bodyA with
  | error error =>
    obtain ⟨rfl, absent⟩ := findBody_error foundA
    simp only [foundA, Except.bind, Except.error.injEq,
      ConstraintError.unknownBody.injEq] at failed
    exact failed.2 ▸ absent
  | ok first =>
    cases foundB : findBody bodies .b bodyB with
    | error error =>
      obtain ⟨rfl, absent⟩ := findBody_error foundB
      simp only [foundA, foundB, Except.bind, Except.error.injEq,
        ConstraintError.unknownBody.injEq] at failed
      exact failed.2 ▸ absent
    | ok second =>
      simp only [foundA, foundB, Except.bind] at failed
      split at failed
      · cases failed
      · split at failed
        · rename_i error wrong
          obtain rfl := Except.error.inj failed
          exact False.elim (optional_onlyOptionFaults _ _ _ _ wrong)
        · split at failed
          · rename_i error wrong
            obtain rfl := Except.error.inj failed
            exact False.elim (buildKind_onlyOptionFaults _ _ _ _ _ _ wrong)
          · contradiction

end Constraint

namespace CentredBone

/-- A bone declares a constraint between named bodies, or none. -/
theorem value_constraint (bone : CentredBone Float) (bodies : List (Body Float)) :
    (bone.constraint bodies).run.value =
      match (Options.lookup bone.locators "type").value,
        (Options.lookup bone.locators "bodya").value,
        (Options.lookup bone.locators "bodyb").value with
      | some typeName, some bodyA, some bodyB =>
        match ConstraintType.ofName? typeName with
        | some type =>
          (Constraint.buildBetween bone.name bone.locators bodies type bodyA bodyB).run.value.map
            some
        | none => .ok none
      | _, _, _ => .ok none := by
  unfold CentredBone.constraint
  simp only [Noted.value_run_bind, Noted.value_run_liftNoted, Except.bind]
  cases (Options.lookup bone.locators "type").value with
  | none => rfl
  | some typeName =>
    cases (Options.lookup bone.locators "bodya").value with
    | none => rfl
    | some bodyA =>
      cases (Options.lookup bone.locators "bodyb").value with
      | none => rfl
      | some bodyB =>
        dsimp only
        cases ConstraintType.ofName? typeName with
        | none => rfl
        | some type =>
          simp only [map_eq_pure_bind, Noted.value_run_bind]
          rfl

/-- A bone that declares a constraint at all declares one between two named bodies. -/
theorem value_constraint_cases (bone : CentredBone Float) (bodies : List (Body Float)) :
    (bone.constraint bodies).run.value = .ok none ∨
      ∃ type bodyA bodyB, (bone.constraint bodies).run.value =
        (Constraint.buildBetween bone.name bone.locators bodies type bodyA bodyB).run.value.map
          some := by
  rw [value_constraint]
  split
  · split
    · exact .inr ⟨_, _, _, rfl⟩
    · exact .inl rfl
  · exact .inl rfl

/-- A constraint that was built has the name of its bone and links two different bodies of the
list it was built from. -/
theorem constraint_built {bone : CentredBone Float} {bodies : List (Body Float)}
    {constraint : Constraint}
    (built : (bone.constraint bodies).run.value = .ok (some constraint)) :
    constraint.id = bone.name ∧ constraint.bodyA ≠ constraint.bodyB ∧
      constraint.bodyA ∈ bodies.map (·.id) ∧ constraint.bodyB ∈ bodies.map (·.id) := by
  rcases value_constraint_cases bone bodies with nothing | ⟨type, bodyA, bodyB, same⟩
  · rw [nothing] at built
    cases built
  · rw [same] at built
    cases outcome : (Constraint.buildBetween bone.name bone.locators bodies type bodyA
        bodyB).run.value with
    | error error => simp [outcome, Except.map] at built
    | ok found =>
      simp only [outcome, Except.map, Except.ok.injEq, Option.some.injEq] at built
      exact built ▸ Constraint.buildBetween_ok outcome

/-- An unknown body of a constraint that was left out is no body of the list. -/
theorem constraint_unknownBody {bone : CentredBone Float} {bodies : List (Body Float)}
    {side : Side} {id : String}
    (failed : (bone.constraint bodies).run.value = .error (.unknownBody side id)) :
    ∀ body ∈ bodies, body.id ≠ id := by
  rcases value_constraint_cases bone bodies with nothing | ⟨type, bodyA, bodyB, same⟩
  · rw [nothing] at failed
    cases failed
  · rw [same] at failed
    cases outcome : (Constraint.buildBetween bone.name bone.locators bodies type bodyA
        bodyB).run.value with
    | error error =>
      simp only [outcome, Except.map, Except.error.injEq] at failed
      subst failed
      exact Constraint.buildBetween_unknownBody outcome
    | ok found => simp [outcome, Except.map] at failed

end CentredBone

end PhysicsPrefab
