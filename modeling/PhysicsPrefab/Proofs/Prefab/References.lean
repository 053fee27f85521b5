import PhysicsPrefab.Proofs.NameMaps
import PhysicsPrefab.Proofs.Options.Declared
import PhysicsPrefab.Proofs.Options.Numbers
import PhysicsPrefab.Proofs.Prefab.Faults

/-!
# References to bodies

The name by which a constraint refers to a body is trimmed, and the names of the bodies are not. So
a reference by the exact name of a body leads to the body that has the trimmed name, and that is the
one meant only if trimming changes nothing (`bodies_referenced`). Pivots are different in this: the
names of locators are trimmed as well.
-/

namespace PhysicsPrefab

open Options (IsFirst IsWord declaring trim)

/-- A value that was reported is as it should be. -/
theorem Constraint.Reports.holds {α : Type} {value : α} {faults : List ConstraintError}
    {holds : α → Prop} (reports : Reports (.ok value) faults holds) : holds value := by
  cases faults with
  | nil =>
    obtain ⟨found, same, isHeld⟩ := reports
    exact Except.ok.inj same ▸ isHeld
  | cons fault rest => cases reports

/-- The key of the option that names the body of a side. -/
def Side.key : Side → String
  | a => "bodya"
  | b => "bodyb"

/-- The body of a side. -/
def Constraint.body (constraint : Constraint) : Side → String
  | .a => constraint.bodyA
  | .b => constraint.bodyB

/-- If all bodies have different names, a body is found exactly by its own. -/
theorem Constraint.findBody_eq_ok {bodies : List (Body Float)} (side : Side) {id : String}
    {body : Body Float} (distinct : (bodies.map (·.id)).Nodup) (member : body ∈ bodies) :
    findBody bodies side id = .ok body ↔ body.id = id := by
  constructor
  · intro found
    exact (findBody_ok found).2
  · intro named
    cases outcome : findBody bodies side id with
    | error error =>
      obtain ⟨-, absent⟩ := findBody_error outcome
      exact absurd named (absent body member)
    | ok found =>
      obtain ⟨isMember, isNamed⟩ := findBody_ok outcome
      rw [List.inj_on_of_nodup_map distinct isMember member (isNamed.trans named.symm)]

namespace CentredBone

variable {bone : CentredBone Float} {bodies : List (Body Float)} {side : Side}
  {body other : Body Float}

/-- The body that a bone refers to for a side, if the option is set. -/
def reference? (bone : CentredBone Float) (bodies : List (Body Float)) (side : Side) :
    Option (Except ConstraintError (Body Float)) :=
  (bone.option? side.key).map (Constraint.findBody bodies side)

/-- A reference leads to the first body of the name that it is set to. -/
theorem reference?_of_find? {id : String} (side : Side) (isSet : bone.option? side.key = some id)
    (found : bodies.find? (fun body => body.id == id) = some body) :
    bone.reference? bodies side = some (.ok body) ∧ body.id = id := by
  refine ⟨?_, by simpa using List.find?_some found⟩
  rw [reference?, isSet, Option.map_some, Constraint.findBody, found]

/-- A constraint that was built links the bodies that its bone refers to. -/
theorem reference?_of_built {constraint : Constraint}
    (built : (bone.constraint bodies).run.value = .ok (some constraint)) (side : Side) :
    ∃ body, bone.reference? bodies side = some (.ok body) ∧ constraint.body side = body.id := by
  rw [value_constraint] at built
  split at built
  · rename_i typeName bodyA bodyB isType isA isB
    split at built
    · rename_i type known
      have reports := Constraint.buildBetween_reports bone bodies type bodyA bodyB
      cases outcome : (Constraint.buildBetween bone.name bone.locators bodies type bodyA
          bodyB).run.value with
      | error error =>
        rw [outcome] at built
        cases built
      | ok found =>
        rw [outcome] at built reports
        obtain rfl : found = constraint := Option.some.inj (Except.ok.inj built)
        have isRead := reports.holds
        obtain ⟨first, second, isFirst, isSecond, -⟩ := isRead.kind
        cases side with
        | a =>
          obtain ⟨leads, named⟩ := reference?_of_find? .a isA isFirst
          exact ⟨first, leads, isRead.bodyA.trans named.symm⟩
        | b =>
          obtain ⟨leads, named⟩ := reference?_of_find? .b isB isSecond
          exact ⟨second, leads, isRead.bodyB.trans named.symm⟩
    · cases built
  · cases built

/-- A reference is looked up by its trimmed text. -/
theorem reference?_eq (bodies : List (Body Float)) {written : String} (proper : written ≠ "")
    (first : IsFirst bone.locators side.key written) :
    bone.reference? bodies side = some (Constraint.findBody bodies side (trim written)) := by
  rw [reference?, option?, first.value_lookup, if_neg proper]
  rfl

/-- A constraint that was built links the bodies of the trimmed names. -/
theorem body_of_built {constraint : Constraint} {written : String} (proper : written ≠ "")
    (first : IsFirst bone.locators side.key written)
    (built : (bone.constraint bodies).run.value = .ok (some constraint)) :
    constraint.body side = trim written := by
  obtain ⟨body, leads, linked⟩ := reference?_of_built built side
  rw [reference?_eq bodies proper first, Option.some.injEq] at leads
  rw [linked, (Constraint.findBody_ok leads).2]

end CentredBone

section Lock

variable {nameA nameB : String}

/-- The key of the type is a word. -/
theorem isWord_type : IsWord "type".toList := by
  simp [IsWord, Options.isSeparator]

/-- The key of the largest force is a word. -/
theorem isWord_maxForce : IsWord "maxforce".toList := by
  simp [IsWord, Options.isSeparator]

/-- The key of a side is a word. -/
theorem isWord_key (side : Side) : IsWord side.key.toList := by
  cases side <;> simp [IsWord, Side.key, Options.isSeparator]

/-- The locators of a bone that locks two bodies. -/
def lockNames (nameA nameB : String) : List String :=
  [declaring "type" "lock", declaring (Side.key .a) nameA, declaring (Side.key .b) nameB]

/-- A bone that locks two bodies. -/
def lockBone (nameA nameB : String) : CentredBone Float :=
  ⟨"lock", some constraintParent, .zero,
    .ofList ((lockNames nameA nameB).map fun name => (name, .point .zero)), [], .empty⟩

/-- The name that declares the type declares no body. -/
theorem declaring_type_ne (side : Side) (value text : String) :
    declaring "type" value ≠ declaring side.key text :=
  Options.declaring_ne isWord_type (isWord_key side) (by cases side <;> decide) value text

/-- The side and the body are known from the name that declares them. -/
theorem declaring_side_inj {side other : Side} {value text : String} :
    declaring side.key value = declaring other.key text ↔ side = other ∧ value = text := by
  have keys : side.key = other.key ↔ side = other := by cases side <;> cases other <;> decide
  rw [Options.declaring_inj (isWord_key side) (isWord_key other), keys]

/-- The three locators of such a bone are different. -/
theorem nodup_lockNames (nameA nameB : String) : (lockNames nameA nameB).Nodup := by
  simp [lockNames, declaring_type_ne, declaring_side_inj]

/-- A bone that locks two bodies has these three locators. -/
theorem mem_names_lockBone {name : String} :
    name ∈ (lockBone nameA nameB).locators.names ↔ name ∈ lockNames nameA nameB := by
  have names : ((lockNames nameA nameB).map fun name =>
      (name, (Locator.point .zero : Locator Float))).map (·.1) = lockNames nameA nameB := by
    rw [List.map_map]
    exact List.map_id _
  have perm := (NameMap.perm_ofList (names ▸ nodup_lockNames nameA nameB)).map (·.1)
  rw [names] at perm
  exact perm.mem_iff

/-- A lock is declared as such. -/
theorem isFirst_type_lockBone : IsFirst (lockBone nameA nameB).locators "type" "lock" := by
  refine Options.isFirst_of_only (mem_names_lockBone.2 List.mem_cons_self) fun other member => ?_
  rw [mem_names_lockBone] at member
  simpa [lockNames, declaring_type_ne, Options.declaring_inj isWord_type isWord_type] using member

/-- The bodies of a lock are declared by their names. -/
theorem isFirst_side_lockBone (side : Side) : IsFirst (lockBone nameA nameB).locators side.key
    (match side with | .a => nameA | .b => nameB) := by
  refine Options.isFirst_of_only (mem_names_lockBone.2 ?_) fun other member => ?_
  · cases side <;> simp [lockNames]
  · rw [mem_names_lockBone] at member
    cases side <;>
      simpa [lockNames, (declaring_type_ne _ _ _).symm, declaring_side_inj] using member

/-- The force of a lock is not limited. -/
theorem maxForce_lockBone : (lockBone nameA nameB).option? "maxforce" = none := by
  refine Options.value_lookup_of_undeclared fun value member => ?_
  rw [mem_names_lockBone] at member
  have differs {key : String} (isWord : IsWord key.toList) (other : "maxforce" ≠ key)
      (text : String) : declaring "maxforce" value ≠ declaring key text :=
    Options.declaring_ne isWord_maxForce isWord other value text
  simp only [lockNames, List.mem_cons, List.not_mem_nil, or_false] at member
  rcases member with same | same | same
  · exact differs isWord_type (by decide) _ same
  · exact differs (isWord_key .a) (by decide) _ same
  · exact differs (isWord_key .b) (by decide) _ same

end Lock

/-- A name is not changed when it is trimmed: it does not end with a separator, or it is one. -/
def IsReferable (id : String) : Prop := id = "_" ∨ id.toList.getLast? ≠ some '_'

/-- A lock between two different bodies that can be referred to is what its bone declares. -/
theorem value_lockBone {bodies : List (Body Float)} {first second : Body Float}
    (distinct : (bodies.map (·.id)).Nodup) (firstMember : first ∈ bodies)
    (secondMember : second ∈ bodies) (firstProper : first.id ≠ "") (secondProper : second.id ≠ "")
    (firstReferable : IsReferable first.id) (secondReferable : IsReferable second.id)
    (apart : first.id ≠ second.id) :
    ((lockBone first.id second.id).constraint bodies).run.value =
      .ok (some ⟨"lock", first.id, second.id, .lock none⟩) := by
  have isType : (lockBone first.id second.id).option? "type" = some ConstraintType.lock.name := by
    rw [CentredBone.option?, isFirst_type_lockBone.value_lookup]
    rfl
  have named {side : Side} {id : String} (proper : id ≠ "") (referable : IsReferable id)
      (isFirst : IsFirst (lockBone first.id second.id).locators side.key id) :
      (lockBone first.id second.id).option? side.key = some id := by
    rw [CentredBone.option?, isFirst.value_lookup, if_neg proper,
      Options.trim_eq_self_iff.2 referable]
  have isA := named firstProper firstReferable (isFirst_side_lockBone .a)
  have isB := named secondProper secondReferable (isFirst_side_lockBone .b)
  have foundA := (Constraint.findBody_eq_ok .a distinct firstMember).2 rfl
  have foundB := (Constraint.findBody_eq_ok .b distinct secondMember).2 rfl
  have noForce : (Options.lookup (lockBone first.id second.id).locators "maxforce").value = none :=
    maxForce_lockBone
  rw [CentredBone.value_constraint_of_declared bodies isType isA isB, Constraint.value_buildBetween,
    foundA, foundB]
  simp only [Except.bind, if_neg apart, Constraint.value_optional, ConstraintOption.key, noForce]
  rfl

/-- A reference by the exact name of a body leads to the body that has the trimmed name, and to none
if no body has. So it leads to the body meant exactly if trimming does not change the name, and a
constraint between two bodies can be written by their exact names exactly if it changes neither. -/
theorem bodies_referenced (bodies : List (Body Float)) (distinct : (bodies.map (·.id)).Nodup)
    (proper : ∀ body ∈ bodies, body.id ≠ "") :
    (∀ (bone : CentredBone Float) (side : Side), ∀ body ∈ bodies,
      IsFirst bone.locators side.key body.id →
      (bone.reference? bodies side = some (.ok body) ↔ IsReferable body.id) ∧
      (∀ other ∈ bodies,
        bone.reference? bodies side = some (.ok other) ↔ other.id = trim body.id) ∧
      ((∀ other ∈ bodies, other.id ≠ trim body.id) →
        bone.reference? bodies side = some (.error (.unknownBody side (trim body.id)))) ∧
      ∀ constraint, (bone.constraint bodies).run.value = .ok (some constraint) →
        constraint.body side = trim body.id) ∧
    ∀ first ∈ bodies, ∀ second ∈ bodies, first.id ≠ second.id →
      ((∃ (bone : CentredBone Float) (constraint : Constraint),
        IsFirst bone.locators (Side.key .a) first.id ∧
        IsFirst bone.locators (Side.key .b) second.id ∧
        (bone.constraint bodies).run.value = .ok (some constraint) ∧
        constraint.bodyA = first.id ∧ constraint.bodyB = second.id) ↔
          IsReferable first.id ∧ IsReferable second.id) := by
  refine ⟨fun bone side body member isFirst => ?_,
    fun first firstMember second secondMember apart => ⟨?_, ?_⟩⟩
  · have notEmpty := proper body member
    rw [CentredBone.reference?_eq bodies notEmpty isFirst]
    simp only [Option.some.injEq]
    refine ⟨?_, fun other otherMember => Constraint.findBody_eq_ok side distinct otherMember, ?_,
      fun constraint => CentredBone.body_of_built notEmpty isFirst⟩
    · rw [Constraint.findBody_eq_ok side distinct member, eq_comm, Options.trim_eq_self_iff]
      rfl
    · intro absent
      cases outcome : Constraint.findBody bodies side (trim body.id) with
      | error error => rw [(Constraint.findBody_error outcome).1]
      | ok found =>
        obtain ⟨isMember, named⟩ := Constraint.findBody_ok outcome
        exact absurd named (absent found isMember)
  · rintro ⟨bone, constraint, isA, isB, built, sameA, sameB⟩
    have trimmedA := CentredBone.body_of_built (proper first firstMember) isA built
    have trimmedB := CentredBone.body_of_built (proper second secondMember) isB built
    exact ⟨Options.trim_eq_self_iff.1 (trimmedA.symm.trans sameA),
      Options.trim_eq_self_iff.1 (trimmedB.symm.trans sameB)⟩
  · rintro ⟨firstReferable, secondReferable⟩
    exact ⟨lockBone first.id second.id, _, isFirst_side_lockBone .a, isFirst_side_lockBone .b,
      value_lockBone distinct firstMember secondMember (proper first firstMember)
        (proper second secondMember) firstReferable secondReferable apart, rfl, rfl⟩

/-- Two parts of a gate can be linked by their names. -/
theorem bodies_referenced_gate :
    ∃ (bone : CentredBone Float) (constraint : Constraint),
      IsFirst bone.locators "bodya" "post" ∧ IsFirst bone.locators "bodyb" "leaf" ∧
      (bone.constraint [gatePart "post" "hook", gatePart "leaf" "eye"]).run.value =
        .ok (some constraint) ∧
      constraint.bodyA = "post" ∧ constraint.bodyB = "leaf" := by
  have gate := bodies_referenced [gatePart "post" "hook", gatePart "leaf" "eye"]
    (by decide) (by simp [gatePart])
  exact (gate.2 _ List.mem_cons_self _ (List.mem_cons_of_mem _ List.mem_cons_self) (by decide)).2
    ⟨.inr (by decide), .inr (by decide)⟩

/-- A lock that names a wheel by its exact name, which ends with a separator, links the axle to
another wheel. -/
theorem wheel_misreferenced :
    let bodies := [gatePart "wheel" "hub", gatePart "wheel_" "hub", gatePart "axle" "end"]
    let bone := lockBone "wheel_" "axle"
    (bodies.map (·.id)).Nodup ∧ (∀ body ∈ bodies, body.id ≠ "") ∧
    Options.given bone.locators.names "bodya" = ["wheel_"] ∧
    bone.reference? bodies .a ≠ some (.ok (gatePart "wheel_" "hub")) ∧
    bone.reference? bodies .a = some (.ok (gatePart "wheel" "hub")) ∧
    (bone.constraint bodies).run.value = .ok (some ⟨"lock", "wheel", "axle", .lock none⟩) := by
  intro bodies bone
  have leads : bone.reference? bodies .a = some (.ok (gatePart "wheel" "hub")) := rfl
  refine ⟨by decide, by simp [bodies, gatePart], rfl, fun own => ?_, leads, rfl⟩
  have same := congrArg Body.id (Except.ok.inj (Option.some.inj (leads.symm.trans own)))
  exact absurd same (by decide)

end PhysicsPrefab
