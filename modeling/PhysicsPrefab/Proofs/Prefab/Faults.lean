import PhysicsPrefab.Proofs.Prefab.Constraint

/-!
# The outcome of a constraint

Whether a bone declares a constraint, which of its faults is told, and what the constraint is made
of if it has none (`CentredBone.constraint_outcome`). The faults are listed in the order in which
they are looked for, and each step of building reports the first of its own (`Constraint.Reports`),
so the steps can be put together without going through the ways in which they fail.
-/

namespace PhysicsPrefab

variable {α β : Type}

namespace ConstraintType

/-- The options that a hinge needs. -/
def hingeOptions : List ConstraintOption := [.pivotA, .pivotB, .axisA, .axisB]

/-- The options that a type needs, in the order in which they are looked for. -/
def required : ConstraintType → List ConstraintOption
  | distance => [.distance]
  | lock => []
  | hinge => hingeOptions
  | twist => hingeOptions ++ [.angle, .twistAngle]
  | point => [.pivotA, .pivotB]

/-- The keys of all options that belong to a type. -/
def keys (type : ConstraintType) : List String :=
  match type with
  | hinge | twist => "maxforce" :: "collideconnected" :: type.required.map ConstraintOption.key
  | distance | lock | point => "maxforce" :: type.required.map ConstraintOption.key

/-- The key of an option that a type needs belongs to the type. -/
theorem key_mem_keys {type : ConstraintType} {option : ConstraintOption}
    (needed : option ∈ type.required) : option.key ∈ type.keys := by
  have isKey : option.key ∈ type.required.map ConstraintOption.key := List.mem_map_of_mem needed
  cases type with
  | hinge | twist => exact List.mem_cons_of_mem _ (List.mem_cons_of_mem _ isKey)
  | distance | lock | point => exact List.mem_cons_of_mem _ isKey

/-- A type is known by its name. -/
theorem ofName?_name (type : ConstraintType) : ofName? type.name = some type := by
  cases type <;> rfl

/-- The type of a name has this name. -/
theorem name_of_ofName? {name : String} {type : ConstraintType}
    (known : ofName? name = some type) : type.name = name := by
  simpa using List.find?_some known

/-- There are five names of types. -/
theorem ofName?_eq_none {name : String} :
    ofName? name = none ↔ name ∉ ["distance", "lock", "hinge", "twist", "point"] := by
  rw [ofName?, List.find?_eq_none]
  constructor
  · intro unknown known
    simp only [List.mem_cons, List.not_mem_nil, or_false] at known
    rcases known with rfl | rfl | rfl | rfl | rfl <;> simp [ConstraintType.name] at unknown
  · rintro unknown type - same
    rw [← eq_of_beq same] at unknown
    cases type <;> simp [ConstraintType.name] at unknown

end ConstraintType

/-- Whether a value of an option can be read, given the bodies that the sides name. -/
def ConstraintOption.isReadable (first second : Option (Body Float)) (raw : String) :
    ConstraintOption → Bool
  | maxForce | distance | angle | twistAngle =>
    (Options.decodeNumber raw : Option Float).isSome
  | axisA | axisB => (Options.decodeVec3 raw : Option (Vec3 Float)).isSome
  | pivotA => (first.bind fun body => body.place? raw).isSome
  | pivotB => (second.bind fun body => body.place? raw).isSome

namespace CentredBone

variable (bone : CentredBone Float) (bodies : List (Body Float))

/-- The value of an option of a bone. -/
def option? (key : String) : Option String := (Options.lookup bone.locators key).value

/-- The value of an option of a bone as it is read. -/
def decoded? (option : ConstraintOption) (decode : String → Option α) : Option α :=
  (bone.option? option.key).bind decode

/-- The keys of the options that a bone is asked for. -/
def askedKeys : List String :=
  ["type", "bodya", "bodyb"] ++
    ((bone.option? "type").bind ConstraintType.ofName?).elim [] ConstraintType.keys

/-- What is wrong with an option that may be left out. -/
def optionalFaults (first second : Option (Body Float)) (option : ConstraintOption) :
    List ConstraintError :=
  match bone.option? option.key with
  | none => []
  | some raw => if option.isReadable first second raw then [] else [.invalidOption option raw]

/-- What is wrong with an option that must be set. -/
def requiredFaults (first second : Option (Body Float)) (option : ConstraintOption) :
    List ConstraintError :=
  match bone.option? option.key with
  | none => [.missingOption option]
  | some raw => if option.isReadable first second raw then [] else [.invalidOption option raw]

end CentredBone

/-- What is wrong with the body that a side names. -/
def bodyFaults (bodies : List (Body Float)) (side : Side) (id : String) : List ConstraintError :=
  if bodies.any fun body => body.id == id then [] else [.unknownBody side id]

/-- All that is wrong with a constraint of a type between two named bodies, in the order in which it
is looked for. -/
def CentredBone.faults (bone : CentredBone Float) (bodies : List (Body Float))
    (type : ConstraintType) (bodyA bodyB : String) : List ConstraintError :=
  let first := bodies.find? fun body => body.id == bodyA
  let second := bodies.find? fun body => body.id == bodyB
  bodyFaults bodies .a bodyA ++ bodyFaults bodies .b bodyB ++
    (if bodyA = bodyB then [.selfReference bodyA] else []) ++
    bone.optionalFaults first second .maxForce ++
    type.required.flatMap (bone.requiredFaults first second)

/-- A hinge between two bodies is made of the values of its own options. -/
structure Hinge.ReadFrom (hinge : Hinge) (bone : CentredBone Float) (first second : Body Float) :
    Prop where
  /-- The first pivot is a place on the first body. -/
  pivotA : bone.decoded? .pivotA first.place? = some hinge.pivotA
  /-- The second pivot is a place on the second body. -/
  pivotB : bone.decoded? .pivotB second.place? = some hinge.pivotB
  /-- The first axis is a vector. -/
  axisA : bone.decoded? .axisA Options.decodeVec3 = some hinge.axisA
  /-- The second axis is a vector. -/
  axisB : bone.decoded? .axisB Options.decodeVec3 = some hinge.axisB
  /-- The largest force is a number, if set. -/
  maxForce : hinge.maxForce = bone.decoded? .maxForce Options.decodeNumber
  /-- The bodies collide exactly if the option is a number other than zero. -/
  collideConnected : hinge.collideConnected = true ↔
    ∃ number : Float, (bone.option? "collideconnected").bind Options.decodeNumber = some number ∧
      (number == 0.0) = false

/-- What a constraint of a type does follows from the values of its own options. -/
def ConstraintKind.ReadFrom (bone : CentredBone Float) (first second : Body Float) :
    ConstraintType → ConstraintKind → Prop
  | .distance, distance length maxForce =>
    bone.decoded? .distance Options.decodeNumber = some length ∧
      maxForce = bone.decoded? .maxForce Options.decodeNumber
  | .lock, lock maxForce => maxForce = bone.decoded? .maxForce Options.decodeNumber
  | .hinge, hinge parts => parts.ReadFrom bone first second
  | .twist, twist parts angle twistAngle =>
    parts.ReadFrom bone first second ∧
      bone.decoded? .angle Options.decodeNumber = some angle ∧
      bone.decoded? .twistAngle Options.decodeNumber = some twistAngle
  | .point, point pivotA pivotB maxForce =>
    bone.decoded? .pivotA first.place? = some pivotA ∧
      bone.decoded? .pivotB second.place? = some pivotB ∧
      maxForce = bone.decoded? .maxForce Options.decodeNumber
  | _, _ => False

/-- A constraint is the one that a bone declares. -/
structure Constraint.ReadFrom (constraint : Constraint) (bone : CentredBone Float)
    (bodies : List (Body Float)) (type : ConstraintType) (idA idB : String) : Prop where
  /-- It has the name of the bone. -/
  id : constraint.id = bone.name
  /-- The first body is the one that is named. -/
  bodyA : constraint.bodyA = idA
  /-- So is the second body. -/
  bodyB : constraint.bodyB = idB
  /-- What it does is read with the first bodies of these names. -/
  kind : ∃ first second, bodies.find? (fun body => body.id == idA) = some first ∧
    bodies.find? (fun body => body.id == idB) = some second ∧
    constraint.kind.ReadFrom bone first second type

/-- A truth value is set to a number other than zero. -/
theorem Options.decodeFlag_eq_true {raw : Option String} : Options.decodeFlag raw = true ↔
    ∃ number : Float, raw.bind Options.decodeNumber = some number ∧ (number == 0.0) = false := by
  unfold Options.decodeFlag
  cases raw.bind (Options.decodeNumber (α := Float)) with
  | none => simp
  | some number => simp [Scalar.isZero]

namespace Constraint

open Noted (value_run_bind value_run_liftExcept value_run_liftNoted)

/-- An outcome is the first of some faults, or there are none and its value is as it should be. -/
def Reports (outcome : Except ConstraintError α) (faults : List ConstraintError)
    (holds : α → Prop) : Prop :=
  match faults with
  | fault :: _ => outcome = .error fault
  | [] => ∃ value, outcome = .ok value ∧ holds value

/-- A value reports nothing. -/
theorem Reports.ok {value : α} {holds : α → Prop} (isHeld : holds value) :
    Reports (.ok value) [] holds := ⟨value, rfl, isHeld⟩

/-- The second of two steps reports only if the first has nothing to report. -/
theorem Reports.bind {outcome : Except ConstraintError α} {next : α → Except ConstraintError β}
    {faults others : List ConstraintError} {holds : α → Prop} {holdsAfter : β → Prop}
    (head : Reports outcome faults holds)
    (tail : ∀ value, holds value → Reports (next value) others holdsAfter) :
    Reports (outcome.bind next) (faults ++ others) holdsAfter := by
  cases faults with
  | nil =>
    obtain ⟨value, rfl, isHeld⟩ := head
    exact tail value isHeld
  | cons fault rest =>
    obtain rfl : outcome = .error fault := head
    exact rfl

section Values

variable (locators : NameMap (Locator Float))

/-- An option that may be left out is what it decodes to. -/
theorem value_optional (option : ConstraintOption) (decode : String → Option α) :
    (optional locators option decode).run.value =
      match (Options.lookup locators option.key).value with
      | none => .ok none
      | some raw =>
        match decode raw with
        | some value => .ok (some value)
        | none => .error (.invalidOption option raw) := by
  simp only [optional, value_run_bind, value_run_liftNoted, Except.bind]
  cases (Options.lookup locators option.key).value with
  | none => rfl
  | some raw => cases found : decode raw <;> simp only [found] <;> rfl

/-- An option that must be set is what it decodes to. -/
theorem value_required (option : ConstraintOption) (decode : String → Option α) :
    (required locators option decode).run.value =
      match (Options.lookup locators option.key).value with
      | none => .error (.missingOption option)
      | some raw =>
        match decode raw with
        | some value => .ok value
        | none => .error (.invalidOption option raw) := by
  simp only [required, value_run_bind, value_optional]
  cases (Options.lookup locators option.key).value with
  | none => rfl
  | some raw =>
    dsimp only
    cases decode raw <;> rfl

/-- The options of a hinge are read in their order. -/
theorem value_buildHinge (first second : Body Float) (maxForce : Option Float) :
    (buildHinge locators first second maxForce).run.value =
      (required locators .pivotA first.place?).run.value.bind fun pivotA =>
      (required locators .pivotB second.place?).run.value.bind fun pivotB =>
      (required locators .axisA Options.decodeVec3).run.value.bind fun axisA =>
      (required locators .axisB Options.decodeVec3).run.value.bind fun axisB =>
      .ok ⟨pivotA, pivotB, axisA, axisB, maxForce,
        Options.decodeFlag (Options.lookup locators "collideconnected").value⟩ := by
  simp only [buildHinge, value_run_bind]
  rfl

end Values

section Steps

variable (bone : CentredBone Float) {decode : String → Option α}
  {first second : Option (Body Float)} {option : ConstraintOption}

/-- An option that may be left out has its value, or what is wrong with it is reported. -/
theorem optional_reports
    (readable : ∀ raw, option.isReadable first second raw = (decode raw).isSome) :
    Reports (optional bone.locators option decode).run.value
      (bone.optionalFaults first second option) (· = bone.decoded? option decode) := by
  rw [value_optional, CentredBone.optionalFaults, CentredBone.decoded?, CentredBone.option?]
  cases (Options.lookup bone.locators option.key).value with
  | none => exact .ok rfl
  | some raw =>
    simp only [readable, Option.bind_some]
    cases decode raw with
    | none => exact rfl
    | some value => exact .ok rfl

/-- An option that must be set has its value, or what is wrong with it is reported. -/
theorem required_reports
    (readable : ∀ raw, option.isReadable first second raw = (decode raw).isSome) :
    Reports (required bone.locators option decode).run.value
      (bone.requiredFaults first second option) (bone.decoded? option decode = some ·) := by
  rw [value_required, CentredBone.requiredFaults, CentredBone.decoded?, CentredBone.option?]
  cases (Options.lookup bone.locators option.key).value with
  | none => exact rfl
  | some raw =>
    simp only [readable, Option.bind_some]
    cases decode raw with
    | none => exact rfl
    | some value => exact .ok rfl

end Steps

section Bodies

variable (bone : CentredBone Float) (first second : Body Float)

/-- A hinge is read from its options, or the first thing wrong with them is reported. -/
theorem buildHinge_reports :
    Reports (buildHinge bone.locators first second
        (bone.decoded? .maxForce Options.decodeNumber)).run.value
      (ConstraintType.hingeOptions.flatMap (bone.requiredFaults (some first) (some second)))
      (·.ReadFrom bone first second) := by
  rw [value_buildHinge]
  refine .bind (required_reports bone fun _ => rfl) fun pivotA isPivotA => ?_
  refine .bind (required_reports bone fun _ => rfl) fun pivotB isPivotB => ?_
  refine .bind (required_reports bone fun _ => rfl) fun axisA isAxisA => ?_
  refine .bind (required_reports bone fun _ => rfl) fun axisB isAxisB => ?_
  exact .ok ⟨isPivotA, isPivotB, isAxisA, isAxisB, rfl, Options.decodeFlag_eq_true⟩

/-- What a constraint does is read from the options of its type, or the first thing wrong with them
is reported. -/
theorem buildKind_reports (type : ConstraintType) :
    Reports (buildKind bone.locators first second
        (bone.decoded? .maxForce Options.decodeNumber) type).run.value
      (type.required.flatMap (bone.requiredFaults (some first) (some second)))
      (·.ReadFrom bone first second type) := by
  cases type with
  | distance =>
    simp only [buildKind, value_run_bind]
    exact .bind (required_reports bone fun _ => rfl) fun length isLength => .ok ⟨isLength, rfl⟩
  | lock => exact .ok rfl
  | hinge =>
    rw [← List.append_nil (ConstraintType.hinge.required.flatMap _)]
    simp only [buildKind, value_run_bind]
    exact .bind (buildHinge_reports bone first second) fun parts areRead => .ok areRead
  | twist =>
    rw [ConstraintType.required, List.flatMap_append]
    simp only [buildKind, value_run_bind]
    refine .bind (buildHinge_reports bone first second) fun parts areRead => ?_
    refine .bind (required_reports bone fun _ => rfl) fun angle isAngle => ?_
    refine .bind (required_reports bone fun _ => rfl) fun twistAngle isTwistAngle => ?_
    exact .ok ⟨areRead, isAngle, isTwistAngle⟩
  | point =>
    simp only [buildKind, value_run_bind]
    refine .bind (required_reports bone fun _ => rfl) fun pivotA isPivotA => ?_
    refine .bind (required_reports bone fun _ => rfl) fun pivotB isPivotB => ?_
    exact .ok ⟨isPivotA, isPivotB, rfl⟩

end Bodies

/-- The body that a side names is the first of its name, or it is reported. -/
theorem findBody_reports (bodies : List (Body Float)) (side : Side) (id : String) :
    Reports (findBody bodies side id) (bodyFaults bodies side id) fun body =>
      bodies.find? (fun body => body.id == id) = some body := by
  rw [findBody, bodyFaults]
  cases found : bodies.find? fun body => body.id == id with
  | none =>
    have unknown : (bodies.any fun body => body.id == id) = false := by
      simpa using found
    rw [unknown]
    exact rfl
  | some body =>
    have known : (bodies.any fun body => body.id == id) = true :=
      List.any_eq_true.2
        ⟨body, List.mem_of_find?_eq_some found, by simpa using List.find?_some found⟩
    rw [known]
    exact .ok rfl

/-- A constraint between named bodies is the one that the bone declares, or the first thing wrong
with it is reported. -/
theorem buildBetween_reports (bone : CentredBone Float) (bodies : List (Body Float))
    (type : ConstraintType) (bodyA bodyB : String) :
    Reports (buildBetween bone.name bone.locators bodies type bodyA bodyB).run.value
      (bone.faults bodies type bodyA bodyB) (·.ReadFrom bone bodies type bodyA bodyB) := by
  rw [value_buildBetween, CentredBone.faults]
  simp only [List.append_assoc]
  refine .bind (findBody_reports bodies .a bodyA) fun first isFirst => ?_
  refine .bind (findBody_reports bodies .b bodyB) fun second isSecond => ?_
  have nameA : first.id = bodyA := by simpa using List.find?_some isFirst
  have nameB : second.id = bodyB := by simpa using List.find?_some isSecond
  rw [nameA, nameB, isFirst, isSecond]
  split
  · exact rfl
  · rw [List.nil_append]
    refine .bind (optional_reports bone fun _ => rfl) fun maxForce isMaxForce => ?_
    subst isMaxForce
    rw [← List.append_nil (type.required.flatMap _)]
    refine .bind (buildKind_reports bone first second type) fun kind isRead => ?_
    exact .ok ⟨rfl, rfl, rfl, first, second, isFirst, isSecond, isRead⟩

section SameValues

variable {left right : NameMap (Locator Float)}

/-- An option that may be left out depends on its value alone. -/
theorem value_optional_congr {option : ConstraintOption}
    (same : (Options.lookup left option.key).value = (Options.lookup right option.key).value)
    (decode : String → Option α) :
    (optional left option decode).run.value = (optional right option decode).run.value := by
  rw [value_optional, value_optional, same]

/-- An option that must be set depends on its value alone. -/
theorem value_required_congr {option : ConstraintOption}
    (same : (Options.lookup left option.key).value = (Options.lookup right option.key).value)
    (decode : String → Option α) :
    (required left option decode).run.value = (required right option decode).run.value := by
  rw [value_required, value_required, same]

/-- A hinge depends on its own options alone. -/
theorem value_buildHinge_congr (first second : Body Float) (maxForce : Option Float)
    (same : ∀ key ∈ ConstraintType.hinge.keys,
      (Options.lookup left key).value = (Options.lookup right key).value) :
    (buildHinge left first second maxForce).run.value =
      (buildHinge right first second maxForce).run.value := by
  simp only [ConstraintType.keys, ConstraintType.required, ConstraintType.hingeOptions,
    List.map_cons, List.map_nil, List.forall_mem_cons] at same
  obtain ⟨-, collide, pivotA, pivotB, axisA, axisB, -⟩ := same
  simp only [value_buildHinge, collide, value_required_congr pivotA, value_required_congr pivotB,
    value_required_congr axisA, value_required_congr axisB]

/-- What a constraint of a type does depends on the options of the type alone. -/
theorem value_buildKind_congr (first second : Body Float) (maxForce : Option Float)
    {type : ConstraintType}
    (same : ∀ key ∈ type.keys, (Options.lookup left key).value = (Options.lookup right key).value) :
    (buildKind left first second maxForce type).run.value =
      (buildKind right first second maxForce type).run.value := by
  have own (option : ConstraintOption) (needed : option ∈ type.required) :
      (Options.lookup left option.key).value = (Options.lookup right option.key).value :=
    same option.key (ConstraintType.key_mem_keys needed)
  cases type with
  | distance =>
    have distance := own .distance (by decide)
    simp only [buildKind, value_run_bind, value_required_congr distance]
  | lock => rfl
  | hinge => simp only [buildKind, value_run_bind, value_buildHinge_congr _ _ _ same]
  | twist =>
    have more : ∀ key ∈ ConstraintType.hinge.keys, key ∈ ConstraintType.twist.keys := by decide
    have hinge := value_buildHinge_congr first second maxForce fun key isKey =>
      same key (more key isKey)
    have angle := own .angle (by decide)
    have twistAngle := own .twistAngle (by decide)
    simp only [buildKind, value_run_bind, hinge, value_required_congr angle,
      value_required_congr twistAngle]
  | point =>
    have pivotA := own .pivotA (by decide)
    have pivotB := own .pivotB (by decide)
    simp only [buildKind, value_run_bind, value_required_congr pivotA, value_required_congr pivotB]

end SameValues

end Constraint

namespace CentredBone

variable {bone other : CentredBone Float} (bodies : List (Body Float))

/-- A bone that names a known type and two bodies comes to a constraint between them. -/
theorem value_constraint_of_declared {type : ConstraintType} {bodyA bodyB : String}
    (isType : bone.option? "type" = some type.name) (isA : bone.option? "bodya" = some bodyA)
    (isB : bone.option? "bodyb" = some bodyB) :
    (bone.constraint bodies).run.value =
      (Constraint.buildBetween bone.name bone.locators bodies type bodyA bodyB).run.value.map
        some := by
  rw [option?] at isType isA isB
  simp only [value_constraint, isType, isA, isB, type.ofName?_name]

/-- A bone declares nothing exactly if one of the three options is not set, or no type has the name
that is given. -/
theorem value_constraint_eq_none : (bone.constraint bodies).run.value = .ok none ↔
    bone.option? "type" = none ∨ bone.option? "bodya" = none ∨ bone.option? "bodyb" = none ∨
      ∃ name, bone.option? "type" = some name ∧
        name ∉ ["distance", "lock", "hinge", "twist", "point"] := by
  rw [value_constraint]
  unfold option?
  cases (Options.lookup bone.locators "type").value with
  | none => simp
  | some typeName =>
    cases (Options.lookup bone.locators "bodya").value with
    | none => simp
    | some bodyA =>
      cases (Options.lookup bone.locators "bodyb").value with
      | none => simp
      | some bodyB =>
        dsimp only
        cases known : ConstraintType.ofName? typeName with
        | none =>
          have unlisted := ConstraintType.ofName?_eq_none.1 known
          exact iff_of_true rfl (.inr (.inr (.inr ⟨typeName, rfl, unlisted⟩)))
        | some type =>
          have listed : typeName ∈ ["distance", "lock", "hinge", "twist", "point"] := by
            rw [← ConstraintType.name_of_ofName? known]
            cases type <;> decide
          have something (outcome : Except ConstraintError Constraint) :
              outcome.map some ≠ .ok none := by
            cases outcome <;> simp [Except.map]
          refine iff_of_false (something _) ?_
          · rintro (isNone | isNone | isNone | ⟨name, same, unlisted⟩)
            · nomatch isNone
            · nomatch isNone
            · nomatch isNone
            · obtain rfl := Option.some.inj same
              exact unlisted listed

/-- Two bones of one name that give the same values to all options that one of them is asked for
come to the same, whatever else they set. -/
theorem value_constraint_congr (name : other.name = bone.name)
    (same : ∀ key ∈ bone.askedKeys, other.option? key = bone.option? key) :
    (other.constraint bodies).run.value = (bone.constraint bodies).run.value := by
  have isType := same "type" (by simp [askedKeys])
  have isA := same "bodya" (by simp [askedKeys])
  have isB := same "bodyb" (by simp [askedKeys])
  rw [value_constraint, value_constraint]
  unfold option? at isType isA isB
  rw [isType, isA, isB, name]
  split
  · rename_i typeName bodyA bodyB isTypeName _ _
    cases known : ConstraintType.ofName? typeName with
    | none => rfl
    | some type =>
      have own : ∀ key ∈ type.keys, (Options.lookup other.locators key).value =
          (Options.lookup bone.locators key).value := by
        intro key isKey
        refine same key (List.mem_append_right _ ?_)
        simpa [option?, isTypeName, known] using isKey
      have maxForce := own ConstraintOption.maxForce.key (by cases type <;> decide)
      simp only [Constraint.value_buildBetween, Constraint.value_optional_congr maxForce,
        Constraint.value_buildKind_congr _ _ _ own]
  · rfl

/-- The outcome of a bone that may declare a constraint, for any bodies. It declares none exactly if
its type or one of its bodies is not set or its type is not one of the five. Otherwise the first of
its faults is told, and without a fault there is the constraint made of the values of its options.
What it sets beside the options of its type makes no difference. -/
theorem constraint_outcome (bone : CentredBone Float) (bodies : List (Body Float)) :
    ((bone.constraint bodies).run.value = .ok none ↔
      bone.option? "type" = none ∨ bone.option? "bodya" = none ∨ bone.option? "bodyb" = none ∨
        ∃ name, bone.option? "type" = some name ∧
          name ∉ ["distance", "lock", "hinge", "twist", "point"]) ∧
    (∀ type bodyA bodyB, bone.option? "type" = some (ConstraintType.name type) →
      bone.option? "bodya" = some bodyA → bone.option? "bodyb" = some bodyB →
      match bone.faults bodies type bodyA bodyB with
      | fault :: _ => (bone.constraint bodies).run.value = .error fault
      | [] => ∃ constraint, (bone.constraint bodies).run.value = .ok (some constraint) ∧
        constraint.ReadFrom bone bodies type bodyA bodyB) ∧
    (∀ other : CentredBone Float, other.name = bone.name →
      (∀ key ∈ bone.askedKeys, other.option? key = bone.option? key) →
      (other.constraint bodies).run.value = (bone.constraint bodies).run.value) := by
  refine ⟨value_constraint_eq_none bodies, ?_, fun other => value_constraint_congr bodies⟩
  intro type bodyA bodyB isType isA isB
  have outcome := value_constraint_of_declared bodies isType isA isB
  have reports := Constraint.buildBetween_reports bone bodies type bodyA bodyB
  cases faults : bone.faults bodies type bodyA bodyB with
  | nil =>
    rw [faults] at reports
    obtain ⟨constraint, built, isRead⟩ := reports
    exact ⟨constraint, by rw [outcome, built]; rfl, isRead⟩
  | cons fault rest =>
    rw [faults] at reports
    have failed : _ = Except.error fault := reports
    simp only [outcome, failed]
    rfl

end CentredBone

/-- A body of a gate with a place that a latch holds on to. -/
def gatePart (id place : String) : Body Float :=
  ⟨id, .zero, [], [], none, none, .ofList [(place, .point .zero)]⟩

/-- The latch of a gate, with more locators than it needs. -/
def latch (more : List String) : CentredBone Float :=
  let names := ["type_point", "bodya_post", "bodyb_leaf", "pivota_hook", "pivotb_eye"] ++ more
  ⟨"latch", some constraintParent, .zero, .ofList (names.map fun name => (name, .point .zero)), [],
    .empty⟩

/-- A latch holds two parts of a gate together, and options of other types are not in its way. A
force that is no number is; but if a part of the gate is missing, that is told first. -/
theorem CentredBone.constraint_outcome_gate :
    let gate := [gatePart "post" "hook", gatePart "leaf" "eye"]
    (∃ constraint, ((latch []).constraint gate).run.value = .ok (some constraint) ∧
      constraint.ReadFrom (latch []) gate .point "post" "leaf") ∧
    ((latch ["distance_x", "axisa_1__2"]).constraint gate).run.value =
      ((latch []).constraint gate).run.value ∧
    ((latch ["maxforce_x"]).constraint gate).run.value = .error (.invalidOption .maxForce "x") ∧
    ((latch ["maxforce_x"]).constraint [gatePart "post" "hook"]).run.value =
      .error (.unknownBody .b "leaf") := by
  intro gate
  have held := (constraint_outcome (latch []) gate).2.1 .point "post" "leaf" rfl rfl rfl
  have others : ∀ key ∈ (latch []).askedKeys,
      (latch ["distance_x", "axisa_1__2"]).option? key = (latch []).option? key := by decide
  have same := (constraint_outcome (latch []) gate).2.2 (latch ["distance_x", "axisa_1__2"]) rfl
    others
  have forced := (constraint_outcome (latch ["maxforce_x"]) gate).2.1 .point "post" "leaf"
    rfl rfl rfl
  have lost := (constraint_outcome (latch ["maxforce_x"]) [gatePart "post" "hook"]).2.1 .point
    "post" "leaf" rfl rfl rfl
  exact ⟨held, same, forced, lost⟩

end PhysicsPrefab
