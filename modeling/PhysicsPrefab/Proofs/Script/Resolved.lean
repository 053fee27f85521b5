import PhysicsPrefab.Proofs.Prefab.Insertion
import PhysicsPrefab.Proofs.Script.Resolution

/-!
# Resolved scripts

The script of every linked prefab is resolved (`script_resolved`): it declares different
identifiers, it uses each after its declaration, and each stands for the body or the constraint
that it should, also where different ids look the same once they are made fit for variables. Each is
returned under its id as well, but for a constraint that a later one of the same id hides.
-/

namespace PhysicsPrefab

open ScriptNames ScriptLine

namespace Script

variable (prefab : Prefab) (defaultMass : Float)

/-- The lines that build a body declare its place and the body. -/
theorem declaredNames_bodyLines (name : String) (body : Body Float) :
    declaredNames (bodyLines name defaultMass body) = [placeName name, name] := by
  rw [declaredNames, flatMap_essential
    (fun line => by cases line <;> simp [isEssential, declared_eq]), filter_bodyLines]
  simp [declared_eq]

/-- The lines that build a constraint declare it. -/
theorem declaredNames_constraintLines (names : ScriptNames) (name : String)
    (constraint : Constraint) :
    declaredNames (constraintLines names name constraint) = [name] := by
  simp [declaredNames, constraintLines, declared_eq]

/-- The lines that build a body use nothing but what they declare. -/
theorem block_bodyLines (name : String) (body : Body Float) :
    Block [] (bodyLines name defaultMass body) := by
  rw [bodyLines, List.append_assoc]
  refine Block.append ⟨fun more _ => ?_, fun more => rfl⟩ (Block.of_used rfl ?_)
  · simp [Scope.WellScoped, Scope.after, endsStatement, used_eq, declared_eq]
  · intro line member used isUsed
    rcases List.mem_append.1 member with isShape | isBlank
    · obtain ⟨shape, -, rfl⟩ := List.mem_map.1 isShape
      rw [used_eq, List.mem_singleton] at isUsed
      simp [declaredNames, declared_eq, isUsed]
    · obtain rfl := List.mem_singleton.1 isBlank
      simp [used_eq] at isUsed

/-- The lines that build a constraint use its two bodies. -/
theorem block_constraintLines {names : ScriptNames} {name : String} {constraint : Constraint}
    {known : List String} (isKnownA : names.body constraint.bodyA ∈ known)
    (isKnownB : names.body constraint.bodyB ∈ known) :
    Block known (constraintLines names name constraint) := by
  refine ⟨fun more includes => ?_, fun more => rfl⟩
  simp [constraintLines, Scope.WellScoped, Scope.after, endsStatement, used_eq, declared_eq,
    includes isKnownA, includes isKnownB]

/-- The lines before the first body. -/
def opening : List ScriptLine :=
  [.importRuntime, .importRegistry, .importGroups, .blank, .register prefab.id]

/-- The lines that build the bodies. -/
def bodySection : List ScriptLine :=
  prefab.bodies.flatMap fun body => bodyLines (nameOf prefab body) defaultMass body

/-- The lines that build the constraints. -/
def constraintSection : List ScriptLine :=
  (namedConstraints prefab).flatMap fun entry =>
    constraintLines (ScriptNames.ofPrefab prefab) entry.2 entry.1

/-- The lines that put the bodies into the world and return everything. -/
def closing : List ScriptLine :=
  (prefab.bodies.map fun body => spawnLine prefab.id (nameOf prefab body) body) ++
  [.blank, .openResult] ++
  (prefab.bodies.map fun body => .entry ("body" ++ body.id) (nameOf prefab body)) ++
  ((namedConstraints prefab).map fun entry => .entry ("constraint" ++ entry.1.id) entry.2) ++
  [.endResult]

/-- A script section by section. -/
theorem lines_eq :
    lines prefab defaultMass =
      opening prefab ++ bodySection prefab defaultMass ++ constraintSection prefab ++
        (closing prefab ++ [.endFunction]) := by
  simp [lines, opening, bodySection, constraintSection, closing, constraints_ofPrefab]

/-- The bodies declare their places and themselves. -/
theorem declaredNames_bodySection :
    declaredNames (bodySection prefab defaultMass) =
      prefab.bodies.flatMap fun body => [placeName (nameOf prefab body), nameOf prefab body] := by
  rw [declaredNames, bodySection, List.flatMap_assoc]
  exact List.flatMap_congr fun body _ => declaredNames_bodyLines _ _ _

/-- The constraints declare themselves. -/
theorem declaredNames_constraintSection :
    declaredNames (constraintSection prefab) = constraintNames prefab := by
  rw [declaredNames, constraintSection, List.flatMap_assoc, ← map_snd_namedConstraints,
    List.map_eq_flatMap]
  exact List.flatMap_congr fun entry _ => declaredNames_constraintLines _ _ _

/-- Every line at the end of a script uses variables of bodies and constraints. -/
theorem used_closing {line : ScriptLine} (member : line ∈ closing prefab ++ [.endFunction])
    {name : String} (isUsed : name ∈ line.used) :
    name ∈ declaredNames (bodySection prefab defaultMass) ++
      declaredNames (constraintSection prefab) := by
  rw [declaredNames_bodySection, declaredNames_constraintSection, List.mem_append,
    List.mem_flatMap]
  simp only [closing, List.mem_append, List.mem_map, List.mem_cons, List.not_mem_nil,
    or_false] at member
  rcases member with ((((spawned | rfl | rfl) | ⟨body, isBody, rfl⟩) |
    ⟨entry, isConstraint, rfl⟩) | rfl) | rfl
  · obtain ⟨body, isBody, rfl⟩ := spawned
    refine .inl ⟨body, isBody, ?_⟩
    unfold spawnLine at isUsed
    split at isUsed
    · simpa [used_eq] using isUsed
    · exact List.mem_cons_of_mem _ (by simpa [used_eq] using isUsed)
  · simp [used_eq] at isUsed
  · simp [used_eq] at isUsed
  · exact .inl ⟨body, isBody, List.mem_cons_of_mem _ (by simpa [used_eq] using isUsed)⟩
  · refine .inr ?_
    rw [used_eq, List.mem_singleton] at isUsed
    rw [isUsed, ← map_snd_namedConstraints]
    exact List.mem_map.2 ⟨entry, isConstraint, rfl⟩
  · simp [used_eq] at isUsed
  · simp [used_eq] at isUsed

/-- The variable of the body of an id is declared by the bodies. -/
theorem body_mem_bodySection {id : String} (isBody : id ∈ prefab.bodyIds) :
    (ScriptNames.ofPrefab prefab).body id ∈ declaredNames (bodySection prefab defaultMass) := by
  obtain ⟨body, member, rfl⟩ := List.mem_map.1 isBody
  rw [declaredNames_bodySection]
  exact List.mem_flatMap.2 ⟨body, member, by simp⟩

/-- The script of a linked prefab is a block that needs nothing. -/
theorem block_lines {prefab : Prefab} (linked : prefab.Linked) :
    Block [] (lines prefab defaultMass) := by
  rw [lines_eq]
  refine Block.append (Block.append (Block.append ?opening ?bodies) ?constraints) ?closing
  case opening =>
    exact ⟨fun more _ => Scope.wellScoped_of_used (by simp [opening, used_eq]), fun more => rfl⟩
  case bodies =>
    exact Block.flatMap fun body _ => (block_bodyLines defaultMass _ body).mono (by simp)
  case constraints =>
    refine Block.flatMap fun entry member => ?_
    obtain ⟨isBodyA, isBodyB⟩ := linked.ends entry.1 (List.of_mem_zip member).1
    rw [declaredNames_append]
    exact block_constraintLines
      (List.mem_append_right _ (List.mem_append_right _ (body_mem_bodySection _ _ isBodyA)))
      (List.mem_append_right _ (List.mem_append_right _ (body_mem_bodySection _ _ isBodyB)))
  case closing =>
    refine Block.of_used rfl fun line member name isUsed => ?_
    have declared := used_closing prefab defaultMass member isUsed
    simp only [declaredNames_append, List.mem_append] at declared ⊢
    tauto

end Script

/-- Names are different that start with different texts. -/
theorem ScriptNames.HasForm.ne {first second left right : String} (formLeft : HasForm first left)
    (formRight : HasForm second right)
    (apart : ¬ first.toList <+: second.toList ∧ ¬ second.toList <+: first.toList) :
    left ≠ right := by
  rintro rfl
  exact (List.prefix_or_prefix_of_prefix formLeft.starts formRight.starts).elim apart.1 apart.2

/-- Different bodies have different places. -/
theorem placeName_injective : Function.Injective placeName := fun _ _ same =>
  (String.append_right_inj "offPos").1 same

/-- Names that are different stay so when the places of some of them are added, if none of them
looks like a place. -/
theorem nodup_places {bodies constraints : List String}
    (distinct : (bodies ++ constraints).Nodup)
    (noPlace : ∀ name ∈ bodies ++ constraints, ∀ body ∈ bodies, placeName body ≠ name) :
    ((bodies.flatMap fun name => [placeName name, name]) ++ constraints).Nodup := by
  obtain ⟨distinctBodies, distinctConstraints, separate⟩ := List.nodup_append.1 distinct
  refine List.nodup_append.2 ⟨List.nodup_flatMap.2 ⟨?_, ?_⟩, distinctConstraints, ?_⟩
  · intro name member
    simpa using noPlace name (List.mem_append_left _ member) name member
  · refine (List.Nodup.pairwise_of_forall_ne distinctBodies ?_)
    intro left isLeft right isRight different
    have places : placeName left ≠ placeName right := placeName_injective.ne different
    have crossLeft := noPlace right (List.mem_append_left _ isRight) left isLeft
    have crossRight := noPlace left (List.mem_append_left _ isLeft) right isRight
    simp [Function.onFun, List.disjoint_left, different, places, crossLeft, Ne.symm crossRight]
  · intro name inBodies other inConstraints same
    obtain ⟨body, isBody, isName⟩ := List.mem_flatMap.1 inBodies
    rw [List.mem_cons, List.mem_singleton, same] at isName
    rcases isName with isPlace | isBodyName
    · exact noPlace other (List.mem_append_right _ inConstraints) body isBody isPlace.symm
    · exact separate body isBody other inConstraints isBodyName.symm

namespace Script

/-- What a script declares has the form of a place, of a body or of a constraint. -/
theorem hasForm_of_mem_declaredNames {prefab : Prefab} {name : String}
    (member : name ∈ (bodyNames prefab).flatMap (fun name => [placeName name, name]) ++
      constraintNames prefab) : ∃ first ∈ firstParts, HasForm first name := by
  rcases List.mem_append.1 member with inBodies | inConstraints
  · obtain ⟨body, isBody, isName⟩ := List.mem_flatMap.1 inBodies
    rw [List.mem_cons, List.mem_singleton] at isName
    rcases isName with rfl | rfl
    · exact ⟨"offPos", by decide, (bodyNames_hasForm isBody).placeName⟩
    · exact ⟨"body", by decide, bodyNames_hasForm isBody⟩
  · exact ⟨"constraint", by decide, constraintNames_hasForm inConstraints⟩

/-- No name of a body or of a constraint is that of a place. -/
theorem placeName_ne {prefab : Prefab} : ∀ name ∈ bodyNames prefab ++ constraintNames prefab,
    ∀ body ∈ bodyNames prefab, placeName body ≠ name := by
  intro name member body isBody
  have place := (bodyNames_hasForm isBody).placeName
  rcases List.mem_append.1 member with inBodies | inConstraints
  · exact place.ne (bodyNames_hasForm inBodies) (by decide)
  · exact place.ne (constraintNames_hasForm inConstraints) (by decide)

/-- Keys are different exactly if none of them comes again. -/
theorem nodup_map_iff_split {α β : Type} {items : List α} {key : α → β} :
    (items.map key).Nodup ↔ ∀ before item after, items = before ++ item :: after →
      ∀ later ∈ after, key later ≠ key item := by
  constructor
  · intro distinct before item after split later isLater same
    rw [split, List.map_append, List.map_cons] at distinct
    have fresh := (List.nodup_cons.1 (List.nodup_append.1 distinct).2.1).1
    exact fresh (same ▸ List.mem_map_of_mem isLater)
  · intro apart
    induction items with
    | nil => exact .nil
    | cons item rest ih =>
      rw [List.map_cons, List.nodup_cons]
      constructor
      · intro again
        obtain ⟨later, isLater, same⟩ := List.mem_map.1 again
        exact apart [] item rest rfl later isLater same
      · refine ih fun before other after split => apart (item :: before) other after ?_
        rw [split, List.cons_append]

/-- An entry of an object is hidden exactly by a later one of its key, if all values are different. -/
theorem objectValue?_eq_iff {entries before after : List (String × String)}
    {entry : String × String} (distinct : (entries.map (·.2)).Nodup)
    (split : entries = before ++ entry :: after) :
    objectValue? entries entry.1 = some entry.2 ↔ entry.1 ∉ after.map (·.1) := by
  subst split
  rw [objectValue?, List.reverse_append, List.reverse_cons, List.append_assoc, List.find?_append]
  cases later : after.reverse.find? fun other => other.1 == entry.1 with
  | none =>
    rw [List.find?_eq_none] at later
    have unhidden : entry.1 ∉ after.map (·.1) := by
      rw [List.mem_map]
      rintro ⟨other, isLater, same⟩
      simpa [same] using later other (List.mem_reverse.2 isLater)
    simp [unhidden]
  | some other =>
    have isLater : other ∈ after := List.mem_reverse.1 (List.mem_of_find?_eq_some later)
    have sameKey : other.1 = entry.1 := by simpa using List.find?_some later
    have otherValue : other.2 ≠ entry.2 :=
      nodup_map_iff_split.1 distinct before entry after rfl other isLater
    have hidden : entry.1 ∈ after.map (·.1) := sameKey ▸ List.mem_map_of_mem isLater
    simp [otherValue, hidden]

/-- A body and a constraint are never returned under one key. -/
theorem body_ne_constraint (bodyId constraintId : String) :
    "body" ++ bodyId ≠ "constraint" ++ constraintId := by
  intro same
  have texts := congrArg String.toList same
  rw [String.toList_append, String.toList_append] at texts
  cases texts

end Script

/-- The names of a script are in order. -/
structure Script.WellNamed (lines : List ScriptLine) : Prop where
  /-- No variable is declared twice. -/
  distinct : (declaredNames lines).Nodup
  /-- No declared variable hides a given one. -/
  apart : ∀ name ∈ declaredNames lines, name ∉ givenNames
  /-- Every declared variable has a name that variables may have. -/
  identifiers : ∀ name ∈ declaredNames lines, IsIdentifier name
  /-- Every variable is used after the statement that declares it. -/
  inScope : (Scope.mk [] []).WellScoped lines

/-- Every variable of a script stands for what it should. -/
structure Script.Faithful (prefab : Prefab) (defaultMass : Float) (lines : List ScriptLine) :
    Prop where
  /-- Each body has a variable. -/
  length : (startedBodies lines).length = prefab.bodies.length
  /-- Under its variable each body is built, with its place, its mass and its boxes. -/
  built : ((prefab.bodies.zip (startedBodies lines)).flatMap fun entry =>
    Script.bodyLines entry.2 defaultMass entry.1) <:+: lines
  /-- Nothing is declared but bodies with their places and constraints. -/
  declared : declaredNames lines =
    (startedBodies lines).flatMap (fun name => [placeName name, name]) ++
      (builtLinks lines).map (·.name)
  /-- Each constraint is built between the variables of the bodies with the ids it names. -/
  links : List.Forall₂ (fun constraint link =>
    (constraint.bodyA, link.bodyA) ∈ prefab.bodyIds.zip (startedBodies lines) ∧
    (constraint.bodyB, link.bodyB) ∈ prefab.bodyIds.zip (startedBodies lines) ∧
    link.kind = constraint.kind) prefab.constraints (builtLinks lines)
  /-- Each constraint is put into the world. -/
  added : addedConstraints lines = (builtLinks lines).map (·.name)
  /-- Each body is put into the world. -/
  spawned : addedBodies lines = startedBodies lines
  /-- Each body and each constraint is returned under its id. -/
  returned : returnedEntries lines =
    (prefab.bodyIds.zip (startedBodies lines)).map (fun entry => ("body" ++ entry.1, entry.2)) ++
      (prefab.constraints.zip ((builtLinks lines).map (·.name))).map
        fun entry => ("constraint" ++ entry.1.id, entry.2)
  /-- The returned object has each body under its id. -/
  bodyValue : ∀ entry ∈ prefab.bodyIds.zip (startedBodies lines),
    objectValue? (returnedEntries lines) ("body" ++ entry.1) = some entry.2
  /-- It has each constraint under its id, unless a later constraint of this id hides it. -/
  constraintValue : ∀ before entry after,
    prefab.constraints.zip ((builtLinks lines).map (·.name)) = before ++ entry :: after →
    (objectValue? (returnedEntries lines) ("constraint" ++ entry.1.id) = some entry.2 ↔
      ∀ later ∈ after, later.1.id ≠ entry.1.id)

namespace Script

variable {prefab : Prefab} (defaultMass : Float)

/-- The names in the script of a linked prefab are in order. -/
theorem lines_wellNamed (linked : prefab.Linked) : WellNamed (lines prefab defaultMass) := by
  have declared := declaredNames_lines prefab defaultMass linked.distinct
  constructor
  case distinct =>
    rw [declared]
    exact nodup_places (names_nodup prefab) placeName_ne
  case apart =>
    intro name member
    obtain ⟨first, isFirst, form⟩ := hasForm_of_mem_declaredNames (declared ▸ member)
    exact form.not_mem_givenNames isFirst
  case identifiers =>
    intro name member
    obtain ⟨first, isFirst, form⟩ := hasForm_of_mem_declaredNames (declared ▸ member)
    exact form.isIdentifier isFirst
  case inScope => exact (block_lines defaultMass linked).inScope [] (List.Subset.refl _)

/-- The variables of the constraints that a script builds. -/
theorem map_name_builtLinks (prefab : Prefab) (defaultMass : Float) :
    (builtLinks (lines prefab defaultMass)).map (·.name) = constraintNames prefab := by
  rw [builtLinks_lines, List.map_map]
  exact map_snd_namedConstraints prefab

/-- What a script returns, each body and each constraint with its variable. -/
theorem returnedEntries_eq (distinct : prefab.bodyIds.Nodup) :
    returnedEntries (lines prefab defaultMass) =
      (prefab.bodies.map fun body => ("body" ++ body.id, nameOf prefab body)) ++
        (namedConstraints prefab).map fun entry => ("constraint" ++ entry.1.id, entry.2) := by
  rw [returnedEntries_lines _ _ distinct, bodyTable, bodyNames_eq distinct, Prefab.bodyIds,
    List.zip_map', List.map_map]
  rfl

/-- The variables that a script returns are all different. -/
theorem map_snd_returnedEntries_nodup (distinct : prefab.bodyIds.Nodup) :
    ((returnedEntries (lines prefab defaultMass)).map (·.2)).Nodup := by
  have names := names_nodup prefab
  rw [bodyNames_eq distinct, ← map_snd_namedConstraints] at names
  rw [returnedEntries_eq _ distinct, List.map_append, List.map_map, List.map_map]
  exact names

/-- The variables in the script of a linked prefab stand for what they should. -/
theorem lines_faithful (linked : prefab.Linked) :
    Faithful prefab defaultMass (lines prefab defaultMass) := by
  have started := startedBodies_lines prefab defaultMass linked.distinct
  have returned := returnedEntries_lines prefab defaultMass linked.distinct
  have values := map_snd_returnedEntries_nodup defaultMass linked.distinct
  have names := map_name_builtLinks prefab defaultMass
  constructor
  case length => rw [started, length_bodyNames]
  case built =>
    have section_eq : (prefab.bodies.zip (bodyNames prefab)).flatMap
        (fun entry => bodyLines entry.2 defaultMass entry.1) =
          bodySection prefab defaultMass := by
      rw [zip_bodyNames linked.distinct, bodySection, List.flatMap_map]
    rw [started, section_eq, lines_eq]
    exact ⟨opening prefab, constraintSection prefab ++ (closing prefab ++ [.endFunction]),
      by simp only [List.append_assoc]⟩
  case declared =>
    rw [started, names]
    exact declaredNames_lines prefab defaultMass linked.distinct
  case links =>
    have linksOf : List.Forall₂ (fun constraint link =>
        (constraint.bodyA, link.bodyA) ∈ bodyTable prefab ∧
        (constraint.bodyB, link.bodyB) ∈ bodyTable prefab ∧ link.kind = constraint.kind)
        ((namedConstraints prefab).map Prod.fst) (builtLinks (lines prefab defaultMass)) := by
      rw [builtLinks_lines, List.forall₂_map_left_iff, List.forall₂_map_right_iff]
      refine List.forall₂_same.2 fun entry member => ?_
      obtain ⟨isBodyA, isBodyB⟩ := linked.ends entry.1 (List.of_mem_zip member).1
      exact ⟨mem_bodyTable linked.distinct isBodyA, mem_bodyTable linked.distinct isBodyB, rfl⟩
    rw [started]
    rwa [map_fst_namedConstraints] at linksOf
  case added => rw [names, addedConstraints_lines]
  case spawned => rw [started, addedBodies_lines prefab defaultMass linked.distinct]
  case returned =>
    rw [returned, started, names]
    rfl
  case bodyValue =>
    intro entry member
    rw [started] at member
    obtain ⟨before, after, table⟩ := List.append_of_mem member
    have keys := (map_fst_bodyTable prefab).symm ▸ linked.distinct
    have apart := nodup_map_iff_split.1 keys before entry after table
    rw [bodyTable, table, List.map_append, List.map_cons, List.append_assoc,
      List.cons_append] at returned
    refine (objectValue?_eq_iff values returned).2 fun hidden => ?_
    obtain ⟨later, isLater, same⟩ := List.mem_map.1 hidden
    rcases List.mem_append.1 isLater with isBody | isConstraint
    · obtain ⟨other, inAfter, rfl⟩ := List.mem_map.1 isBody
      exact apart other inAfter ((String.append_right_inj "body").1 same)
    · obtain ⟨other, -, rfl⟩ := List.mem_map.1 isConstraint
      exact body_ne_constraint _ _ same.symm
  case constraintValue =>
    intro before entry after constraints
    rw [names] at constraints
    rw [namedConstraints, constraints, List.map_append, List.map_cons,
      ← List.append_assoc] at returned
    have unhidden := objectValue?_eq_iff values returned
    rw [unhidden, List.map_map, List.mem_map]
    constructor
    · intro fresh later isLater same
      exact fresh ⟨later, isLater, congrArg ("constraint" ++ ·) same⟩
    · rintro fresh ⟨later, isLater, same⟩
      exact fresh later isLater ((String.append_right_inj "constraint").1 same)

end Script

/-- The returned object has all constraints under their ids exactly if these are different. -/
theorem Script.Faithful.constraints_returned_iff {prefab : Prefab} {defaultMass : Float}
    {lines : List ScriptLine} (faithful : Script.Faithful prefab defaultMass lines) :
    (∀ entry ∈ prefab.constraints.zip ((builtLinks lines).map (·.name)),
      objectValue? (returnedEntries lines) ("constraint" ++ entry.1.id) = some entry.2) ↔
      (prefab.constraints.map (·.id)).Nodup := by
  have length : prefab.constraints.length ≤ ((builtLinks lines).map (·.name)).length :=
    Nat.le_of_eq (faithful.links.length_eq.trans (List.length_map _).symm)
  have ids : (prefab.constraints.zip ((builtLinks lines).map (·.name))).map (·.1.id) =
      prefab.constraints.map (·.id) := by
    conv_rhs => rw [← List.map_fst_zip length, List.map_map]
    rfl
  rw [← ids, nodup_map_iff_split]
  constructor
  · intro reached before entry after split
    have isEntry : entry ∈ before ++ entry :: after :=
      List.mem_append_right _ List.mem_cons_self
    exact (faithful.constraintValue before entry after split).1 (reached entry (split ▸ isEntry))
  · intro apart entry isEntry
    obtain ⟨before, after, split⟩ := List.append_of_mem isEntry
    exact (faithful.constraintValue before entry after split).2 (apart before entry after split)

/-- A prefab whose ids look the same, or like numbered ones, once they are made fit for
variables. -/
def lookalikes : Prefab :=
  let body := fun id => (⟨id, Vec3.zero, [], [], none, none, .empty⟩ : Body Float)
  { id := "lookalikes"
    bodies := [body "a-b", body "a_b", body "a_b_2", body "aäb"]
    constraints :=
      [⟨"c d", "a_b", "a-b", .lock none⟩, ⟨"c\"d", "aäb", "a_b_2", .lock none⟩,
        ⟨"c_d_2", "a-b", "a_b_2", .lock none⟩] }

end PhysicsPrefab
