import PhysicsPrefab.Proofs.Script.Names
import PhysicsPrefab.Proofs.Script.Scope

/-!
# Resolution of names

The script of a prefab is well scoped, and every variable in it stands for the object that it
should. What a script says about its objects is read off its lines: which variable each body
gets, what a constraint links, what is put into the world and what is returned under which key.
-/

namespace PhysicsPrefab

/-- The names that a script has from outside: the parameters of its function and what it
imports. -/
def givenNames : List String := ["physWorld", "pos", "dim", "CANNON", "Physics", "CollisionGroup"]

/-- The words that are no identifiers, or may not be declared, in a module. -/
def reservedWords : List String :=
  ["arguments", "await", "break", "case", "catch", "class", "const", "continue", "debugger",
    "default", "delete", "do", "else", "enum", "eval", "export", "extends", "false", "finally",
    "for", "function", "if", "implements", "import", "in", "instanceof", "interface", "let",
    "new", "null", "package", "private", "protected", "public", "return", "static", "super",
    "switch", "this", "throw", "true", "try", "typeof", "var", "void", "while", "with", "yield"]

/-- One of the digits. -/
def IsDecimal (character : Char) : Prop := '0' ≤ character ∧ character ≤ '9'

/-- A letter, a digit, the underscore or the dollar sign. -/
def IsWordCharacter (character : Char) : Prop :=
  ('A' ≤ character ∧ character ≤ 'Z') ∨ ('a' ≤ character ∧ character ≤ 'z') ∨
    IsDecimal character ∨ character = '_' ∨ character = '$'

/-- A name that a variable may have. -/
structure IsIdentifier (name : String) : Prop where
  /-- It is made of word characters. -/
  characters : ∀ character ∈ name.toList, IsWordCharacter character
  /-- It is not empty and starts with no digit. -/
  start : ∃ first rest, name.toList = first :: rest ∧ ¬ IsDecimal first
  /-- It is no reserved word. -/
  free : name ∉ reservedWords

/-- What may stand in a variable is a word character. -/
theorem isWordCharacter_of_isAllowed {character : Char}
    (allowed : Identifier.isAllowed character) : IsWordCharacter character := by
  have isAlphanum : character.isAlphanum =
      (decide ('A' ≤ character ∧ character ≤ 'Z') || ('a' ≤ character && character ≤ 'z') ||
        ('0' ≤ character && character ≤ '9')) := rfl
  simp only [Identifier.isAllowed, isAlphanum, Bool.or_eq_true, Bool.and_eq_true,
    decide_eq_true_eq] at allowed
  rw [IsWordCharacter, IsDecimal]
  tauto

/-- What the declared variables start with. -/
def firstParts : List String := ["body", "constraint", "offPos"]

/-- No reserved word and no given name starts like a declared variable. -/
theorem not_prefix_of_firstParts : ∀ first ∈ firstParts, ∀ word ∈ reservedWords ++ givenNames,
    ¬ first.toList <+: word.toList := by
  decide +kernel

/-- No declared variable starts with a digit. -/
theorem start_of_firstParts : ∀ first ∈ firstParts, ∃ start rest,
    first.toList = start :: rest ∧ ¬ IsDecimal start := by
  intro first member
  simp only [firstParts, List.mem_cons, List.not_mem_nil, or_false] at member
  rcases member with rfl | rfl | rfl
  · exact ⟨'b', "ody".toList, by decide, by unfold IsDecimal; decide⟩
  · exact ⟨'c', "onstraint".toList, by decide, by unfold IsDecimal; decide⟩
  · exact ⟨'o', "ffPos".toList, by decide, by unfold IsDecimal; decide⟩

namespace ScriptNames.HasForm

variable {first name : String}

/-- A name of the form of a declared variable is an identifier. -/
theorem isIdentifier (form : HasForm first name) (isFirst : first ∈ firstParts) :
    IsIdentifier name := by
  obtain ⟨rest, text⟩ := form.starts
  refine ⟨fun character member => isWordCharacter_of_isAllowed (form.plain character member),
    ?_, fun reserved => ?_⟩
  · obtain ⟨start, more, begins, noDigit⟩ := start_of_firstParts first isFirst
    exact ⟨start, more ++ rest, by rw [← text, begins, List.cons_append], noDigit⟩
  · exact not_prefix_of_firstParts first isFirst name (List.mem_append_left _ reserved) form.starts

/-- A name of the form of a declared variable is not given from outside. -/
theorem not_mem_givenNames (form : HasForm first name) (isFirst : first ∈ firstParts) :
    name ∉ givenNames := fun given =>
  not_prefix_of_firstParts first isFirst name (List.mem_append_right _ given) form.starts

/-- The place of a body has such a form if the body has. -/
theorem placeName (form : HasForm first name) : HasForm "offPos" (ScriptLine.placeName name) := by
  refine ⟨?_, isPlain_append (by decide) form.plain⟩
  rw [ScriptLine.placeName, String.toList_append]
  exact List.prefix_append _ _

end ScriptNames.HasForm

/-- A constraint as a script builds it. -/
structure Link where
  /-- The variable of the constraint. -/
  name : String
  /-- The variable of the first body. -/
  bodyA : String
  /-- The variable of the second body. -/
  bodyB : String
  /-- What kind of constraint it is. -/
  kind : ConstraintKind

namespace ScriptLine

/-- The variable of the body that a line starts. -/
def startedBody : ScriptLine → List String
  | declareBody name => [name]
  | _ => []

/-- The constraint that a line builds. -/
def builtLink : ScriptLine → List Link
  | declareConstraint name a b kind => [⟨name, a, b, kind⟩]
  | _ => []

/-- The variable of the constraint that a line puts into the world. -/
def addedConstraint : ScriptLine → List String
  | addConstraint name => [name]
  | _ => []

/-- The variable of the body that a line puts into the world. -/
def addedBody : ScriptLine → List String
  | createEntity _ name => [name]
  | addBody name => [name]
  | _ => []

/-- The key and the variable that a line returns. -/
def returnedEntry : ScriptLine → List (String × String)
  | entry key name => [(key, name)]
  | _ => []

end ScriptLine

/-- The variables of the bodies that lines start, in order. -/
def startedBodies (lines : List ScriptLine) : List String := lines.flatMap ScriptLine.startedBody

/-- The constraints that lines build, in order. -/
def builtLinks (lines : List ScriptLine) : List Link := lines.flatMap ScriptLine.builtLink

/-- The variables of the constraints that lines put into the world, in order. -/
def addedConstraints (lines : List ScriptLine) : List String :=
  lines.flatMap ScriptLine.addedConstraint

/-- The variables of the bodies that lines put into the world, in order. -/
def addedBodies (lines : List ScriptLine) : List String := lines.flatMap ScriptLine.addedBody

/-- The entries of the object that lines return, in order. -/
def returnedEntries (lines : List ScriptLine) : List (String × String) :=
  lines.flatMap ScriptLine.returnedEntry

/-- The value of a key of an object: where a key has several entries, the last one counts. -/
def objectValue? (entries : List (String × String)) (key : String) : Option String :=
  (entries.reverse.find? fun entry => entry.1 == key).map (·.2)

namespace ScriptLine

/-- Whether a line declares a variable, puts something into the world or returns something. -/
def isEssential : ScriptLine → Bool
  | declarePlace _ _ | declareBody _ | declareConstraint _ _ _ _ | addConstraint _
  | createEntity _ _ | addBody _ | entry _ _ => true
  | _ => false

end ScriptLine

/-- Nothing is read off items that have nothing to read. -/
@[simp] theorem flatMap_const_nil {α β : Type} (items : List α) :
    (items.flatMap fun _ => ([] : List β)) = [] :=
  List.flatMap_eq_nil_iff.2 fun _ _ => rfl

/-- Lines can be left out that have nothing to read. -/
theorem flatMap_essential {α : Type} {select : ScriptLine → List α}
    (silent : ∀ line : ScriptLine, line.isEssential = false → select line = [])
    (lines : List ScriptLine) :
    lines.flatMap select = (lines.filter ScriptLine.isEssential).flatMap select := by
  induction lines with
  | nil => rfl
  | cons line rest ih =>
    cases essential : line.isEssential with
    | false => simp [essential, silent line essential, ih]
    | true => simp [essential, ih]

namespace Script

open ScriptNames ScriptLine

variable (prefab : Prefab) (defaultMass : Float)

/-- The variable of a body of the prefab. -/
abbrev nameOf (body : Body Float) : String := (ScriptNames.ofPrefab prefab).body body.id

/-- The constraints of the prefab, each with its variable. -/
abbrev namedConstraints : List (Constraint × String) :=
  prefab.constraints.zip (constraintNames prefab)

/-- The variables are those of the constraints. -/
@[simp] theorem map_snd_namedConstraints :
    (namedConstraints prefab).map Prod.snd = constraintNames prefab :=
  List.map_snd_zip (by simp)

/-- The constraints are those of the prefab. -/
theorem map_fst_namedConstraints : (namedConstraints prefab).map Prod.fst = prefab.constraints :=
  List.map_fst_zip (by simp)

/-- The essential lines of a body. -/
theorem filter_bodyLines (name : String) (body : Body Float) :
    (bodyLines name defaultMass body).filter isEssential =
      [.declarePlace name body.offset, .declareBody name] := by
  have shapes : (body.shapes.map (addShape name)).filter isEssential = [] := by
    rw [List.filter_map, List.map_eq_nil_iff, List.filter_eq_nil_iff]
    exact fun shape _ => Bool.false_ne_true
  rw [bodyLines, List.filter_append, List.filter_append, shapes]
  rfl

/-- The essential lines of a constraint. -/
theorem filter_constraintLines (names : ScriptNames) (name : String) (constraint : Constraint) :
    (constraintLines names name constraint).filter isEssential =
      [.declareConstraint name (names.body constraint.bodyA) (names.body constraint.bodyB)
        constraint.kind, .addConstraint name] := rfl

/-- Rows of essential lines are kept. -/
theorem filter_map_essential {α : Type} (build : α → ScriptLine)
    (essential : ∀ item, (build item).isEssential = true) (items : List α) :
    (items.map build).filter isEssential = items.map build := by
  rw [List.filter_eq_self, List.forall_mem_map]
  exact fun item _ => essential item

/-- Every line that puts a body into the world is essential. -/
theorem isEssential_spawnLine (prefabId name : String) (body : Body Float) :
    (spawnLine prefabId name body).isEssential = true := by
  unfold spawnLine
  split <;> rfl

/-- The essential lines of a script. -/
theorem filter_lines :
    (lines prefab defaultMass).filter isEssential =
      (prefab.bodies.flatMap fun body =>
        [.declarePlace (nameOf prefab body) body.offset, .declareBody (nameOf prefab body)]) ++
      ((namedConstraints prefab).flatMap fun (constraint, name) =>
        [.declareConstraint name ((ScriptNames.ofPrefab prefab).body constraint.bodyA)
          ((ScriptNames.ofPrefab prefab).body constraint.bodyB) constraint.kind,
          .addConstraint name]) ++
      (prefab.bodies.map fun body => spawnLine prefab.id (nameOf prefab body) body) ++
      (prefab.bodies.map fun body => .entry ("body" ++ body.id) (nameOf prefab body)) ++
      ((namedConstraints prefab).map fun (constraint, name) =>
        .entry ("constraint" ++ constraint.id) name) := by
  have spawn := filter_map_essential _
    (fun body => isEssential_spawnLine prefab.id (nameOf prefab body) body) prefab.bodies
  have bodies := filter_map_essential (fun body : Body Float =>
    .entry ("body" ++ body.id) (nameOf prefab body)) (fun _ => rfl) prefab.bodies
  have constraints := filter_map_essential (fun entry : Constraint × String =>
    .entry ("constraint" ++ entry.1.id) entry.2) (fun _ => rfl) (namedConstraints prefab)
  simp only [lines, List.filter_append, List.filter_flatMap, filter_bodyLines,
    filter_constraintLines, spawn, bodies, constraints, ScriptNames.constraints_ofPrefab]
  simp [isEssential]

/-- What is read off a script is read off its essential lines. -/
theorem flatMap_lines {α : Type} {select : ScriptLine → List α}
    (silent : ∀ line : ScriptLine, line.isEssential = false → select line = []) :
    (lines prefab defaultMass).flatMap select =
      (prefab.bodies.flatMap fun body =>
        select (.declarePlace (nameOf prefab body) body.offset) ++
          select (.declareBody (nameOf prefab body))) ++
      ((namedConstraints prefab).flatMap fun entry =>
        select (.declareConstraint entry.2 ((ScriptNames.ofPrefab prefab).body entry.1.bodyA)
          ((ScriptNames.ofPrefab prefab).body entry.1.bodyB) entry.1.kind) ++
          select (.addConstraint entry.2)) ++
      (prefab.bodies.flatMap fun body =>
        if body.isVisual then
          select (.createEntity (entityName prefab.id body.id) (nameOf prefab body))
        else select (.addBody (nameOf prefab body))) ++
      (prefab.bodies.flatMap fun body =>
        select (.entry ("body" ++ body.id) (nameOf prefab body))) ++
      ((namedConstraints prefab).flatMap fun entry =>
        select (.entry ("constraint" ++ entry.1.id) entry.2)) := by
  have spawn : ∀ body : Body Float, select (spawnLine prefab.id (nameOf prefab body) body) =
      if body.isVisual then
        select (.createEntity (entityName prefab.id body.id) (nameOf prefab body))
      else select (.addBody (nameOf prefab body)) := fun body => apply_ite select _ _ _
  rw [flatMap_essential silent, filter_lines]
  simp only [List.flatMap_append, List.flatMap_assoc, List.flatMap_map, List.flatMap_cons,
    List.flatMap_nil, List.append_nil, spawn]

/-- A script starts each body under its variable. -/
theorem startedBodies_lines (distinct : prefab.bodyIds.Nodup) :
    startedBodies (lines prefab defaultMass) = bodyNames prefab := by
  rw [startedBodies, flatMap_lines _ _
    (fun line => by cases line <;> simp [isEssential, startedBody]),
    bodyNames_eq distinct]
  simp [startedBody, ← List.map_eq_flatMap]

/-- A script declares the place of each body and the body, then the constraints. -/
theorem declaredNames_lines (distinct : prefab.bodyIds.Nodup) :
    declaredNames (lines prefab defaultMass) =
      ((bodyNames prefab).flatMap fun name => [placeName name, name]) ++
        constraintNames prefab := by
  rw [declaredNames, flatMap_lines _ _
    (fun line => by cases line <;> simp [isEssential, declared_eq]), bodyNames_eq distinct]
  simp [declared_eq, List.flatMap_map, ← List.map_eq_flatMap]

/-- A script builds each constraint under its variable, between the variables of its bodies. -/
theorem builtLinks_lines :
    builtLinks (lines prefab defaultMass) =
      (namedConstraints prefab).map fun entry =>
        ⟨entry.2, (ScriptNames.ofPrefab prefab).body entry.1.bodyA,
          (ScriptNames.ofPrefab prefab).body entry.1.bodyB, entry.1.kind⟩ := by
  rw [builtLinks, flatMap_lines _ _
    (fun line => by cases line <;> simp [isEssential, builtLink])]
  simp [builtLink, ← List.map_eq_flatMap]

/-- A script puts every constraint into the world under its variable. -/
theorem addedConstraints_lines :
    addedConstraints (lines prefab defaultMass) = constraintNames prefab := by
  rw [addedConstraints, flatMap_lines _ _
    (fun line => by cases line <;> simp [isEssential, addedConstraint])]
  simp [addedConstraint, ← List.map_eq_flatMap]

/-- A script puts every body into the world under its variable. -/
theorem addedBodies_lines (distinct : prefab.bodyIds.Nodup) :
    addedBodies (lines prefab defaultMass) = bodyNames prefab := by
  rw [addedBodies, flatMap_lines _ _
    (fun line => by cases line <;> simp [isEssential, addedBody]),
    bodyNames_eq distinct]
  simp [addedBody, nameOf, ← List.map_eq_flatMap]

/-- A script returns every body and every constraint under its id. -/
theorem returnedEntries_lines (distinct : prefab.bodyIds.Nodup) :
    returnedEntries (lines prefab defaultMass) =
      (bodyTable prefab).map (fun entry => ("body" ++ entry.1, entry.2)) ++
        (namedConstraints prefab).map fun entry => ("constraint" ++ entry.1.id, entry.2) := by
  rw [returnedEntries, flatMap_lines _ _
    (fun line => by cases line <;> simp [isEssential, returnedEntry]),
    bodyTable, bodyNames_eq distinct, Prefab.bodyIds, List.zip_map', List.map_map]
  simp [returnedEntry, nameOf, Function.comp_def, ← List.map_eq_flatMap]

end Script

end PhysicsPrefab
