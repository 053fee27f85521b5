import PhysicsPrefab.Proofs.Script.Forms
import PhysicsPrefab.Proofs.Script.Resolved

/-!
# Scripts in form

Every line of a script has one of the fixed forms, and the number of lines is known from the bodies,
their boxes and the constraints (`ofPrefab_inForm`). This holds of every prefab, whatever text its
ids are and however often they repeat. The form of a line is read off its fragments, so no name or
id that stands in the text is left out.
-/

namespace PhysicsPrefab

open LinePart ScriptNames ScriptLine

namespace Fragment

/-- The text that a fragment quotes. -/
def quoted? : Fragment → Option String
  | quoted text => some text
  | _ => none

/-- The parts of a form that a fragment fills, given what its literal and its variable fill. -/
def parts (literal used : LinePart) : Fragment → List LinePart
  | fixed text => [.fixed text]
  | number _ => [.number]
  | quoted _ => [literal]
  | declaration _ => [.fixed "const ", .name]
  | reference _ => [used]

/-- Fragments fill their parts if their literals and variables fill theirs. -/
theorem fillsForm_render {prefab : Prefab} {literal used : LinePart} {fragments : List Fragment}
    (quotes : ∀ text ∈ fragments.filterMap quoted?,
      literal.Fills prefab (Quoted.encode text).toList)
    (declares : ∀ name ∈ fragments.filterMap declared?, IsIdentifier name)
    (uses : ∀ name ∈ fragments.filterMap used?, used.Fills prefab name.toList) :
    FillsForm prefab (fragments.flatMap (parts literal used)) (render fragments).toList := by
  induction fragments with
  | nil => exact .nil
  | cons fragment rest ih =>
    rw [List.filterMap_cons] at quotes declares uses
    rw [List.flatMap_cons, render, String.toList_append]
    cases fragment with
    | fixed text => exact .cons (.fixed text) (ih quotes declares uses)
    | number value =>
      have isNumber : IsPlainNumber (ScriptLine.number value).toList := by
        rw [ScriptLine.number, NumberStyle.text, String.toList_ofList]
        exact NumberStyle.render_plain value
      exact .cons (.number isNumber) (ih quotes declares uses)
    | quoted text =>
      obtain ⟨isQuoted, others⟩ := List.forall_mem_cons.1 quotes
      exact .cons isQuoted (ih others declares uses)
    | declaration name =>
      obtain ⟨isIdentifier, others⟩ := List.forall_mem_cons.1 declares
      rw [Fragment.text, String.toList_append, List.append_assoc]
      exact .cons (.fixed "const ") (.cons (.name isIdentifier) (ih quotes others uses))
    | reference name =>
      obtain ⟨isUsed, others⟩ := List.forall_mem_cons.1 uses
      exact .cons isUsed (ih quotes declares others)

end Fragment

namespace ScriptLine

/-- The texts that a line quotes. -/
def quotations (line : ScriptLine) : List String := line.fragments.filterMap Fragment.quoted?

/-- The object of a constraint quotes nothing. -/
theorem quotations_constraintFragments (a b : String) (kind : ConstraintKind) :
    (constraintFragments a b kind).filterMap Fragment.quoted? = [] := by
  cases kind with
  | distance distance maxForce => cases maxForce <;> rfl
  | lock maxForce => cases maxForce <;> rfl
  | hinge hinge => obtain ⟨pivotA, pivotB, axisA, axisB, _ | maxForce, collide⟩ := hinge <;> rfl
  | twist hinge swing twist =>
    obtain ⟨pivotA, pivotB, axisA, axisB, _ | maxForce, collide⟩ := hinge <;> rfl
  | point pivotA pivotB maxForce => cases maxForce <;> rfl

/-- The texts that a line quotes, line by line. -/
theorem quotations_eq (line : ScriptLine) : line.quotations =
    match line with
    | register prefabId => [prefabId]
    | createEntity created _ => [created]
    | entry key _ => [key]
    | _ => [] := by
  cases line with
  | declareConstraint name a b kind =>
    unfold quotations fragments
    rw [List.filterMap_append, List.filterMap_append, quotations_constraintFragments]
    rfl
  | material friction => cases friction <;> rfl
  | _ => rfl

/-- What the literal of a line fills, where entries are returned under keys of one kind. -/
def literalPart (key : LinePart) : ScriptLine → LinePart
  | register _ => .ownId
  | createEntity _ _ => .entity
  | _ => key

/-- What the variables fill that a line uses. -/
def usedPart : ScriptLine → LinePart
  | declareConstraint _ _ _ _ => .link
  | _ => .name

/-- The form of a line, where entries are returned under keys of one kind. -/
def form (key : LinePart) (line : ScriptLine) : List LinePart :=
  line.fragments.flatMap (Fragment.parts (line.literalPart key) line.usedPart)

/-- The form of a line that declares a constraint is one of the forms. -/
theorem form_declareConstraint_mem (key : LinePart) (name a b : String) (kind : ConstraintKind) :
    (declareConstraint name a b kind).form key ∈ Script.forms := by
  refine List.mem_append_right _ ?_
  cases kind with
  | distance distance maxForce => cases maxForce <;> exact List.mem_of_elem_eq_true (by rfl)
  | lock maxForce => cases maxForce <;> exact List.mem_of_elem_eq_true (by rfl)
  | hinge hinge =>
    obtain ⟨pivotA, pivotB, axisA, axisB, _ | maxForce, _ | _⟩ := hinge <;>
      exact List.mem_of_elem_eq_true (by rfl)
  | twist hinge swing twist =>
    obtain ⟨pivotA, pivotB, axisA, axisB, _ | maxForce, _ | _⟩ := hinge <;>
      exact List.mem_of_elem_eq_true (by rfl)
  | point pivotA pivotB maxForce => cases maxForce <;> exact List.mem_of_elem_eq_true (by rfl)

/-- The form of every line is one of the forms. -/
theorem form_mem (line : ScriptLine) {key : LinePart}
    (isKey : key = .bodyKey ∨ key = .constraintKey) : line.form key ∈ Script.forms := by
  cases line with
  | declareConstraint name a b kind => exact form_declareConstraint_mem key name a b kind
  | entry id name => rcases isKey with rfl | rfl <;> exact List.mem_of_elem_eq_true (by rfl)
  | material friction => cases friction <;> exact List.mem_of_elem_eq_true (by rfl)
  | _ => exact List.mem_of_elem_eq_true (by rfl)

/-- A line has one of the forms if its literals and variables fill their places. -/
theorem inForm {prefab : Prefab} {line : ScriptLine} (key : LinePart)
    (isKey : key = .bodyKey ∨ key = .constraintKey)
    (quotes : ∀ text ∈ line.quotations,
      (line.literalPart key).Fills prefab (Quoted.encode text).toList)
    (declares : ∀ name ∈ line.declared, IsIdentifier name)
    (uses : ∀ name ∈ line.used, line.usedPart.Fills prefab name.toList) :
    Script.InForm prefab line.text.toList := by
  refine ⟨line.form key, line.form_mem isKey, ?_⟩
  rw [text_eq_render]
  exact Fragment.fillsForm_render quotes declares uses

end ScriptLine

namespace Script

variable {prefab : Prefab}

/-- What is looked up for an id is the variable of a body, or nothing if no body has the id. -/
theorem body_cases (prefab : Prefab) (id : String) :
    (ScriptNames.ofPrefab prefab).body id ∈ bodyNames prefab ∨
      id ∉ prefab.bodyIds ∧ (ScriptNames.ofPrefab prefab).body id = "" := by
  rw [ofPrefab_eq]
  unfold ScriptNames.body
  split
  · rename_i entry found
    have member := List.mem_reverse.1 (List.mem_of_find?_eq_some found)
    exact .inl (List.of_mem_zip member).2
  · rename_i absent
    refine .inr ⟨fun isBody => ?_, rfl⟩
    rw [← map_fst_bodyTable, List.mem_map] at isBody
    obtain ⟨entry, member, rfl⟩ := isBody
    have other := List.find?_eq_none.1 absent entry (List.mem_reverse.2 member)
    exact other (beq_self_eq_true entry.1)

/-- The variable of a body is an identifier. -/
theorem isIdentifier_nameOf {body : Body Float} (isBody : body ∈ prefab.bodies) :
    IsIdentifier (nameOf prefab body) := by
  rcases body_cases prefab body.id with member | ⟨unknown, -⟩
  · exact (bodyNames_hasForm member).isIdentifier (by decide)
  · exact absurd (List.mem_map_of_mem isBody) unknown

/-- The place of a body is an identifier. -/
theorem isIdentifier_placeName {body : Body Float} (isBody : body ∈ prefab.bodies) :
    IsIdentifier (ScriptLine.placeName (nameOf prefab body)) := by
  rcases body_cases prefab body.id with member | ⟨unknown, -⟩
  · exact (bodyNames_hasForm member).placeName.isIdentifier (by decide)
  · exact absurd (List.mem_map_of_mem isBody) unknown

/-- The variable of a constraint is an identifier. -/
theorem isIdentifier_constraint {entry : Constraint × String}
    (member : entry ∈ namedConstraints prefab) : IsIdentifier entry.2 :=
  (constraintNames_hasForm (List.of_mem_zip member).2).isIdentifier (by decide)

/-- What is looked up for an end of a constraint fills the place of a link. -/
theorem fills_link {constraint : Constraint} (isConstraint : constraint ∈ prefab.constraints)
    {id : String} (isEnd : id ∈ [constraint.bodyA, constraint.bodyB]) :
    LinePart.link.Fills prefab ((ScriptNames.ofPrefab prefab).body id).toList := by
  rcases body_cases prefab id with member | ⟨unknown, empty⟩
  · exact .link ((bodyNames_hasForm member).isIdentifier (by decide))
  · rw [empty]
    refine .noLink isConstraint ?_
    rw [List.mem_cons, List.mem_singleton] at isEnd
    rcases isEnd with rfl | rfl
    · exact .inl unknown
    · exact .inr unknown

/-- A line without literals that uses and declares only identifiers, and links nothing, has one of
the forms. -/
theorem inForm_of_identifiers {line : ScriptLine} (silent : line.quotations = [])
    (noLink : line.usedPart = .name)
    (identifiers : ∀ name ∈ line.declared ++ line.used, IsIdentifier name) :
    InForm prefab line.text.toList := by
  refine ScriptLine.inForm .bodyKey (.inl rfl) (fun text member => ?_)
    (fun name member => identifiers name (List.mem_append_left _ member)) fun name member => ?_
  · rw [silent] at member
    cases member
  · rw [noLink]
    exact .name (identifiers name (List.mem_append_right _ member))

/-- The lines before the bodies have forms. -/
theorem inForm_opening : ∀ line ∈ opening prefab, InForm prefab line.text.toList := by
  intro line member
  simp only [opening, List.mem_cons, List.not_mem_nil, or_false] at member
  rcases member with rfl | rfl | rfl | rfl | rfl
  case inr.inr.inr.inr =>
    refine ScriptLine.inForm .bodyKey (.inl rfl) (fun text quoted => ?_)
      (List.forall_mem_nil _) (List.forall_mem_nil _)
    obtain rfl := List.mem_singleton.1 quoted
    exact .ownId (Quoted.encode_isLiteral _)
  all_goals exact inForm_of_identifiers rfl rfl (List.forall_mem_nil _)

/-- The lines that build a body have forms. -/
theorem inForm_bodyLines {body : Body Float} (isBody : body ∈ prefab.bodies)
    (defaultMass : Float) : ∀ line ∈ bodyLines (nameOf prefab body) defaultMass body,
      InForm prefab line.text.toList := by
  intro line member
  have isName := isIdentifier_nameOf isBody
  have isPlace := isIdentifier_placeName isBody
  simp only [bodyLines, List.mem_append, List.mem_cons, List.mem_map, List.not_mem_nil,
    or_false] at member
  rcases member with ((rfl | rfl | rfl | rfl | rfl | rfl | rfl | rfl) | ⟨shape, -, rfl⟩) | rfl
  all_goals
    refine inForm_of_identifiers (by rw [quotations_eq]) rfl ?_
    simp [declared_eq, used_eq, isName, isPlace]

/-- The lines that build a constraint have forms. -/
theorem inForm_constraintLines {entry : Constraint × String}
    (member : entry ∈ namedConstraints prefab) :
    ∀ line ∈ constraintLines (ScriptNames.ofPrefab prefab) entry.2 entry.1,
      InForm prefab line.text.toList := by
  intro line isLine
  have isName := isIdentifier_constraint member
  have isConstraint := (List.of_mem_zip member).1
  simp only [constraintLines, List.mem_cons, List.not_mem_nil, or_false] at isLine
  rcases isLine with rfl | rfl | rfl
  · refine ScriptLine.inForm .bodyKey (.inl rfl) ?_ ?_ fun name used => ?_
    · simp [quotations_eq]
    · simpa [declared_eq] using isName
    · rw [used_eq] at used
      change name ∈ [entry.1.bodyA, entry.1.bodyB].map (ScriptNames.ofPrefab prefab).body at used
      obtain ⟨id, isEnd, rfl⟩ := List.mem_map.1 used
      exact fills_link isConstraint isEnd
  · refine inForm_of_identifiers (by rw [quotations_eq]) rfl ?_
    simpa [declared_eq, used_eq] using isName
  · exact inForm_of_identifiers rfl rfl (List.forall_mem_nil _)

/-- The line that puts a body into the world has a form. -/
theorem inForm_spawnLine {body : Body Float} (isBody : body ∈ prefab.bodies) :
    InForm prefab (spawnLine prefab.id (nameOf prefab body) body).text.toList := by
  have isName := isIdentifier_nameOf isBody
  have isPlace := isIdentifier_placeName isBody
  unfold spawnLine
  split
  · refine ScriptLine.inForm .bodyKey (.inl rfl) (fun text quoted => ?_)
      (by simp [declared_eq]) fun name used => ?_
    · obtain rfl := List.mem_singleton.1 quoted
      exact .entity isBody (Quoted.encode_isLiteral _)
    · refine .name ?_
      simp only [used_eq, List.mem_cons, List.not_mem_nil, or_false] at used
      rcases used with rfl | rfl
      · exact isPlace
      · exact isName
  · refine inForm_of_identifiers (by rw [quotations_eq]) rfl ?_
    simpa [declared_eq, used_eq] using isName

/-- A line that returns something has a form if its key and its variable fill their places. -/
theorem inForm_entry {key : LinePart} (isKey : key = .bodyKey ∨ key = .constraintKey)
    {text name : String} (fills : key.Fills prefab (Quoted.encode text).toList)
    (isName : IsIdentifier name) : InForm prefab (entry text name).text.toList := by
  refine ScriptLine.inForm key isKey (fun quoted member => ?_) (by simp [declared_eq])
    fun used member => ?_
  · obtain rfl := List.mem_singleton.1 member
    exact fills
  · rw [used_eq, List.mem_singleton] at member
    exact .name (member ▸ isName)

/-- The lines after the constraints have forms. -/
theorem inForm_closing :
    ∀ line ∈ closing prefab ++ [.endFunction], InForm prefab line.text.toList := by
  intro line member
  simp only [closing, List.mem_append, List.mem_map, List.mem_cons, List.not_mem_nil,
    or_false] at member
  rcases member with ((((⟨body, isBody, rfl⟩ | rfl | rfl) | ⟨body, isBody, rfl⟩) |
    ⟨entry, isConstraint, rfl⟩) | rfl) | rfl
  · exact inForm_spawnLine isBody
  · exact inForm_of_identifiers rfl rfl (List.forall_mem_nil _)
  · exact inForm_of_identifiers rfl rfl (List.forall_mem_nil _)
  · exact inForm_entry (.inl rfl) (.bodyKey isBody (Quoted.encode_isLiteral _))
      (isIdentifier_nameOf isBody)
  · exact inForm_entry (.inr rfl)
      (.constraintKey (List.of_mem_zip isConstraint).1 (Quoted.encode_isLiteral _))
      (isIdentifier_constraint isConstraint)
  · exact inForm_of_identifiers rfl rfl (List.forall_mem_nil _)
  · exact inForm_of_identifiers rfl rfl (List.forall_mem_nil _)

/-- Every line of a script has one of the forms. -/
theorem inForm_lines (prefab : Prefab) (defaultMass : Float) :
    ∀ line ∈ lines prefab defaultMass, InForm prefab line.text.toList := by
  intro line member
  rw [lines_eq, List.mem_append, List.mem_append, List.mem_append] at member
  rcases member with ((inOpening | inBodies) | inConstraints) | inClosing
  · exact inForm_opening line inOpening
  · obtain ⟨body, isBody, isLine⟩ := List.mem_flatMap.1 inBodies
    exact inForm_bodyLines isBody defaultMass line isLine
  · obtain ⟨entry, isEntry, isLine⟩ := List.mem_flatMap.1 inConstraints
    exact inForm_constraintLines isEntry line isLine
  · exact inForm_closing line inClosing

/-- The number of boxes of all bodies. -/
def countShapes (prefab : Prefab) : Nat := (prefab.bodies.map fun body => body.shapes.length).sum

/-- A body takes nine lines and one for each of its boxes. -/
theorem length_bodySection (prefab : Prefab) (defaultMass : Float) :
    (bodySection prefab defaultMass).length = 9 * prefab.bodies.length + countShapes prefab := by
  have single (body : Body Float) :
      (bodyLines (nameOf prefab body) defaultMass body).length = 9 + body.shapes.length := by
    simp [bodyLines]
    omega
  unfold bodySection countShapes
  induction prefab.bodies with
  | nil => rfl
  | cons body rest ih =>
    rw [List.flatMap_cons, List.length_append, ih, single, List.map_cons, List.sum_cons,
      List.length_cons]
    omega

/-- A constraint takes three lines. -/
theorem length_constraintSection (prefab : Prefab) :
    (constraintSection prefab).length = 3 * prefab.constraints.length := by
  have each : ((namedConstraints prefab).map fun entry =>
      (constraintLines (ScriptNames.ofPrefab prefab) entry.2 entry.1).length) =
        (namedConstraints prefab).map fun _ => 3 := rfl
  rw [constraintSection, List.length_flatMap, each, List.map_const', List.sum_replicate]
  simp [Nat.mul_comm]

/-- The number of lines of a script. -/
theorem length_lines (prefab : Prefab) (defaultMass : Float) :
    (lines prefab defaultMass).length =
      9 + 11 * prefab.bodies.length + countShapes prefab + 4 * prefab.constraints.length := by
  rw [lines_eq, List.length_append, List.length_append, List.length_append, length_bodySection,
    length_constraintSection]
  simp [opening, closing]
  omega

/-- The text of a script is that of its lines, each with a line break after it. -/
theorem toList_joinLines (lines : List ScriptLine) :
    (joinLines lines).toList = (lines.map fun line => line.text.toList).flatMap (· ++ ['\n']) := by
  induction lines with
  | nil => rfl
  | cons line rest ih =>
    rw [joinLines] at ih
    simp [joinLines, ih]

/-- A key that would close its literal and end its line stays within the literal. -/
example : (entry "crate\": lid,\n" "lid").text = "    \"crate\\\": lid,\\n\": lid," := by decide

end Script

end PhysicsPrefab
