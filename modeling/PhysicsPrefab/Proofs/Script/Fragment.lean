import PhysicsPrefab.Script.Basic

/-!
# Fragments of lines

The text of a script line is put together from fixed text, numbers, quoted texts and variables.
Here each line is written as a list of such fragments, and its text is theirs (`text_eq_render`).
What a line declares and what it uses is then read off the fragments and not off the line, so no
variable that stands in the text can be forgotten.
-/

namespace PhysicsPrefab

/-- A part of a line. -/
inductive Fragment where
  /-- Text that depends on no name. -/
  | fixed (text : String)
  /-- A number. -/
  | number (value : Float)
  /-- A text between quotes. -/
  | quoted (text : String)
  /-- The declaration of a variable. -/
  | declaration (name : String)
  /-- The use of a variable. -/
  | reference (name : String)

namespace Fragment

/-- The text of a fragment. -/
def text : Fragment → String
  | fixed text => text
  | number value => ScriptLine.number value
  | quoted text => Quoted.encode text
  | declaration name => "const " ++ name
  | reference name => name

/-- The text of fragments one after the other. -/
def render : List Fragment → String
  | [] => ""
  | fragment :: rest => fragment.text ++ render rest

/-- Fragments one after the other have their texts one after the other. -/
theorem render_append (left right : List Fragment) :
    render (left ++ right) = render left ++ render right := by
  induction left with
  | nil => simp [render]
  | cons fragment rest ih => simp [render, ih, String.append_assoc]

/-- The variable that a fragment declares. -/
def declared? : Fragment → Option String
  | declaration name => some name
  | _ => none

/-- The variable that a fragment uses. -/
def used? : Fragment → Option String
  | reference name => some name
  | _ => none

end Fragment

namespace ScriptLine

open Fragment

/-- The fragments of a vector. -/
def vectorFragments (value : Vec3 Float) : List Fragment :=
  [fixed "new CANNON.Vec3(", .number value.x, fixed ", ", .number value.y, fixed ", ",
    .number value.z, fixed ")"]

/-- The fragments of a number that may be left open. -/
def optionalFragments : Option Float → List Fragment
  | some value => [.number value]
  | none => [fixed "undefined"]

/-- Lists of fragments with a comma between any two. -/
def separated : List (List Fragment) → List Fragment
  | [] => []
  | [only] => only
  | first :: rest => first ++ fixed ", " :: separated rest

/-- The fragments of an object with the given entries. -/
def objectFragments : List (List Fragment) → List Fragment
  | [] => [fixed "\x7b\x7d"]
  | entries => fixed "\x7b " :: separated entries ++ [fixed " \x7d"]

/-- The fragments of the entry of a limited force. -/
def forceFragments : Option Float → List (List Fragment)
  | some force => [[fixed "maxForce: ", .number force]]
  | none => []

/-- The fragments of an angle. -/
def angleFragments (name : String) (degrees : Float) : List Fragment :=
  [fixed (name ++ ": "), .number (degrees * Scalar.radiansPerDegree)]

/-- The fragments of the entries of a hinge, with more before its flag. -/
def hingeFragments (hinge : Hinge) (more : List (List Fragment)) : List (List Fragment) :=
  [fixed "pivotA: " :: vectorFragments hinge.pivotA,
    fixed "pivotB: " :: vectorFragments hinge.pivotB,
    fixed "axisA: " :: vectorFragments hinge.axisA,
    fixed "axisB: " :: vectorFragments hinge.axisB] ++ more ++
  [[fixed "collideConnected: ", fixed (toString hinge.collideConnected)]] ++
  forceFragments hinge.maxForce

/-- The fragments of the object of a constraint between two variables. -/
def constraintFragments (a b : String) : ConstraintKind → List Fragment
  | .distance distance maxForce =>
    [fixed "new CANNON.DistanceConstraint(", reference a, fixed ", ", reference b, fixed ", ",
      .number distance, fixed ", "] ++ optionalFragments maxForce ++ [fixed ")"]
  | .lock maxForce =>
    [fixed "new CANNON.LockConstraint(", reference a, fixed ", ", reference b, fixed ", "] ++
      objectFragments (forceFragments maxForce) ++ [fixed ")"]
  | .hinge hinge =>
    [fixed "new CANNON.HingeConstraint(", reference a, fixed ", ", reference b, fixed ", "] ++
      objectFragments (hingeFragments hinge []) ++ [fixed ")"]
  | .twist hinge swing twist =>
    [fixed "new CANNON.ConeTwistConstraint(", reference a, fixed ", ", reference b,
      fixed ", "] ++
      objectFragments (hingeFragments hinge
        [angleFragments "angle" swing, angleFragments "twistAngle" twist]) ++ [fixed ")"]
  | .point pivotA pivotB maxForce =>
    [fixed "new CANNON.PointToPointConstraint(", reference a, fixed ", "] ++
      vectorFragments pivotA ++ [fixed ", ", reference b, fixed ", "] ++
      vectorFragments pivotB ++ [fixed ", "] ++ optionalFragments maxForce ++ [fixed ")"]

/-- The fragments of the arguments that place a box. -/
def shapeFragments (shape : Shape Float) : List Fragment :=
  fixed "new CANNON.Box(" :: vectorFragments shape.halfExtents ++ [fixed "), "] ++
    vectorFragments shape.offset ++
    [fixed ", new CANNON.Quaternion().setFromEuler(", .number shape.orientation.x, fixed ", ",
      .number shape.orientation.y, fixed ", ", .number shape.orientation.z, fixed ")"]

/-- The variable for the place of a body. -/
def placeName (body : String) : String := "offPos" ++ body

/-- The fragments of a line. -/
def fragments : ScriptLine → List Fragment
  | register prefabId =>
    [fixed "Physics.registerPrefab(", quoted prefabId,
      fixed ", (", fixed "\x7b physWorld, pos, dim \x7d) => \x7b"]
  | declarePlace body offset =>
    [fixed "  ", declaration (placeName body), fixed " = pos.vadd("] ++
      vectorFragments offset ++ [fixed ");"]
  | declareBody body => [fixed "  ", declaration body, fixed " = new CANNON.Body(", fixed "\x7b"]
  | mass value => [fixed "    mass: ", .number value, fixed ","]
  | position body => [fixed "    position: ", reference (placeName body), fixed ","]
  | material (some friction) =>
    [fixed "    material: new CANNON.Material(\x7b friction: ", .number friction,
      fixed " \x7d),"]
  | addShape body shape =>
    [fixed "  ", reference body, fixed ".addShape("] ++ shapeFragments shape ++ [fixed ");"]
  | declareConstraint name a b kind =>
    [fixed "  ", declaration name, fixed " = "] ++ constraintFragments a b kind ++ [fixed ";"]
  | addConstraint name => [fixed "  physWorld.addConstraint(", reference name, fixed ");"]
  | createEntity entity body =>
    [fixed "  Physics.createBodyEntity(", quoted entity, fixed ", ",
      reference (placeName body), fixed ", dim, ", reference body, fixed ");"]
  | addBody body => [fixed "  physWorld.addBody(", reference body, fixed ");"]
  | entry key name => [fixed "    ", quoted key, fixed ": ", reference name, fixed ","]
  | line => [fixed line.text]

/-- The variables that a line declares. -/
def declared (line : ScriptLine) : List String := line.fragments.filterMap declared?

/-- The variables that a line uses. -/
def used (line : ScriptLine) : List String := line.fragments.filterMap used?

/-- The text of a vector is that of its fragments. -/
theorem render_vectorFragments (value : Vec3 Float) :
    render (vectorFragments value) = vector value := by
  unfold vectorFragments vector
  simp only [render, Fragment.text, toString, String.append_assoc]
  simp only [String.append_empty]

/-- The text of a number that may be left open is that of its fragments. -/
theorem render_optionalFragments (value : Option Float) :
    render (optionalFragments value) = optionalNumber value := by
  cases value <;> simp only [optionalFragments, render, Fragment.text, optionalNumber,
    String.append_empty]

/-- Separated fragments have their texts with a comma between any two. -/
theorem render_separated (entries : List (List Fragment)) :
    render (separated entries) = String.intercalate ", " (entries.map render) := by
  induction entries with
  | nil => rfl
  | cons first rest ih =>
    cases rest with
    | nil => simp only [separated, List.map_cons, List.map_nil, String.intercalate_singleton]
    | cons second others =>
      simp only [separated, render_append, render, ih, Fragment.text, List.map_cons,
        String.intercalate_cons_cons, String.append_assoc]

/-- The text of an object is that of its fragments. -/
theorem render_objectFragments (entries : List (List Fragment)) :
    render (objectFragments entries) = object (entries.map render) := by
  cases entries with
  | nil => simp only [objectFragments, render, Fragment.text, List.map_nil, object,
      String.append_empty]
  | cons first rest =>
    simp only [objectFragments, render_append, render, render_separated, Fragment.text,
      List.map_cons, object, String.append_assoc, List.cons_append]
    simp only [String.append_empty]

/-- The entry of a limited force has the texts of its fragments. -/
theorem map_render_forceFragments (force : Option Float) :
    (forceFragments force).map render = forceEntry force := by
  cases force with
  | none => rfl
  | some force =>
    simp only [forceFragments, List.map_cons, List.map_nil, render, Fragment.text, forceEntry,
      toString]
    simp only [String.append_empty]

/-- The entries of a hinge have the texts of their fragments. -/
theorem map_render_hingeFragments (hinge : Hinge) (more : List (List Fragment)) :
    (hingeFragments hinge more).map render = hingeEntries hinge (more.map render) := by
  unfold hingeFragments hingeEntries
  simp only [List.map_append, List.map_cons, List.map_nil, render, render_vectorFragments,
    map_render_forceFragments, Fragment.text, toString]
  simp only [String.append_empty]

/-- The text of an angle is that of its fragments. -/
theorem render_angleFragments (name : String) (degrees : Float) :
    render (angleFragments name degrees) = name ++ ": " ++ angle degrees := by
  simp only [angleFragments, render, Fragment.text, angle, String.append_assoc]
  simp only [String.append_empty]

/-- The text of the object of a constraint is that of its fragments. -/
theorem render_constraintFragments (a b : String) (kind : ConstraintKind) :
    render (constraintFragments a b kind) = constraint a b kind := by
  cases kind <;> unfold constraintFragments constraint <;>
    simp only [render_append, render, render_objectFragments, render_optionalFragments,
      render_vectorFragments, map_render_forceFragments, map_render_hingeFragments,
      render_angleFragments, Fragment.text, List.map_cons, List.map_nil, toString,
      String.append_assoc]
  all_goals simp only [String.append_empty, String.empty_append]
  rfl

/-- The text of the arguments that place a box is that of their fragments. -/
theorem render_shapeFragments (shape : Shape Float) :
    render (shapeFragments shape) = shapeArguments shape := by
  unfold shapeFragments shapeArguments
  simp only [render_append, render, render_vectorFragments, Fragment.text, List.cons_append,
    toString, String.append_assoc]
  simp only [String.append_empty, String.empty_append]

/-- Text is put together from smaller pieces than the lines are written with. -/
theorem split_pieces :
    "  const offPos" = "  " ++ ("const " ++ "offPos") ∧ "  const " = "  " ++ "const " ∧
      "    position: offPos" = "    position: " ++ "offPos" ∧
      ", offPos" = ", " ++ "offPos" := by
  decide

/-- The text of a line is that of its fragments. -/
theorem text_eq_render (line : ScriptLine) : line.text = render line.fragments := by
  obtain ⟨place, declaration, position, argument⟩ := split_pieces
  cases line with
  | material friction =>
    cases friction with
    | none => simp only [fragments, render, Fragment.text, String.append_empty]
    | some friction =>
      unfold fragments ScriptLine.text
      simp only [render, Fragment.text, String.append_assoc]
      simp only [String.append_empty]
  | _ =>
    unfold fragments ScriptLine.text
    simp only [render_append, render, render_vectorFragments, render_constraintFragments,
      render_shapeFragments, Fragment.text, placeName, toString, place, declaration, position,
      argument, String.append_assoc]
    try simp only [String.append_empty, String.empty_append]

end ScriptLine

end PhysicsPrefab
