import PhysicsPrefab.Proofs.Emit.Contents
import PhysicsPrefab.Proofs.Emit.Stamping
import PhysicsPrefab.Proofs.Script.Resolution

/-!
# Names in artifacts

The files of a body and the script of its prefab name the entity of the body and its model. The
script and the model write these names as quoted texts, so they are what is meant for every id. The
behavior and the appearance are stamped out, and there an id stands as it is: the names are right
exactly for ids that hold nothing that must be escaped and whose own characters are not taken for a
placeholder (`namesAgree_iff`).
-/

namespace PhysicsPrefab

open Json (Token Document Value)

namespace Template

/-- A template in which only quoted texts change when it is stamped out. -/
structure IsSound (template : String) : Prop where
  /-- Nothing is escaped in it. -/
  noEscapes : '\\' ∉ template.toList
  /-- It can be cut into tokens. -/
  scanned : .malformed ∉ Token.ofText template
  /-- No placeholder stands in the name of a member. -/
  names : ∀ name ∈ (Document.ofText template).root.names, '#' ∉ name.toList

/-- A name that is stamped out, after what comes before the id of the prefab. -/
def nameTemplate (start : String) : String := start ++ "#\x7bprefab\x7d.#\x7bbody\x7d"

/-- Where the behavior says the name of the entity. -/
def behaviorEntity : List Json.Place := ["minecraft:entity", "description", "identifier"]

/-- Where the appearance says the name of the entity. -/
def appearanceEntity : List Json.Place := ["minecraft:client_entity", "description", "identifier"]

/-- Where the appearance says the name of the model. -/
def appearanceModel : List Json.Place :=
  ["minecraft:client_entity", "description", "geometry", "default"]

/-- Where the model says its name. -/
def modelName : List Json.Place := ["minecraft:geometry", .item 0, "description", "identifier"]

/-- The built-in behavior is sound and names the entity. -/
theorem builtinBehavior_names : IsSound builtinBehavior ∧
    Json.textAt? behaviorEntity builtinBehavior = some (nameTemplate "physics:") := by
  have facts : '\\' ∉ builtinBehavior.toList ∧ .malformed ∉ Token.ofText builtinBehavior ∧
      (∀ name ∈ (Document.ofText builtinBehavior).root.names, '#' ∉ name.toList) ∧
      Json.textAt? behaviorEntity builtinBehavior = some (nameTemplate "physics:") := by
    unfold Json.textAt? Json.Reader.run Document.ofText Token.ofText builtinBehavior
    -- the characters are gathered line by line, as decoding the whole text takes long
    simp only [String.toList_intercalate, List.map_cons, List.map_nil, String.reduceToList]
    decide +kernel
  exact ⟨⟨facts.1, facts.2.1, facts.2.2.1⟩, facts.2.2.2⟩

/-- The built-in appearance is sound and names the entity and the model. -/
theorem builtinAppearance_names : IsSound builtinAppearance ∧
    Json.textAt? appearanceEntity builtinAppearance = some (nameTemplate "physics:") ∧
    Json.textAt? appearanceModel builtinAppearance = some (nameTemplate "geometry.") := by
  have facts : '\\' ∉ builtinAppearance.toList ∧ .malformed ∉ Token.ofText builtinAppearance ∧
      (∀ name ∈ (Document.ofText builtinAppearance).root.names, '#' ∉ name.toList) ∧
      Json.textAt? appearanceEntity builtinAppearance = some (nameTemplate "physics:") ∧
      Json.textAt? appearanceModel builtinAppearance = some (nameTemplate "geometry.") := by
    unfold Json.textAt? Json.Reader.run Document.ofText Token.ofText builtinAppearance
    simp only [String.toList_intercalate, List.map_cons, List.map_nil, String.reduceToList]
    decide +kernel
  exact ⟨⟨facts.1, facts.2.1, facts.2.2.1⟩, facts.2.2.2⟩

/-- A character comes into a text that is stamped out from the template or from a value. -/
theorem not_mem_substitute {character : Char} {template : String}
    {values : List (String × String)} (apart : character ∉ template.toList)
    (valuesApart : ∀ entry ∈ values, character ∉ entry.2.toList) :
    character ∉ (substitute template values).toList := by
  induction values generalizing template with
  | nil => rwa [substitute_nil]
  | cons entry rest ih =>
    obtain ⟨valueApart, restApart⟩ := List.forall_mem_cons.1 valuesApart
    rw [substitute_cons]
    refine ih (fun member => ?_) restApart
    rw [toList_substitute] at member
    exact (mem_replaceFrom member).elim apart valueApart

/-- The two ids stand in a stamped name, but placeholders of the body are replaced in the first. -/
theorem substitute_nameTemplate {start : String} (apart : '#' ∉ start.toList)
    (prefabId bodyId : String) :
    substitute (nameTemplate start) (Emitter.stampValues prefabId bodyId) =
      start ++ substitute prefabId [("body", bodyId)] ++ "." ++ bodyId := by
  have template : (nameTemplate start).toList =
      start.toList ++ (placeholder "prefab" ++ '.' :: placeholder "body") := by
    simp [nameTemplate, placeholder]
  have other (value : List Char) : replaceFrom (placeholder "prefab") value 0 ('.' ::
      placeholder "body") = '.' :: placeholder "body" := rfl
  have alone (value : List Char) :
      replaceFrom (placeholder "body") value 0 (placeholder "body") = value := by
    have replaced : replaceFrom (placeholder "body") value 0 (placeholder "body" ++ []) = _ :=
      replaceFrom_pattern (List.cons_ne_nil _ _) []
    rwa [List.append_nil, replaceFrom, List.append_nil] at replaced
  have first : (substitute (nameTemplate start) [("prefab", prefabId)]).toList =
      start.toList ++ (prefabId.toList ++ '.' :: placeholder "body") := by
    rw [toList_substitute, template]
    exact (replaceFrom_append apart _).trans (congrArg (start.toList ++ ·)
      ((replaceFrom_pattern (List.cons_ne_nil _ _) _).trans
        (congrArg (prefabId.toList ++ ·) (other _))))
  rw [Emitter.stampValues, substitute_cons, ← String.toList_inj, toList_substitute, first]
  have crossed : replaceFrom (placeholder "body") bodyId.toList 0
      (prefabId.toList ++ '.' :: placeholder "body") =
      replaceFrom (placeholder "body") bodyId.toList 0 prefabId.toList ++
        '.' :: replaceFrom (placeholder "body") bodyId.toList 0 (placeholder "body") :=
    replaceFrom_cross (List.cons_ne_nil _ _) (by decide) _ _ (Nat.zero_le _)
  rw [alone] at crossed
  simp only [String.toList_append, toList_substitute]
  refine (replaceFrom_append apart _).trans ?_
  rw [List.append_assoc, List.append_assoc]
  exact congrArg (start.toList ++ ·) crossed

end Template

/-- The entity that a line creates, with the variable of its body. -/
def ScriptLine.createdEntity : ScriptLine → List (String × String)
  | createEntity entity body => [(entity, body)]
  | _ => []

namespace Script

/-- The entities that lines create, in order, each with the variable of its body. -/
def createdEntities (lines : List ScriptLine) : List (String × String) :=
  lines.flatMap ScriptLine.createdEntity

/-- A script creates one entity for each body that is drawn, in order. -/
theorem createdEntities_lines (prefab : Prefab) (defaultMass : Float) :
    createdEntities (lines prefab defaultMass) = (prefab.bodies.filter Body.isVisual).map
      fun body => (entityName prefab.id body.id, nameOf prefab body) := by
  rw [createdEntities, flatMap_lines _ _
    (fun line => by cases line <;> simp [ScriptLine.isEssential, ScriptLine.createdEntity])]
  simp only [ScriptLine.createdEntity, List.append_nil, List.nil_append, flatMap_const_nil]
  induction prefab.bodies with
  | nil => rfl
  | cons body rest ih =>
    rw [List.flatMap_cons, ih, List.filter_cons]
    split <;> rfl

/-- A script creates an entity for a variable; its name is the argument that the script writes. -/
def Creates (script entity name : String) : Prop :=
  ∃ before after literal, script = joinLines before ++
    s!"  Physics.createBodyEntity({literal}, offPos{name}, dim, {name});\n" ++ joinLines after ∧
    Token.ofText literal = [.string entity]

/-- The text of the line that creates an entity. -/
theorem text_createEntity (entity name : String) :
    (ScriptLine.createEntity entity name).text ++ "\n" =
      s!"  Physics.createBodyEntity({Quoted.encode entity}, offPos{name}, dim, {name});\n" := by
  unfold ScriptLine.text
  simp only [toString, String.append_assoc, String.reduceAppend]

/-- The text of lines creates the entities that the lines create. -/
theorem creates_of_mem {lines : List ScriptLine} {entity name : String}
    (created : (entity, name) ∈ createdEntities lines) : Creates (joinLines lines) entity name := by
  rw [createdEntities, List.mem_flatMap] at created
  obtain ⟨line, isLine, creates⟩ := created
  obtain ⟨before, after, rfl⟩ := List.append_of_mem isLine
  cases line with
  | createEntity other variableName =>
    simp only [ScriptLine.createdEntity, List.mem_singleton, Prod.mk.injEq] at creates
    obtain ⟨rfl, rfl⟩ := creates
    refine ⟨before, after, Quoted.encode entity, ?_, Token.ofText_encode entity⟩
    rw [← text_createEntity]
    simp only [joinLines, List.map_append, List.map_cons, String.join_append, String.join_cons,
      String.append_assoc]
  | _ => exact absurd creates List.not_mem_nil

end Script

namespace Emitter

/-- The script and the model of a body name its entity and its model. -/
structure WrittenNames (prefabId bodyId name script model : String) : Prop where
  /-- The script creates the entity for the variable of the body. -/
  entity : Script.Creates script (Script.entityName prefabId bodyId) name
  /-- The model is the text of a value with the name of the model. -/
  model : ∃ value : Value, model = value.pretty ∧ Token.ofText model = value.tokens ∧
    value.textAt? Template.modelName = some (geometryIdentifier prefabId bodyId)

/-- The behavior and the appearance of a body are well formed and name its entity and its model. -/
structure StampedNames (prefabId bodyId behavior appearance : String) : Prop where
  /-- The behavior is that of the entity. -/
  behaviorEntity : Json.textAt? Template.behaviorEntity behavior =
    some (Script.entityName prefabId bodyId)
  /-- The appearance is that of the entity. -/
  appearanceEntity : Json.textAt? Template.appearanceEntity appearance =
    some (Script.entityName prefabId bodyId)
  /-- The appearance asks for the model. -/
  appearanceModel : Json.textAt? Template.appearanceModel appearance =
    some (geometryIdentifier prefabId bodyId)

/-- Two ids stand for themselves in templates. -/
structure StandAlone (prefabId bodyId : String) : Prop where
  /-- Neither holds a quote, a backslash or a control character. -/
  bare : ∀ character ∈ prefabId.toList ++ bodyId.toList, Quoted.IsBare character
  /-- The first does not hold the placeholder of the second. -/
  lasting : Template.substitute prefabId [("body", bodyId)] = prefabId

/-- An id that is accepted holds no backslash. -/
theorem backslash_not_mem_of_isFileName {id : String} (isName : isFileName id = true) :
    '\\' ∉ id.toList := by
  intro member
  unfold isFileName at isName
  split at isName
  · have escapes : (id.toList.any fun character => character = '/' || character = '\\') = true :=
      List.any_eq_true.2 ⟨_, member, by decide⟩
    rw [escapes] at isName
    contradiction
  · contradiction

/-- What a sound template says under a stamped name is the name, exactly for ids that stand for
themselves. -/
theorem textAt?_stamped_iff {template start prefabId bodyId : String} {path : List Json.Place}
    (sound : Template.IsSound template) (apart : '#' ∉ start.toList)
    (named : Json.textAt? path template = some (Template.nameTemplate start))
    (prefabAccepted : isFileName prefabId = true) (bodyAccepted : isFileName bodyId = true) :
    Json.textAt? path (Template.substitute template (stampValues prefabId bodyId)) =
      some (start ++ prefabId ++ "." ++ bodyId) ↔ StandAlone prefabId bodyId := by
  have stamped (bare : ∀ character ∈ prefabId.toList ++ bodyId.toList, Quoted.IsBare character) :
      Json.textAt? path (Template.substitute template (stampValues prefabId bodyId)) =
        some (start ++ Template.substitute prefabId [("body", bodyId)] ++ "." ++ bodyId) := by
    obtain ⟨barePrefab, bareBody⟩ := List.forall_mem_append.1 bare
    have areBare : Template.AreBare (stampValues prefabId bodyId) := by
      constructor
      · simp [stampValues]
      · simpa [stampValues] using ⟨barePrefab, bareBody⟩
    rw [Template.textAt?_substitute areBare sound.noEscapes sound.scanned sound.names, named,
      Option.map_some, Template.substitute_nameTemplate apart]
  constructor
  case mpr =>
    intro fit
    rw [stamped fit.bare, fit.lasting]
  case mp =>
    intro agrees
    have noEscapes : '\\' ∉ (Template.substitute template (stampValues prefabId bodyId)).toList := by
      refine Template.not_mem_substitute sound.noEscapes ?_
      simpa [stampValues] using ⟨backslash_not_mem_of_isFileName prefabAccepted,
        backslash_not_mem_of_isFileName bodyAccepted⟩
    have outside : Json.Scan.IsOutside .between := trivial
    have bareName := Json.Scan.bare_of_mem_run noEscapes (.inl outside)
      (Json.exists_token_of_textAt? agrees)
    have bare : ∀ character ∈ prefabId.toList ++ bodyId.toList, Quoted.IsBare character := by
      intro character member
      refine bareName character ?_
      rcases List.mem_append.1 member with inPrefab | inBody <;> simp [*]
    refine ⟨bare, ?_⟩
    have same := Option.some.inj ((stamped bare).symm.trans agrees)
    simpa [String.append_assoc] using same

/-- The script and the model of every accepted body name its entity and its model. Its behavior and
its appearance do so exactly if the ids stand for themselves in templates. -/
theorem stampedNames_iff {emitter : Emitter}
    (behaviorTemplate : emitter.templates.behavior = Template.builtinBehavior)
    (appearanceTemplate : emitter.templates.appearance = Template.builtinAppearance)
    (modelTemplate : emitter.templates.geometry = Template.builtinModel)
    {prefab : Prefab} {artifacts : List Artifact}
    (made : (emitter.prefabArtifacts prefab).run.value = .ok artifacts) :
    ∃ files script,
      artifacts = files.flatten ++ [⟨emitter.layout.script.join ⟨prefab.id ++ ".js"⟩, script⟩] ∧
      (∃ lines, script = Script.joinLines lines ∧ Script.createdEntities lines =
        (prefab.bodies.filter Body.isVisual).map fun body =>
          (Script.entityName prefab.id body.id, Script.nameOf prefab body)) ∧
      List.Forall₂ (fun body own => ∃ behavior appearance model,
        own = [⟨bodyPath emitter.layout.behavior prefab.id body.id, behavior⟩,
          ⟨bodyPath emitter.layout.appearance prefab.id body.id, appearance⟩,
          ⟨bodyPath emitter.layout.geometry prefab.id body.id, model⟩] ∧
        WrittenNames prefab.id body.id (Script.nameOf prefab body) script model ∧
        (StampedNames prefab.id body.id behavior appearance ↔ StandAlone prefab.id body.id))
        (prefab.bodies.filter Body.isVisual) files := by
  obtain ⟨prefabAccepted, files, filesOf, rfl⟩ := prefabArtifacts_eq_ok.1 made
  have created := Script.createdEntities_lines prefab emitter.defaultMass
  have creates : ∀ body ∈ prefab.bodies.filter Body.isVisual,
      Script.Creates (Script.ofPrefab prefab emitter.defaultMass)
        (Script.entityName prefab.id body.id) (Script.nameOf prefab body) := fun body member =>
    Script.creates_of_mem (created ▸ List.mem_map.2 ⟨body, member, rfl⟩)
  refine ⟨files, Script.ofPrefab prefab emitter.defaultMass, rfl, ⟨_, rfl, created⟩,
    ((List.forall₂_and_left _ _).2 ⟨creates, filesOf⟩).imp ?_⟩
  rintro body own ⟨bodyCreated, bodyAccepted, model, isModel, rfl⟩
  rw [modelTemplate, entityModel_builtin, Except.ok.injEq] at isModel
  subst isModel
  obtain ⟨behaviorSound, behaviorNames⟩ := Template.builtinBehavior_names
  obtain ⟨appearanceSound, appearanceNames, modelNames⟩ := Template.builtinAppearance_names
  have behavior := textAt?_stamped_iff behaviorSound (by decide) behaviorNames prefabAccepted
    bodyAccepted
  have appearance := textAt?_stamped_iff appearanceSound (by decide) appearanceNames prefabAccepted
    bodyAccepted
  have model := textAt?_stamped_iff appearanceSound (by decide) modelNames prefabAccepted
    bodyAccepted
  rw [← behaviorTemplate] at behavior
  rw [← appearanceTemplate] at appearance model
  exact ⟨_, _, _, rfl, ⟨bodyCreated, _, rfl, Value.ofText_pretty _, rfl⟩,
    fun names => behavior.1 names.behaviorEntity,
    fun alone => ⟨behavior.2 alone, appearance.2 alone, model.2 alone⟩⟩

/-- An emitter of a project that says nothing else, with the built-in templates. -/
def builtinEmitter : Emitter :=
  ⟨.default, ⟨Template.builtinBehavior, Template.builtinAppearance, Template.builtinModel⟩,
    Script.defaultMass⟩

/-- The model template is the built-in one. -/
theorem builtinEmitter_model : builtinEmitter.templates.geometry = Template.builtinModel := by
  simp only [builtinEmitter]

/-- The only cube of a lantern. -/
def pane : Cube Float := ⟨.zero, .zero, none, none, .empty⟩

/-- A prefab with one body that is drawn, under an id of its own. -/
def lantern (id : String) : Prefab :=
  ⟨id, [⟨"glass", .zero, [], [pane], none, none, .empty⟩], []⟩

/-- The files of a lantern are made under every id that is a name for a file. -/
theorem lantern_made {id : String} (accepted : isFileName id = true) :
    (builtinEmitter.prefabArtifacts (lantern id)).run.value =
      .ok (builtinEmitter.bodyFiles id "glass"
          (Template.stamped (geometryIdentifier id "glass") [pane]) ++
        [builtinEmitter.scriptFile (lantern id)]) := by
  have named : isFileName "glass" = true := by decide
  exact prefabArtifacts_of_accepted builtinEmitter_model accepted (List.forall_mem_singleton.2 named)

/-- The four artifacts of a lantern agree on its names. -/
theorem stampedNames_lantern :
    ∃ behavior appearance model script,
      (builtinEmitter.prefabArtifacts (lantern "brass")).run.value = .ok [
        ⟨⟨"BP/entities/physics/prefabs/brass/glass.json"⟩, behavior⟩,
        ⟨⟨"RP/entity/physics/prefabs/brass/glass.json"⟩, appearance⟩,
        ⟨⟨"RP/models/entity/physics/prefabs/brass/glass.json"⟩, model⟩,
        ⟨⟨"data/gametests/src/prefabs/brass.js"⟩, script⟩] ∧
      WrittenNames "brass" "glass" "bodyglass" script model ∧
      StampedNames "brass" "glass" behavior appearance := by
  have made := lantern_made (by decide : isFileName "brass" = true)
  obtain ⟨files, script, same, -, all⟩ := stampedNames_iff rfl rfl builtinEmitter_model made
  have visual : (lantern "brass").bodies.filter Body.isVisual = (lantern "brass").bodies := rfl
  rw [visual, lantern] at all
  obtain ⟨own, others, ⟨behavior, appearance, model, rfl, written, stamped⟩, rest, rfl⟩ :=
    List.forall₂_cons_left_iff.1 all
  obtain rfl := List.forall₂_nil_left_iff.1 rest
  have bare : ("brass".toList ++ "glass".toList).all (Quoted.IsBare ·) = true := by decide
  have alone : StandAlone "brass" "glass" :=
    ⟨fun character member => of_decide_eq_true (List.all_eq_true.1 bare character member), by decide⟩
  exact ⟨behavior, appearance, model, script, made.trans (congrArg Except.ok same), written,
    stamped.2 alone⟩

/-- Whether the lantern of an id is made with a behavior that does not name its entity. -/
def IsMisnamed (id : String) : Prop :=
  ∃ behavior rest, (builtinEmitter.prefabArtifacts (lantern id)).run.value =
      .ok (⟨bodyPath ⟨"BP/entities/physics/prefabs"⟩ id "glass", behavior⟩ :: rest) ∧
    Json.textAt? Template.behaviorEntity behavior ≠ some (Script.entityName id "glass")

/-- An id that is accepted and does not stand alone gives a behavior that does not name the entity. -/
theorem isMisnamed {id : String} (accepted : isFileName id = true)
    (dependent : ¬ StandAlone id "glass") : IsMisnamed id := by
  refine ⟨_, _, lantern_made accepted, fun named => dependent ?_⟩
  obtain ⟨sound, names⟩ := Template.builtinBehavior_names
  exact (textAt?_stamped_iff sound (by decide) names accepted (by decide)).1 named

/-- An id that holds a quote or the placeholder of the body is accepted, and then the behavior does
not name the entity. -/
theorem behavior_misnamed : IsMisnamed "old\"lamp" ∧ IsMisnamed "#\x7bbody\x7d" := by
  refine ⟨isMisnamed (by decide) fun alone => ?quote, isMisnamed (by decide) fun alone => ?body⟩
  case quote => exact absurd (alone.bare '"' (by decide)) (by decide)
  case body => exact absurd alone.lasting (by decide)

end Emitter

end PhysicsPrefab
