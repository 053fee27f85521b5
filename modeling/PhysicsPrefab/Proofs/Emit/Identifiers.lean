import PhysicsPrefab.Proofs.Emit.Agreement

/-!
# Identifiers of bodies

The game knows the entity and the model of a body under the id of its prefab, a dot, and its own id.
Ids may hold dots themselves, so the same text can come of two bodies: exactly if one can be taken
apart at another dot to give the other (`dotted_eq_iff`). Whether all bodies of a project that are
drawn have identifiers of their own is thus settled by the ids alone
(`Emitter.identifiers_nodup_iff`).
-/

namespace PhysicsPrefab

/-- The id of a prefab and that of a body, as they stand in identifiers. -/
def dotted (ids : String × String) : String := ids.1 ++ "." ++ ids.2

/-- The second prefab has the id of the first with more behind a dot, and the first body has the id
of the second with as much in front of a dot. -/
def Overlaps (first second : String × String) : Prop :=
  ∃ middle, second.1 = first.1 ++ "." ++ middle ∧ first.2 = middle ++ "." ++ second.2

/-- The characters of an identifier. -/
theorem toList_dotted (ids : String × String) :
    (dotted ids).toList = ids.1.toList ++ '.' :: ids.2.toList := by
  simp [dotted]

/-- Overlapping ids come to the same identifier. -/
theorem Overlaps.dotted_eq {first second : String × String} (overlaps : Overlaps first second) :
    dotted first = dotted second := by
  obtain ⟨middle, prefabs, bodies⟩ := overlaps
  simp only [dotted, prefabs, bodies, String.append_assoc]

/-- If a longer id of a prefab begins with a shorter one and the identifiers are the same, the ids are
the same or overlap. -/
theorem eq_or_overlaps {first second : String × String} {more : List Char}
    (longer : second.1.toList = first.1.toList ++ more)
    (rest : '.' :: first.2.toList = more ++ '.' :: second.2.toList) :
    first = second ∨ Overlaps first second := by
  cases more with
  | nil =>
    left
    have bodies : first.2 = second.2 := String.toList_inj.1 (List.cons.inj rest).2
    have prefabs : first.1 = second.1 := String.toList_inj.1 (by rw [longer, List.append_nil])
    exact Prod.ext prefabs bodies
  | cons dot middle =>
    right
    obtain ⟨rfl, bodies⟩ := List.cons.inj rest
    refine ⟨String.ofList middle, String.toList_inj.1 ?_, String.toList_inj.1 ?_⟩
    · simp [longer]
    · simp [bodies]

/-- Two pairs of ids come to the same identifier exactly if they are the same or one can be taken
apart at another dot to give the other. -/
theorem dotted_eq_iff {first second : String × String} :
    dotted first = dotted second ↔
      first = second ∨ Overlaps first second ∨ Overlaps second first := by
  constructor
  · intro same
    have characters : first.1.toList ++ '.' :: first.2.toList =
        second.1.toList ++ '.' :: second.2.toList := by
      rw [← toList_dotted, ← toList_dotted, same]
    rcases List.append_eq_append_iff.1 characters with ⟨more, longer, rest⟩ | ⟨more, longer, rest⟩
    · have cases := eq_or_overlaps longer rest
      exact cases.imp_right .inl
    · have cases := eq_or_overlaps longer rest
      exact cases.imp Eq.symm .inr
  · rintro (rfl | overlaps | overlaps)
    · rfl
    · exact overlaps.dotted_eq
    · exact overlaps.dotted_eq.symm

/-- The entity of a body is named by its ids. -/
theorem Script.entityName_eq (prefabId bodyId : String) :
    entityName prefabId bodyId = "physics:" ++ dotted (prefabId, bodyId) := by
  simp [entityName, dotted, toString, String.append_assoc]

/-- The model of a body is named by its ids. -/
theorem geometryIdentifier_eq (prefabId bodyId : String) :
    geometryIdentifier prefabId bodyId = "geometry." ++ dotted (prefabId, bodyId) := by
  simp [geometryIdentifier, dotted, toString, String.append_assoc]

/-- The ids of the bodies that are drawn, with those of their prefabs, in order. -/
def drawnIds (prefabs : List Prefab) : List (String × String) :=
  prefabs.flatMap fun prefab =>
    (prefab.bodies.filter Body.isVisual).map fun body => (prefab.id, body.id)

/-- Different bodies have different pairs of ids. -/
theorem drawnIds_nodup {prefabs : List Prefab} (distinct : (prefabs.map (·.id)).Nodup)
    (bodies : ∀ prefab ∈ prefabs, (prefab.bodies.map (·.id)).Nodup) : (drawnIds prefabs).Nodup := by
  refine List.nodup_flatMap.2 ⟨fun prefab isPrefab => ?_, ?_⟩
  · have drawn : ((prefab.bodies.filter Body.isVisual).map (·.id)).Nodup :=
      (bodies prefab isPrefab).sublist (List.filter_sublist.map _)
    have paired := drawn.map (Prod.mk_right_injective prefab.id)
    rwa [List.map_map] at paired
  · refine (List.pairwise_map.1 distinct).imp ?_
    intro first second different ids isFirst isSecond
    obtain ⟨_, -, rfl⟩ := List.mem_map.1 isFirst
    obtain ⟨_, -, same⟩ := List.mem_map.1 isSecond
    exact different (Prod.ext_iff.1 same).1.symm

/-- No two of some pairs of ids overlap. -/
def Apart (ids : List (String × String)) : Prop :=
  ∀ first ∈ ids, ∀ second ∈ ids, ¬ Overlaps first second

/-- Identifiers of different pairs of ids are different exactly if no two of the pairs overlap. -/
theorem nodup_map_dotted_iff {ids : List (String × String)} (distinct : ids.Nodup) :
    (ids.map dotted).Nodup ↔ Apart ids := by
  rw [List.nodup_map_iff_inj_on distinct]
  constructor
  · intro injective first isFirst second isSecond overlaps
    have same := injective first isFirst second isSecond overlaps.dotted_eq
    obtain ⟨middle, prefabs, -⟩ := same ▸ overlaps
    have lengths := congrArg (·.toList.length) prefabs
    simp at lengths
  · intro apart first isFirst second isSecond same
    rcases dotted_eq_iff.1 same with equal | overlaps | overlaps
    · exact equal
    · exact absurd overlaps (apart first isFirst second isSecond)
    · exact absurd overlaps (apart second isSecond first isFirst)

/-- What stands in front of identifiers does not matter. -/
theorem nodup_map_prepend_iff (ids : List (String × String)) {front : String}
    {name : String → String → String}
    (isName : ∀ prefabId bodyId, name prefabId bodyId = front ++ dotted (prefabId, bodyId)) :
    (ids.map fun entry => name entry.1 entry.2).Nodup ↔ (ids.map dotted).Nodup := by
  have injective : Function.Injective (front ++ ·) := fun first second same => by
    simpa using same
  have names : (ids.map fun entry => name entry.1 entry.2) = (ids.map dotted).map (front ++ ·) := by
    rw [List.map_map]
    exact List.map_congr_left fun entry _ => isName entry.1 entry.2
  rw [names, List.nodup_map_iff injective]

/-- The identifiers of the geometries of a model, in order. -/
def Model.identifiers (model : Model Float) : List String :=
  model.geometries.map (·.description.identifier)

/-- The built-in template of a model has one geometry only. -/
theorem identifiers_builtinModel : Template.builtinModel.identifiers.tail = [] := by
  rw [Template.builtinModel_eq]
  rfl

namespace Emitter

/-- The artifacts of a prefab give each of its bodies that are drawn an entity and a model under the
identifiers of its ids. -/
structure Identifies (emitter : Emitter) (prefab : Prefab) (artifacts : List Artifact) : Prop where
  /-- The script creates these entities and no others. -/
  entities : ∃ lines, emitter.scriptFile prefab ∈ artifacts ∧
    (emitter.scriptFile prefab).contents = Script.joinLines lines ∧
    (Script.createdEntities lines).map (·.1) = (prefab.bodies.filter Body.isVisual).map
      fun body => Script.entityName prefab.id body.id
  /-- The file of the model of a body holds a geometry of that name, and behind it those of the
  template but for the first. -/
  models : ∀ body ∈ prefab.bodies.filter Body.isVisual, ∃ model : Model Float,
    (⟨bodyPath emitter.layout.geometry prefab.id body.id, model.toValue.pretty⟩ : Artifact) ∈
      artifacts ∧
    model.identifiers =
      geometryIdentifier prefab.id body.id :: emitter.templates.geometry.identifiers.tail

/-- The model of a body has the name of the body, and those of the template but for the first. -/
theorem identifiers_entityModel {template model : Model Float} {prefabId : String}
    {body : Body Float} (made : entityModel template prefabId body = .ok model) :
    model.identifiers = geometryIdentifier prefabId body.id :: template.identifiers.tail := by
  rw [entityModel] at made
  split at made
  · contradiction
  · next geometry others isTemplate =>
    split at made
    · contradiction
    · obtain rfl := Except.ok.inj made
      rw [Model.identifiers, Model.identifiers, isTemplate]
      rfl

/-- The artifacts of a prefab identify its bodies. -/
theorem prefabArtifacts_identifies {emitter : Emitter} {prefab : Prefab} {artifacts : List Artifact}
    (made : (emitter.prefabArtifacts prefab).run.value = .ok artifacts) :
    emitter.Identifies prefab artifacts := by
  obtain ⟨-, files, filesOf, rfl⟩ := prefabArtifacts_eq_ok.1 made
  constructor
  case entities =>
    refine ⟨Script.lines prefab emitter.defaultMass,
      List.mem_append_right _ (List.mem_singleton_self _), rfl, ?_⟩
    rw [Script.createdEntities_lines, List.map_map]
    rfl
  case models =>
    intro body isBody
    obtain ⟨own, isOwn, -, model, isModel, rfl⟩ := Answer.exists_of_mem_right filesOf.flip isBody
    refine ⟨model, List.mem_append_left _ (List.mem_flatten.2 ⟨_, isOwn, ?_⟩),
      identifiers_entityModel isModel⟩
    simp [bodyFiles]

/-- The artifacts of different prefabs with different bodies identify all bodies that are drawn, and
with the built-in template nothing else has an identifier. The names of the entities are different
exactly if no two pairs of ids overlap, and so are the names of the models. -/
theorem identifiers_nodup_iff {emitter : Emitter} {prefabs : List Prefab}
    (distinct : (prefabs.map (·.id)).Nodup)
    (bodies : ∀ prefab ∈ prefabs, (prefab.bodies.map (·.id)).Nodup)
    {artifacts : List (List Artifact)}
    (made : (prefabs.mapM emitter.prefabArtifacts).run.value = .ok artifacts) :
    List.Forall₂ emitter.Identifies prefabs artifacts ∧
      (emitter.templates.geometry = Template.builtinModel →
        emitter.templates.geometry.identifiers.tail = []) ∧
      (((drawnIds prefabs).map fun ids => Script.entityName ids.1 ids.2).Nodup ↔
        Apart (drawnIds prefabs)) ∧
      (((drawnIds prefabs).map fun ids => geometryIdentifier ids.1 ids.2).Nodup ↔
        Apart (drawnIds prefabs)) := by
  have apart := nodup_map_dotted_iff (drawnIds_nodup distinct bodies)
  have entities := nodup_map_prepend_iff (drawnIds prefabs) Script.entityName_eq
  have models := nodup_map_prepend_iff (drawnIds prefabs) geometryIdentifier_eq
  have each := (forall₂_of_value_run_mapM made).imp fun _ _ => prefabArtifacts_identifies
  have alone : emitter.templates.geometry = Template.builtinModel →
      emitter.templates.geometry.identifiers.tail = [] :=
    fun isBuiltin => isBuiltin ▸ identifiers_builtinModel
  exact ⟨each, alone, entities.trans apart, models.trans apart⟩

/-- A prefab of one body that is drawn, under ids of their own. -/
def vessel (prefabId bodyId : String) : Prefab :=
  ⟨prefabId, [⟨bodyId, .zero, [], [pane], none, none, .empty⟩], []⟩

/-- Vessels are made under ids that are names for files. -/
theorem vessels_made {ids : List (String × String)}
    (accepted : ∀ entry ∈ ids, isFileName entry.1 = true ∧ isFileName entry.2 = true) :
    ∃ artifacts, ((ids.map fun entry => vessel entry.1 entry.2).mapM
      builtinEmitter.prefabArtifacts).run.value = .ok artifacts := by
  have each : ∀ prefab ∈ ids.map fun entry => vessel entry.1 entry.2, ∃ own,
      (builtinEmitter.prefabArtifacts prefab).run.value = .ok own := by
    intro prefab isPrefab
    obtain ⟨entry, isEntry, rfl⟩ := List.mem_map.1 isPrefab
    obtain ⟨prefabAccepted, bodyAccepted⟩ := accepted entry isEntry
    exact ⟨_, prefabArtifacts_of_accepted builtinEmitter_model prefabAccepted
      (List.forall_mem_singleton.2 bodyAccepted)⟩
  obtain ⟨artifacts, areMade⟩ := Answer.exists_forall₂ each
  exact ⟨artifacts, (value_run_mapM _ _).trans (Answer.mapM_eq_ok_iff.2 areMade)⟩

/-- The bodies of two boats have identifiers of their own, although one id goes on behind the
other. -/
theorem identifiers_nodup_boats :
    let prefabs := [vessel "boat" "hull", vessel "boat.small" "hull"]
    (∃ artifacts, (prefabs.mapM builtinEmitter.prefabArtifacts).run.value = .ok artifacts ∧
      List.Forall₂ builtinEmitter.Identifies prefabs artifacts) ∧
    ((drawnIds prefabs).map fun ids => Script.entityName ids.1 ids.2).Nodup ∧
    ((drawnIds prefabs).map fun ids => geometryIdentifier ids.1 ids.2).Nodup := by
  obtain ⟨artifacts, made⟩ := vessels_made
    (by decide : ∀ entry ∈ [("boat", "hull"), ("boat.small", "hull")],
      isFileName entry.1 = true ∧ isFileName entry.2 = true)
  obtain ⟨each, -, entities, models⟩ := identifiers_nodup_iff (by decide) (by decide) made
  have noDot : ∀ ids ∈ [("boat", "hull"), ("boat.small", "hull")], '.' ∉ ids.2.toList := by decide
  have apart : Apart [("boat", "hull"), ("boat.small", "hull")] := by
    rintro first isFirst second isSecond ⟨middle, -, bodies⟩
    have absent := noDot first isFirst
    rw [bodies] at absent
    simp at absent
  exact ⟨⟨artifacts, made, each⟩, entities.2 apart, models.2 apart⟩

/-- A hull of a small boat and a small hull of a boat are accepted and drawn, and are the same entity
and the same model. -/
theorem identifiers_shared_boats :
    let prefabs := [vessel "boat.small" "hull", vessel "boat" "small.hull"]
    (prefabs.map (·.id)).Nodup ∧ (∀ prefab ∈ prefabs, (prefab.bodies.map (·.id)).Nodup) ∧
    (∃ artifacts, (prefabs.mapM builtinEmitter.prefabArtifacts).run.value = .ok artifacts ∧
      List.Forall₂ builtinEmitter.Identifies prefabs artifacts) ∧
    drawnIds prefabs = [("boat.small", "hull"), ("boat", "small.hull")] ∧
    ¬ ((drawnIds prefabs).map fun ids => Script.entityName ids.1 ids.2).Nodup ∧
    ¬ ((drawnIds prefabs).map fun ids => geometryIdentifier ids.1 ids.2).Nodup := by
  obtain ⟨artifacts, made⟩ := vessels_made
    (by decide : ∀ entry ∈ [("boat.small", "hull"), ("boat", "small.hull")],
      isFileName entry.1 = true ∧ isFileName entry.2 = true)
  have each := (forall₂_of_value_run_mapM made).imp fun _ _ => prefabArtifacts_identifies
  exact ⟨by decide, by decide, ⟨artifacts, made, each⟩, by decide, by decide, by decide⟩

end Emitter

end PhysicsPrefab
