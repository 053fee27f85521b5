import PhysicsPrefab.Proofs.Script.Resolved

/-!
# Returned objects

A script ends with an object that holds its bodies and constraints under their ids, and of entries
with one key the last one hides the others. Bodies have different ids, but several constraints may
have one: each is built and put into the world, and only the last of them is reached. So everything is
reached exactly if no two constraints have the same id (`Geometry.returned_reached_iff`).
-/

namespace PhysicsPrefab

/-- All entries of an object are reached exactly if their keys are different. -/
theorem forall_objectValue?_iff {entries : List (String × String)}
    (distinct : (entries.map (·.2)).Nodup) :
    (∀ entry ∈ entries, objectValue? entries entry.1 = some entry.2) ↔
      (entries.map (·.1)).Nodup := by
  constructor
  · intro reached
    refine List.Nodup.map_on (fun entry isEntry other isOther same => ?_) (.of_map _ distinct)
    have value := reached entry isEntry
    rw [same, reached other isOther] at value
    exact Prod.ext same (Option.some.inj value).symm
  · intro keys entry isEntry
    rw [objectValue?, find?_reverse_of_nodup_keys keys isEntry]
    rfl

namespace Script

open ScriptNames ScriptLine

variable (prefab : Prefab) (defaultMass : Float)

/-- The text that returns an object and ends a script. -/
def resultText (entries : List (String × String)) : String :=
  "  return \x7b\n" ++
    String.join (entries.map fun entry => s!"    {Quoted.encode entry.1}: {entry.2},\n") ++
    "  \x7d;\n\x7d);\n"

/-- Lines one after the other are their texts one after the other. -/
theorem joinLines_append (first second : List ScriptLine) :
    joinLines (first ++ second) = joinLines first ++ joinLines second := by
  simp [joinLines, String.join_append]

/-- The lines that return an object are its text. -/
theorem joinLines_result (entries : List (String × String)) :
    joinLines ([openResult] ++ entries.map (fun entry => .entry entry.1 entry.2) ++
      [endResult, endFunction]) = resultText entries := by
  have start : joinLines [openResult] = "  return \x7b\n" := by
    change String.join ["  return \x7b" ++ "\n"] = _
    simp
  have rows : joinLines (entries.map fun entry => .entry entry.1 entry.2) =
      String.join (entries.map fun entry => s!"    {Quoted.encode entry.1}: {entry.2},\n") := by
    rw [joinLines, List.map_map]
    refine congrArg String.join (List.map_congr_left fun entry _ => ?_)
    rw [Function.comp_apply]
    unfold ScriptLine.text
    simp only [toString, String.append_assoc, String.reduceAppend]
  have finish : joinLines [endResult, endFunction] = "  \x7d;\n\x7d);\n" := by
    change String.join ["  \x7d;" ++ "\n", "\x7d);" ++ "\n"] = _
    simp
  rw [joinLines_append, joinLines_append, start, rows, finish, resultText]

variable {prefab}

/-- A script ends with the text of what it returns. -/
theorem exists_ofPrefab_eq_append (distinct : prefab.bodyIds.Nodup) :
    ∃ front, ofPrefab prefab defaultMass =
      front ++ resultText (returnedEntries (lines prefab defaultMass)) := by
  refine ⟨joinLines (opening prefab ++ bodySection prefab defaultMass ++ constraintSection prefab ++
    (prefab.bodies.map fun body => spawnLine prefab.id (nameOf prefab body) body) ++ [.blank]), ?_⟩
  rw [← joinLines_result, ← joinLines_append, ofPrefab, returnedEntries_eq _ distinct]
  simp [lines_eq, closing, Function.comp_def]

/-- The keys of what a script returns. -/
theorem map_fst_returnedEntries (distinct : prefab.bodyIds.Nodup) :
    (returnedEntries (lines prefab defaultMass)).map (·.1) =
      prefab.bodyIds.map ("body" ++ ·) ++
        prefab.constraints.map fun constraint => "constraint" ++ constraint.id := by
  rw [returnedEntries_eq _ distinct, List.map_append, List.map_map, List.map_map, Prefab.bodyIds,
    List.map_map]
  conv_rhs => rw [← map_fst_namedConstraints prefab, List.map_map]
  rfl

/-- Keys are different exactly if the ids in them are. -/
theorem nodup_keys_iff (front : String) (ids : List String) :
    (ids.map (front ++ ·)).Nodup ↔ ids.Nodup :=
  List.nodup_map_iff fun _ _ same => (String.append_right_inj front).1 same

/-- The keys that a script returns are different exactly if the ids of its constraints are. -/
theorem map_fst_returnedEntries_nodup_iff (distinct : prefab.bodyIds.Nodup) :
    ((returnedEntries (lines prefab defaultMass)).map (·.1)).Nodup ↔
      (prefab.constraints.map (·.id)).Nodup := by
  have apart : ∀ key ∈ prefab.bodyIds.map ("body" ++ ·),
      ∀ other ∈ (prefab.constraints.map (·.id)).map ("constraint" ++ ·), key ≠ other := by
    simp only [List.forall_mem_map]
    exact fun _ _ _ _ => body_ne_constraint _ _
  have ids := nodup_keys_iff "constraint" (prefab.constraints.map (·.id))
  rw [List.map_map] at apart ids
  rw [map_fst_returnedEntries _ distinct, List.nodup_append, ← ids]
  exact ⟨fun keys => keys.2.1, fun keys => ⟨(nodup_keys_iff "body" _).2 distinct, keys, apart⟩⟩

end Script

namespace Geometry

open Script

/-- The constraints of a prefab have the names of bones, in their order. -/
theorem constraintIds_sublist (geometry : Geometry Float) :
    (geometry.compiled.constraints.map (·.id)).Sublist
      ((geometry.bonesOf .constraint).map (·.name)) := by
  rw [compiled_eq, List.map_filterMap, ← List.filterMap_eq_map]
  refine filterMap_sublist_filterMap fun bone _ id found => ?_
  obtain ⟨constraint, built, rfl⟩ := Option.map_eq_some_iff.1 found
  exact congrArg some (CentredBone.constraint_built (Prefab.builtFrom_eq_some built)).1.symm

/-- The script of a compiled prefab ends with the object that holds each body and each constraint
under its id. Every body is reached there; an entry is hidden exactly by a later one with its key; and
everything is reached exactly if all keys are different, which they are exactly if the ids of the
constraints are. -/
theorem returned_reached_iff (geometry : Geometry Float) (defaultMass : Float) :
    let prefab := geometry.compiled
    let entries := returnedEntries (lines prefab defaultMass)
    (∃ front, ofPrefab prefab defaultMass = front ++ resultText entries) ∧
    entries.map (·.1) = prefab.bodyIds.map ("body" ++ ·) ++
      prefab.constraints.map (fun constraint => "constraint" ++ constraint.id) ∧
    (∀ body ∈ prefab.bodies, objectValue? entries ("body" ++ body.id) =
      some ((ScriptNames.ofPrefab prefab).body body.id)) ∧
    (∀ before entry after, entries = before ++ entry :: after →
      (objectValue? entries entry.1 = some entry.2 ↔ entry.1 ∉ after.map (·.1))) ∧
    ((∀ entry ∈ entries, objectValue? entries entry.1 = some entry.2) ↔
      (entries.map (·.1)).Nodup) ∧
    ((entries.map (·.1)).Nodup ↔ (prefab.constraints.map (·.id)).Nodup) ∧
    (((geometry.bonesOf .constraint).map (·.name)).Nodup → (entries.map (·.1)).Nodup) := by
  intro prefab entries
  have distinct : prefab.bodyIds.Nodup := geometry.compiled_sound.distinct
  have values : (entries.map (·.2)).Nodup := map_snd_returnedEntries_nodup defaultMass distinct
  have keys : (entries.map (·.1)).Nodup ↔ (prefab.constraints.map (·.id)).Nodup :=
    map_fst_returnedEntries_nodup_iff defaultMass distinct
  refine ⟨exists_ofPrefab_eq_append defaultMass distinct, map_fst_returnedEntries _ distinct, ?bodies,
    fun _ _ _ => objectValue?_eq_iff values, forall_objectValue?_iff values, keys,
    fun names => keys.2 (names.sublist geometry.constraintIds_sublist)⟩
  intro body isBody
  have faithful := lines_faithful defaultMass geometry.compiled_sound.toLinked
  have started : startedBodies (lines prefab defaultMass) = ScriptNames.bodyNames prefab :=
    startedBodies_lines prefab defaultMass distinct
  refine faithful.bodyValue (body.id, _) ?_
  rw [started]
  exact ScriptNames.mem_bodyTable distinct (List.mem_map_of_mem isBody)

end Geometry

/-- Everything of a sledge with two different constraints is reached. -/
theorem returned_reached_sledge :
    let strap : Bone Float :=
      .hung constraintParent "strap" .zero ["type_lock", "bodya_runner", "bodyb_horse"]
    let geometry := sledge [horse, shaft .zero, runner, strap]
    let entries := returnedEntries (Script.lines geometry.compiled 2.0)
    ((geometry.bonesOf .constraint).map (·.name)).Nodup ∧
      entries = [("bodyhorse", "bodyhorse"), ("bodyrunner", "bodyrunner"),
        ("constraintshaft", "constraintshaft"), ("constraintstrap", "constraintstrap")] ∧
      (∀ entry ∈ entries, objectValue? entries entry.1 = some entry.2) ∧
      ∀ before entry after, entries = before ++ entry :: after → entry.1 ∉ after.map (·.1) := by
  intro strap geometry entries
  have names : ((geometry.bonesOf .constraint).map (·.name)).Nodup := by
    have isNames : (geometry.bonesOf .constraint).map (·.name) = ["shaft", "strap"] := rfl
    rw [isNames]
    decide
  obtain ⟨-, -, -, hidden, reached, -, keys⟩ := geometry.returned_reached_iff 2.0
  have allReached := reached.2 (keys names)
  refine ⟨names, by decide +kernel, allReached, fun before entry after split => ?_⟩
  have isEntry : entry ∈ entries := by
    rw [split]
    exact List.mem_append_right _ List.mem_cons_self
  exact (hidden before entry after split).1 (allReached entry isEntry)

/-- Two shafts of one name are both built, and only the second one is reached. -/
theorem shaft_hidden :
    let geometry := sledge [horse, runner, shaft .zero, shaft ⟨1, 2, 3⟩]
    let entries := returnedEntries (Script.lines geometry.compiled 2.0)
    entries = [("bodyhorse", "bodyhorse"), ("bodyrunner", "bodyrunner"),
        ("constraintshaft", "constraintshaft"), ("constraintshaft", "constraintshaft_2")] ∧
      ¬ (entries.map (·.1)).Nodup ∧
      objectValue? entries "constraintshaft" = some "constraintshaft_2" := by
  intro geometry entries
  have isEntries : entries = [("bodyhorse", "bodyhorse"), ("bodyrunner", "bodyrunner"),
      ("constraintshaft", "constraintshaft"), ("constraintshaft", "constraintshaft_2")] := by
    decide +kernel
  rw [isEntries]
  exact ⟨rfl, by decide, by decide⟩

end PhysicsPrefab
