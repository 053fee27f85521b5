import PhysicsPrefab.Proofs.Files.Below
import PhysicsPrefab.Proofs.Project.Keeping
import PhysicsPrefab.Proofs.Project.Preserving
import PhysicsPrefab.Proofs.Script.Imports

/-!
# Histories of projects

A project is run again and again, and files are added to it between the runs. After each run the
index has a line for each prefab of that run and no others, while the scripts of all prefabs that
were ever compiled are still there, each as the last run that compiled its prefab has written it
(`History.standing`): runs remove sources only, and no script has the name of one.
-/

namespace PhysicsPrefab

open Answer Disk Program FileTree Emitter

/-- Encoded text is read as what it was. -/
theorem fromUTF8?_toUTF8 (text : String) : String.fromUTF8? text.toUTF8 = some text := by
  rw [String.fromUTF8?, String.toUTF8_eq_toByteArray, dif_pos text.isValidUTF8]
  rfl

/-- A file in the place of a path that holds an encoded text is read as that text. -/
theorem readText_eq_ok {tree : FileTree} {current location : Location} {path : Path} {text : String}
    (isAt : tree.place? current path = some location)
    (holds : tree.contents? location = some text.toUTF8) :
    tree.readText current path = .ok text := by
  have isThere := lookup_eq_ok_iff.2 ⟨isAt, contents?_eq_some.1 holds⟩
  simp only [readText, isThere, bind, Except.bind, fromUTF8?_toUTF8]
  rfl

/-- A file that is read as a text holds the encoded text in the place of its path. -/
theorem exists_of_readText {tree : FileTree} {current : Location} {path : Path} {text : String}
    (isRead : tree.readText current path = .ok text) :
    ∃ location, tree.place? current path = some location ∧
      tree.contents? location = some text.toUTF8 := by
  obtain ⟨⟨location, found⟩, isThere, isText⟩ := Answer.bind_eq_ok.1 isRead
  obtain ⟨isAt, isFound⟩ := lookup_eq_ok_iff.1 isThere
  cases found with
  | directory entries => contradiction
  | file contents =>
    refine ⟨location, isAt, contents?_eq_some.2 ?_⟩
    rw [isFound]
    by_cases valid : contents.IsValidUTF8
    · simp only [String.fromUTF8?, dif_pos valid] at isText
      rw [← Except.ok.inj isText]
      rfl
    · simp only [String.fromUTF8?, dif_neg valid] at isText
      contradiction

/-- A path with plain names below a directory is a source only if the last of them ends as one. -/
theorem exists_stem_of_isSource {directory : Path} {names : Location} (proper : names ≠ [])
    (plain : ∀ name ∈ names, IsPlainName name)
    (isSource : Sources.isSource (pathBelow directory names) = true) :
    ∃ outer stem, names = outer ++ [stem ++ ".json"] := by
  obtain ⟨outer, name, rfl⟩ := (List.eq_nil_or_concat' names).resolve_left proper
  obtain ⟨stem, -, rfl⟩ := (Sources.isSource_iff directory plain).1 isSource
  exact ⟨outer, stem, rfl⟩

namespace Run

variable {root : Path} {config : Config} {first before planned written after : Disk}
  {sources deleted : List Path} {models : List (Model Float)} {templates : Templates} {plan : Plan}

/-- The path of a script in a project. -/
def scriptPath (root : Path) (config : Config) (name : String) : Path :=
  root.join (config.layout.script.join ⟨name ++ ".js"⟩)

/-- The place of a source has a name that ends as one. -/
theorem Prepared.exists_stem {directory : Path}
    (prepared : Prepared root config directory before planned sources models templates plan)
    (formed : before.tree.WellFormed) {source : Path} (isSource : source ∈ sources)
    {location : Location}
    (isAt : before.tree.place? before.current source = some location) :
    ∃ outer stem, location = outer ++ [stem ++ ".json"] := by
  obtain ⟨base, locations, found⟩ := Sources.exists_foundAt formed prepared.discovered
  have accepted := Sources.isSource_of_mem prepared.discovered isSource
  obtain ⟨names, isThere, rfl⟩ := List.mem_map.1 (found.sources_eq ▸ isSource)
  have proper : names ≠ [] := by
    rintro rfl
    have isFile := isSome_contents?.1 (found.isFile [] isThere)
    rw [List.append_nil, found.leads.isDirectory] at isFile
    exact Bool.false_ne_true (Option.some.inj isFile).symm
  obtain ⟨outer, stem, rfl⟩ := exists_stem_of_isSource proper (found.plain names isThere) accepted
  exact ⟨base ++ outer, stem, by
    rw [walk_pathBelow found.leads (found.plain _ isThere) (place?_eq_some.1 isAt).2,
      List.append_assoc]⟩

/-- The place of a file has the name of the file. -/
theorem exists_outer_of_join {tree : FileTree} {current location : Location} {directory : Path}
    {name : String} (plain : IsPlainName name)
    (isAt : tree.place? current (root.join (directory.join ⟨name⟩)) = some location) :
    ∃ outer, location = outer ++ [name] := by
  rw [← Path.join_join root _ plain] at isAt
  obtain ⟨outer, -, -, same, -⟩ := (walk_join_eq_ok plain).1 (place?_eq_some.1 isAt).2
  exact ⟨outer, same⟩

/-- The place of a script has the name of the script. -/
theorem exists_outer_of_script {tree : FileTree} {current location : Location} {name : String}
    (plain : IsPlainName name)
    (isAt : tree.place? current (scriptPath root config name) = some location) :
    ∃ outer, location = outer ++ [name ++ ".js"] :=
  exists_outer_of_join (plain.append (by decide) (by decide)) isAt

/-- Only the script of a prefab has a place that is named like a script. -/
theorem contents_of_prefabArtifacts {emitter : Emitter} {prefab : Prefab} {own : List Artifact}
    (made : (emitter.prefabArtifacts prefab).run.value = .ok own) {artifact : Artifact}
    (member : artifact ∈ own) {tree : FileTree} {current outer : Location} {name : String}
    (isAt : tree.place? current (root.join artifact.path) = some (outer ++ [name ++ ".js"])) :
    prefab.id = name ∧ artifact.contents = Script.ofPrefab prefab emitter.defaultMass := by
  obtain ⟨accepted, files, filesOf, rfl⟩ := prefabArtifacts_eq_ok.1 made
  rcases List.mem_append.1 member with isFile | isScript
  · obtain ⟨bodyFiles, isBody, isFile⟩ := List.mem_flatten.1 isFile
    obtain ⟨body, -, bodyFilesOf⟩ := exists_of_mem_right filesOf isBody
    obtain ⟨bodyAccepted, model, -, rfl⟩ := bodyFilesOf
    have bodyPlain : IsPlainName (body.id ++ ".json") :=
      (isPlainName_of_isFileName bodyAccepted).append (by decide) (by decide)
    have path : ∃ directory, artifact.path = bodyPath directory prefab.id body.id := by
      simp only [Emitter.bodyFiles, List.mem_cons, List.not_mem_nil, or_false] at isFile
      rcases isFile with rfl | rfl | rfl <;> exact ⟨_, rfl⟩
    obtain ⟨directory, path⟩ := path
    rw [path, bodyPath] at isAt
    obtain ⟨above, same⟩ := exists_outer_of_join bodyPlain isAt
    have names : body.id ++ ".json" = name ++ ".js" := by
      simpa using (List.append_inj' same rfl).2.symm
    exact absurd names (OutputName.json_ne_js body.id name)
  · obtain rfl := List.mem_singleton.1 isScript
    have scriptPlain : IsPlainName (prefab.id ++ ".js") :=
      (isPlainName_of_isFileName accepted).append (by decide) (by decide)
    rw [scriptFile] at isAt ⊢
    obtain ⟨above, same⟩ := exists_outer_of_join scriptPlain isAt
    have names : name ++ ".js" = prefab.id ++ ".js" := by
      simpa using (List.append_inj' same rfl).2
    exact ⟨(String.append_left_inj _).1 names.symm, rfl⟩

/-- The prefab of an id that a plan is about. -/
def Plan.named (plan : Plan) (id : String) : Option Prefab :=
  plan.compiled.compilation.prefabs.find? (·.id == id)

/-- A prefab that is found has the id. -/
theorem Plan.id_of_named {id : String} {prefab : Prefab} (named : plan.named id = some prefab) :
    prefab.id = id := by
  have isNamed := List.find?_some named
  exact beq_iff_eq.1 isNamed

/-- If no two prefabs share an id, each of them is found by its own. -/
theorem Plan.named_of_mem {prefab : Prefab}
    (distinct : (plan.compiled.compilation.prefabs.map (·.id)).Nodup)
    (isPrefab : prefab ∈ plan.compiled.compilation.prefabs) :
    plan.named prefab.id = some prefab := by
  cases found : plan.named prefab.id with
  | none => exact absurd (beq_self_eq_true _) (List.find?_eq_none.1 found prefab isPrefab)
  | some other =>
    have isOther := List.mem_of_find?_eq_some found
    rw [List.inj_on_of_nodup_map distinct isOther isPrefab (Plan.id_of_named found)]

section

variable (prepared : Prepared root config (root.join config.sourceDirectory) before planned sources
  models templates plan)

include prepared

/-- Every prefab of a plan has a script among the artifacts, and an id that is a name for a file. -/
theorem Prepared.script_mem {prefab : Prefab}
    (isPrefab : prefab ∈ plan.compiled.compilation.prefabs) :
    isFileName prefab.id = true ∧
      scriptFile ⟨config.layout, templates, config.defaultMass⟩ prefab ∈ plan.artifacts.flatten := by
  obtain ⟨own, isOwn, made⟩ := exists_of_mem_right
    (forall₂_of_value_run_mapM prepared.artifacts).flip isPrefab
  obtain ⟨accepted, files, -, rfl⟩ := prefabArtifacts_eq_ok.1 made
  exact ⟨accepted, List.mem_flatten.2 ⟨_, isOwn,
    List.mem_append_right _ (List.mem_singleton_self _)⟩⟩

/-- The last artifact in a place that is named like a script other than the index is the script of
the prefab of that name. -/
theorem Prepared.lastStored_script {disk : Disk} {name : String} (other : name ≠ "index")
    (plain : IsPlainName name) {location : Location}
    (isAt : disk.tree.place? disk.current (scriptPath root config name) = some location) :
    (lastStored root disk (plan.artifacts.flatten ++ [plan.index]) location).map (·.contents) =
      (plan.named name).map fun prefab => Script.ofPrefab prefab config.defaultMass := by
  obtain ⟨outer, rfl⟩ := exists_outer_of_script plain isAt
  have distinct := prepared.stamped.distinct
  cases stored : lastStored root disk (plan.artifacts.flatten ++ [plan.index])
      (outer ++ [name ++ ".js"]) with
  | none =>
    have unnamed : plan.named name = none := by
      refine List.find?_eq_none.2 fun prefab isPrefab same => ?_
      obtain rfl := beq_iff_eq.1 same
      have isArtifact := (prepared.script_mem isPrefab).2
      exact lastStored_eq_none.1 stored _ (List.mem_append_left _ isArtifact) isAt
    rw [unnamed]
    rfl
  | some artifact =>
    obtain ⟨member, isThere⟩ := of_lastStored stored
    rcases List.mem_append.1 member with isArtifact | isIndex
    · obtain ⟨own, isOwn, isArtifact⟩ := List.mem_flatten.1 isArtifact
      obtain ⟨prefab, isPrefab, made⟩ := exists_of_mem_right
        (forall₂_of_value_run_mapM prepared.artifacts) isOwn
      obtain ⟨rfl, contents⟩ := contents_of_prefabArtifacts made isArtifact isThere
      have named : plan.named prefab.id = some prefab := Plan.named_of_mem distinct isPrefab
      rw [named, Option.map_some, Option.map_some, contents]
    · obtain rfl := List.mem_singleton.1 isIndex
      rw [prepared.index, indexArtifact] at isThere
      have indexPlain : IsPlainName "index.js" := by decide
      obtain ⟨above, same⟩ := exists_outer_of_join indexPlain isThere
      have names : name ++ ".js" = "index" ++ ".js" := by
        simpa using (List.append_inj' same rfl).2
      exact absurd ((String.append_left_inj _).1 names) other

variable (formed : before.WellFormed)
  (concluded : Concluded root config plan before written after deleted)

include formed concluded

/-- No source with the name of a script is removed. -/
theorem Concluded.script_notDeleted {name : String} {outer : Location} :
    some (outer ++ [name ++ ".js"]) ∉ deleted.map (before.tree.place? before.current) := by
  intro isDeleted
  obtain ⟨source, member, isAt⟩ := List.mem_map.1 isDeleted
  have isSource := prepared.compiled_sublist.subset (concluded.deleted_sublist.subset member)
  obtain ⟨other, stem, ends⟩ := prepared.exists_stem formed.tree isSource isAt
  exact OutputName.json_ne_js stem name (by simpa using (List.append_inj' ends rfl).2.symm)

/-- After a run a script other than the index is that of the prefab of its name, and as it was if
there is none. -/
theorem Concluded.contents?_script {name : String} (other : name ≠ "index")
    (plain : IsPlainName name) {location : Location}
    (isAt : after.tree.place? after.current (scriptPath root config name) = some location) :
    after.tree.contents? location =
      match plan.named name with
      | some prefab => some (Script.ofPrefab prefab config.defaultMass).toUTF8
      | none => before.tree.contents? location := by
  have stored := prepared.lastStored_script other plain isAt
  obtain ⟨outer, rfl⟩ := exists_outer_of_script plain isAt
  rw [concluded.contents?_eq formed prepared,
    if_neg (concluded.script_notDeleted prepared formed), overlay_fileOf]
  cases last : lastStored root after (plan.artifacts.flatten ++ [plan.index])
      (outer ++ [name ++ ".js"]) with
  | none =>
    rw [last, Option.map_none, eq_comm, Option.map_eq_none_iff] at stored
    rw [stored]
  | some artifact =>
    rw [last, Option.map_some, eq_comm, Option.map_eq_some_iff] at stored
    obtain ⟨prefab, named, contents⟩ := stored
    rw [named]
    dsimp only
    rw [contents]

/-- A script of an earlier run stays in its place. -/
theorem Concluded.place?_script {name : String} (plain : IsPlainName name) {location : Location}
    (isAt : before.tree.place? before.current (scriptPath root config name) = some location)
    (isFile : (before.tree.contents? location).isSome = true) :
    after.tree.place? after.current (scriptPath root config name) = some location := by
  have wasFile : before.tree.isFileAt before.current (scriptPath root config name) = true :=
    isFileAt_iff_place?.2 ⟨location, isAt, isFile⟩
  have stillFile : written.tree.isFileAt written.current (scriptPath root config name) = true := by
    rw [concluded.current]
    exact isFileAt_grows concluded.grows wasFile
  have place : written.tree.place? written.current (scriptPath root config name) = some location := by
    rw [concluded.current]
    exact place?_grows concluded.grows isAt
  have apart : written.tree.place? written.current (scriptPath root config name) ∉
      deleted.map (before.tree.place? before.current) := by
    obtain ⟨outer, rfl⟩ := exists_outer_of_script plain isAt
    rw [place]
    exact concluded.script_notDeleted prepared formed
  rw [(concluded.stays formed prepared stillFile apart).2, place]

/-- After a run the index is that of its prefabs. -/
theorem Concluded.readText_index :
    after.tree.readText after.current (scriptPath root config "index") =
      .ok (Script.index (plan.compiled.compilation.prefabs.map (·.id))) := by
  obtain ⟨location, isAt, holds⟩ := concluded.exists_stored formed prepared
    (rfl : _ = plan.artifacts.flatten ++ plan.index :: [])
  rw [prepared.index] at isAt holds
  exact readText_eq_ok isAt (holds (List.forall_mem_nil _))

/-- After a run the script of each of its prefabs can be read, unless it is named like the index. -/
theorem Concluded.readText_script {prefab : Prefab}
    (isPrefab : prefab ∈ plan.compiled.compilation.prefabs) (other : prefab.id ≠ "index") :
    after.tree.readText after.current (scriptPath root config prefab.id) =
      .ok (Script.ofPrefab prefab config.defaultMass) := by
  obtain ⟨accepted, isScript⟩ := prepared.script_mem isPrefab
  have isArtifact : scriptPath root config prefab.id ∈ (plan.report root).artifacts :=
    List.mem_map.2 ⟨_, List.mem_append_left _ isScript, rfl⟩
  obtain ⟨location, isAt, -⟩ :=
    isFileAt_iff_place?.1 (concluded.artifacts_stay formed prepared _ isArtifact).1
  have holds := concluded.contents?_script prepared formed other
    (isPlainName_of_isFileName accepted) isAt
  rw [Plan.named_of_mem prepared.stamped.distinct isPrefab] at holds
  exact readText_eq_ok isAt holds

/-- A run leaves the text of a script that is not made again. -/
theorem Concluded.readText_script_stays {name text : String} (other : name ≠ "index")
    (plain : IsPlainName name) (unnamed : plan.named name = none)
    (isText : before.tree.readText before.current (scriptPath root config name) = .ok text) :
    after.tree.readText after.current (scriptPath root config name) = .ok text := by
  obtain ⟨location, isAt, holds⟩ := exists_of_readText isText
  have isThere := concluded.place?_script prepared formed plain isAt (by rw [holds]; rfl)
  have unchanged := concluded.contents?_script prepared formed other plain isThere
  rw [unnamed] at unchanged
  exact readText_eq_ok isThere (unchanged.trans holds)

end

/-- The prefabs that a run on a disk compiles. -/
def compiledOn (schedule : Pool.Schedule) (root : Path) (config : Config) (disk : Disk) :
    List Prefab :=
  if disk.tree.isDirectoryAt disk.current (root.join config.sourceDirectory) then
    match value (Run.plan schedule root config (root.join config.sourceDirectory) :
        Step OnDisk Plan).run disk with
    | .ok plan => plan.compiled.compilation.prefabs
    | .error _ => []
  else []

/-- Files and directories have been added to a project, and all that was there is as it was. -/
structure Added (before after : Disk) : Prop where
  /-- The disk is well-formed. -/
  formed : after.WellFormed
  /-- Paths start at the same place. -/
  current : after.current = before.current
  /-- What was there is as it was. -/
  kept : ∀ location entry, before.tree.entryAt location = some entry →
    after.tree.entryAt location = some entry

/-- A run that has written and succeeded: its report, and the prefabs that it has compiled. -/
structure Round where
  /-- The report. -/
  report : RunReport
  /-- The prefabs, in order. -/
  prefabs : List Prefab

/-- The history of a project: runs that write and succeed, each after files may have been added. -/
inductive History (root : Path) (config : Config) (first : Disk) : List Round → Disk → Prop where
  /-- Nothing has happened. -/
  | start : History root config first [] first
  /-- Files were added and the project was run once more. -/
  | round {rounds : List Round} {last next : Disk} {report : RunReport}
      (earlier : History root config first rounds last) (added : Added last next)
      (schedule : Pool.Schedule)
      (succeeded : value (run schedule root config .write : Step OnDisk RunReport).run next =
        .ok report) :
      History root config first (rounds ++ [⟨report, compiledOn schedule root config next⟩])
        (final (run schedule root config .write : Step OnDisk RunReport).run next)

/-- The last run that has written something. -/
def lastWriting (rounds : List Round) : Option Round :=
  rounds.reverse.find? fun round => !round.report.written.isEmpty

/-- The prefab of an id as the last run has compiled it that has compiled one of that id. -/
def latest (rounds : List Round) (id : String) : Option Prefab :=
  rounds.reverse.findSome? fun round => round.prefabs.find? (·.id == id)

/-- A text is the index of some prefabs. -/
structure IsIndexOf (text : String) (prefabs : List Prefab) : Prop where
  /-- It has a line for each prefab, in order, and nothing else. -/
  lines : text = Script.index (prefabs.map (·.id))
  /-- The lines import exactly the scripts of the prefabs if no id holds a quote or a line break,
  whatever escapes stand for. -/
  imports : (∀ prefab ∈ prefabs, '"' ∉ prefab.id.toList ∧ '\n' ∉ prefab.id.toList ∧
      '\r' ∉ prefab.id.toList) → ∀ escapes names, Imports escapes text names ↔
    names = prefabs.map fun prefab => "./" ++ prefab.id

/-- The index of prefabs whose ids are names for files is an index of them. -/
theorem isIndexOf_index {prefabs : List Prefab}
    (accepted : ∀ prefab ∈ prefabs, isFileName prefab.id = true) :
    IsIndexOf (Script.index (prefabs.map (·.id))) prefabs where
  lines := rfl
  imports := by
    intro plain escapes names
    have acceptedIds : ∀ id ∈ prefabs.map (·.id), isFileName id = true :=
      List.forall_mem_map.2 accepted
    have imports := (imports_index_iff escapes acceptedIds).2 (List.forall_mem_map.2 plain)
    rw [List.map_map] at imports
    constructor
    · intro others
      exact others.unique imports (backslash_not_mem_index acceptedIds)
    · rintro rfl
      exact imports

/-- How a project stands after a history. -/
structure Standing (root : Path) (config : Config) (rounds : List Round) (last : Disk) : Prop where
  /-- The report of every run names the prefabs that it has compiled. -/
  reported : ∀ round ∈ rounds, round.report.prefabs = round.prefabs.map (·.id)
  /-- The ids of these are names for files. -/
  accepted : ∀ round ∈ rounds, ∀ prefab ∈ round.prefabs, isFileName prefab.id = true
  /-- The index is that of the prefabs of the last run that has written. -/
  index : ∀ round, lastWriting rounds = some round → ∃ text,
    last.tree.readText last.current (scriptPath root config "index") = .ok text ∧
      IsIndexOf text round.prefabs
  /-- The script of every prefab of every run is there, as the last run has written it that has
  compiled a prefab of its id, unless the id is that of the index. -/
  scripts : ∀ round ∈ rounds, ∀ prefab ∈ round.prefabs, prefab.id ≠ "index" →
    ∃ lastCompiled, latest rounds prefab.id = some lastCompiled ∧
      last.tree.readText last.current (scriptPath root config prefab.id) =
        .ok (Script.ofPrefab lastCompiled config.defaultMass)

namespace Added

/-- The tree has grown. -/
theorem grows (added : Added before after) : before.tree.Grows after.tree := by
  intro location kind isThere
  cases kind with
  | true => exact kind?_eq_true.2 (added.kept _ _ (kind?_eq_true.1 isThere))
  | false =>
    obtain ⟨contents, isFile⟩ := kind?_eq_false.1 isThere
    exact kind?_eq_false.2 ⟨contents, added.kept _ _ isFile⟩

/-- What could be read can be read. -/
theorem readText (added : Added before after) {path : Path} {text : String}
    (isRead : before.tree.readText before.current path = .ok text) :
    after.tree.readText after.current path = .ok text := by
  obtain ⟨location, isAt, holds⟩ := exists_of_readText isRead
  have isAtStill : after.tree.place? after.current path = some location := by
    rw [added.current]
    exact place?_grows added.grows isAt
  have isEntry : before.tree.entryAt location = some (.file text.toUTF8) := by
    rw [entryAt, contents?_eq_some.1 holds]
    rfl
  refine readText_eq_ok isAtStill ?_
  rw [contents?, added.kept location _ isEntry]
  rfl

end Added

/-- The last of some runs that has written is the latest one, if it has. -/
theorem lastWriting_concat (rounds : List Round) (round : Round) :
    lastWriting (rounds ++ [round]) =
      if round.report.written = [] then lastWriting rounds else some round := by
  rw [lastWriting, List.reverse_append, List.reverse_singleton, List.singleton_append,
    List.find?_cons]
  cases round.report.written <;> rfl

/-- A prefab of the latest run comes before those of earlier ones. -/
theorem latest_concat (rounds : List Round) (round : Round) (id : String) :
    latest (rounds ++ [round]) id =
      (round.prefabs.find? (·.id == id)).or (latest rounds id) := by
  rw [latest, List.reverse_append, List.reverse_singleton, List.singleton_append,
    List.findSome?_cons]
  cases round.prefabs.find? (·.id == id) <;> rfl

namespace Standing

variable {rounds : List Round} (standing : Standing root config rounds before)

include standing

/-- A project stands as before after files were added. -/
theorem later (added : Added before after) : Standing root config rounds after where
  reported := standing.reported
  accepted := standing.accepted
  index round isLast := by
    obtain ⟨text, isText, isIndex⟩ := standing.index round isLast
    exact ⟨text, added.readText isText, isIndex⟩
  scripts round member prefab isPrefab other := by
    obtain ⟨lastCompiled, isLatest, isText⟩ := standing.scripts round member prefab isPrefab other
    exact ⟨lastCompiled, isLatest, added.readText isText⟩

/-- A project stands as before after a run that has done nothing. -/
theorem idle (tree : after.tree = before.tree) (current : after.current = before.current) :
    Standing root config (rounds ++ [⟨.empty, []⟩]) after := by
  constructor
  case reported =>
    exact List.forall_mem_append.2 ⟨standing.reported, List.forall_mem_singleton.2 rfl⟩
  case accepted =>
    exact List.forall_mem_append.2
      ⟨standing.accepted, List.forall_mem_singleton.2 (List.forall_mem_nil _)⟩
  case index =>
    intro round isLast
    rw [lastWriting_concat] at isLast
    rw [tree, current]
    exact standing.index round isLast
  case scripts =>
    intro round member prefab isPrefab other
    rcases List.mem_append.1 member with earlier | isLast
    · rw [tree, current, latest_concat]
      exact standing.scripts round earlier prefab isPrefab other
    · obtain rfl := List.mem_singleton.1 isLast
      contradiction

/-- How a project stands after a plan has been concluded. -/
theorem conclude (formed : before.WellFormed)
    (prepared : Prepared root config (root.join config.sourceDirectory) before planned sources
      models templates plan)
    (concluded : Concluded root config plan before written after deleted) {report : RunReport}
    (isReport : report =
      { plan.report root with written := (plan.report root).artifacts, deleted }) :
    Standing root config (rounds ++ [⟨report, plan.compiled.compilation.prefabs⟩]) after := by
  subst isReport
  have accepted : ∀ prefab ∈ plan.compiled.compilation.prefabs, isFileName prefab.id = true :=
    fun prefab isPrefab => (prepared.script_mem isPrefab).1
  constructor
  case reported =>
    exact List.forall_mem_append.2 ⟨standing.reported, List.forall_mem_singleton.2 rfl⟩
  case accepted =>
    exact List.forall_mem_append.2 ⟨standing.accepted, List.forall_mem_singleton.2 accepted⟩
  case index =>
    intro round isLast
    rw [lastWriting_concat, if_neg (by simp [Plan.report])] at isLast
    obtain rfl := Option.some.inj isLast
    exact ⟨_, concluded.readText_index prepared formed, isIndexOf_index accepted⟩
  case scripts =>
    intro round member prefab isPrefab other
    rw [latest_concat]
    cases named : plan.named prefab.id with
    | some lastCompiled =>
      have isLatest := List.mem_of_find?_eq_some named
      have same : lastCompiled.id = prefab.id := plan.id_of_named named
      refine ⟨lastCompiled, by rw [← Plan.named, named]; rfl, ?_⟩
      rw [← same]
      exact concluded.readText_script prepared formed isLatest (same ▸ other)
    | none =>
      rcases List.mem_append.1 member with earlier | isLast
      · obtain ⟨lastCompiled, isLatest, isText⟩ :=
          standing.scripts round earlier prefab isPrefab other
        have plain := isPlainName_of_isFileName (standing.accepted round earlier prefab isPrefab)
        refine ⟨lastCompiled, by rw [← Plan.named, named]; exact isLatest, ?_⟩
        exact concluded.readText_script_stays prepared formed other plain named isText
      · obtain rfl := List.mem_singleton.1 isLast
        rw [Plan.named_of_mem prepared.stamped.distinct isPrefab] at named
        contradiction

end Standing

/-- How a project stands at first. -/
theorem standing_start (disk : Disk) : Standing root config [] disk where
  reported _ member := nomatch member
  accepted _ member := nomatch member
  index _ isLast := nomatch isLast
  scripts _ member := nomatch member

/-- How a project stands after one more run. -/
theorem Standing.round {rounds : List Round} (standing : Standing root config rounds before)
    (formed : before.WellFormed) (schedule : Pool.Schedule) {report : RunReport}
    (succeeded : value (run schedule root config .write : Step OnDisk RunReport).run before =
      .ok report) :
    Standing root config (rounds ++ [⟨report, compiledOn schedule root config before⟩])
      (final (run schedule root config .write : Step OnDisk RunReport).run before) := by
  unfold compiledOn
  by_cases isThere : before.tree.isDirectoryAt before.current (root.join config.sourceDirectory) = true
  · obtain ⟨plan, planned, sources, models, templates, written, deleted, isPlan, prepared,
      concluded, isReport⟩ := exists_concluded schedule root config formed isThere succeeded
    rw [if_pos isThere, isPlan]
    exact standing.conclude formed prepared concluded isReport
  · have current := run_current schedule root config .write before
    obtain ⟨isValue, tree⟩ :=
      run_without_sources schedule .write (Bool.eq_false_iff.2 isThere)
    obtain rfl := Except.ok.inj (isValue.symm.trans succeeded)
    rw [if_neg isThere]
    exact standing.idle tree current

/-- The place of a source of a project that says nothing. -/
def yardPlace : Location := ["RP", "models", "entity", "physics", "prefabs", "a.json"]

/-- A project with one source. -/
def yardDisk : Disk := .ofTree (treeBelow barrelSource yardPlace) []

/-- The disk of the project after one run. -/
def yardDisk₁ : Disk :=
  final (run .sequential ⟨""⟩ .default .write : Step OnDisk RunReport).run yardDisk

/-- The path of a source that is added to the project then. -/
def addedPath : Path := ⟨"RP/models/entity/physics/prefabs/b.json"⟩

/-- The disk of the project after one run when another source has been added. -/
def yardDisk₂ : Disk :=
  final (Storage.writeText addedPath (barrelText "h") : OnDisk (Except StorageFault Unit)) yardDisk₁

/-- A run on the project compiles the prefab. A second one finds nothing, and if a source has been
added where nothing was, its prefab. -/
theorem exists_yard_reports : ∃ first second other : RunReport,
    value (run .sequential ⟨""⟩ .default .write : Step OnDisk RunReport).run yardDisk = .ok first ∧
    value (run .sequential ⟨""⟩ .default .write : Step OnDisk RunReport).run yardDisk₁ =
      .ok second ∧
    value (run .sequential ⟨""⟩ .default .write : Step OnDisk RunReport).run yardDisk₂ =
      .ok other ∧
    ((first.prefabs = ["g"] ∧ first.written ≠ []) ∧
      (second.prefabs = [] ∧ second.written ≠ []) ∧ other.prefabs = ["h"]) ∧
    ∀ location, yardDisk₁.tree.newPlace yardDisk₁.current addedPath false = .ok location →
      yardDisk₁.tree.entryAt location = none := by
  have succeed :
      (value (run .sequential ⟨""⟩ .default .write : Step OnDisk RunReport).run
        yardDisk).toOption.any (fun report => report.prefabs = ["g"] ∧ report.written ≠ []) = true ∧
      (value (run .sequential ⟨""⟩ .default .write : Step OnDisk RunReport).run
        yardDisk₁).toOption.any (fun report => report.prefabs = [] ∧ report.written ≠ []) = true ∧
      (value (run .sequential ⟨""⟩ .default .write : Step OnDisk RunReport).run
        yardDisk₂).toOption.any (fun report => report.prefabs = ["h"]) = true ∧
      (yardDisk₁.tree.newPlace yardDisk₁.current addedPath false).toOption.all
        (fun location => (yardDisk₁.tree.get? location).isNone) = true := by
    unfold yardDisk₂ yardDisk₁ run Run.plan Templates.load
    rw [Templates.builtin_eq, Template.builtinModel_eq]
    decide +kernel
  obtain ⟨firstMakes, secondMakes, otherMakes, isFree⟩ := succeed
  obtain ⟨first, isFirst, firstMade⟩ := exists_of_any firstMakes
  obtain ⟨second, isSecond, secondMade⟩ := exists_of_any secondMakes
  obtain ⟨other, isOther, otherMade⟩ := exists_of_any otherMakes
  refine ⟨first, second, other, isFirst, isSecond, isOther, ⟨of_decide_eq_true firstMade,
    of_decide_eq_true secondMade, of_decide_eq_true otherMade⟩, fun location isPlace => ?_⟩
  rw [isPlace] at isFree
  rw [entryAt, Option.isNone_iff_eq_none.1 isFree]
  rfl

/-- Nothing needs to be added to a well-formed disk. -/
theorem Added.refl (formed : before.WellFormed) : Added before before :=
  ⟨formed, rfl, fun _ _ isThere => isThere⟩

/-- Where nothing is in its place a file is added by writing it. -/
theorem Added.writeText (formed : before.WellFormed) {path : Path} (text : String)
    (isNew : ∀ location, before.tree.newPlace before.current path false = .ok location →
      before.tree.entryAt location = none) :
    Added before
      (final (Storage.writeText path text : OnDisk (Except StorageFault Unit)) before) := by
  have writes := writeText_writes path text before
  refine ⟨keepsFormed_keptByOperations.writeText path text rfl before formed, writes.current, ?_⟩
  intro location entry isThere
  show ((before.note (.write path)).update
    (before.tree.writeBytes before.current path text.toUTF8)).2.tree.entryAt location = some entry
  cases written : before.tree.writeBytes before.current path text.toUTF8 with
  | error fault => exact isThere
  | ok tree =>
    obtain ⟨place, isPlace, -, changed⟩ := writeBytes_entryAt written
    have elsewhere : location ≠ place := by
      rintro rfl
      rw [isNew location isPlace] at isThere
      contradiction
    show tree.entryAt location = some entry
    rw [changed, Function.update_of_ne elsewhere, isThere]

/-- The project is well-formed. -/
theorem yardDisk_wellFormed : yardDisk.WellFormed := by
  have source : barrelSource.WellFormed := .file _
  exact ⟨wellFormed_treeBelow source (by decide : ∀ name ∈ yardPlace, IsPlainName name), rfl⟩

/-- The project stays well-formed. -/
theorem yardDisk₁_wellFormed : yardDisk₁.WellFormed := run_wellFormed _ _ _ _ yardDisk_wellFormed

/-- Two runs are a history of the project if nothing else than files was added between them. -/
theorem yard_history {next : Disk} {first second : RunReport} (added : Added yardDisk₁ next)
    (isFirst : value (run .sequential ⟨""⟩ .default .write : Step OnDisk RunReport).run yardDisk =
      .ok first)
    (isSecond : value (run .sequential ⟨""⟩ .default .write : Step OnDisk RunReport).run next =
      .ok second) :
    History ⟨""⟩ .default yardDisk
      [⟨first, compiledOn .sequential ⟨""⟩ .default yardDisk⟩,
        ⟨second, compiledOn .sequential ⟨""⟩ .default next⟩]
      (final (run .sequential ⟨""⟩ .default .write : Step OnDisk RunReport).run next) := by
  have once : History ⟨""⟩ .default yardDisk
      ([] ++ [⟨first, compiledOn .sequential ⟨""⟩ .default yardDisk⟩]) yardDisk₁ :=
    .round .start (.refl yardDisk_wellFormed) .sequential isFirst
  exact once.round added .sequential isSecond

/-- After every history of a project, the index is that of the prefabs of the last run that has
written, and the scripts of all prefabs of all runs are there, each as the last run that has made it
has written it. -/
theorem History.standing {rounds : List Round} {last : Disk}
    (history : History root config first rounds last) : Standing root config rounds last := by
  induction history with
  | start => exact standing_start first
  | round earlier added schedule succeeded ih =>
    exact (ih.later added).round added.formed schedule succeeded

/-- How the project stands after two runs, with a source added between them. -/
theorem History.standing_yard : ∃ (first second : Round) (last : Disk),
    first.report.prefabs = ["g"] ∧ second.report.prefabs = ["h"] ∧
    History ⟨""⟩ .default yardDisk [first, second] last ∧
    Standing ⟨""⟩ .default [first, second] last := by
  obtain ⟨first, -, other, isFirst, -, isOther, ⟨⟨firstPrefabs, -⟩, -, otherPrefabs⟩, isFree⟩ :=
    exists_yard_reports
  have added : Added yardDisk₁ yardDisk₂ := .writeText yardDisk₁_wellFormed _ isFree
  have history := yard_history added isFirst isOther
  exact ⟨_, _, _, firstPrefabs, otherPrefabs, history, history.standing⟩

/-- The index of the project loses its import, although no source is new and the script of the
prefab is still there. -/
theorem yard_index_forgets : ∃ (first second : Round) (last : Disk) (prefab : Prefab),
    History ⟨""⟩ .default yardDisk [first, second] last ∧ first.report.prefabs = ["g"] ∧
    last.tree.readText last.current (scriptPath ⟨""⟩ .default "g") =
      .ok (Script.ofPrefab prefab Config.default.defaultMass) ∧
    yardDisk₁.tree.readText yardDisk₁.current (scriptPath ⟨""⟩ .default "index") =
      .ok (Script.importLine "g") ∧
    last.tree.readText last.current (scriptPath ⟨""⟩ .default "index") = .ok "" := by
  obtain ⟨first, second, -, isFirst, isSecond, -, ⟨⟨firstPrefabs, written₁⟩,
    ⟨secondPrefabs, written₂⟩, -⟩, -⟩ := exists_yard_reports
  have unchanged : Added yardDisk₁ yardDisk₁ := .refl yardDisk₁_wellFormed
  have history := yard_history unchanged isFirst isSecond
  have standing₁ := (standing_start yardDisk).round yardDisk_wellFormed .sequential isFirst
  have standing₂ := standing₁.round yardDisk₁_wellFormed .sequential isSecond
  obtain ⟨text₁, isText₁, isIndex₁⟩ :=
    standing₁.index _ (by rw [lastWriting_concat, if_neg written₁])
  obtain ⟨text₂, isText₂, isIndex₂⟩ :=
    standing₂.index _ (by rw [lastWriting_concat, if_neg written₂])
  have ids₁ := standing₂.reported _ (List.mem_append_left _ (List.mem_singleton_self _))
  have ids₂ := standing₂.reported _ (List.mem_append_right _ (List.mem_singleton_self _))
  have isNamed : "g" ∈ first.prefabs := by simp [firstPrefabs]
  obtain ⟨prefab, isPrefab, isNamed⟩ := List.mem_map.1 (ids₁ ▸ isNamed)
  obtain ⟨lastCompiled, -, isScript⟩ := standing₂.scripts _
    (List.mem_append_left _ (List.mem_singleton_self _)) prefab isPrefab (by rw [isNamed]; decide)
  rw [isIndex₁.lines, ← ids₁, firstPrefabs] at isText₁
  rw [isIndex₂.lines, ← ids₂, secondPrefabs] at isText₂
  rw [isNamed] at isScript
  exact ⟨_, _, _, lastCompiled, history, firstPrefabs, isScript, isText₁, isText₂⟩

end Run

end PhysicsPrefab
