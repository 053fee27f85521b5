import Mathlib.Data.List.Forall2
import PhysicsPrefab.Proofs.Emit.Agreement

/-!
# Import statements

The index imports the scripts of all prefabs, one statement on each line. What a script of import
statements imports is said here for whatever the escapes of literals stand for (`Imports`). Ids stand
in the index as they are, and names of files hold no backslash, so the index imports exactly the
scripts of the prefabs if no id holds a quote or a line break, and never otherwise
(`Emitter.index_imports_iff`).
-/

namespace PhysicsPrefab

/-- A character that stands for itself in a literal of a script: none that ends the literal, begins
an escape or breaks the line. -/
def IsLiteralCharacter (character : Char) : Prop :=
  character ≠ '"' ∧ character ≠ '\\' ∧ character ≠ '\n' ∧ character ≠ '\r'

instance : DecidablePred IsLiteralCharacter := fun character => inferInstanceAs (Decidable
  (character ≠ '"' ∧ character ≠ '\\' ∧ character ≠ '\n' ∧ character ≠ '\r'))

/-- Characters between the quotes of a literal stand for a text; `escapes` says what the characters
after a backslash stand for together with it. -/
inductive StandsFor (escapes : List Char → List Char → Prop) : List Char → List Char → Prop where
  | nil : StandsFor escapes [] []
  | plain {character : Char} {rest text : List Char} (isPlain : IsLiteralCharacter character)
      (others : StandsFor escapes rest text) :
      StandsFor escapes (character :: rest) (character :: text)
  | escape {after meant rest text : List Char} (isEscape : escapes after meant)
      (others : StandsFor escapes rest text) :
      StandsFor escapes ('\\' :: after ++ rest) (meant ++ text)

/-- The statement that imports what a literal names. -/
def importStatement (literal : List Char) : List Char :=
  ['i', 'm', 'p', 'o', 'r', 't', ' ', '"'] ++ literal ++ ['"', ';']

/-- A script consists of import statements, one on each line, whose literals stand for the names of
what is imported. -/
def Imports (escapes : List Char → List Char → Prop) (script : String) (names : List String) : Prop :=
  ∃ literals, script.toList = ['\n'].intercalate (literals.map importStatement) ∧
    List.Forall₂ (fun literal name => StandsFor escapes literal name.toList) literals names

variable {escapes : List Char → List Char → Prop}

/-- Characters that stand for themselves stand for their text. -/
theorem standsFor_of_plain {characters : List Char}
    (plain : ∀ character ∈ characters, IsLiteralCharacter character) :
    StandsFor escapes characters characters := by
  induction characters with
  | nil => exact .nil
  | cons character rest ih =>
    obtain ⟨isPlain, others⟩ := List.forall_mem_cons.1 plain
    exact .plain isPlain (ih others)

/-- Without a backslash a literal stands for what is written, and nothing in it ends it or breaks the
line. -/
theorem StandsFor.eq_of_noEscape {literal text : List Char} (stands : StandsFor escapes literal text)
    (noEscape : '\\' ∉ literal) :
    literal = text ∧ ∀ character ∈ literal, IsLiteralCharacter character := by
  induction stands with
  | nil => exact ⟨rfl, nofun⟩
  | plain isPlain _ ih =>
    obtain ⟨same, plain⟩ := ih fun member => noEscape (List.mem_cons_of_mem _ member)
    exact ⟨by rw [same], List.forall_mem_cons.2 ⟨isPlain, plain⟩⟩
  | escape => exact absurd List.mem_cons_self noEscape

/-- A statement holds a character of its literal. -/
theorem mem_importStatement {character : Char} {literal : List Char} (member : character ∈ literal) :
    character ∈ importStatement literal := by
  simp [importStatement, member]

/-- A statement stays on its line if its literal does. -/
theorem break_not_mem_importStatement {literal : List Char} (noBreak : '\n' ∉ literal) :
    '\n' ∉ importStatement literal := by
  simp [importStatement, noBreak]

/-- Different literals make different statements. -/
theorem importStatement_injective : Function.Injective importStatement := fun _ _ same => by
  simpa [importStatement] using same

/-- Rows that are joined at line breaks are told apart again if no row holds one; no row at all is
as one empty row. -/
theorem eq_of_intercalate_eq {rows others : List (List Char)} (noBreak : ∀ row ∈ rows, '\n' ∉ row)
    (otherNoBreak : ∀ row ∈ others, '\n' ∉ row) (proper : [] ∉ rows) (otherProper : [] ∉ others)
    (same : ['\n'].intercalate rows = ['\n'].intercalate others) : rows = others := by
  have empty {rows : List (List Char)} (noBreak : ∀ row ∈ rows, '\n' ∉ row) (proper : [] ∉ rows)
      (nothing : ['\n'].intercalate rows = []) : rows = [] := by
    by_contra some
    have split := List.splitOn_intercalate '\n' noBreak some
    rw [nothing, List.splitOn_nil] at split
    exact proper (split ▸ List.mem_cons_self)
  rcases eq_or_ne rows [] with rfl | some
  · exact (empty otherNoBreak otherProper same.symm).symm
  · rcases eq_or_ne others [] with rfl | otherSome
    · exact empty noBreak proper same
    · rw [← List.splitOn_intercalate '\n' noBreak some, same,
        List.splitOn_intercalate '\n' otherNoBreak otherSome]

/-- What stands in rows that are joined stands in a row or joins them. -/
theorem mem_intercalate {separator : List Char} {rows : List (List Char)} {character : Char}
    (joins : character ∉ separator) :
    character ∈ separator.intercalate rows ↔ ∃ row ∈ rows, character ∈ row := by
  induction rows with
  | nil => simp
  | cons first rest ih =>
    rcases eq_or_ne rest [] with rfl | some
    · simp
    · rw [List.intercalate_cons_of_ne_nil some, List.mem_append, List.mem_append, ih]
      simp [joins]

/-- What a script without a backslash imports stands in it as it is, and nothing of it ends a literal
or breaks a line. -/
theorem Imports.names_plain {script : String} {names : List String}
    (imports : Imports escapes script names) (noEscape : '\\' ∉ script.toList) :
    script.toList = ['\n'].intercalate (names.map fun name => importStatement name.toList) ∧
      ∀ name ∈ names, ∀ character ∈ name.toList, IsLiteralCharacter character := by
  obtain ⟨literals, isScript, stand⟩ := imports
  have inScript : ∀ literal ∈ literals, '\\' ∉ literal := by
    intro literal isLiteral member
    refine noEscape (isScript ▸ ?_)
    exact (mem_intercalate (by decide)).2
      ⟨_, List.mem_map_of_mem isLiteral, mem_importStatement member⟩
  suffices same : literals = names.map String.toList ∧
      ∀ name ∈ names, ∀ character ∈ name.toList, IsLiteralCharacter character by
    refine ⟨?_, same.2⟩
    rw [isScript, same.1, List.map_map]
    rfl
  clear isScript
  induction stand with
  | nil => exact ⟨rfl, nofun⟩
  | cons first _ ih =>
    obtain ⟨firstNoEscape, othersNoEscape⟩ := List.forall_mem_cons.1 inScript
    obtain ⟨rfl, plain⟩ := first.eq_of_noEscape firstNoEscape
    obtain ⟨rfl, othersPlain⟩ := ih othersNoEscape
    exact ⟨rfl, List.forall_mem_cons.2 ⟨plain, othersPlain⟩⟩

/-- Statements on lines of their own are told apart again if no name in them breaks its line. -/
theorem names_eq_of_statements_eq {names others : List String}
    (noBreak : ∀ name ∈ names, '\n' ∉ name.toList) (otherNoBreak : ∀ name ∈ others, '\n' ∉ name.toList)
    (same : ['\n'].intercalate (names.map fun name => importStatement name.toList) =
      ['\n'].intercalate (others.map fun name => importStatement name.toList)) : names = others := by
  have rowsNoBreak {names : List String} (noBreak : ∀ name ∈ names, '\n' ∉ name.toList) :
      ∀ row ∈ names.map fun name => importStatement name.toList, '\n' ∉ row :=
    List.forall_mem_map.2 fun name isName => break_not_mem_importStatement (noBreak name isName)
  have proper (names : List String) :
      [] ∉ names.map fun name => importStatement name.toList := by
    simp [importStatement]
  have rows := eq_of_intercalate_eq (rowsNoBreak noBreak) (rowsNoBreak otherNoBreak) (proper names)
    (proper others) same
  exact (importStatement_injective.comp fun _ _ => String.toList_inj.1).list_map rows

/-- A script without a backslash imports one list of names at most. -/
theorem Imports.unique {script : String} {names others : List String}
    (imports : Imports escapes script names) (otherImports : Imports escapes script others)
    (noEscape : '\\' ∉ script.toList) : names = others := by
  obtain ⟨isScript, plain⟩ := imports.names_plain noEscape
  obtain ⟨isOther, otherPlain⟩ := otherImports.names_plain noEscape
  exact names_eq_of_statements_eq
    (fun name isName member => (plain name isName '\n' member).2.2.1 rfl)
    (fun name isName member => (otherPlain name isName '\n' member).2.2.1 rfl)
    (isScript.symm.trans isOther)

namespace Script

/-- The line of the index for an id is a statement whose literal holds the id as it is. -/
theorem toList_importLine (id : String) :
    (importLine id).toList = importStatement ("./" ++ id).toList := by
  have start : "import \"./".toList = ['i', 'm', 'p', 'o', 'r', 't', ' ', '"', '.', '/'] := by decide
  have finish : "\";".toList = ['"', ';'] := by decide
  have here : "./".toList = ['.', '/'] := by decide
  change ("import \"./" ++ id ++ "\";").toList = _
  simp [importStatement, start, finish, here]

/-- The index is made of such statements. -/
theorem toList_index (ids : List String) : (index ids).toList =
    ['\n'].intercalate (ids.map fun id => importStatement ("./" ++ id).toList) := by
  have line : "\n".toList = ['\n'] := by decide
  rw [index, String.toList_intercalate, line, List.map_map]
  exact congrArg _ (List.map_congr_left fun id _ => toList_importLine id)

end Script

namespace Emitter

/-- An index of ids that are names of files holds no backslash. -/
theorem backslash_not_mem_index {ids : List String} (accepted : ∀ id ∈ ids, isFileName id = true) :
    '\\' ∉ (Script.index ids).toList := by
  rw [Script.toList_index, mem_intercalate (by decide)]
  rintro ⟨row, isRow, member⟩
  obtain ⟨id, isId, rfl⟩ := List.mem_map.1 isRow
  have noEscape := backslash_not_mem_of_isFileName (accepted id isId)
  have start : "./".toList = ['.', '/'] := by decide
  simp [importStatement, start, noEscape] at member

/-- An index of ids that are names of files imports exactly their scripts if no id holds a quote or a
line break, and otherwise it does not. -/
theorem imports_index_iff (escapes : List Char → List Char → Prop) {ids : List String}
    (accepted : ∀ id ∈ ids, isFileName id = true) :
    Imports escapes (Script.index ids) (ids.map ("./" ++ ·)) ↔
      ∀ id ∈ ids, '"' ∉ id.toList ∧ '\n' ∉ id.toList ∧ '\r' ∉ id.toList := by
  have noEscape : '\\' ∉ (Script.index ids).toList := backslash_not_mem_index accepted
  constructor
  · intro imports id isId
    have literal := (imports.names_plain noEscape).2 _ (List.mem_map_of_mem isId)
    have inLiteral {character : Char} (member : character ∈ id.toList) :
        IsLiteralCharacter character :=
      literal character (by rw [String.toList_append]; exact List.mem_append_right _ member)
    exact ⟨fun member => (inLiteral member).1 rfl, fun member => (inLiteral member).2.2.1 rfl,
      fun member => (inLiteral member).2.2.2 rfl⟩
  · intro plain
    refine ⟨ids.map fun id => ("./" ++ id).toList, ?_, ?_⟩
    · rw [Script.toList_index, List.map_map]
      rfl
    · rw [List.forall₂_map_left_iff, List.forall₂_map_right_iff, List.forall₂_same]
      intro id isId
      obtain ⟨noQuote, noBreak, noReturn⟩ := plain id isId
      have noEscape := backslash_not_mem_of_isFileName (accepted id isId)
      refine standsFor_of_plain fun character member => ?_
      rw [String.toList_append] at member
      rcases List.mem_append.1 member with inStart | inId
      · have start : "./".toList = ['.', '/'] := by decide
        rw [start] at inStart
        rcases List.mem_pair.1 inStart with rfl | rfl <;> decide
      · exact ⟨fun same => noQuote (same ▸ inId), fun same => noEscape (same ▸ inId),
          fun same => noBreak (same ▸ inId), fun same => noReturn (same ▸ inId)⟩

/-- The index of prefabs whose ids are accepted as names of files imports exactly their scripts, in
order, if no id holds a quote or a line break, and otherwise it does not; and it is read in one way
at most, whatever escapes stand for. -/
theorem index_imports_iff (emitter : Emitter) (escapes : List Char → List Char → Prop)
    (prefabs : List Prefab) (accepted : ∀ prefab ∈ prefabs, isFileName prefab.id = true) :
    (Imports escapes (emitter.indexArtifact prefabs).contents
        (prefabs.map fun prefab => "./" ++ prefab.id) ↔
      ∀ prefab ∈ prefabs, '"' ∉ prefab.id.toList ∧ '\n' ∉ prefab.id.toList ∧
        '\r' ∉ prefab.id.toList) ∧
    ∀ names others, Imports escapes (emitter.indexArtifact prefabs).contents names →
      Imports escapes (emitter.indexArtifact prefabs).contents others → names = others := by
  have acceptedIds : ∀ id ∈ prefabs.map (·.id), isFileName id = true :=
    List.forall_mem_map.2 accepted
  have noEscape : '\\' ∉ (emitter.indexArtifact prefabs).contents.toList :=
    backslash_not_mem_index acceptedIds
  refine ⟨?_, fun names others imports otherImports => imports.unique otherImports noEscape⟩
  have iff := imports_index_iff escapes acceptedIds
  rw [List.map_map, List.forall_mem_map] at iff
  exact iff

/-- The index imports prefabs with dots, blanks and apostrophes in their ids. -/
theorem index_imports_iff_boats :
    let prefabs : List Prefab := [⟨"boat.small", [], []⟩, ⟨"captain's gig", [], []⟩]
    (∀ prefab ∈ prefabs, isFileName prefab.id = true) ∧
      (bareEmitter.indexArtifact prefabs).contents =
        "import \"./boat.small\";\nimport \"./captain's gig\";" ∧
      ∀ escapes, Imports escapes (bareEmitter.indexArtifact prefabs).contents
        ["./boat.small", "./captain's gig"] := by
  intro prefabs
  have accepted : ∀ prefab ∈ prefabs, isFileName prefab.id = true := by decide
  have plain : ∀ prefab ∈ prefabs, '"' ∉ prefab.id.toList ∧ '\n' ∉ prefab.id.toList ∧
      '\r' ∉ prefab.id.toList := by decide
  exact ⟨accepted, by decide, fun escapes =>
    (index_imports_iff bareEmitter escapes prefabs accepted).1.2 plain⟩

/-- With a quote in its id the index does not import a prefab, and with a line break as well the id
makes up another statement. -/
theorem index_misread_lamp :
    isFileName "old\"lamp" = true ∧ isFileName "lamp\";\nimport \"oil" = true ∧
      (∀ escapes names, ¬ Imports escapes
        (bareEmitter.indexArtifact [⟨"old\"lamp", [], []⟩]).contents names) ∧
      ∀ escapes, Imports escapes
        (bareEmitter.indexArtifact [⟨"lamp\";\nimport \"oil", [], []⟩]).contents
        ["./lamp", "oil"] := by
  refine ⟨by decide, by decide, fun escapes names imports => ?_, fun escapes => ?_⟩
  · have noEscape : '\\' ∉ (bareEmitter.indexArtifact [⟨"old\"lamp", [], []⟩]).contents.toList :=
      backslash_not_mem_index (by decide)
    obtain ⟨isScript, plain⟩ := imports.names_plain noEscape
    have isName : ["./old\"lamp"] = names :=
      names_eq_of_statements_eq (by decide)
        (fun name isName member => (plain name isName '\n' member).2.2.1 rfl)
        ((Script.toList_index ["old\"lamp"]).symm.trans isScript)
    exact (plain "./old\"lamp" (isName ▸ List.mem_singleton_self _) '"' (by decide)).1 rfl
  · have lamp : "./lamp".toList.all fun character => IsLiteralCharacter character := by decide
    have oil : "oil".toList.all fun character => IsLiteralCharacter character := by decide
    refine ⟨["./lamp".toList, "oil".toList], by decide, ?_⟩
    exact .cons (standsFor_of_plain (by simpa using lamp))
      (.cons (standsFor_of_plain (by simpa using oil)) .nil)

end Emitter

end PhysicsPrefab
