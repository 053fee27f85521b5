import PhysicsPrefab.Proofs.Script.Freshness
import PhysicsPrefab.Proofs.Prefab.Assembly
import PhysicsPrefab.Script.Basic

/-!
# The variables of a script

The variables of the bodies and of the constraints of a prefab are all different
(`names_nodup`), although they are found in two passes. Where the bodies have different ids, the
variable that is looked up for a body is the one made for it (`bodyNames_eq`).
-/

namespace PhysicsPrefab

/-- In a table without a repeated key, a key leads to its entry. -/
theorem find?_of_nodup_keys {table : List (String × String)} {entry : String × String}
    (distinct : (table.map (·.1)).Nodup) (member : entry ∈ table) :
    table.find? (fun other => other.1 == entry.1) = some entry := by
  induction table with
  | nil => cases member
  | cons first rest ih =>
    simp only [List.map_cons, List.nodup_cons] at distinct
    rcases List.mem_cons.1 member with rfl | later
    · simp
    · have apart : first.1 ≠ entry.1 := by
        intro same
        exact distinct.1 (same ▸ List.mem_map.2 ⟨entry, later, rfl⟩)
      simp [apart, ih distinct.2 later]

/-- The same holds when the table is read from its end. -/
theorem find?_reverse_of_nodup_keys {table : List (String × String)} {entry : String × String}
    (distinct : (table.map (·.1)).Nodup) (member : entry ∈ table) :
    table.reverse.find? (fun other => other.1 == entry.1) = some entry := by
  refine find?_of_nodup_keys ?_ (List.mem_reverse.2 member)
  rw [List.map_reverse]
  exact List.nodup_reverse.2 distinct

namespace ScriptNames

/-- The name of a body before numbers are added. -/
def bodyBase (body : Body Float) : String := "body" ++ Identifier.sanitize body.id

/-- The name of a constraint before numbers are added. -/
def constraintBase (constraint : Constraint) : String :=
  "constraint" ++ Identifier.sanitize constraint.id

/-- The pass over the bodies. -/
def bodyPass (prefab : Prefab) : List String × List String :=
  Identifier.freshAll [] (prefab.bodies.map bodyBase)

/-- The variables of the bodies, in order. -/
def bodyNames (prefab : Prefab) : List String := (bodyPass prefab).1

/-- The variables of the constraints, in order. -/
def constraintNames (prefab : Prefab) : List String :=
  (Identifier.freshAll (bodyPass prefab).2 (prefab.constraints.map constraintBase)).1

/-- The variables of a prefab are those of both passes. -/
theorem ofPrefab_eq (prefab : Prefab) :
    ofPrefab prefab = ⟨prefab.bodyIds.zip (bodyNames prefab), constraintNames prefab⟩ := rfl

/-- The variables of the constraints are those of the second pass. -/
theorem constraints_ofPrefab (prefab : Prefab) :
    (ofPrefab prefab).constraints = constraintNames prefab := rfl

/-- Every body has a variable. -/
@[simp] theorem length_bodyNames (prefab : Prefab) :
    (bodyNames prefab).length = prefab.bodies.length := by
  simp [bodyNames, bodyPass]

/-- Every constraint has a variable. -/
@[simp] theorem length_constraintNames (prefab : Prefab) :
    (constraintNames prefab).length = prefab.constraints.length := by
  simp [constraintNames]

/-- No variable is made twice, neither in one pass nor in both. -/
theorem names_nodup (prefab : Prefab) : (bodyNames prefab ++ constraintNames prefab).Nodup := by
  refine List.nodup_append.2
    ⟨Identifier.freshAll_nodup _ _, Identifier.freshAll_nodup _ _, ?_⟩
  rintro name inBodies other inConstraints rfl
  exact Identifier.not_mem_taken_of_mem_freshAll inConstraints
    (Identifier.mem_taken_freshAll.2 (.inl inBodies))

/-- A name starts with a given text and holds only characters of variables. -/
structure HasForm (first name : String) : Prop where
  /-- The name starts with the text. -/
  starts : first.toList <+: name.toList
  /-- Every character may stand in a variable. -/
  plain : Identifier.IsPlain name.toList

/-- Plain text before a name of plain characters gives such a name. -/
theorem isPlain_append {first rest : String} (plainFirst : Identifier.IsPlain first.toList)
    (plainRest : Identifier.IsPlain rest.toList) :
    Identifier.IsPlain (first ++ rest).toList := by
  intro character member
  rw [String.toList_append, List.mem_append] at member
  exact member.elim (plainFirst character) (plainRest character)

/-- A candidate for a sanitized name has the form of the text before it. -/
theorem candidate_hasForm {first : String} (plain : Identifier.IsPlain first.toList)
    (id : String) (number : Nat) :
    HasForm first (Identifier.candidate (first ++ Identifier.sanitize id) number) := by
  constructor
  · refine List.IsPrefix.trans ?_ (Identifier.prefix_candidate _ number)
    rw [String.toList_append]
    exact List.prefix_append _ _
  · have plainBase := isPlain_append plain (Identifier.sanitize_isPlain id)
    exact Identifier.candidate_isPlain plainBase number

/-- The variable of a body starts with `body`. -/
theorem bodyNames_hasForm {prefab : Prefab} {name : String}
    (member : name ∈ bodyNames prefab) : HasForm "body" name := by
  obtain ⟨base, isBase, number, rfl⟩ := Identifier.exists_candidate_of_mem_freshAll member
  obtain ⟨body, -, rfl⟩ := List.mem_map.1 isBase
  exact candidate_hasForm (by decide) body.id number

/-- The variable of a constraint starts with `constraint`. -/
theorem constraintNames_hasForm {prefab : Prefab} {name : String}
    (member : name ∈ constraintNames prefab) : HasForm "constraint" name := by
  obtain ⟨base, isBase, number, rfl⟩ := Identifier.exists_candidate_of_mem_freshAll member
  obtain ⟨constraint, -, rfl⟩ := List.mem_map.1 isBase
  exact candidate_hasForm (by decide) constraint.id number

/-- The bodies by their ids, each with its variable. -/
def bodyTable (prefab : Prefab) : List (String × String) :=
  prefab.bodyIds.zip (bodyNames prefab)

/-- The keys of the table are the ids. -/
@[simp] theorem map_fst_bodyTable (prefab : Prefab) :
    (bodyTable prefab).map (·.1) = prefab.bodyIds :=
  List.map_fst_zip (by simp [Prefab.bodyIds])

/-- A variable is found for an id that is the id of no other body. -/
theorem body_eq {prefab : Prefab} (distinct : prefab.bodyIds.Nodup) {entry : String × String}
    (member : entry ∈ bodyTable prefab) : (ofPrefab prefab).body entry.1 = entry.2 := by
  have found := find?_reverse_of_nodup_keys
    ((map_fst_bodyTable prefab).symm ▸ distinct) member
  rw [ofPrefab_eq]
  unfold body
  rw [show prefab.bodyIds.zip (bodyNames prefab) = bodyTable prefab from rfl, found]

/-- The id of a body leads to the variable of a body of that id. -/
theorem mem_bodyTable {prefab : Prefab} (distinct : prefab.bodyIds.Nodup) {id : String}
    (isBody : id ∈ prefab.bodyIds) : (id, (ofPrefab prefab).body id) ∈ bodyTable prefab := by
  rw [← map_fst_bodyTable, List.mem_map] at isBody
  obtain ⟨entry, member, rfl⟩ := isBody
  rw [body_eq distinct member]
  exact member

/-- What is looked up for the bodies one after the other is what was made for them. -/
theorem bodyNames_eq {prefab : Prefab} (distinct : prefab.bodyIds.Nodup) :
    bodyNames prefab = prefab.bodies.map fun body => (ofPrefab prefab).body body.id := by
  have values : (bodyTable prefab).map (·.2) = bodyNames prefab :=
    List.map_snd_zip (by simp [Prefab.bodyIds])
  have looked : (bodyTable prefab).map (·.2) =
      (bodyTable prefab).map fun entry => (ofPrefab prefab).body entry.1 :=
    List.map_congr_left fun entry member => (body_eq distinct member).symm
  calc bodyNames prefab
      = (bodyTable prefab).map fun entry => (ofPrefab prefab).body entry.1 :=
        values.symm.trans looked
    _ = ((bodyTable prefab).map (·.1)).map fun id => (ofPrefab prefab).body id := by
        rw [List.map_map]; rfl
    _ = prefab.bodies.map fun body => (ofPrefab prefab).body body.id := by
        rw [map_fst_bodyTable, Prefab.bodyIds, List.map_map]; rfl

/-- Every body stands beside what is looked up for it. -/
theorem zip_bodyNames {prefab : Prefab} (distinct : prefab.bodyIds.Nodup) :
    prefab.bodies.zip (bodyNames prefab) =
      prefab.bodies.map fun body => (body, (ofPrefab prefab).body body.id) := by
  rw [bodyNames_eq distinct]
  simpa using List.zip_map' (f := id) (g := fun body => (ofPrefab prefab).body body.id)
    (l := prefab.bodies)

end ScriptNames

end PhysicsPrefab
