import PhysicsPrefab.Proofs.Options.Declared
import PhysicsPrefab.Proofs.Prefab.Faults

/-!
# Pivots

A pivot is a place on a body. It is the vector that its option is set to, or the position of a
locator of the body that has the name given there, both trimmed; of several such locators the one
with the least name counts (`Constraint.value_required_place`). So every locator of a body can be
used as a pivot unless its name is that of a vector, those made of separators alone included.
-/

namespace PhysicsPrefab

variable {body : Body Float} {raw : String}

namespace Body

/-- A locator of a body is the least one that has a trimmed name. -/
structure IsLeast (body : Body Float) (trimmed : String) (entry : String × Locator Float) :
    Prop where
  /-- It is a locator of the body. -/
  member : entry ∈ body.locators.entries
  /-- It has the name. -/
  named : Options.trim entry.1 = trimmed
  /-- No other locator of this name is before it. -/
  least : ∀ other ∈ body.locators.entries, Options.trim other.1 = trimmed → entry.1 ≤ other.1

/-- A vector is a place as it is. -/
theorem place?_of_vector {vector : Vec3 Float} (isVector : Options.decodeVec3 raw = some vector) :
    body.place? raw = some vector := by
  rw [place?, isVector]

/-- A name that is not a vector and that a locator has when trimmed is the place of the least such
locator. -/
theorem place?_of_named (noVector : (Options.decodeVec3 raw : Option (Vec3 Float)) = none)
    (named : ∃ name ∈ body.locators.names, Options.trim name = raw) :
    ∃ entry, body.IsLeast raw entry ∧ body.place? raw = some entry.2.position.toBlocks := by
  obtain ⟨name, listed, named⟩ := named
  obtain ⟨own, isOwn, rfl⟩ := List.mem_map.1 listed
  cases found : body.locators.entries.find? fun entry => Options.trim entry.1 == raw with
  | none => exact absurd (beq_iff_eq.2 named) (List.find?_eq_none.1 found own isOwn)
  | some entry =>
    obtain ⟨isNamed, earlier, rest, split, others⟩ := List.find?_eq_some_iff_append.1 found
    refine ⟨entry, ⟨split ▸ by simp, eq_of_beq isNamed, fun other member isOther => ?_⟩, ?_⟩
    · rw [split] at member
      rcases List.mem_append.1 member with early | late
      · have differs := others other early
        rw [isOther] at differs
        simp at differs
      · rcases List.mem_cons.1 late with rfl | later
        · exact String.le_refl _
        · have ordered := body.locators.sorted
          rw [split] at ordered
          have before := (List.pairwise_cons.1 (List.pairwise_append.1 ordered).2.1).1 _ later
          exact String.not_lt.1 (String.lt_asymm before)
    · rw [place?, noVector, found]
      rfl

/-- A name that is not a vector and that no locator has when trimmed is no place. -/
theorem place?_of_absent (noVector : (Options.decodeVec3 raw : Option (Vec3 Float)) = none)
    (absent : ∀ name ∈ body.locators.names, Options.trim name ≠ raw) : body.place? raw = none := by
  have nothing : body.locators.entries.find? (fun entry => Options.trim entry.1 == raw) = none :=
    List.find?_eq_none.2 fun entry member => by
      simpa using absent entry.1 (List.mem_map_of_mem member)
  rw [place?, noVector, nothing]
  rfl

end Body

namespace Constraint

/-- A pivot that is set to a vector is this vector. One that is set to anything else is the position
of the least locator of that name, if only the separators at the end may differ, and it is an error
if no locator has that name when trimmed. -/
theorem value_required_place (body : Body Float) {locators : NameMap (Locator Float)}
    {option : ConstraintOption} {written : String} (proper : written ≠ "")
    (first : Options.IsFirst locators option.key written) :
    (∀ vector, Options.decodeVec3 (Options.trim written) = some vector →
      (required locators option body.place?).run.value = .ok vector) ∧
    ((Options.decodeVec3 (Options.trim written) : Option (Vec3 Float)) = none →
      (∀ name ∈ body.locators.names, name ≠ "" →
        (∃ stem own other, name = Options.padded stem own ∧ written = Options.padded stem other) →
        ∃ entry, body.IsLeast (Options.trim name) entry ∧
          (required locators option body.place?).run.value = .ok entry.2.position.toBlocks) ∧
      ((∀ name ∈ body.locators.names, Options.trim name ≠ Options.trim written) →
        (required locators option body.place?).run.value =
          .error (.invalidOption option (Options.trim written)))) := by
  rw [value_required, first.value_lookup, if_neg proper]
  dsimp only
  refine ⟨fun vector isVector => ?_, fun noVector => ⟨?_, fun absent => ?_⟩⟩
  · rw [Body.place?_of_vector isVector]
  · rintro name listed notEmpty ⟨stem, own, other, rfl, rfl⟩
    have same := Options.trim_eq_of_padded notEmpty proper
    obtain ⟨entry, least, place⟩ := Body.place?_of_named noVector ⟨_, listed, same⟩
    exact ⟨entry, same ▸ least, by rw [place]⟩
  · rw [Body.place?_of_absent noVector absent]

/-- A pivot in a gate is a vector, a locator whose name is made of separators, or an error. -/
theorem value_required_place_gate :
    let post := gatePart "post" "__"
    let set (name : String) : NameMap (Locator Float) := .insert .empty name (.point .zero)
    (∃ vector, Options.decodeVec3 "1__2__3" = some vector ∧
      (required (set "pivota_1__2__3_") .pivotA post.place?).run.value = .ok vector) ∧
    (∃ entry, post.IsLeast "_" entry ∧
      (required (set "pivota____") .pivotA post.place?).run.value =
        .ok entry.2.position.toBlocks) ∧
    (required (set "pivotb_eye") .pivotB post.place?).run.value =
      .error (.invalidOption .pivotB "eye") := by
  intro post set
  have isFirst (option : ConstraintOption) (written : String) :
      Options.IsFirst (set (Options.declaring option.key written)) option.key written :=
    Options.isFirst_insert option.key written (Locator.point .zero)
  obtain ⟨vector, isVector⟩ := Option.isSome_iff_exists.1
    (by decide +kernel : (Options.decodeVec3 "1__2__3" : Option (Vec3 Float)).isSome = true)
  have literal := (value_required_place post (by decide)
    (isFirst .pivotA "1__2__3_")).1 vector isVector
  have named := ((value_required_place post (by decide) (isFirst .pivotA "___")).2 rfl).1 "__"
    (by decide) (by decide) ⟨"", 2, 3, rfl, rfl⟩
  have absent := ((value_required_place post (by decide) (isFirst .pivotB "eye")).2 rfl).2
    (by decide)
  exact ⟨⟨vector, isVector, literal⟩, named, absent⟩

end Constraint

end PhysicsPrefab
