import PhysicsPrefab.Model.Written
import PhysicsPrefab.Proofs.Json.Building
import PhysicsPrefab.Proofs.Model.Growing
import PhysicsPrefab.Proofs.Model.Reordering
import PhysicsPrefab.Proofs.Model.Schema

/-!
# Accepting models

A well-formed document is a model if and only if it follows the schema, and how it is read depends on
neither the order of its members nor, apart from what is kept, on members of further names
(`Model.parse_followsSchema`).
-/

namespace PhysicsPrefab

open Json (Document Node Place Value)

/-- How a text is read as a model. -/
structure Model.FollowsSchema (text : String) : Prop where
  /-- It is accepted if and only if its document has the shape of a model. -/
  accepted : (∃ model, Model.parse text = .ok model) ↔ (Document.ofText text).root.IsModel
  /-- Without repeated names, a text whose members are in another order gives the same model. -/
  reordered : ∀ {model}, Model.parse text = .ok model →
    (Document.ofText text).root.HasDistinctNames → ∀ {other root},
    Document.ofText other = ⟨root, false⟩ →
    Relation.ReflTransGen Node.Reorders (Document.ofText text).root root →
    Model.parse other = .ok model
  /-- Without repeated names, a text with one more member of a new name gives the same model with one
  more entry among what is kept in that place. -/
  grown : ∀ {model}, Model.parse text = .ok model →
    (Document.ofText text).root.HasDistinctNames → ∀ {other root path name item value grown},
    Document.ofText other = ⟨root, false⟩ →
    (Document.ofText text).root.Grows (name, item) path root → item.value? = some value →
    model.keepAt name value path = some grown → Model.parse other = .ok grown

/-- A text is read as what its document is, if nothing follows the document. -/
theorem Model.parse_eq_ok {text : String} (ended : (Document.ofText text).trailing = false)
    {model : Model Float} :
    Model.parse text = .ok model ↔ Model.Reader.model (Document.ofText text).root = .ok model := by
  rw [Model.parse, Json.Reader.run]
  simp only [ended]
  cases Model.Reader.model (Document.ofText text).root <;> simp [bind, Except.bind]

/-- A well-formed document is read by the schema of models. -/
theorem Model.parse_followsSchema {text : String}
    (wellFormed : (Document.ofText text).value?.isSome = true) : Model.FollowsSchema text := by
  obtain ⟨ended, inRoot⟩ : (Document.ofText text).trailing = false ∧
      (Document.ofText text).root.IsWellFormed := by
    rw [Document.value?] at wellFormed
    split at wellFormed
    · cases wellFormed
    · rename_i ended
      exact ⟨Bool.not_eq_true _ ▸ ended, wellFormed⟩
  constructor
  case accepted =>
    simp only [parse_eq_ok ended]
    exact Reader.accepts_model _ inRoot
  case reordered =>
    intro model parsed distinct other root isOther steps
    have isRead := (parse_eq_ok ended).1 parsed
    rw [parse_eq_ok (by rw [isOther]), isOther]
    exact Reader.model_ignoresOrder.many distinct steps isRead
  case grown =>
    intro model parsed distinct other root path name item value grown isOther grows isValue isKept
    have isRead := (parse_eq_ok ended).1 parsed
    rw [parse_eq_ok (by rw [isOther]), isOther]
    exact Reader.model_grows isValue distinct grows isRead isKept

/-- A bench as it is written down: a model with one geometry and one bone, with the given members of
the bone. -/
def Model.bench (bone : List (String × Value)) : Value :=
  .object [("format_version", .string "1"), ("minecraft:geometry", .array [.object
    [("description", .object [("identifier", .string "bench")]),
      ("bones", .array [.object bone])]])]

/-- A point of whole numbers. -/
def Model.point (x y z : UInt64) : Value :=
  .array [.number (.natural x), .number (.natural y), .number (.natural z)]

/-- The bone of a bench, with a locator and with a cube that has some more members. -/
def Model.seat (more : List (String × Value)) : List (String × Value) :=
  [("name", .string "seat"),
    ("locators", .object [("leg", .object [("offset", point 4 0 4)])]),
    ("cubes", .array [.object ([("origin", point 0 6 0), ("size", point 16 2 8)] ++ more)])]

/-- The trees of a bench and of the same bench with the members of its bone in another order. -/
theorem Model.bench_reorders {bone other : List (String × Value)} (mixed : bone.Perm other) :
    (bench bone).node.Reorders (bench other).node := by
  simp only [bench, Value.node, Value.itemNodes, Value.memberNodes, Value.memberNodes_eq]
  exact .member [_] _ [] true (.item [] [] true (.member [_] _ [] true (.item [] [] true
    (.members true (mixed.map _)))))

/-- The trees of a bench and of the same bench with one member more in its cube. -/
theorem Model.bench_grows (name : String) (value : Value) :
    (bench (seat [])).node.Grows (name, value.node) [.member "minecraft:geometry", .item 0,
      .member "bones", .item 0, .member "cubes", .item 0] (bench (seat [(name, value)])).node := by
  simp only [bench, seat, Value.node, Value.itemNodes, Value.memberNodes, List.cons_append,
    List.nil_append]
  exact .member [_] _ [] true (.item [] [] true (.member [_] _ [] true (.item [] [] true
    (.member [_, _] _ [] true (.item [] [] true (.here [_, _] [] true))))))

/-- The tree of a bench has different names. -/
theorem Model.bench_hasDistinctNames : (bench (seat [])).node.HasDistinctNames := by
  have number (value : Json.Number) : (Value.number value).node.HasDistinctNames := by
    rw [Value.node]
    split <;> trivial
  have triple (x y z : UInt64) : (point x y z).node.HasDistinctNames := by
    rw [point, Value.node]
    exact ⟨number _, number _, number _, trivial⟩
  simp only [bench, seat, Value.node, Value.itemNodes, Value.memberNodes, List.cons_append,
    List.nil_append]
  simp [Node.HasDistinctNames, Node.membersHaveDistinctNames, Node.itemsHaveDistinctNames, triple]

/-- How a bench with one member more in its cube is written after it was read. -/
def Model.grownBenchWritten : String :=
  "\x7b\"format_version\":\"1\",\"minecraft:geometry\":[\x7b\"description\":\x7b\"identifier\":" ++
  "\"bench\"\x7d,\"bones\":[\x7b\"name\":\"seat\",\"pivot\":[0.0,0.0,0.0],\"locators\":\x7b" ++
  "\"leg\":\x7b\"offset\":[4.0,0.0,4.0]\x7d\x7d,\"cubes\":[\x7b\"origin\":[0.0,6.0,0.0]," ++
  "\"size\":[16.0,2.0,8.0],\"uv\":true\x7d]\x7d]\x7d]\x7d"

/-- A bench is read by the schema: it is the same with the members of its bone the other way round,
and what is added to its cube is kept there. -/
theorem Model.parse_followsSchema_bench :
    let text := (bench (seat [])).text
    (Document.ofText text).value?.isSome = true ∧ Model.FollowsSchema text ∧
    ∃ model grown, Model.parse text = .ok model ∧
      Model.parse (bench (seat []).reverse).text = .ok model ∧
      Model.parse (bench (seat [("uv", .boolean true)])).text = .ok grown ∧
      grown.toValue.text = grownBenchWritten := by
  intro text
  have isDocument : Document.ofText text = ⟨(bench (seat [])).node, false⟩ :=
    Document.ofText_text (by decide)
  have wellFormed : (Document.ofText text).value?.isSome = true := by
    rw [isDocument]
    decide +kernel
  have follows := Model.parse_followsSchema wellFormed
  have passes : (Model.Reader.model (bench (seat [])).node).toOption.any (fun model =>
      (Model.keepAt "uv" (.boolean true) [.member "minecraft:geometry", .item 0,
        .member "bones", .item 0, .member "cubes", .item 0] model).any fun grown =>
          grown.toValue.text = grownBenchWritten) = true := by decide +kernel
  have isValue : (Value.boolean true).node.value? = some (.boolean true) := rfl
  obtain ⟨model, isRead, isKept⟩ := Answer.exists_of_any passes
  obtain ⟨grown, isGrown, isWritten⟩ := (Option.any_eq_true _ _).1 isKept
  have parsed : Model.parse text = .ok model := by
    rw [Model.parse_eq_ok (by rw [isDocument]), isDocument]
    exact isRead
  have reordered : Model.parse (bench (seat []).reverse).text = .ok model := by
    refine follows.reordered parsed ?_ (Document.ofText_text (by decide)) (.single ?_)
    · rw [isDocument]
      exact bench_hasDistinctNames
    · rw [isDocument]
      exact bench_reorders (List.reverse_perm _).symm
  have added : Model.parse (bench (seat [("uv", .boolean true)])).text = .ok grown := by
    refine follows.grown parsed ?_ (Document.ofText_text (by decide)) ?_ isValue isGrown
    · rw [isDocument]
      exact bench_hasDistinctNames
    · rw [isDocument]
      exact bench_grows "uv" (.boolean true)
  exact ⟨wellFormed, follows, model, grown, parsed, reordered, added, of_decide_eq_true isWritten⟩

end PhysicsPrefab
