import PhysicsPrefab.Emit.Emitter

/-!
# The built-in templates

The built-in model is a model, so the built-in templates can always be loaded (`builtin_eq`), and
one notice tells of it.
-/

namespace PhysicsPrefab

/-- The notice of a model that was read. -/
def Model.notice (path : Path) (model : Model Float) : Notice :=
  ⟨.debug, s!"loaded {path.shown}: {model.geometries.length} geometry definition(s)"⟩

/-- The model in a text is what the text is parsed to, and one notice tells of it. -/
theorem Model.ofText_eq {path : Path} {text : String} {model : Model Float}
    (parsed : Model.parse text = .ok model) :
    Model.ofText path text = ExceptT.mk ⟨[model.notice path], .ok model⟩ := by
  rw [ofText, parsed]
  rfl

namespace Template

/-- The built-in model can be parsed. -/
theorem isSome_parse_builtinGeometry : (Model.parse builtinGeometry).toOption.isSome = true := by
  unfold Model.parse Json.Reader.run Json.Document.ofText Json.Token.ofText builtinGeometry
  -- the characters are gathered line by line, as decoding the whole text takes long
  simp only [String.toList_intercalate, List.map_cons, List.map_nil, String.reduceToList]
  decide +kernel

/-- The built-in model. -/
def builtinModel : Model Float := (Model.parse builtinGeometry).toOption.getD ⟨"", [], .empty⟩

/-- The built-in text is parsed to the built-in model. -/
theorem parse_builtinGeometry : Model.parse builtinGeometry = .ok builtinModel := by
  have isThere := isSome_parse_builtinGeometry
  rw [builtinModel]
  cases parsed : Model.parse builtinGeometry with
  | error fault =>
    rw [parsed] at isThere
    contradiction
  | ok model => rfl

end Template

/-- The built-in templates can always be loaded. -/
theorem Templates.builtin_eq :
    builtin = ExceptT.mk ⟨[Template.builtinModel.notice ⟨"templates/geo.json"⟩],
      .ok ⟨Template.builtinBehavior, Template.builtinAppearance, Template.builtinModel⟩⟩ := by
  rw [builtin, Model.ofText_eq Template.parse_builtinGeometry]
  rfl

end PhysicsPrefab
