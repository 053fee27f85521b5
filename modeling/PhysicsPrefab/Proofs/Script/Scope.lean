import PhysicsPrefab.Proofs.Script.Fragment

/-!
# Scope of variables

A line may use the variables that earlier statements declare. Statements stretch over several
lines, and what a statement declares is in scope only after its end, so a scope keeps apart what
is declared and what is about to be. Blocks are rows of whole statements: they can be put one
after the other (`Block.append`) and repeated (`Block.flatMap`).
-/

namespace PhysicsPrefab

namespace ScriptLine

/-- Whether a statement may follow a line. The objects of a body and of the result go on with
the next line. -/
def endsStatement : ScriptLine → Bool
  | declareBody _ | mass _ | position _ | material _ | collisionGroup | collisionMask
  | openResult | entry _ _ => false
  | _ => true

/-- The object of a constraint declares nothing and uses its two variables. -/
theorem names_constraintFragments (a b : String) (kind : ConstraintKind) :
    (constraintFragments a b kind).filterMap Fragment.declared? = [] ∧
      (constraintFragments a b kind).filterMap Fragment.used? = [a, b] := by
  cases kind with
  | distance distance maxForce => cases maxForce <;> exact ⟨rfl, rfl⟩
  | lock maxForce => cases maxForce <;> exact ⟨rfl, rfl⟩
  | hinge hinge =>
    obtain ⟨pivotA, pivotB, axisA, axisB, _ | maxForce, collide⟩ := hinge <;> exact ⟨rfl, rfl⟩
  | twist hinge swing twist =>
    obtain ⟨pivotA, pivotB, axisA, axisB, _ | maxForce, collide⟩ := hinge <;> exact ⟨rfl, rfl⟩
  | point pivotA pivotB maxForce => cases maxForce <;> exact ⟨rfl, rfl⟩

/-- The variables that a line declares, line by line. -/
theorem declared_eq (line : ScriptLine) : line.declared =
    match line with
    | declarePlace body _ => [placeName body]
    | declareBody body => [body]
    | declareConstraint name _ _ _ => [name]
    | _ => [] := by
  cases line with
  | declareConstraint name a b kind =>
    unfold declared fragments
    rw [List.filterMap_append, List.filterMap_append, (names_constraintFragments a b kind).1]
    rfl
  | material friction => cases friction <;> rfl
  | _ => rfl

/-- The variables that a line uses, line by line. -/
theorem used_eq (line : ScriptLine) : line.used =
    match line with
    | position body => [placeName body]
    | addShape body _ => [body]
    | declareConstraint _ a b _ => [a, b]
    | addConstraint name => [name]
    | createEntity _ body => [placeName body, body]
    | addBody body => [body]
    | entry _ name => [name]
    | _ => [] := by
  cases line with
  | declareConstraint name a b kind =>
    unfold used fragments
    rw [List.filterMap_append, List.filterMap_append, (names_constraintFragments a b kind).2]
    rfl
  | material friction => cases friction <;> rfl
  | _ => rfl

end ScriptLine

/-- The variables that lines declare, in order. -/
def declaredNames (lines : List ScriptLine) : List String := lines.flatMap ScriptLine.declared

/-- Rows of lines declare what each of them declares. -/
@[simp] theorem declaredNames_append (first second : List ScriptLine) :
    declaredNames (first ++ second) = declaredNames first ++ declaredNames second :=
  List.flatMap_append

/-- What is in scope at a line. -/
structure Scope where
  /-- The variables that earlier statements declare. -/
  known : List String
  /-- The variables that the statement of the line has declared so far. -/
  pending : List String

namespace Scope

/-- The scope after a line. -/
def after (scope : Scope) (line : ScriptLine) : Scope :=
  if line.endsStatement then ⟨scope.known ++ (scope.pending ++ line.declared), []⟩
  else ⟨scope.known, scope.pending ++ line.declared⟩

/-- The scope after lines. -/
def afterAll (scope : Scope) (lines : List ScriptLine) : Scope := lines.foldl after scope

/-- Every line uses only variables that earlier statements declare. -/
def WellScoped (scope : Scope) : List ScriptLine → Prop
  | [] => True
  | line :: rest => (∀ name ∈ line.used, name ∈ scope.known) ∧ (scope.after line).WellScoped rest

/-- A line declares its variables and forgets none. -/
theorem names_after (scope : Scope) (line : ScriptLine) :
    (scope.after line).known ++ (scope.after line).pending =
      scope.known ++ (scope.pending ++ line.declared) := by
  unfold after
  split <;> simp

/-- A line takes no variable out of scope. -/
theorem known_subset_after (scope : Scope) (line : ScriptLine) :
    scope.known ⊆ (scope.after line).known := by
  unfold after
  split
  · exact List.subset_append_left _ _
  · exact List.Subset.refl _

/-- Lines declare their variables and forget none. -/
theorem names_afterAll (scope : Scope) (lines : List ScriptLine) :
    (scope.afterAll lines).known ++ (scope.afterAll lines).pending =
      scope.known ++ (scope.pending ++ declaredNames lines) := by
  induction lines generalizing scope with
  | nil => simp [afterAll, declaredNames]
  | cons line rest ih =>
    have rest := ih (scope.after line)
    rw [← List.append_assoc, names_after] at rest
    simpa [afterAll, declaredNames] using rest

/-- Rows of lines are well scoped if the first is and the second is after it. -/
theorem wellScoped_append {scope : Scope} {first second : List ScriptLine} :
    scope.WellScoped (first ++ second) ↔
      scope.WellScoped first ∧ (scope.afterAll first).WellScoped second := by
  induction first generalizing scope with
  | nil => simp [WellScoped, afterAll]
  | cons line rest ih =>
    simp only [List.cons_append, WellScoped, ih, and_assoc]
    rfl

/-- Lines are well scoped that use only what is in scope before the first of them. -/
theorem wellScoped_of_used {scope : Scope} {lines : List ScriptLine}
    (used : ∀ line ∈ lines, ∀ name ∈ line.used, name ∈ scope.known) :
    scope.WellScoped lines := by
  induction lines generalizing scope with
  | nil => trivial
  | cons line rest ih =>
    refine ⟨used line List.mem_cons_self, ih fun later member name isUsed => ?_⟩
    exact known_subset_after scope line (used later (List.mem_cons_of_mem _ member) name isUsed)

/-- Nothing is pending after a line that ends its statement. -/
theorem pending_afterAll_concat {last : ScriptLine} (ends : last.endsStatement)
    (scope : Scope) (lines : List ScriptLine) :
    (scope.afterAll (lines ++ [last])).pending = [] := by
  simp [afterAll, after, ends]

end Scope

/-- Whole statements that use what is known before them or what they declare. -/
structure Block (known : List String) (lines : List ScriptLine) : Prop where
  /-- The lines are well scoped wherever at least that is known. -/
  inScope : ∀ more, known ⊆ more → (Scope.mk more []).WellScoped lines
  /-- The last statement has an end. -/
  ends : ∀ more, ((Scope.mk more []).afterAll lines).pending = []

namespace Block

/-- After a block everything is known that it declares. -/
theorem afterAll_eq {known : List String} {lines : List ScriptLine} (block : Block known lines)
    (more : List String) :
    (Scope.mk more []).afterAll lines = ⟨more ++ declaredNames lines, []⟩ := by
  have names := Scope.names_afterAll ⟨more, []⟩ lines
  rw [block.ends more, List.append_nil, List.nil_append] at names
  calc (Scope.mk more []).afterAll lines
      = ⟨((Scope.mk more []).afterAll lines).known,
          ((Scope.mk more []).afterAll lines).pending⟩ := rfl
    _ = ⟨more ++ declaredNames lines, []⟩ := by rw [names, block.ends more]

/-- A block may use what the block before it declares. -/
theorem append {known : List String} {first second : List ScriptLine}
    (block : Block known first) (next : Block (known ++ declaredNames first) second) :
    Block known (first ++ second) := by
  constructor
  · intro more includes
    rw [Scope.wellScoped_append, block.afterAll_eq]
    refine ⟨block.inScope more includes, next.inScope _ ?_⟩
    exact List.append_subset.2 ⟨List.Subset.trans includes (List.subset_append_left _ _),
      List.subset_append_right _ _⟩
  · intro more
    rw [Scope.afterAll, List.foldl_append, ← Scope.afterAll, ← Scope.afterAll, block.afterAll_eq]
    exact next.ends _

/-- A block stays one where more is known. -/
theorem mono {known more : List String} {lines : List ScriptLine} (block : Block known lines)
    (includes : known ⊆ more) : Block more lines :=
  ⟨fun further inFurther => block.inScope further (List.Subset.trans includes inFurther),
    block.ends⟩

/-- Blocks that need nothing of each other are one block. -/
theorem flatMap {α : Type} {known : List String} {build : α → List ScriptLine} {items : List α}
    (blocks : ∀ item ∈ items, Block known (build item)) : Block known (items.flatMap build) := by
  induction items with
  | nil => exact ⟨fun _ _ => trivial, fun _ => rfl⟩
  | cons item rest ih =>
    rw [List.flatMap_cons]
    have later := ih fun other member => blocks other (List.mem_cons_of_mem _ member)
    exact (blocks item List.mem_cons_self).append
      (later.mono (List.subset_append_left _ _))

/-- Lines that use only what is known before them are a block if the last ends a statement. -/
theorem of_used {known : List String} {lines : List ScriptLine} {last : ScriptLine}
    (ends : last.endsStatement)
    (used : ∀ line ∈ lines ++ [last], ∀ name ∈ line.used, name ∈ known) :
    Block known (lines ++ [last]) :=
  ⟨fun _ includes => Scope.wellScoped_of_used fun line member name isUsed =>
      includes (used line member name isUsed),
    fun more => Scope.pending_afterAll_concat ends ⟨more, []⟩ lines⟩

end Block

end PhysicsPrefab
