import PhysicsPrefab.Files.Tree

/-!
# Putting things into a tree

What is at each location after something was put somewhere: directories on the way to it hold the
changed rest (`get?_put_append`), the place itself holds what was put (`get?_put_self`), and
everything aside is as it was (`get?_put_of_aside`).
-/

namespace PhysicsPrefab.FileTree

/-- A location is reached through every location before it. -/
theorem get?_append (tree : FileTree) (outer inner : Location) :
    tree.get? (outer ++ inner) = (tree.get? outer).bind fun found => found.get? inner := by
  induction outer generalizing tree with
  | nil => simp [get?]
  | cons name rest ih =>
    cases tree with
    | file contents => rfl
    | directory entries =>
      simp only [List.cons_append, get?]
      cases child? entries name with
      | none => rfl
      | some held => exact ih held

/-- What is below something is in a directory. -/
theorem exists_of_get?_append {tree found : FileTree} {outer : Location} {name : String}
    {inner : Location} (isThere : tree.get? (outer ++ name :: inner) = some found) :
    ∃ entries, tree.get? outer = some (directory entries) := by
  rw [get?_append] at isThere
  cases held : tree.get? outer with
  | none => simp [held] at isThere
  | some sub =>
    cases sub with
    | file contents => simp [held, get?] at isThere
    | directory entries => exact ⟨entries, rfl⟩

/-- An entry of a directory is what is at the location of its name. -/
theorem child?_eq {tree : FileTree} {outer : Location} {entries : List (String × FileTree)}
    (isDirectory : tree.get? outer = some (directory entries)) (name : String) :
    child? entries name = tree.get? (outer ++ [name]) := by
  rw [get?_append, isDirectory]
  simp only [Option.bind_some, get?]
  cases child? entries name <;> rfl

/-- On the way to a changed place everything holds the change. -/
theorem get?_put_append {tree sub : FileTree} {outer inner : Location} (new : FileTree)
    (isThere : tree.get? outer = some sub) (proper : inner ≠ []) :
    (tree.put (outer ++ inner) new).get? outer = some (sub.put inner new) := by
  induction outer generalizing tree with
  | nil =>
    obtain rfl := Option.some.inj isThere
    rfl
  | cons name rest ih =>
    cases tree with
    | file contents => simp [get?] at isThere
    | directory entries =>
      simp only [get?] at isThere
      cases held : child? entries name with
      | none => simp [held] at isThere
      | some next =>
        rw [held] at isThere
        have nonempty : rest ++ inner ≠ [] := by simp [proper]
        obtain ⟨first, others, split⟩ := List.exists_cons_of_ne_nil nonempty
        rw [List.cons_append, split, put, held]
        simp only [get?, child?_putEntry_self]
        rw [← split]
        exact ih isThere

/-- A changed directory is one. -/
theorem exists_put_directory (entries : List (String × FileTree)) {inner : Location}
    (proper : inner ≠ []) (new : FileTree) :
    ∃ changed, (directory entries).put inner new = directory changed := by
  match inner with
  | [name] => exact ⟨_, rfl⟩
  | name :: next :: rest =>
    rw [put]
    split <;> exact ⟨_, rfl⟩

/-- Above a changed place there are directories, before the change and after it. -/
theorem exists_put_above {tree : FileTree} {outer other : Location} {name : String}
    {entries : List (String × FileTree)} (isDirectory : tree.get? outer = some (directory entries))
    (notBelow : ¬ outer ++ [name] <+: other) (above : other <+: outer ++ [name]) (new : FileTree) :
    ∃ inside changed, tree.get? other = some (directory inside) ∧
      (tree.put (outer ++ [name]) new).get? other = some (directory changed) := by
  have proper : other <+: outer := by
    rcases List.prefix_concat_iff.1 above with whole | before
    · exact absurd (whole ▸ List.prefix_rfl) notBelow
    · exact before
  obtain ⟨rest, rfl⟩ := proper
  obtain ⟨inside, isOther⟩ : ∃ inside, tree.get? other = some (directory inside) := by
    cases rest with
    | nil => exact ⟨entries, by rwa [List.append_nil] at isDirectory⟩
    | cons next more => exact exists_of_get?_append isDirectory
  obtain ⟨changed, isChanged⟩ := exists_put_directory inside (by simp : rest ++ [name] ≠ []) new
  refine ⟨inside, changed, isOther, ?_⟩
  rw [List.append_assoc, get?_put_append new isOther (by simp), isChanged]

/-- What was put into a directory is there. -/
theorem get?_put_self {tree : FileTree} {outer : Location} {entries : List (String × FileTree)}
    (isDirectory : tree.get? outer = some (directory entries)) (name : String) (new : FileTree) :
    (tree.put (outer ++ [name]) new).get? (outer ++ [name]) = some new := by
  rw [get?_append, get?_put_append new isDirectory (by simp)]
  simp [put, get?, child?_putEntry_self]

/-- What is aside from a changed place is as it was. -/
theorem get?_put_of_aside {tree : FileTree} {location other : Location} (new : FileTree)
    (notBelow : ¬ location <+: other) (notAbove : ¬ other <+: location) :
    (tree.put location new).get? other = tree.get? other := by
  induction location generalizing tree other with
  | nil => exact absurd List.nil_prefix notBelow
  | cons name rest ih =>
    cases other with
    | nil => exact absurd List.nil_prefix notAbove
    | cons first others =>
      cases tree with
      | file contents => cases rest <;> rfl
      | directory entries =>
        by_cases same : first = name
        · subst same
          rw [List.prefix_cons_inj] at notBelow notAbove
          cases rest with
          | nil => exact absurd List.nil_prefix notBelow
          | cons next more =>
            simp only [put]
            cases held : child? entries first with
            | none => rfl
            | some sub =>
              simp only [get?, child?_putEntry_self, held]
              exact ih notBelow notAbove
        · cases rest with
          | nil => simp only [put, get?, child?_putEntry_of_ne same]
          | cons next more =>
            simp only [put]
            cases held : child? entries name with
            | none => rfl
            | some sub => simp only [get?, child?_putEntry_of_ne same]

end PhysicsPrefab.FileTree
