import Mathlib.Order.Defs.Unbundled
import PhysicsPrefab.Proofs.Answers
import PhysicsPrefab.Proofs.Files.Tree

/-!
# Growing trees

Making directories and writing files takes nothing away: what was a file stays a file, what was
a directory stays a directory (`makeDirectories_grows`, `writeBytes_spec`), and a path that led
somewhere leads there still (`lookup_grows`). A file that was written is found under its path
(`writeBytes_spec`).
-/

namespace PhysicsPrefab.FileTree

/-- Whether what is at a location is a directory, if there is something. -/
def kind? (tree : FileTree) (location : Location) : Option Bool :=
  (tree.get? location).map isDirectory

/-- Everything that is there stays there, files as files and directories as directories. -/
def Grows (before after : FileTree) : Prop :=
  ∀ location kind, before.kind? location = some kind → after.kind? location = some kind

instance : IsPreorder FileTree Grows where
  refl _ _ _ isThere := isThere
  trans _ _ _ first second location kind isThere :=
    second location kind (first location kind isThere)

/-- A directory stays a directory. -/
theorem Grows.directory {before after : FileTree} (grows : Grows before after)
    {location : Location} {entries : List (String × FileTree)}
    (isDirectory : before.get? location = some (.directory entries)) :
    ∃ others, after.get? location = some (.directory others) := by
  have kind := grows location true (by rw [kind?, isDirectory]; rfl)
  simp only [kind?, Option.map_eq_some_iff] at kind
  obtain ⟨found, isThere, same⟩ := kind
  cases found with
  | file contents => contradiction
  | directory others => exact ⟨others, isThere⟩

/-- A tree grows when something is put into a directory of it, at a free place or as a file in
the place of a file. -/
theorem put_grows {tree : FileTree} {outer : Location} {entries : List (String × FileTree)}
    {name : String} {new : FileTree} (isDirectory : tree.get? outer = some (directory entries))
    (fits : ∀ kind, tree.kind? (outer ++ [name]) = some kind →
      kind = false ∧ new.isDirectory = false) :
    Grows tree (tree.put (outer ++ [name]) new) := by
  intro other kind isThere
  by_cases below : outer ++ [name] <+: other
  · obtain ⟨inner, rfl⟩ := below
    cases inner with
    | nil =>
      rw [List.append_nil] at isThere ⊢
      obtain ⟨rfl, isFile⟩ := fits kind isThere
      rw [kind?, get?_put_self isDirectory, Option.map_some, isFile]
    | cons next rest =>
      obtain ⟨found, held, -⟩ := Option.map_eq_some_iff.1 isThere
      obtain ⟨inside, isOuter⟩ := exists_of_get?_append held
      have impossible := (fits true (by rw [kind?, isOuter]; rfl)).1
      contradiction
  · by_cases above : other <+: outer ++ [name]
    · obtain ⟨inside, changed, isOther, isChanged⟩ := exists_put_above isDirectory below above new
      rw [kind?, isOther] at isThere
      rw [kind?, isChanged]
      exact isThere
    · rwa [kind?, get?_put_of_aside new below above]

/-- Follow one part of a path. -/
def step (tree : FileTree) (location : Location) (piece : List Char) :
    Except StorageFault Location :=
  match tree.get? location with
  | none => .error .missing
  | some (file _) => .error .notADirectory
  | some (directory entries) =>
    match piece with
    | [] | ['.'] => .ok location
    | ['.', '.'] => .ok location.dropLast
    | _ =>
      if !isName piece then .error .badName
      else
        match child? entries (String.ofList piece) with
        | none => .error .missing
        | some _ => .ok (location ++ [String.ofList piece])

/-- A path is followed part by part. -/
theorem follow_cons (tree : FileTree) (location : Location) (piece : List Char)
    (rest : List (List Char)) :
    tree.follow location (piece :: rest) =
      (tree.step location piece).bind fun next => tree.follow next rest := by
  rw [follow, step]
  cases tree.get? location with
  | none => rfl
  | some found =>
    cases found with
    | file contents => rfl
    | directory entries =>
      dsimp only
      split
      · rfl
      · rfl
      · rfl
      · cases isName piece with
        | false => simp [Except.bind]
        | true => cases child? entries (String.ofList piece) <;> simp [Except.bind]

/-- Two parts of a path are followed one after the other. -/
theorem follow_append (tree : FileTree) (location : Location) (first second : List (List Char)) :
    tree.follow location (first ++ second) =
      (tree.follow location first).bind fun middle => tree.follow middle second := by
  induction first generalizing location with
  | nil => rfl
  | cons piece rest ih =>
    rw [List.cons_append, follow_cons, follow_cons]
    cases tree.step location piece with
    | error fault => rfl
    | ok next => exact ih next

/-- A name leads to the entry of that name. -/
theorem step_name {tree : FileTree} {location : Location} {entries : List (String × FileTree)}
    (isDirectory : tree.get? location = some (directory entries)) {piece : List Char}
    (nonempty : piece ≠ []) (noDot : piece ≠ ['.']) (noDots : piece ≠ ['.', '.'])
    (fits : isName piece) {found : FileTree}
    (isThere : tree.get? (location ++ [String.ofList piece]) = some found) :
    tree.step location piece = .ok (location ++ [String.ofList piece]) := by
  rw [step, isDirectory]
  dsimp only
  split
  · contradiction
  · contradiction
  · contradiction
  · rw [child?_eq isDirectory, isThere, fits]
    rfl

/-- One part that leads somewhere leads there still when the tree grows. -/
theorem step_grows {before after : FileTree} (grows : Grows before after) {location next : Location}
    {piece : List Char} (leads : before.step location piece = .ok next) :
    after.step location piece = .ok next := by
  unfold step at leads ⊢
  cases isThere : before.get? location with
  | none => simp [isThere] at leads
  | some held =>
    cases held with
    | file contents => simp [isThere] at leads
    | directory entries =>
      obtain ⟨others, stays⟩ := grows.directory isThere
      rw [isThere] at leads
      rw [stays]
      dsimp only at leads ⊢
      split at leads
      · exact leads
      · exact leads
      · exact leads
      · split at leads
        · contradiction
        · rename_i fits
          rw [if_neg fits]
          cases child : child? entries (String.ofList piece) with
          | none => simp [child] at leads
          | some sub =>
            have kind := grows _ _
              (show before.kind? (location ++ [String.ofList piece]) = some sub.isDirectory by
                rw [kind?, ← child?_eq isThere, child]; rfl)
            obtain ⟨new, isNew, -⟩ := Option.map_eq_some_iff.1 kind
            rw [child] at leads
            rw [child?_eq stays, isNew]
            exact leads

/-- A path that leads somewhere leads there still when the tree grows. -/
theorem follow_grows {before after : FileTree} (grows : Grows before after)
    {pieces : List (List Char)} {location found : Location}
    (leads : before.follow location pieces = .ok found) :
    after.follow location pieces = .ok found := by
  induction pieces generalizing location with
  | nil => exact leads
  | cons piece rest ih =>
    rw [follow_cons] at leads ⊢
    cases next : before.step location piece with
    | error fault => simp [next, Except.bind] at leads
    | ok middle =>
      rw [next] at leads
      rw [step_grows grows next]
      exact ih leads

/-- What a path leads to is at its location, and the path is a good one. -/
theorem lookup_eq_ok {tree found : FileTree} {current location : Location} {path : Path} :
    tree.lookup current path = .ok (location, found) ↔
      checkPath path = .ok () ∧
        tree.follow (startOf current path).1 (startOf current path).2 = .ok location ∧
        tree.get? location = some found := by
  simp only [lookup, resolve]
  cases checkPath path with
  | error fault => simp [bind, Except.bind]
  | ok _ =>
    cases leads : tree.follow (startOf current path).1 (startOf current path).2 with
    | error fault => simp [bind, Except.bind]
    | ok place =>
      cases held : tree.get? place with
      | none =>
        simp only [bind, Except.bind, held, throw, throwThe, MonadExceptOf.throw]
        constructor
        · intro impossible
          contradiction
        · rintro ⟨-, same, isThere⟩
          obtain rfl := Except.ok.inj same
          rw [held] at isThere
          contradiction
      | some there =>
        simp only [bind, Except.bind, held, pure, Except.pure, Except.ok.injEq,
          Prod.mk.injEq]
        constructor
        · rintro ⟨rfl, rfl⟩
          exact ⟨trivial, rfl, held⟩
        · rintro ⟨-, rfl, isThere⟩
          exact ⟨rfl, Option.some.inj (held.symm.trans isThere)⟩

/-- What a path leads to stays there and of its kind when the tree grows. -/
theorem lookup_grows {before after found : FileTree} (grows : Grows before after)
    {current location : Location} {path : Path}
    (isThere : before.lookup current path = .ok (location, found)) :
    ∃ other, after.lookup current path = .ok (location, other) ∧
      other.isDirectory = found.isDirectory := by
  obtain ⟨good, leads, held⟩ := lookup_eq_ok.1 isThere
  have kind := grows location found.isDirectory (by rw [kind?, held]; rfl)
  obtain ⟨other, isOther, sameKind⟩ := Option.map_eq_some_iff.1 kind
  exact ⟨other, lookup_eq_ok.2 ⟨good, follow_grows grows leads, isOther⟩, sameKind⟩

/-- A file is found as long as the tree grows. -/
theorem isFileAt_grows {before after : FileTree} (grows : Grows before after)
    {current : Location} {path : Path} (isFile : before.isFileAt current path) :
    after.isFileAt current path := by
  unfold isFileAt at isFile ⊢
  cases isThere : before.lookup current path with
  | error fault => simp [isThere] at isFile
  | ok entry =>
    obtain ⟨other, stays, sameKind⟩ := lookup_grows grows isThere
    rw [isThere] at isFile
    rw [stays]
    simpa [sameKind] using isFile

/-- Where something new goes: below a directory that the path leads to without its last name. -/
structure IsNewPlace (tree : FileTree) (current : Location) (path : Path) (slash : Bool)
    (location : Location) (outer : List (List Char)) (last : List Char) (directory : Location)
    (entries : List (String × FileTree)) : Prop where
  /-- The path is a good one. -/
  good : checkPath path = .ok ()
  /-- Its last name comes after the others, and after it come slashes at most. -/
  split : (startOf current path).2.reverse.dropWhile List.isEmpty = last :: outer
  /-- The others lead to the directory. -/
  leads : tree.follow (startOf current path).1 outer.reverse = .ok directory
  /-- The directory is there. -/
  isDirectory : tree.get? directory = some (.directory entries)
  /-- The last name is not a dot. -/
  noDot : last ≠ ['.']
  /-- It is not two dots. -/
  noDots : last ≠ ['.', '.']
  /-- It can be the name of a file. -/
  fits : isName last
  /-- No slash comes after it where none may. -/
  noSlash : slash = false → (startOf current path).2.getLast? ≠ some []
  /-- The location is that of the last name in the directory. -/
  location_eq : location = directory ++ [String.ofList last]

/-- The place for something new is one. -/
theorem newPlace_spec {tree : FileTree} {current location : Location} {path : Path} {slash : Bool}
    (placed : tree.newPlace current path slash = .ok location) :
    ∃ outer last directory entries,
      IsNewPlace tree current path slash location outer last directory entries := by
  simp only [newPlace] at placed
  cases good : checkPath path with
  | error fault => simp [good, bind, Except.bind] at placed
  | ok _ =>
    simp only [good, bind, Except.bind] at placed
    split at placed
    · contradiction
    · rename_i last outer split
      split at placed
      · contradiction
      · rename_i directory leads
        split at placed
        · contradiction
        · contradiction
        · rename_i entries isDirectory
          split at placed
          · contradiction
          · rename_i noDots
            split at placed
            · contradiction
            · rename_i fits
              split at placed
              · contradiction
              · rename_i noSlash
                refine ⟨outer, last, directory, entries, good, split, leads, isDirectory, ?_, ?_,
                  by simpa using fits, ?_, (Except.ok.inj placed).symm⟩
                · rintro rfl
                  simp at noDots
                · rintro rfl
                  simp at noDots
                · rintro rfl isSlash
                  simp [isSlash] at noSlash

namespace IsNewPlace

variable {tree new : FileTree} {current location directory : Location} {path : Path} {slash : Bool}
  {outer : List (List Char)} {last : List Char} {entries : List (String × FileTree)}

/-- A tree grows when something is put into a new place, unless it replaces what is no file. -/
theorem put_grows (place : IsNewPlace tree current path slash location outer last directory entries)
    (fits : ∀ kind, tree.kind? location = some kind → kind = false ∧ new.isDirectory = false) :
    Grows tree (tree.put location new) := by
  obtain rfl := place.location_eq
  exact FileTree.put_grows place.isDirectory fits

/-- The last name of the path is not empty. -/
theorem nonempty
    (place : IsNewPlace tree current path slash location outer last directory entries) :
    last ≠ [] := by
  rintro rfl
  have head := List.head?_dropWhile_not List.isEmpty (startOf current path).2.reverse
  simp [place.split] at head

/-- Where no slash may come last, the path has no other parts. -/
theorem pieces_eq
    (place : IsNewPlace tree current path false location outer last directory entries) :
    (startOf current path).2 = outer.reverse ++ [last] := by
  have split := place.split
  have noSlash := place.noSlash rfl
  rw [← List.head?_reverse] at noSlash
  rw [← List.reverse_eq_cons_iff]
  cases pieces : (startOf current path).2.reverse with
  | nil => simp [pieces] at split
  | cons first rest =>
    have nonempty : ¬ first.isEmpty := by
      rintro isEmpty
      rw [pieces, List.head?_cons, List.isEmpty_iff.1 isEmpty] at noSlash
      contradiction
    rwa [pieces, List.dropWhile_cons_of_neg nonempty] at split

/-- What was put into a new place is found under the path, if no slash comes after its name. -/
theorem lookup_put
    (place : IsNewPlace tree current path false location outer last directory entries)
    (fits : ∀ kind, tree.kind? location = some kind → kind = false ∧ new.isDirectory = false) :
    (tree.put location new).lookup current path = .ok (location, new) := by
  have grows := place.put_grows fits
  obtain rfl := place.location_eq
  obtain ⟨others, stays⟩ := grows.directory place.isDirectory
  have isNew := get?_put_self place.isDirectory (String.ofList last) new
  refine lookup_eq_ok.2 ⟨place.good, ?_, isNew⟩
  rw [place.pieces_eq, follow_append, follow_grows grows place.leads]
  change (tree.put (directory ++ [String.ofList last]) new).follow directory [last] = _
  rw [follow_cons, step_name stays place.nonempty place.noDot place.noDots place.fits isNew]
  rfl

end IsNewPlace

section Operations

variable {before after : FileTree} {current : Location} {path : Path} {contents : ByteArray}

/-- A directory is made in a new place where there is nothing. -/
theorem makeDirectory_eq_ok :
    before.makeDirectory current path = .ok after ↔
      ∃ location, before.newPlace current path true = .ok location ∧
        before.get? location = none ∧ before.put location (directory []) = after := by
  refine Answer.bind_eq_ok.trans (exists_congr fun location => and_congr_right fun _ => ?_)
  cases before.get? location with
  | none => simp [pure, Except.pure]
  | some found => simp [throw, throwThe, MonadExceptOf.throw]

/-- A file is written in a new place where there is no directory. -/
theorem writeBytes_eq_ok :
    before.writeBytes current path contents = .ok after ↔
      ∃ location, before.newPlace current path false = .ok location ∧
        before.kind? location ≠ some true ∧ before.put location (file contents) = after := by
  refine Answer.bind_eq_ok.trans (exists_congr fun location => and_congr_right fun _ => ?_)
  rw [kind?]
  cases before.get? location with
  | none => simp [pure, Except.pure]
  | some found => cases found <;>
      simp [isDirectory, pure, Except.pure, throw, throwThe, MonadExceptOf.throw]

/-- A tree grows by a directory that is made. -/
theorem makeDirectory_grows (made : before.makeDirectory current path = .ok after) :
    Grows before after := by
  obtain ⟨location, placed, free, rfl⟩ := makeDirectory_eq_ok.1 made
  obtain ⟨outer, last, directory, entries, place⟩ := newPlace_spec placed
  exact place.put_grows fun kind isThere => by simp [kind?, free] at isThere

/-- What is kept by every directory that is made is kept when all directories of a path are made,
also when not all of them can be made. -/
theorem makeDirectories_keeps (kept : FileTree → FileTree → Prop) [IsPreorder FileTree kept]
    (each : ∀ {before after : FileTree} {path : Path},
      before.makeDirectory current path = .ok after → kept before after)
    (steps : Nat) (tree : FileTree) (path : Path) :
    kept tree (makeDirectories current steps tree path).1 := by
  induction steps generalizing tree path with
  | zero => exact refl_of kept tree
  | succ steps ih =>
    unfold makeDirectories
    split
    · exact refl_of kept tree
    · split
      · rename_i made
        exact each made
      · split
        · exact refl_of kept tree
        · rename_i outer _
          have above := ih tree outer
          revert above
          cases makeDirectories current steps tree outer with
          | mk grown result =>
            intro above
            cases result with
            | error fault => exact above
            | ok _ =>
              dsimp only
              split
              · rename_i made
                exact trans_of kept above (each made)
              · split <;> exact above
      · split <;> exact refl_of kept tree

/-- A tree grows by directories that are made, also when not all of them can be made. -/
theorem makeDirectories_grows (current : Location) (steps : Nat) (tree : FileTree) (path : Path) :
    Grows tree (makeDirectories current steps tree path).1 :=
  makeDirectories_keeps Grows makeDirectory_grows steps tree path

/-- A tree grows by a file that is written, and the file is found under its path. -/
theorem writeBytes_spec (written : before.writeBytes current path contents = .ok after) :
    Grows before after ∧ ∃ location, after.lookup current path = .ok (location, file contents) := by
  obtain ⟨location, placed, noDirectory, rfl⟩ := writeBytes_eq_ok.1 written
  obtain ⟨outer, last, directory, entries, place⟩ := newPlace_spec placed
  have fits : ∀ kind, before.kind? location = some kind →
      kind = false ∧ (file contents).isDirectory = false := by
    intro kind isThere
    rw [isThere, Ne, Option.some.injEq, Bool.not_eq_true] at noDirectory
    exact ⟨noDirectory, rfl⟩
  exact ⟨place.put_grows fits, location, place.lookup_put fits⟩

end Operations

end PhysicsPrefab.FileTree
