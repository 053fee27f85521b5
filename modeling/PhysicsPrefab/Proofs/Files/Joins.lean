import Mathlib.Data.List.Induction
import PhysicsPrefab.Files.Tree

/-!
# Joined paths

A plain name joined to a path is one more part after the parts of the path (`exists_pieces_join`).
So it is one more component (`components_join`), and the path is what stands above it
(`parent?_join_join`). The same holds for several names one after the other
(`components_pathBelow`).
-/

namespace PhysicsPrefab

/-- A name that an entry of a directory can have: it is not empty, holds no slash and is none of
the names that stand for directories. -/
structure IsPlainName (name : String) : Prop where
  /-- It is not empty. -/
  nonempty : name.toList ≠ []
  /-- It is not a dot. -/
  noDot : name.toList ≠ ['.']
  /-- It is not two dots. -/
  noDots : name.toList ≠ ['.', '.']
  /-- It holds no slash. -/
  noSlash : '/' ∉ name.toList

instance (name : String) : Decidable (IsPlainName name) :=
  decidable_of_iff (name.toList ≠ [] ∧ name.toList ≠ ['.'] ∧ name.toList ≠ ['.', '.'] ∧
      '/' ∉ name.toList)
    ⟨fun ⟨nonempty, noDot, noDots, noSlash⟩ => ⟨nonempty, noDot, noDots, noSlash⟩,
      fun plain => ⟨plain.nonempty, plain.noDot, plain.noDots, plain.noSlash⟩⟩

namespace IsPlainName

variable {name : String}

/-- A plain name is the only part of itself. -/
theorem pieces_eq (plain : IsPlainName name) : Path.pieces name.toList = [name.toList] :=
  Path.pieces_of_not_mem plain.noSlash

/-- A plain name does not start at the root. -/
theorem isRelative (plain : IsPlainName name) : (Path.mk name).isAbsolute = false := by
  rw [Path.isAbsolute, decide_eq_false_iff_not]
  exact fun isSlash => plain.noSlash (List.mem_of_head? isSlash)

/-- A plain name means something behind other parts. -/
theorem isFiller_eq (plain : IsPlainName name) : Path.isFiller name.toList = false := by
  simp [Path.isFiller, plain.nonempty, plain.noDot]

/-- The component of a plain name is the name. -/
theorem innerComponent?_eq (plain : IsPlainName name) :
    Path.innerComponent? name.toList = some (.name name) := by
  rw [Path.innerComponent?, String.ofList_toList]
  · exact plain.nonempty
  · exact plain.noDot
  · exact plain.noDots

end IsPlainName

namespace Path

/-- A slash separates the parts before it from those after it. -/
theorem pieces_append (left right : List Char) :
    pieces (left ++ '/' :: right) = pieces left ++ pieces right := by
  induction left with
  | nil => rfl
  | cons character rest ih =>
    rw [List.cons_append, pieces, pieces, ih]
    split
    · rfl
    · cases parts : pieces rest with
      | nil => exact absurd parts (pieces_ne_nil rest)
      | cons first others => rfl

/-- A plain name is joined to a path by a slash, unless the path is empty; a slash at the end of
the path serves for it. -/
theorem text_join (directory : Path) {name : String} (plain : IsPlainName name) :
    (directory.text.toList = [] ∧ (directory.join ⟨name⟩).text.toList = name.toList) ∨
      ∃ front, (directory.text.toList = front ++ ['/'] ∨
          front ≠ [] ∧ directory.text.toList = front) ∧
        (directory.join ⟨name⟩).text.toList = front ++ '/' :: name.toList := by
  rw [join, plain.isRelative, if_neg Bool.false_ne_true]
  cases last : directory.text.toList.getLast? with
  | none => exact .inl ⟨List.getLast?_eq_none_iff.1 last, rfl⟩
  | some character =>
    obtain ⟨front, text⟩ := List.getLast?_eq_some_iff.1 last
    by_cases isSlash : character = '/'
    · subst isSlash
      exact .inr ⟨front, .inl text, by simp [text]⟩
    · refine .inr ⟨directory.text.toList, .inr ⟨by simp [text], rfl⟩, ?_⟩
      split
      · contradiction
      · exact absurd (Option.some.inj ‹_›) isSlash
      · simp

/-- A path that a plain name is joined to starts with the path. -/
theorem prefix_join (directory : Path) {name : String} (plain : IsPlainName name) :
    directory.text.toList <+: (directory.join ⟨name⟩).text.toList := by
  rcases text_join directory plain with ⟨isEmpty, -⟩ | ⟨front, text, joined⟩
  · rw [isEmpty]
    exact List.nil_prefix
  · rw [joined]
    rcases text with text | ⟨-, text⟩ <;> rw [text]
    · exact (List.prefix_append_right_inj front).2 ((List.prefix_cons_inj '/').2 List.nil_prefix)
    · exact List.prefix_append front _

/-- A path has some parts, and perhaps an empty one behind them. -/
def HasParts (path : Path) (parts : List (List Char)) : Prop :=
  pieces path.text.toList = parts ∨ pieces path.text.toList = parts ++ [[]]

/-- A plain name that is joined to a path is its last part; an empty part at the end of the path
is lost in it. -/
theorem exists_pieces_join (directory : Path) {name : String} (plain : IsPlainName name) :
    ∃ base, pieces (directory.join ⟨name⟩).text.toList = base ++ [name.toList] ∧
      directory.HasParts base := by
  rcases text_join directory plain with ⟨isEmpty, joined⟩ | ⟨front, text, joined⟩
  · exact ⟨[], joined ▸ plain.pieces_eq, .inr (by rw [isEmpty]; rfl)⟩
  · refine ⟨pieces front, ?_, ?_⟩
    · rw [joined, pieces_append, plain.pieces_eq]
    · rcases text with text | ⟨-, text⟩
      · exact .inr (text ▸ pieces_append front [])
      · exact .inl (congrArg pieces text)

/-- A path that a plain name is joined to starts where it started before. -/
theorem isAbsolute_join (directory : Path) {name : String} (plain : IsPlainName name) :
    (directory.join ⟨name⟩).isAbsolute = directory.isAbsolute := by
  have relative := plain.isRelative
  rw [isAbsolute] at relative
  rw [isAbsolute, isAbsolute]
  rcases text_join directory plain with ⟨isEmpty, joined⟩ | ⟨front, text, joined⟩
  · rw [joined, isEmpty, relative]
    rfl
  · rw [joined]
    rcases text with text | ⟨nonempty, text⟩
    · rw [text]
      cases front <;> rfl
    · rw [text]
      cases front with
      | nil => contradiction
      | cons first rest => rfl

/-- A name is joined to what follows a slash as it is joined to it alone. -/
theorem join_append {front : String} (slash : front.toList.getLast? = some '/')
    (directory : Path) {name : String} (plain : IsPlainName name) :
    (Path.mk (front ++ directory.text)).join ⟨name⟩ = ⟨front ++ (directory.join ⟨name⟩).text⟩ := by
  rw [join, join, plain.isRelative, if_neg Bool.false_ne_true, if_neg Bool.false_ne_true,
    String.toList_append, List.getLast?_append]
  cases last : directory.text.toList.getLast? with
  | none =>
    rw [List.getLast?_eq_none_iff, String.toList_eq_nil_iff] at last
    simp [slash, last]
  | some character =>
    rw [Option.some_or]
    split <;> simp_all [String.append_assoc]

/-- All relative paths are joined to a path behind one text, which is empty or ends in a slash. -/
theorem exists_join_eq (root : Path) :
    ∃ front : String, (front = "" ∨ front.toList.getLast? = some '/') ∧
      ∀ path : Path, path.isAbsolute = false → root.join path = ⟨front ++ path.text⟩ := by
  cases last : root.text.toList.getLast? with
  | none => exact ⟨"", .inl rfl, fun path relative => by simp [join, relative, last]⟩
  | some character =>
    by_cases isSlash : character = '/'
    · subst isSlash
      exact ⟨root.text, .inr last, fun path relative => by simp [join, relative, last]⟩
    · refine ⟨root.text ++ "/", .inr (by simp), fun path relative => ?_⟩
      rw [join, relative, last]
      split <;> simp_all

/-- Names can be joined one after the other or at once. -/
theorem join_join (root directory : Path) {name : String} (plain : IsPlainName name) :
    (root.join directory).join ⟨name⟩ = root.join (directory.join ⟨name⟩) := by
  have same := isAbsolute_join directory plain
  cases absolute : directory.isAbsolute with
  | true =>
    have whole : ∀ path : Path, path.isAbsolute = true → root.join path = path :=
      fun path isAbsolute => if_pos isAbsolute
    rw [whole directory absolute, whole _ (same.trans absolute)]
  | false =>
    obtain ⟨front, kind, joined⟩ := exists_join_eq root
    rw [joined directory absolute, joined _ (same.trans absolute)]
    rcases kind with rfl | slash
    · simp
    · exact join_append slash directory plain

/-- A path starts at the root if its first part is empty and not the only one. -/
theorem isAbsolute_iff {path : Path} :
    path.isAbsolute = true ↔
      ∃ second others, pieces path.text.toList = [] :: second :: others := by
  rw [isAbsolute, decide_eq_true_iff]
  cases path.text.toList with
  | nil => simp [pieces]
  | cons character rest =>
    rw [pieces]
    split
    · rename_i isSlash
      obtain ⟨second, others, parts⟩ := List.exists_cons_of_ne_nil (pieces_ne_nil rest)
      simp [isSlash, parts]
    · rename_i plain
      split <;> simp [plain]

/-- A path without components is empty. -/
theorem components_eq_nil {path : Path} : path.components = [] ↔ path.text = "" := by
  obtain ⟨text⟩ := path
  constructor
  · intro none
    cases parts : pieces text.toList with
    | nil => exact absurd parts (pieces_ne_nil _)
    | cons first others =>
      rw [components, parts] at none
      cases absolute : (Path.mk text).isAbsolute with
      | true => simp [absolute] at none
      | false =>
        have relative : first = [] → others = [] := by
          rintro rfl
          cases others with
          | nil => rfl
          | cons second more =>
            rw [isAbsolute_iff.2 ⟨second, more, parts⟩] at absolute
            contradiction
        have first_eq : first = [] := by
          by_cases dot : first = ['.']
          · simp [absolute, dot] at none
          · simp only [absolute, Bool.false_eq_true, dot, ↓reduceIte, List.append_eq_nil_iff,
              Option.toList_eq_nil_iff] at none
            have nothing := none.1
            unfold innerComponent? at nothing
            split at nothing
            · rfl
            · contradiction
            · contradiction
            · contradiction
        have whole := joinPieces_pieces text.toList
        rw [parts, first_eq, relative first_eq] at whole
        exact String.toList_eq_nil_iff.1 whole.symm
  · rintro rfl
    rfl

/-- A plain name that is joined to a path is its last component. -/
theorem components_join (directory : Path) {name : String} (plain : IsPlainName name) :
    (directory.join ⟨name⟩).components = directory.components ++ [.name name] := by
  obtain ⟨base, joined, whole⟩ := exists_pieces_join directory plain
  rw [components, components, joined, isAbsolute_join directory plain]
  cases base with
  | nil =>
    rcases whole with whole | whole
    · exact absurd whole (pieces_ne_nil _)
    · have relative : directory.isAbsolute = false := by
        rw [← Bool.not_eq_true, isAbsolute_iff, whole]
        simp
      rw [whole, relative]
      have lost : innerComponent? [] = none := rfl
      simp [plain.noDot, plain.innerComponent?_eq, lost]
  | cons first others =>
    have lost : innerComponent? [] = none := rfl
    rcases whole with whole | whole <;> rw [whole] <;>
      simp only [List.cons_append, List.filterMap_append, List.filterMap_cons, List.filterMap_nil,
        plain.innerComponent?_eq, lost, List.append_nil] <;>
      split <;> (try split) <;> simp

/-- A first part that others follow is there also without the last of them. -/
theorem exists_cons_of_isAbsolute {base : List (List Char)} {last : List Char}
    (absolute : ∃ second others, base ++ [last] = [] :: second :: others) :
    ∃ rest, base = [] :: rest := by
  obtain ⟨second, others, split⟩ := absolute
  cases base with
  | nil => simp at split
  | cons first rest => exact ⟨rest, by rw [(List.cons.inj split).1]⟩

/-- Nothing is dropped before a part that means something. -/
theorem dropFillers_cons {piece : List Char} (meant : isFiller piece = false)
    (rest : List (List Char)) : dropFillers (piece :: rest) = piece :: rest := by
  have nonempty : piece.isEmpty = false := by
    rw [isFiller, Bool.or_eq_false_iff] at meant
    exact meant.1
  cases rest with
  | nil => simp [dropFillers, nonempty]
  | cons second others => simp [dropFillers, meant]

/-- Only parts that mean nothing are dropped. -/
theorem exists_dropFillers (parts : List (List Char)) :
    ∃ fillers, parts = fillers ++ dropFillers parts ∧ ∀ piece ∈ fillers, isFiller piece := by
  fun_induction dropFillers parts with
  | case1 => exact ⟨[], rfl, nofun⟩
  | case2 piece isEmpty => exact ⟨[piece], rfl, by simp [isFiller, List.isEmpty_iff.1 isEmpty]⟩
  | case3 => exact ⟨[], rfl, nofun⟩
  | case4 piece rest _ isFiller ih =>
    obtain ⟨fillers, split, fill⟩ := ih
    exact ⟨piece :: fillers, congrArg (piece :: ·) split, List.forall_mem_cons.2 ⟨isFiller, fill⟩⟩
  | case5 => exact ⟨[], rfl, nofun⟩

/-- Parts of a path that are put together are the parts of what comes of it. -/
theorem hasParts_joinPieces {parts : List (List Char)} (plain : ∀ piece ∈ parts, '/' ∉ piece) :
    (Path.mk (String.ofList (joinPieces parts))).HasParts parts := by
  rw [HasParts, String.toList_ofList]
  cases parts with
  | nil => exact .inr rfl
  | cons first others => exact .inl (pieces_joinPieces (List.cons_ne_nil _ _) plain)

/-- With a slash in front they are the parts of an absolute path. -/
theorem hasParts_slash {parts : List (List Char)} (plain : ∀ piece ∈ parts, '/' ∉ piece) :
    (Path.mk (String.ofList ('/' :: joinPieces parts))).HasParts ([] :: parts) := by
  have below := hasParts_joinPieces plain
  rw [HasParts, String.toList_ofList] at below ⊢
  exact below.imp (congrArg ([] :: ·)) (congrArg ([] :: ·))

/-- A path is absolute if it has more parts than an absolute path. -/
theorem isAbsolute_of_hasParts {outer path : Path} {kept more : List (List Char)}
    (has : outer.HasParts kept) (split : pieces path.text.toList = kept ++ more)
    (proper : more ≠ []) (absolute : outer.isAbsolute = true) : path.isAbsolute = true := by
  rw [isAbsolute_iff] at absolute ⊢
  obtain ⟨second, others, starts⟩ := absolute
  rw [HasParts, starts] at has
  obtain ⟨rest, rfl⟩ : ∃ rest, kept = [] :: rest := by
    rcases has with same | same
    · exact ⟨_, same.symm⟩
    · exact exists_cons_of_isAbsolute ⟨second, others, same.symm⟩
  obtain ⟨next, further, after⟩ := List.exists_cons_of_ne_nil
    (List.append_ne_nil_of_right_ne_nil rest proper)
  exact ⟨next, further, by rw [split, List.cons_append, after]⟩

/-- Behind a part that others follow comes a slash. -/
theorem joinPieces_cons_cons (first second : List Char) (others : List (List Char)) :
    joinPieces (first :: second :: others) = first ++ '/' :: joinPieces (second :: others) := rfl

/-- Parts are put together with a slash between the first and the others. -/
theorem joinPieces_append {left right : List (List Char)} (leftProper : left ≠ [])
    (rightProper : right ≠ []) :
    joinPieces (left ++ right) = joinPieces left ++ '/' :: joinPieces right := by
  induction left with
  | nil => contradiction
  | cons first others ih =>
    cases others with
    | nil =>
      obtain ⟨next, more, rfl⟩ := List.exists_cons_of_ne_nil rightProper
      rfl
    | cons second more =>
      have rest := ih (List.cons_ne_nil second more)
      rw [List.cons_append] at rest
      rw [List.cons_append, List.cons_append, joinPieces_cons_cons, rest, joinPieces_cons_cons,
        List.append_assoc, List.cons_append]

/-- A path with some parts starts every path that has these and more. -/
theorem text_prefix_of_hasParts {outer path : Path} {kept more : List (List Char)}
    (has : outer.HasParts kept) (split : pieces path.text.toList = kept ++ more)
    (proper : more ≠ []) : outer.text.toList <+: path.text.toList := by
  rw [← joinPieces_pieces path.text.toList, ← joinPieces_pieces outer.text.toList, split]
  cases kept with
  | nil =>
    rcases has with whole | whole
    · exact absurd whole (pieces_ne_nil _)
    · rw [whole]
      exact List.nil_prefix
  | cons first others =>
    rw [joinPieces_append (List.cons_ne_nil first others) proper]
    rcases has with whole | whole
    · rw [whole]
      exact List.prefix_append _ _
    · rw [whole, joinPieces_append (List.cons_ne_nil first others) (List.cons_ne_nil [] [])]
      exact (List.prefix_append_right_inj _).2 ((List.prefix_cons_inj '/').2 List.nil_prefix)

/-- Above a name that is joined to a path stands the path, without what means nothing at its
end. -/
theorem exists_parent?_join {directory : Path} {name : String} (plain : IsPlainName name)
    {base : List (List Char)}
    (joined : pieces (directory.join ⟨name⟩).text.toList = base ++ [name.toList]) :
    ∃ outer kept fillers, (directory.join ⟨name⟩).parent? = some outer ∧
      outer.isAbsolute = directory.isAbsolute ∧ base = kept ++ fillers ∧ outer.HasParts kept ∧
      ∀ piece ∈ fillers, isFiller piece := by
  have noSlash : ∀ piece ∈ base, '/' ∉ piece := fun piece member =>
    slash_not_mem_of_mem_pieces (joined ▸ List.mem_append_left _ member)
  rw [parent?, joined, isAbsolute_join directory plain]
  cases absolute : directory.isAbsolute with
  | true =>
    rw [← isAbsolute_join directory plain, isAbsolute_iff, joined] at absolute
    obtain ⟨rest, rfl⟩ := exists_cons_of_isAbsolute absolute
    let trimmed := rest.reverse.dropWhile isFiller
    have whole := List.takeWhile_append_dropWhile (p := isFiller) (l := rest.reverse)
    have parts : (Path.mk (String.ofList ('/' :: joinPieces trimmed.reverse))).HasParts
        ([] :: trimmed.reverse) :=
      hasParts_slash fun piece member => noSlash piece (List.mem_cons_of_mem _
        (List.mem_reverse.1 ((List.dropWhile_sublist _).subset (List.mem_reverse.1 member))))
    refine ⟨⟨String.ofList ('/' :: joinPieces trimmed.reverse)⟩, [] :: trimmed.reverse,
      (rest.reverse.takeWhile isFiller).reverse, ?_, ?_, ?_, parts, ?_⟩
    · simp [plain.isFiller_eq, trimmed]
    · simp [isAbsolute]
    · rw [List.cons_append, ← List.reverse_append, whole, List.reverse_reverse]
    · intro piece member
      exact List.all_eq_true.1 List.all_takeWhile piece (List.mem_reverse.1 member)
  | false =>
    obtain ⟨fillers, whole, fill⟩ := exists_dropFillers base.reverse
    have split : base = (dropFillers base.reverse).reverse ++ fillers.reverse := by
      rw [← List.reverse_append, ← whole, List.reverse_reverse]
    have parts : (Path.mk (String.ofList (joinPieces (dropFillers base.reverse).reverse))).HasParts
        (dropFillers base.reverse).reverse :=
      hasParts_joinPieces fun piece member => noSlash piece (split ▸ List.mem_append_left _ member)
    refine ⟨⟨String.ofList (joinPieces (dropFillers base.reverse).reverse)⟩,
      (dropFillers base.reverse).reverse, fillers.reverse, ?_, ?_, split, parts, ?_⟩
    · simp [dropFillers_cons plain.isFiller_eq]
    · rw [← isAbsolute_join directory plain] at absolute
      rw [← Bool.not_eq_true] at absolute ⊢
      have whole : pieces (directory.join ⟨name⟩).text.toList =
          (dropFillers base.reverse).reverse ++ (fillers.reverse ++ [name.toList]) := by
        rw [joined, ← List.append_assoc, ← split]
      exact fun above => absolute (isAbsolute_of_hasParts parts whole (by simp) above)
    · simpa using fill

/-- Above a name that is joined to a path with a plain name at its end stands that path. -/
theorem parent?_join_join (directory : Path) {outer name : String} (outerPlain : IsPlainName outer)
    (plain : IsPlainName name) :
    ((directory.join ⟨outer⟩).join ⟨name⟩).parent? = some (directory.join ⟨outer⟩) := by
  obtain ⟨base, above, -⟩ := exists_pieces_join directory outerPlain
  obtain ⟨whole, joined, parts⟩ := exists_pieces_join (directory.join ⟨outer⟩) plain
  rw [HasParts, above] at parts
  have same : whole = base ++ [outer.toList] := by
    rcases parts with same | same
    · exact same.symm
    · exact absurd (List.singleton_inj.1 (List.append_inj_right' same rfl)) outerPlain.nonempty
  have text : (directory.join ⟨outer⟩).text = String.ofList (joinPieces (base ++ [outer.toList])) := by
    rw [← above, joinPieces_pieces, String.ofList_toList]
  rw [parent?, joined, same, isAbsolute_join _ plain]
  cases absolute : (directory.join ⟨outer⟩).isAbsolute with
  | true =>
    rw [isAbsolute_iff, above] at absolute
    obtain ⟨rest, rfl⟩ := exists_cons_of_isAbsolute absolute
    obtain ⟨next, more, after⟩ := List.exists_cons_of_ne_nil
      (List.append_ne_nil_of_right_ne_nil rest (List.cons_ne_nil outer.toList []))
    have whole : (directory.join ⟨outer⟩).text =
        String.ofList ('/' :: joinPieces (rest ++ [outer.toList])) := by
      rw [text, List.cons_append, after]
      rfl
    simp [plain.isFiller_eq, outerPlain.isFiller_eq, ← whole]
  | false =>
    simp [dropFillers_cons plain.isFiller_eq, dropFillers_cons outerPlain.isFiller_eq, ← text]

end Path

namespace FileTree

/-- The last of several names is joined to a path after the others. -/
theorem pathBelow_concat (directory : Path) (names : Location) (name : String) :
    pathBelow directory (names ++ [name]) = (pathBelow directory names).join ⟨name⟩ :=
  List.foldl_append

/-- Plain names that are joined to a path are its last components. -/
theorem components_pathBelow (directory : Path) {names : Location}
    (plain : ∀ name ∈ names, IsPlainName name) :
    (pathBelow directory names).components = directory.components ++ names.map .name := by
  induction names using List.reverseRecOn with
  | nil => simp [pathBelow]
  | append_singleton rest name ih =>
    obtain ⟨restPlain, namePlain⟩ := List.forall_mem_append.1 plain
    rw [pathBelow_concat, Path.components_join _ (namePlain name (List.mem_singleton_self _)),
      ih restPlain, List.map_append, List.append_assoc]
    rfl

/-- A path and the names below it can be joined to another path in any order. -/
theorem pathBelow_join (root directory : Path) {names : Location}
    (plain : ∀ name ∈ names, IsPlainName name) :
    pathBelow (root.join directory) names = root.join (pathBelow directory names) := by
  induction names using List.reverseRecOn with
  | nil => rfl
  | append_singleton rest name ih =>
    obtain ⟨restPlain, namePlain⟩ := List.forall_mem_append.1 plain
    rw [pathBelow_concat, pathBelow_concat, ih restPlain,
      Path.join_join _ _ (namePlain name (List.mem_singleton_self _))]

end FileTree

end PhysicsPrefab
