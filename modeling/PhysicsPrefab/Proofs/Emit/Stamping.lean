import PhysicsPrefab.Emit.Template
import PhysicsPrefab.Proofs.Json.Bare
import PhysicsPrefab.Proofs.Json.Mapping

/-!
# Stamping out templates

Placeholders are replaced in the text of a template, before anyone reads it. If the text has no
escapes and the values hold nothing that must be escaped, this changes what is between the quotes of
the template and nothing else (`ofText_substitute`), so a file that is stamped out says what the
template says, with the placeholders replaced (`textAt?_substitute`).
-/

namespace PhysicsPrefab

namespace Template

open Quoted (IsBare)

variable {pattern value : List Char}

/-- A character that does not begin the pattern stays. -/
theorem replaceFrom_cons {character : Char} (other : pattern.head? ≠ some character)
    (proper : pattern ≠ []) (rest : List Char) :
    replaceFrom pattern value 0 (character :: rest) =
      character :: replaceFrom pattern value 0 rest := by
  obtain ⟨first, more, rfl⟩ := List.exists_cons_of_ne_nil proper
  have apart : (first == character) = false := by simpa using other
  simp [replaceFrom, List.isPrefixOf, apart]

/-- A text without the beginning of the pattern stays. -/
theorem replaceFrom_append {first : Char} {more start : List Char} (apart : first ∉ start)
    (rest : List Char) : replaceFrom (first :: more) value 0 (start ++ rest) =
      start ++ replaceFrom (first :: more) value 0 rest := by
  induction start with
  | nil => rfl
  | cons character others ih =>
    obtain ⟨other, othersApart⟩ := List.ne_and_not_mem_of_not_mem_cons apart
    rw [List.cons_append, replaceFrom_cons (by simpa using other) (List.cons_ne_nil _ _),
      ih othersApart, List.cons_append]

/-- A text without the beginning of the pattern is as it was. -/
theorem replaceFrom_of_not_mem {first : Char} {more text : List Char} (apart : first ∉ text) :
    replaceFrom (first :: more) value 0 text = text := by
  have kept : replaceFrom (first :: more) value 0 (text ++ []) = _ := replaceFrom_append apart []
  rwa [List.append_nil, replaceFrom, List.append_nil] at kept

/-- Replaced characters are skipped. -/
theorem replaceFrom_skip (start rest : List Char) :
    replaceFrom pattern value start.length (start ++ rest) = replaceFrom pattern value 0 rest := by
  induction start with
  | nil => rfl
  | cons character more ih => rw [List.length_cons, List.cons_append, replaceFrom, ih]

/-- The pattern is replaced where it stands. -/
theorem replaceFrom_pattern (proper : pattern ≠ []) (rest : List Char) :
    replaceFrom pattern value 0 (pattern ++ rest) = value ++ replaceFrom pattern value 0 rest := by
  obtain ⟨first, more, rfl⟩ := List.exists_cons_of_ne_nil proper
  have found : (first :: more).isPrefixOf (first :: (more ++ rest)) = true :=
    List.isPrefixOf_iff_prefix.2 ⟨rest, rfl⟩
  rw [List.cons_append, replaceFrom, if_pos found, List.length_cons, Nat.add_sub_cancel,
    replaceFrom_skip]

/-- A pattern does not reach across a character that it does not hold. -/
theorem prefix_append_cons {barrier : Char} (apart : barrier ∉ pattern) (text rest : List Char) :
    pattern <+: text ++ barrier :: rest ↔ pattern <+: text := by
  refine ⟨fun across => ?_, fun inside => inside.trans (List.prefix_append _ _)⟩
  rcases List.prefix_or_prefix_of_prefix across (List.prefix_append text (barrier :: rest)) with
    inside | ⟨more, rfl⟩
  · exact inside
  · cases more with
    | nil => simp
    | cons character more =>
      obtain ⟨rfl, -⟩ := List.cons_prefix_cons.1 ((List.prefix_append_right_inj text).1 across)
      exact absurd (List.mem_append_right _ List.mem_cons_self) apart

/-- Replacing does not cross a character that the pattern does not hold. -/
theorem replaceFrom_cross {barrier : Char} (proper : pattern ≠ []) (apart : barrier ∉ pattern)
    (text rest : List Char) {skip : Nat} (inside : skip ≤ text.length) :
    replaceFrom pattern value skip (text ++ barrier :: rest) =
      replaceFrom pattern value skip text ++ barrier :: replaceFrom pattern value 0 rest := by
  induction text generalizing skip with
  | nil =>
    obtain rfl := Nat.le_zero.1 inside
    have other : pattern.head? ≠ some barrier := fun first => apart (List.mem_of_head? first)
    rw [List.nil_append, replaceFrom_cons other proper, replaceFrom, List.nil_append]
  | cons character more ih =>
    cases skip with
    | succ skip =>
      rw [List.cons_append, replaceFrom, replaceFrom, ih (Nat.le_of_succ_le_succ inside)]
    | zero =>
      have samePlace : pattern.isPrefixOf (character :: (more ++ barrier :: rest)) =
          pattern.isPrefixOf (character :: more) := by
        rw [Bool.eq_iff_iff, List.isPrefixOf_iff_prefix, List.isPrefixOf_iff_prefix]
        exact prefix_append_cons apart (character :: more) rest
      rw [List.cons_append, replaceFrom, replaceFrom, samePlace]
      split
      case isTrue found =>
        have short := (List.isPrefixOf_iff_prefix.1 found).length_le
        rw [List.length_cons] at short
        rw [ih (by omega), List.append_assoc]
      case isFalse => rw [ih (Nat.zero_le _), List.cons_append]

/-- What stands in a text after replacing stood there before or comes from the value. -/
theorem mem_replaceFrom {text : List Char} {skip : Nat} {character : Char}
    (member : character ∈ replaceFrom pattern value skip text) :
    character ∈ text ∨ character ∈ value := by
  induction text generalizing skip with
  | nil => exact .inl member
  | cons first rest ih =>
    cases skip with
    | succ skip => exact (ih member).imp_left (List.mem_cons_of_mem _)
    | zero =>
      rw [replaceFrom] at member
      split at member
      · rcases List.mem_append.1 member with inValue | later
        · exact .inr inValue
        · exact (ih later).imp_left (List.mem_cons_of_mem _)
      · rcases List.mem_cons.1 member with rfl | later
        · exact .inl List.mem_cons_self
        · exact (ih later).imp_left (List.mem_cons_of_mem _)

open Json (Token Document)
open Json.Scan (run quoted between IsOutside NoText)

/-- Replacing in a text that can be scanned changes its quoted texts and nothing else. -/
theorem run_replaceFrom {more : List Char} (noQuote : '"' ∉ '#' :: more)
    (bareValue : ∀ character ∈ value, IsBare character) {text : List Char} {scan : Json.Scan}
    (outside : IsOutside scan) (noEscapes : '\\' ∉ text) (scanned : .malformed ∉ run scan text) :
    run scan (replaceFrom ('#' :: more) value 0 text) = (run scan text).map (Token.map fun said =>
      String.ofList (replaceFrom ('#' :: more) value 0 said.toList)) := by
  have kept {tokens : List Token} (noText : ∀ token ∈ tokens, NoText token) :
      tokens.map (Token.map fun said =>
        String.ofList (replaceFrom ('#' :: more) value 0 said.toList)) = tokens := by
    refine (List.map_congr_left fun token member => ?_).trans (List.map_id _)
    cases token with
    | string said => exact absurd rfl (noText _ member said)
    | _ => rfl
  match text with
  | [] => exact (kept (Json.Scan.finish_outside outside)).symm
  | character :: rest =>
    obtain ⟨-, restNoEscapes⟩ := List.ne_and_not_mem_of_not_mem_cons noEscapes
    rw [run, List.mem_append, not_or] at scanned
    by_cases isSign : character = '#'
    case pos =>
      subst isSign
      obtain rfl := (Json.Scan.step_numberSign outside).resolve_right scanned.1
      have stays (characters : List Char) : run .stopped characters = [] := by
        induction characters with
        | nil => rfl
        | cons _ _ ih => exact ih
      rw [stays, stays, List.map_nil]
    case neg =>
      obtain ⟨noText, next⟩ := Json.Scan.step_outside outside character
      have passed : replaceFrom ('#' :: more) value 0 (character :: rest) = _ :=
        replaceFrom_cons (by simpa using Ne.symm isSign) (List.cons_ne_nil _ _) rest
      rw [passed, run, run, List.map_append, kept noText, List.append_cancel_left_eq]
      rcases next with stillOutside | begun
      · exact run_replaceFrom noQuote bareValue stillOutside restNoEscapes scanned.2
      · rw [begun] at scanned ⊢
        obtain ⟨inner, after, rfl, bare⟩ := Json.Scan.exists_end restNoEscapes scanned.2
        have bareInner : ∀ character ∈ replaceFrom ('#' :: more) value 0 inner, IsBare character :=
          fun character member => (mem_replaceFrom member).elim (bare character)
            (bareValue character)
        rw [Json.Scan.run_bare_closed bare, List.mem_cons, not_or] at scanned
        rw [replaceFrom_cross (List.cons_ne_nil _ _) noQuote inner after (Nat.zero_le _),
          Json.Scan.run_bare_closed bareInner, Json.Scan.run_bare_closed bare, List.map_cons,
          Token.map, String.toList_ofList, List.cons_inj_right]
        exact run_replaceFrom noQuote bareValue (trivial : IsOutside between)
          (fun member => restNoEscapes (List.mem_append_right _ (List.mem_cons_of_mem _ member)))
          scanned.2.2
termination_by text.length

/-- Nothing is replaced without variables. -/
@[simp] theorem substitute_nil (template : String) : substitute template [] = template := by
  simp [substitute]

/-- One variable is replaced in the whole text. -/
theorem toList_substitute (template name value : String) :
    (substitute template [(name, value)]).toList =
      replaceFrom (placeholder name) value.toList 0 template.toList := String.toList_ofList

/-- Variables are replaced one after the other. -/
theorem substitute_cons (template : String) (name value : String)
    (values : List (String × String)) : substitute template ((name, value) :: values) =
      substitute (substitute template [(name, value)]) values := by
  simp [substitute]

/-- Values that can stand between quotes as they are, for variables that can be named there. -/
structure AreBare (values : List (String × String)) : Prop where
  /-- No name holds a quote. -/
  names : ∀ entry ∈ values, '"' ∉ entry.1.toList
  /-- No value holds anything that must be escaped. -/
  values : ∀ entry ∈ values, ∀ character ∈ entry.2.toList, IsBare character

/-- Stamping out a template changes its quoted texts and nothing else. -/
theorem ofText_substitute {template : String} {values : List (String × String)}
    (bare : AreBare values) (noEscapes : '\\' ∉ template.toList)
    (scanned : .malformed ∉ Token.ofText template) :
    Token.ofText (substitute template values) =
      (Token.ofText template).map (Token.map (substitute · values)) := by
  induction values generalizing template with
  | nil =>
    rw [substitute_nil]
    refine ((List.map_congr_left fun token _ => ?_).trans (List.map_id _)).symm
    cases token <;> simp [Token.map]
  | cons entry rest ih =>
    obtain ⟨name, value⟩ := entry
    obtain ⟨noQuote, noQuotes⟩ := List.forall_mem_cons.1 bare.names
    obtain ⟨bareValue, bareValues⟩ := List.forall_mem_cons.1 bare.values
    have once : Token.ofText (substitute template [(name, value)]) =
        (Token.ofText template).map (Token.map (substitute · [(name, value)])) := by
      rw [Token.ofText, toList_substitute]
      exact run_replaceFrom (by simpa using noQuote) bareValue (trivial : IsOutside between)
        noEscapes scanned
    rw [substitute_cons, ih ⟨noQuotes, bareValues⟩, once, List.map_map]
    · refine List.map_congr_left fun token _ => ?_
      cases token with
      | string said => exact congrArg Token.string (substitute_cons said name value rest).symm
      | _ => rfl
    · rw [toList_substitute]
      intro member
      rcases mem_replaceFrom member with inTemplate | inValue
      · exact noEscapes inTemplate
      · exact (bareValue _ inValue).2.1 rfl
    · rw [once]
      intro member
      obtain ⟨token, isToken, same⟩ := List.mem_map.1 member
      cases token <;> first | exact scanned isToken | contradiction

/-- What a template that is stamped out says is what the template says, stamped out. -/
theorem textAt?_substitute {template : String} {values : List (String × String)}
    (bare : AreBare values) (noEscapes : '\\' ∉ template.toList)
    (scanned : .malformed ∉ Token.ofText template)
    (names : ∀ name ∈ (Document.ofText template).root.names, '#' ∉ name.toList)
    (path : List Json.Place) : Json.textAt? path (substitute template values) =
      (Json.textAt? path template).map (substitute · values) := by
  have fixed (name : String) (plain : '#' ∉ name.toList) : substitute name values = name := by
    induction values with
    | nil => exact substitute_nil name
    | cons entry rest ih =>
      have once : substitute name [entry] = name := by
        rw [← String.toList_inj, toList_substitute]
        exact replaceFrom_of_not_mem plain
      rw [substitute_cons, once]
      exact ih ⟨(List.forall_mem_cons.1 bare.names).2, (List.forall_mem_cons.1 bare.values).2⟩
  have document : Document.ofText (substitute template values) =
      (Document.ofText template).map (substitute · values) := by
    rw [Document.ofText, ofText_substitute bare noEscapes scanned, Document.ofTokens_map]
    rfl
  rw [Json.textAt?, Json.textAt?, Json.Reader.toOption_run_value, Json.Reader.toOption_run_value,
    document, Document.value?_map fun name member => fixed name (names name member)]
  cases (Document.ofText template).value? with
  | none => rfl
  | some value => exact Json.Value.textAt?_map path value

end Template

end PhysicsPrefab
