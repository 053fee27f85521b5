import PhysicsPrefab.Json.Value
import PhysicsPrefab.Proofs.Json.Numbers

/-!
# Written values are scanned

The text of a value is scanned to the tokens of the value, laid out or not (`run_laidOut`,
`run_compact`): quoted texts come back as they were (`run_quoted`), the blanks of the layout are
passed over, and numbers become one token each.
-/

namespace PhysicsPrefab.Json

namespace Scan

/-- A character that is read plainly is read as itself. -/
theorem run_plain {character : Char} (noQuote : character ≠ '"') (noEscape : character ≠ '\\')
    (noControl : 0x20 ≤ character.toNat) (read rest : List Char) :
    run (quoted .plain read) (character :: rest) = run (quoted .plain (character :: read)) rest := by
  simp [run, step, Quoted.step, noQuote, noEscape, Nat.not_lt.2 noControl]

/-- A hexadecimal digit that is written has its value. -/
theorem hexValue?_digitChar {digit : Nat} (small : digit < 16) :
    Quoted.hexValue? (Nat.digitChar digit) = some digit := by
  have known : ∀ digit < 16, Quoted.hexValue? (Nat.digitChar digit) = some digit := by decide
  exact known digit small

/-- A character that is written by its number is read as itself. -/
theorem run_unit {character : Char} (control : character.toNat < 0x20) (read rest : List Char) :
    run (quoted .plain read) ('\\' :: 'u' :: '0' :: '0' :: Nat.digitChar (character.toNat / 16) ::
      Nat.digitChar (character.toNat % 16) :: rest) = run (quoted .plain (character :: read)) rest := by
  have high : Quoted.hexValue? (Nat.digitChar (character.toNat / 16)) =
      some (character.toNat / 16) := hexValue?_digitChar (by omega)
  have low : Quoted.hexValue? (Nat.digitChar (character.toNat % 16)) =
      some (character.toNat % 16) := hexValue?_digitChar (by omega)
  have zero : Quoted.hexValue? '0' = some 0 := by decide
  have number : character.toNat / 16 * 16 + character.toNat % 16 = character.toNat :=
    Nat.div_add_mod' _ _
  have complete : Quoted.completeUnit none character.toNat = .more .plain (some character) := by
    simp only [Quoted.completeUnit, Char.ofNat_toNat]
    rw [if_neg (by simp; omega), if_neg (by simp; omega)]
  simp [run, step, Quoted.step, high, low, zero, number, complete]

/-- A character that is written is read as itself. -/
theorem run_escape (character : Char) (read rest : List Char) :
    run (quoted .plain read) (Quoted.escape character ++ rest) =
      run (quoted .plain (character :: read)) rest := by
  unfold Quoted.escape
  iterate 7 (split; · subst_vars; rfl)
  split
  · exact run_unit ‹_› read rest
  · exact run_plain ‹_› ‹_› (Nat.not_lt.1 ‹_›) read rest

/-- The characters of a text between its quotes are read as they were. -/
theorem run_body (characters read rest : List Char) :
    run (quoted .plain read) (Quoted.body characters ++ rest) =
      run (quoted .plain (characters.reverse ++ read)) rest := by
  induction characters generalizing read with
  | nil => rfl
  | cons character more ih =>
    rw [Quoted.body, List.flatMap_cons, List.append_assoc, run_escape]
    simpa [Quoted.body] using ih (character :: read)

/-- A quoted text is read as one token. -/
theorem run_quoted (text : String) (rest : List Char) :
    run between (Quoted.render text ++ rest) = .string text :: run between rest := by
  have opened : run between (Quoted.render text ++ rest) =
      run (quoted .plain []) (Quoted.body text.toList ++ '"' :: rest) := by
    simp [Quoted.render, run, step, start, isBlank]
  rw [opened, run_body]
  simp [run, step, Quoted.step]

/-- The blanks of a layout are passed over. -/
theorem run_lineBreak (level : Nat) (rest : List Char) :
    run between (Value.lineBreak level ++ rest) = run between rest := by
  have blanks (count : Nat) : run between (List.replicate count ' ' ++ rest) = run between rest := by
    induction count with
    | zero => rfl
    | succ count ih => rw [List.replicate_succ, List.cons_append, ← ih]; rfl
  exact blanks (2 * level)

/-- A truth value is read as one token. -/
theorem run_renderBool (value : Bool) (rest : List Char) :
    run between (Value.renderBool value ++ rest) = .boolean value :: run between rest := by
  cases value <;> rfl

end Scan

namespace Value

mutual

/-- The tokens of a value. -/
def tokens : Value → List Token
  | null => [.null]
  | boolean value => [.boolean value]
  | number value => [value.token]
  | string value => [.string value]
  | array [] => [.openArray, .closeArray]
  | array (first :: rest) => .openArray :: (tokens first ++ itemTokens rest)
  | object [] => [.openObject, .closeObject]
  | object ((name, first) :: rest) =>
    .openObject :: .string name :: .colon :: (tokens first ++ memberTokens rest)

/-- The tokens of the items of an array after the first, and of its end. -/
def itemTokens : List Value → List Token
  | [] => [.closeArray]
  | item :: rest => .comma :: (tokens item ++ itemTokens rest)

/-- The tokens of the members of an object after the first, and of its end. -/
def memberTokens : List (String × Value) → List Token
  | [] => [.closeObject]
  | (name, item) :: rest => .comma :: .string name :: .colon :: (tokens item ++ memberTokens rest)

end

/-- What follows an item may follow a number. -/
theorem ends_laidOutItems (level : Nat) (items : List Value) (rest : List Char) :
    Number.Ends (laidOutItems level items ++ rest) := by
  cases items with
  | nil => rintro _ ⟨⟩; decide
  | cons item more => rintro _ ⟨⟩; decide

/-- What follows a member may follow a number. -/
theorem ends_laidOutMembers (level : Nat) (members : List (String × Value)) (rest : List Char) :
    Number.Ends (laidOutMembers level members ++ rest) := by
  cases members with
  | nil => rintro _ ⟨⟩; decide
  | cons member more => rintro _ ⟨⟩; decide

open Scan (between)

mutual

/-- The text of a value is scanned to its tokens. -/
theorem run_laidOut (level : Nat) : ∀ (value : Value) {rest : List Char}, Number.Ends rest →
    between.run (laidOut level value ++ rest) = value.tokens ++ between.run rest
  | null, rest, _ => rfl
  | boolean value, rest, _ => Scan.run_renderBool value rest
  | number value, rest, ends => value.run_render ends
  | string value, rest, _ => Scan.run_quoted value rest
  | array [], rest, _ => rfl
  | array (first :: items), rest, _ => by
    have opened : between.run (laidOut level (array (first :: items)) ++ rest) =
        .openArray :: between.run (lineBreak (level + 1) ++ (laidOut (level + 1) first ++
          (laidOutItems level items ++ rest))) := by
      simp [laidOut, Scan.run, Scan.step, Scan.start, isBlank]
    rw [opened, Scan.run_lineBreak, run_laidOut (level + 1) first (ends_laidOutItems level items rest),
      run_laidOutItems level items rest, tokens, List.cons_append, List.append_assoc]
  | object [], rest, _ => rfl
  | object ((name, first) :: members), rest, _ => by
    have opened : between.run (laidOut level (object ((name, first) :: members)) ++ rest) =
        .openObject :: between.run (lineBreak (level + 1) ++ (Quoted.render name ++
          (':' :: ' ' :: (laidOut (level + 1) first ++ (laidOutMembers level members ++ rest))))) := by
      simp [laidOut, Scan.run, Scan.step, Scan.start, isBlank]
    have colon (text : List Char) : between.run (':' :: ' ' :: text) = .colon :: between.run text :=
      rfl
    rw [opened, Scan.run_lineBreak, Scan.run_quoted, colon,
      run_laidOut (level + 1) first (ends_laidOutMembers level members rest),
      run_laidOutMembers level members rest, tokens, List.cons_append, List.cons_append,
      List.cons_append, List.append_assoc]

/-- The text of the items of an array after the first is scanned to their tokens. -/
theorem run_laidOutItems (level : Nat) : ∀ (items : List Value) (rest : List Char),
    between.run (laidOutItems level items ++ rest) = itemTokens items ++ between.run rest
  | [], rest => by
    rw [laidOutItems, List.append_assoc, Scan.run_lineBreak]
    rfl
  | item :: items, rest => by
    have comma : between.run (laidOutItems level (item :: items) ++ rest) =
        .comma :: between.run (lineBreak (level + 1) ++ (laidOut (level + 1) item ++
          (laidOutItems level items ++ rest))) := by
      simp [laidOutItems, Scan.run, Scan.step, Scan.start, isBlank]
    rw [comma, Scan.run_lineBreak, run_laidOut (level + 1) item (ends_laidOutItems level items rest),
      run_laidOutItems level items rest, itemTokens, List.cons_append, List.append_assoc]

/-- The text of the members of an object after the first is scanned to their tokens. -/
theorem run_laidOutMembers (level : Nat) : ∀ (members : List (String × Value)) (rest : List Char),
    between.run (laidOutMembers level members ++ rest) = memberTokens members ++ between.run rest
  | [], rest => by
    rw [laidOutMembers, List.append_assoc, Scan.run_lineBreak]
    rfl
  | (name, item) :: members, rest => by
    have comma : between.run (laidOutMembers level ((name, item) :: members) ++ rest) =
        .comma :: between.run (lineBreak (level + 1) ++ (Quoted.render name ++
          (':' :: ' ' :: (laidOut (level + 1) item ++ (laidOutMembers level members ++ rest))))) := by
      simp [laidOutMembers, Scan.run, Scan.step, Scan.start, isBlank]
    have colon (text : List Char) : between.run (':' :: ' ' :: text) = .colon :: between.run text :=
      rfl
    rw [comma, Scan.run_lineBreak, Scan.run_quoted, colon,
      run_laidOut (level + 1) item (ends_laidOutMembers level members rest),
      run_laidOutMembers level members rest, memberTokens, List.cons_append, List.cons_append,
      List.cons_append, List.append_assoc]

end

/-- What follows an item without blanks may follow a number. -/
theorem ends_compactItems (items : List Value) (rest : List Char) :
    Number.Ends (compactItems items ++ rest) := by
  cases items with
  | nil => rintro _ ⟨⟩; decide
  | cons item more => rintro _ ⟨⟩; decide

/-- What follows a member without blanks may follow a number. -/
theorem ends_compactMembers (members : List (String × Value)) (rest : List Char) :
    Number.Ends (compactMembers members ++ rest) := by
  cases members with
  | nil => rintro _ ⟨⟩; decide
  | cons member more => rintro _ ⟨⟩; decide

mutual

/-- The text of a value without blanks is scanned to its tokens. -/
theorem run_compact : ∀ (value : Value) {rest : List Char}, Number.Ends rest →
    between.run (compact value ++ rest) = value.tokens ++ between.run rest
  | null, rest, _ => rfl
  | boolean value, rest, _ => Scan.run_renderBool value rest
  | number value, rest, ends => value.run_render ends
  | string value, rest, _ => Scan.run_quoted value rest
  | array [], rest, _ => rfl
  | array (first :: items), rest, _ => by
    have opened : between.run (compact (array (first :: items)) ++ rest) =
        .openArray :: between.run (compact first ++ (compactItems items ++ rest)) := by
      simp [compact, Scan.run, Scan.step, Scan.start, isBlank]
    rw [opened, run_compact first (ends_compactItems items rest), run_compactItems items rest, tokens,
      List.cons_append, List.append_assoc]
  | object [], rest, _ => rfl
  | object ((name, first) :: members), rest, _ => by
    have opened : between.run (compact (object ((name, first) :: members)) ++ rest) =
        .openObject :: between.run (Quoted.render name ++
          (':' :: (compact first ++ (compactMembers members ++ rest)))) := by
      simp [compact, Scan.run, Scan.step, Scan.start, isBlank]
    have colon (text : List Char) : between.run (':' :: text) = .colon :: between.run text := rfl
    rw [opened, Scan.run_quoted, colon, run_compact first (ends_compactMembers members rest),
      run_compactMembers members rest, tokens, List.cons_append, List.cons_append, List.cons_append,
      List.append_assoc]

/-- The text of the items after the first without blanks is scanned to their tokens. -/
theorem run_compactItems : ∀ (items : List Value) (rest : List Char),
    between.run (compactItems items ++ rest) = itemTokens items ++ between.run rest
  | [], rest => rfl
  | item :: items, rest => by
    have comma : between.run (compactItems (item :: items) ++ rest) =
        .comma :: between.run (compact item ++ (compactItems items ++ rest)) := by
      simp [compactItems, Scan.run, Scan.step, Scan.start, isBlank]
    rw [comma, run_compact item (ends_compactItems items rest), run_compactItems items rest, itemTokens,
      List.cons_append, List.append_assoc]

/-- The text of the members after the first without blanks is scanned to their tokens. -/
theorem run_compactMembers : ∀ (members : List (String × Value)) (rest : List Char),
    between.run (compactMembers members ++ rest) = memberTokens members ++ between.run rest
  | [], rest => rfl
  | (name, item) :: members, rest => by
    have comma : between.run (compactMembers ((name, item) :: members) ++ rest) =
        .comma :: between.run (Quoted.render name ++
          (':' :: (compact item ++ (compactMembers members ++ rest)))) := by
      simp [compactMembers, Scan.run, Scan.step, Scan.start, isBlank]
    have colon (text : List Char) : between.run (':' :: text) = .colon :: between.run text := rfl
    rw [comma, Scan.run_quoted, colon, run_compact item (ends_compactMembers members rest),
      run_compactMembers members rest, memberTokens, List.cons_append, List.cons_append,
      List.cons_append, List.append_assoc]

end

/-- The compact text of a value is scanned to its tokens and nothing more. -/
theorem ofText_text (value : Value) : Token.ofText value.text = value.tokens := by
  have scanned := run_compact value (nofun : Number.Ends [])
  rw [List.append_nil] at scanned
  rw [Token.ofText, text, String.toList_ofList, scanned]
  exact List.append_nil _

/-- The laid out text of a value is scanned to its tokens and nothing more. -/
theorem ofText_pretty (value : Value) : Token.ofText value.pretty = value.tokens := by
  have scanned := run_laidOut 0 value (nofun : Number.Ends [])
  rw [List.append_nil] at scanned
  rw [Token.ofText, pretty, String.toList_ofList, scanned]
  exact List.append_nil _

end Value

/-- A text between quotes is scanned to one token. -/
theorem Token.ofText_encode (text : String) : Token.ofText (Quoted.encode text) = [.string text] := by
  have scanned := Scan.run_quoted text []
  rw [List.append_nil] at scanned
  rw [Token.ofText, Quoted.encode, String.toList_ofList, scanned]
  rfl

end PhysicsPrefab.Json
