import PhysicsPrefab.Proofs.Json.Scanning

/-!
# Literals of scripts

A text between quotes, as the emitter writes it, is a complete literal (`encode_isLiteral`): it
ends with the first quote that is not escaped, it holds no control character and so no line break,
and it is read as exactly the text that was written, whatever that text holds.
-/

namespace PhysicsPrefab.Quoted

open Json (Token)

/-- Whether there is a quote that no backslash escapes. A backslash escapes what follows it. -/
def hasOpenQuote : List Char → Bool
  | [] => false
  | '\\' :: _ :: rest => hasOpenQuote rest
  | character :: rest => character == '"' || hasOpenQuote rest

/-- Characters are a complete literal that stands for a text. -/
structure IsLiteral (characters : List Char) (text : String) : Prop where
  /-- A quote opens it and a quote closes it, and none between them could close it. -/
  closed : ∃ inner, characters = '"' :: inner ++ ['"'] ∧ hasOpenQuote inner = false
  /-- It holds no control character. -/
  printable : ∀ character ∈ characters, 0x20 ≤ character.toNat
  /-- It is read as the text and nothing else. -/
  reads : Token.ofText (String.ofList characters) = [.string text]

/-- The digits of a control character are no quote and no backslash. -/
theorem digitChar_ne (digit : Nat) (small : digit < 16) :
    Nat.digitChar digit ≠ '"' ∧ Nat.digitChar digit ≠ '\\' ∧
      0x20 ≤ (Nat.digitChar digit).toNat := by
  have known : ∀ digit < 16, Nat.digitChar digit ≠ '"' ∧ Nat.digitChar digit ≠ '\\' ∧
      0x20 ≤ (Nat.digitChar digit).toNat := by
    decide
  exact known digit small

/-- A character that is neither a quote nor a backslash opens nothing and escapes nothing. -/
theorem hasOpenQuote_cons {character : Char} (noQuote : character ≠ '"')
    (noEscape : character ≠ '\\') (rest : List Char) :
    hasOpenQuote (character :: rest) = hasOpenQuote rest := by
  rw [hasOpenQuote]
  · simp [noQuote]
  · exact fun _ _ isEscape _ => noEscape isEscape

/-- A written character leaves no quote open. -/
theorem hasOpenQuote_escape (character : Char) (rest : List Char) :
    hasOpenQuote (escape character ++ rest) = hasOpenQuote rest := by
  unfold escape
  iterate 7 (split; · rfl)
  split
  · rename_i control
    have high := digitChar_ne (character.toNat / 16) (by omega)
    have low := digitChar_ne (character.toNat % 16) (by omega)
    have zeros : hasOpenQuote ('0' :: '0' :: Nat.digitChar (character.toNat / 16) ::
        Nat.digitChar (character.toNat % 16) :: rest) = hasOpenQuote rest := by
      rw [hasOpenQuote_cons (by decide) (by decide), hasOpenQuote_cons (by decide) (by decide),
        hasOpenQuote_cons high.1 high.2.1, hasOpenQuote_cons low.1 low.2.1]
    exact zeros
  · exact hasOpenQuote_cons ‹_› ‹_› rest

/-- A written text leaves no quote open. -/
theorem hasOpenQuote_body (characters : List Char) : hasOpenQuote (body characters) = false := by
  induction characters with
  | nil => rfl
  | cons character rest ih =>
    rw [body, List.flatMap_cons, hasOpenQuote_escape]
    exact ih

/-- A written character is printable. -/
theorem escape_printable (character : Char) :
    ∀ written ∈ escape character, 0x20 ≤ written.toNat := by
  unfold escape
  iterate 7 (split; · simp)
  split
  · rename_i control
    have high := digitChar_ne (character.toNat / 16) (by omega)
    have low := digitChar_ne (character.toNat % 16) (by omega)
    simp only [List.forall_mem_cons]
    exact ⟨by decide, by decide, by decide, by decide, high.2.2, low.2.2, nofun⟩
  · exact List.forall_mem_singleton.2 (Nat.not_lt.1 ‹_›)

/-- A text between quotes is a complete literal that stands for the text. -/
theorem encode_isLiteral (text : String) : IsLiteral (encode text).toList text := by
  have characters : (encode text).toList = '"' :: body text.toList ++ ['"'] := by
    rw [encode, String.toList_ofList, render]
  refine ⟨⟨_, characters, hasOpenQuote_body _⟩, fun character member => ?_, ?_⟩
  · rw [characters] at member
    rcases List.mem_append.1 member with opened | closing
    · rcases List.mem_cons.1 opened with rfl | inBody
      · decide
      · obtain ⟨meant, -, isWritten⟩ := List.mem_flatMap.1 inBody
        exact escape_printable meant character isWritten
    · obtain rfl := List.mem_singleton.1 closing
      decide
  · rw [String.ofList_toList]
    exact Token.ofText_encode text

end PhysicsPrefab.Quoted
