import PhysicsPrefab.Proofs.Json.Scanning

/-!
# Texts without escapes

In a text without backslashes every quoted text is read character by character (`run_bare_closed`),
so it consists of characters that need no escape (`bare_of_mem_run`), and whatever begins with a
quote and can be scanned ends with the next quote (`exists_end`). Outside of quotes no text comes up
(`step_outside`), and a number sign has no place there (`step_numberSign`).
-/

namespace PhysicsPrefab

/-- A character that stands for itself between quotes. -/
def Quoted.IsBare (character : Char) : Prop :=
  character ≠ '"' ∧ character ≠ '\\' ∧ 0x20 ≤ character.toNat

instance : DecidablePred Quoted.IsBare := fun _ => inferInstanceAs (Decidable (_ ∧ _ ∧ _))

namespace Json.Scan

open Quoted (IsBare)

/-- Bare characters are read as themselves. -/
theorem run_bare {characters : List Char} (bare : ∀ character ∈ characters, IsBare character)
    (read rest : List Char) : run (quoted .plain read) (characters ++ rest) =
      run (quoted .plain (characters.reverse ++ read)) rest := by
  induction characters generalizing read with
  | nil => rfl
  | cons character more ih =>
    obtain ⟨⟨noQuote, noEscape, noControl⟩, moreBare⟩ := List.forall_mem_cons.1 bare
    rw [List.cons_append, run_plain noQuote noEscape (by exact noControl), ih moreBare]
    simp

/-- Bare characters between quotes are one token. -/
theorem run_bare_closed {characters : List Char}
    (bare : ∀ character ∈ characters, IsBare character) (rest : List Char) :
    run (quoted .plain []) (characters ++ '"' :: rest) =
      .string (String.ofList characters) :: run between rest := by
  rw [run_bare bare]
  simp [run, step, Quoted.step]

/-- The machine is outside of quotes. -/
def IsOutside : Scan → Prop
  | between | numeral _ _ | stopped => True
  | word rest token => '#' ∉ rest ∧ ∀ text, token ≠ .string text
  | quoted _ _ => False

/-- A token holds no text. -/
abbrev NoText (token : Token) : Prop := ∀ text, token ≠ .string text

/-- A number is no text. -/
theorem numberToken_noText (part : NumberPart) (read : NumberText) :
    NoText (numberToken part read) := by
  intro text
  unfold numberToken
  split
  · split <;> simp
  · simp

/-- A character between tokens completes no text, and a quote begins one. -/
theorem start_outside (character : Char) : (∀ token ∈ (start character).2, NoText token) ∧
    (IsOutside (start character).1 ∨ (start character).1 = quoted .plain []) := by
  unfold start
  split
  · exact ⟨List.forall_mem_nil _, .inl trivial⟩
  · split
    case h_13 =>
      split
      · exact ⟨List.forall_mem_nil _, .inl trivial⟩
      · exact ⟨by simp [stop, NoText], .inl trivial⟩
    case h_7 => exact ⟨List.forall_mem_nil _, .inr rfl⟩
    all_goals exact ⟨by simp [NoText], .inl (by simp [IsOutside])⟩

/-- A character outside of quotes completes no text, and a quote begins one. -/
theorem step_outside {scan : Scan} (outside : IsOutside scan) (character : Char) :
    (∀ token ∈ (step scan character).2, NoText token) ∧
    (IsOutside (step scan character).1 ∨ (step scan character).1 = quoted .plain []) := by
  have stops : (∀ token ∈ stop.2, NoText token) ∧
      (IsOutside stop.1 ∨ stop.1 = quoted .plain []) := ⟨by simp [stop, NoText], .inl trivial⟩
  cases scan with
  | between => exact start_outside character
  | stopped => exact ⟨nofun, .inl trivial⟩
  | quoted _ _ => exact outside.elim
  | word rest token =>
    cases rest with
    | nil => exact stops
    | cons expected rest =>
      rw [step]
      split
      · exact stops
      · split
        · exact ⟨List.forall_mem_singleton.2 outside.2, .inl trivial⟩
        · exact ⟨nofun, .inl ⟨fun member => outside.1 (List.mem_cons_of_mem _ member), outside.2⟩⟩
  | numeral part read =>
    have started := start_outside character
    rw [step]
    split
    · exact ⟨nofun, .inl trivial⟩
    · split
      · exact stops
      · split
        · exact stops
        · exact ⟨List.forall_mem_cons.2 ⟨numberToken_noText part read, started.1⟩, started.2⟩

/-- The end of a text outside of quotes completes no text. -/
theorem finish_outside {scan : Scan} (outside : IsOutside scan) :
    ∀ token ∈ scan.finish, NoText token := by
  cases scan with
  | between | stopped => exact nofun
  | quoted _ _ => exact outside.elim
  | word _ _ => exact List.forall_mem_singleton.2 nofun
  | numeral part read => exact List.forall_mem_singleton.2 (numberToken_noText part read)

/-- A number sign has no place outside of quotes. -/
theorem step_numberSign {scan : Scan} (outside : IsOutside scan) :
    scan = stopped ∨ .malformed ∈ (step scan '#').2 := by
  have misplaced : (start '#').2 = [.malformed] := by decide
  cases scan with
  | stopped => exact .inl rfl
  | quoted _ _ => exact outside.elim
  | between => exact .inr (misplaced ▸ List.mem_singleton_self _)
  | word rest token =>
    cases rest with
    | nil => exact .inr (List.mem_singleton_self _)
    | cons expected rest =>
      have other : '#' ≠ expected := fun same => outside.1 (same ▸ List.mem_cons_self)
      simp [step, other, stop]
  | numeral part read =>
    have noMore : extend part read '#' = none := by cases part <;> rfl
    right
    simp only [step, noMore]
    split
    · exact List.mem_singleton_self _
    · split
      · exact List.mem_singleton_self _
      · exact List.mem_cons_of_mem _ (misplaced ▸ List.mem_singleton_self _)

/-- A text between quotes ends if what follows can be scanned. -/
theorem exists_end {text : List Char} (noEscapes : '\\' ∉ text) {read : List Char}
    (scanned : .malformed ∉ run (quoted .plain read) text) :
    ∃ inner rest, text = inner ++ '"' :: rest ∧ ∀ character ∈ inner, IsBare character := by
  induction text generalizing read with
  | nil => exact absurd (List.mem_singleton_self _) scanned
  | cons character more ih =>
    obtain ⟨noEscape, moreNoEscapes⟩ := List.ne_and_not_mem_of_not_mem_cons noEscapes
    by_cases isQuote : character = '"'
    · exact ⟨[], more, by rw [isQuote, List.nil_append], nofun⟩
    · have noControl : 0x20 ≤ character.toNat := by
        refine Nat.not_lt.1 fun control => scanned ?_
        simp [run, step, Quoted.step, isQuote, noEscape.symm, control, stop]
      rw [run_plain isQuote noEscape.symm (by exact noControl)] at scanned
      obtain ⟨inner, rest, rfl, bare⟩ := ih moreNoEscapes scanned
      exact ⟨character :: inner, rest, rfl,
        List.forall_mem_cons.2 ⟨⟨isQuote, noEscape.symm, noControl⟩, bare⟩⟩

/-- Without escapes every text that is read consists of bare characters. -/
theorem bare_of_mem_run {text : List Char} (noEscapes : '\\' ∉ text) {scan : Scan}
    (state : IsOutside scan ∨
      ∃ read, scan = quoted .plain read ∧ ∀ character ∈ read, IsBare character)
    {said : String} (member : .string said ∈ run scan text) :
    ∀ character ∈ said.toList, IsBare character := by
  induction text generalizing scan with
  | nil =>
    rcases state with outside | ⟨read, rfl, -⟩
    · exact absurd rfl (finish_outside outside _ member said)
    · exact absurd (List.mem_singleton.1 member) nofun
  | cons character more ih =>
    obtain ⟨noEscape, moreNoEscapes⟩ := List.ne_and_not_mem_of_not_mem_cons noEscapes
    rcases state with outside | ⟨read, rfl, bare⟩
    · obtain ⟨noText, next⟩ := step_outside outside character
      rcases List.mem_append.1 member with now | later
      · exact absurd rfl (noText _ now said)
      · exact ih moreNoEscapes (next.imp_right fun begun => ⟨[], begun, nofun⟩) later
    · by_cases isQuote : character = '"'
      · subst isQuote
        rcases List.mem_append.1 member with now | later
        · obtain rfl := Token.string.inj (List.mem_singleton.1 now)
          simpa using bare
        · have outside : IsOutside between := trivial
          exact ih moreNoEscapes (.inl outside) later
      · by_cases noControl : 0x20 ≤ character.toNat
        · rw [run_plain isQuote noEscape.symm (by exact noControl)] at member
          exact ih moreNoEscapes (.inr ⟨_, rfl,
            List.forall_mem_cons.2 ⟨⟨isQuote, noEscape.symm, noControl⟩, bare⟩⟩) member
        · have stops : step (quoted .plain read) character = stop := by
            simp [step, Quoted.step, isQuote, noEscape.symm, Nat.not_le.1 noControl]
          rw [run, stops] at member
          rcases List.mem_append.1 member with now | later
          · exact absurd (List.mem_singleton.1 now) nofun
          · have outside : IsOutside stopped := trivial
            exact ih moreNoEscapes (.inl outside) later

end Json.Scan

end PhysicsPrefab
