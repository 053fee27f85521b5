import PhysicsPrefab.Proofs.Json.Depth
import PhysicsPrefab.Proofs.Number.Finiteness

/-!
# Numbers that are read

A number that is read from a file is proper: a whole number with a minus sign is below zero, and a
double is finite, as one that is too large is refused (`NumberText.isProper_value?`). So all numbers
of a document are proper (`Document.isProper_ofText`), and so are those of a value that is read from
it (`Node.mem_numbers_of_value?`).
-/

namespace PhysicsPrefab.Json

/-- Whether a number can be read from a file. -/
def Number.IsProper : Number → Prop
  | natural _ => True
  | negative value => value.toInt < 0
  | double value => value.isFinite = true

/-- A proper number is finite as a double. -/
theorem Number.IsProper.isFinite {number : Number} (proper : number.IsProper) :
    number.toFloat.isFinite = true := by
  cases number with
  | natural value => exact Rounding.isFinite_toFloat value
  | negative value => exact Rounding.isFinite_neg (Rounding.isFinite_toFloat _)
  | double value => exact proper

namespace NumberText

/-- A finite double times a power of ten is finite, if there is a result. -/
theorem isFinite_scale {value result : Float} {place : Int} (isFinite : value.isFinite = true)
    (scaled : scale value place = some result) : result.isFinite = true := by
  induction size : (-place).toNat using Nat.strong_induction_on generalizing value place with
  | _ size ih =>
    rw [scale] at scaled
    split at scaled
    case isTrue far =>
      split at scaled
      · cases scaled
        exact isFinite
      · have large : Rounding.isLarge (Float.ofScientific 1 false 308) = true :=
          Rounding.isLarge_powerOfTen (by decide) (by decide)
        exact ih _ (by omega) (Rounding.isFinite_div isFinite large) scaled rfl
    case isFalse near =>
      split at scaled
      · split at scaled <;> cases scaled
        exact isFinite
      · split at scaled
        · dsimp only at scaled
          split at scaled <;> cases scaled
          rename_i notInfinite
          have power := Rounding.isFinite_of_isNear
            (Rounding.isNear_powerOfTen (by omega : place.toNat ≤ 308))
          rw [Number.isFinite_eq, Rounding.isNaN_mul isFinite power]
          simpa using notInfinite
        · cases scaled
          exact Rounding.isFinite_div isFinite
            (Rounding.isLarge_powerOfTen (by omega) (by omega : (-place).toNat ≤ 308))

/-- A whole number is proper. -/
theorem isProper_wholeNumber (negative : Bool) (significand : Nat) :
    (wholeNumber negative significand).IsProper := by
  rw [wholeNumber]
  split
  · trivial
  · split
    · exact Rounding.isFinite_neg (Rounding.isFinite_toFloat _)
    · rename_i fits
      have least : Int64.minValue.toInt.natAbs = 2 ^ 63 := by decide
      simp only [Bool.or_eq_true, decide_eq_true_eq, least] at fits
      change (Int64.ofInt (-significand)).toInt < 0
      rw [Int64.toInt_ofInt_of_le (by omega) (by omega)]
      omega

/-- The number that a text stands for is proper. -/
theorem isProper_value? {text : NumberText} {number : Number} (isValue : text.value? = some number) :
    number.IsProper := by
  simp only [value?] at isValue
  split at isValue
  · cases isValue
    exact isProper_wholeNumber _ _
  · obtain ⟨scaled, isScaled, rfl⟩ := Option.map_eq_some_iff.1 isValue
    have isFinite := isFinite_scale (Rounding.isFinite_toFloat _) isScaled
    change (if text.negative then -scaled else scaled).isFinite = true
    split
    · exact Rounding.isFinite_neg isFinite
    · exact isFinite

end NumberText

/-- Whether a token can be read from a file. -/
def Token.IsProper : Token → Prop
  | number value => value.IsProper
  | _ => True

namespace Scan

/-- Whether the token that the machine may complete next is proper. -/
def IsProper : Scan → Prop
  | word _ token => token.IsProper
  | _ => True

/-- The token of a number is proper. -/
theorem isProper_numberToken (part : NumberPart) (read : NumberText) :
    (numberToken part read).IsProper := by
  rw [numberToken]
  split
  · split
    · exact NumberText.isProper_value? ‹_›
    · trivial
  · trivial

/-- A character between tokens completes proper tokens. -/
theorem start_isProper (character : Char) :
    (start character).1.IsProper ∧ ∀ token ∈ (start character).2, token.IsProper := by
  unfold start
  split
  · exact ⟨trivial, nofun⟩
  · split
    case h_13 => split <;> simp [stop, IsProper, Token.IsProper]
    all_goals simp [IsProper, Token.IsProper]

/-- A character completes proper tokens. -/
theorem step_isProper {scan : Scan} (proper : scan.IsProper) (character : Char) :
    (step scan character).1.IsProper ∧ ∀ token ∈ (step scan character).2, token.IsProper := by
  have stops : stop.1.IsProper ∧ ∀ token ∈ stop.2, token.IsProper := by
    simp [stop, IsProper, Token.IsProper]
  cases scan with
  | between => exact start_isProper character
  | stopped => exact ⟨trivial, List.forall_mem_nil _⟩
  | word rest token =>
    cases rest with
    | nil => exact stops
    | cons expected rest =>
      rw [step]
      split
      · exact stops
      · split
        · exact ⟨trivial, List.forall_mem_singleton.2 proper⟩
        · exact ⟨proper, List.forall_mem_nil _⟩
  | quoted phase read =>
    rw [step]
    split
    · exact ⟨trivial, List.forall_mem_nil _⟩
    · exact ⟨trivial, List.forall_mem_nil _⟩
    · exact ⟨trivial, List.forall_mem_singleton.2 trivial⟩
    · exact stops
  | numeral part read =>
    rw [step]
    split
    · exact ⟨trivial, List.forall_mem_nil _⟩
    · split
      · exact stops
      · split
        · exact stops
        · obtain ⟨next, tokens⟩ := start_isProper character
          exact ⟨next, List.forall_mem_cons.2 ⟨isProper_numberToken part read, tokens⟩⟩

/-- The end of a text completes proper tokens. -/
theorem finish_isProper (scan : Scan) : ∀ token ∈ scan.finish, token.IsProper := by
  cases scan with
  | between | stopped => exact nofun
  | word _ _ | quoted _ _ => exact List.forall_mem_singleton.2 trivial
  | numeral part read => exact List.forall_mem_singleton.2 (isProper_numberToken part read)

/-- The tokens of the rest of a text are proper. -/
theorem run_isProper (text : List Char) {scan : Scan} (proper : scan.IsProper) :
    ∀ token ∈ run scan text, token.IsProper := by
  induction text generalizing scan with
  | nil => exact finish_isProper scan
  | cons character rest ih =>
    obtain ⟨next, tokens⟩ := step_isProper proper character
    exact List.forall_mem_append.2 ⟨tokens, ih next⟩

end Scan

namespace Node

mutual

/-- The numbers of a tree. -/
def numbers : Node → List Number
  | .number value => [value]
  | .array items _ => itemsNumbers items
  | .object members _ => membersNumbers members
  | _ => []

/-- The numbers of some trees. -/
def itemsNumbers : List Node → List Number
  | [] => []
  | item :: rest => numbers item ++ itemsNumbers rest

/-- The numbers of some members. -/
def membersNumbers : List (String × Node) → List Number
  | [] => []
  | (_, item) :: rest => numbers item ++ membersNumbers rest

end

/-- Whether all numbers of a tree are proper. -/
def IsProper (node : Node) : Prop := ∀ number ∈ node.numbers, number.IsProper

/-- The numbers of items are those of each. -/
theorem mem_itemsNumbers {items : List Node} {number : Number} :
    number ∈ itemsNumbers items ↔ ∃ item ∈ items, number ∈ item.numbers := by
  induction items with
  | nil => simp [itemsNumbers]
  | cons item rest ih => simp [itemsNumbers, ih]

/-- The numbers of members are those of each. -/
theorem mem_membersNumbers {members : List (String × Node)} {number : Number} :
    number ∈ membersNumbers members ↔ ∃ member ∈ members, number ∈ member.2.numbers := by
  induction members with
  | nil => simp [membersNumbers]
  | cons member rest ih => simp [membersNumbers, ih]

/-- An array of proper numbers is one of proper items. -/
theorem isProper_array {items : List Node} {closed : Bool} :
    (array items closed).IsProper ↔ ∀ item ∈ items, item.IsProper := by
  simp only [IsProper, numbers, mem_itemsNumbers]
  exact ⟨fun all item isItem number inside => all number ⟨item, isItem, inside⟩,
    fun all number ⟨item, isItem, inside⟩ => all item isItem number inside⟩

/-- An object of proper numbers is one of proper members. -/
theorem isProper_object {members : List (String × Node)} {closed : Bool} :
    (object members closed).IsProper ↔ ∀ member ∈ members, member.2.IsProper := by
  simp only [IsProper, numbers, mem_membersNumbers]
  exact ⟨fun all member isMember number inside => all number ⟨member, isMember, inside⟩,
    fun all number ⟨member, isMember, inside⟩ => all member isMember number inside⟩

end Node

namespace Value

mutual

/-- The numbers of a value. -/
def numbers : Value → List Number
  | number value => [value]
  | array items => itemsNumbers items
  | object members => membersNumbers members
  | _ => []

/-- The numbers of some values. -/
def itemsNumbers : List Value → List Number
  | [] => []
  | item :: rest => numbers item ++ itemsNumbers rest

/-- The numbers of some members. -/
def membersNumbers : List (String × Value) → List Number
  | [] => []
  | (_, item) :: rest => numbers item ++ membersNumbers rest

end

/-- The numbers of an array are those of its items. -/
theorem mem_numbers_array {items : List Value} {number : Number} :
    number ∈ (array items).numbers ↔ ∃ item ∈ items, number ∈ item.numbers := by
  rw [numbers]
  induction items with
  | nil => simp [itemsNumbers]
  | cons item rest ih => simp [itemsNumbers, ih]

/-- The numbers of an object are those of its members. -/
theorem mem_numbers_object {members : List (String × Value)} {number : Number} :
    number ∈ (object members).numbers ↔ ∃ member ∈ members, number ∈ member.2.numbers := by
  rw [numbers]
  induction members with
  | nil => simp [membersNumbers]
  | cons member rest ih => simp [membersNumbers, ih]

end Value

namespace Node

/-- The numbers of a value are among those of its tree. -/
theorem mem_numbers_of_value? {node : Node} {value : Value} (isValue : node.value? = some value) :
    ∀ number ∈ value.numbers, number ∈ node.numbers := by
  refine value?_induction nofun (fun _ => nofun) (fun _ _ inside => inside) (fun _ => nofun)
    ?array ?object isValue
  case array =>
    intro items values each number inside
    obtain ⟨value, isOne, inValue⟩ := Value.mem_numbers_array.1 inside
    obtain ⟨item, isItem, among⟩ := Answer.exists_of_mem_right each isOne
    exact mem_itemsNumbers.2 ⟨item, isItem, among number inValue⟩
  case object =>
    intro members entries each number inside
    obtain ⟨entry, isEntry, inEntry⟩ := Value.mem_numbers_object.1 inside
    obtain ⟨member, isMember, -, among⟩ :=
      Answer.exists_of_mem_right each (NameMap.mem_of_mem_ofList isEntry)
    exact mem_membersNumbers.2 ⟨member, isMember, among number inEntry⟩

end Node

/-- What is put together of proper numbers is proper. -/
theorem Build.isProper_isInvariant : IsInvariant Number.IsProper (fun _ node => node.IsProper) where
  null _ := nofun
  boolean _ _ := nofun
  number _ _ proper := List.forall_mem_singleton.2 proper
  string _ _ := nofun
  malformed _ := nofun
  array _ _ _ each := Node.isProper_array.2 each
  object _ _ _ each := Node.isProper_object.2 each

/-- All numbers that are read are proper. -/
theorem Document.isProper_ofText (text : String) : (Document.ofText text).root.IsProper :=
  Document.holds_ofText Build.isProper_isInvariant fun _ member =>
    Scan.run_isProper text.toList (show Scan.between.IsProper from trivial) _ member

end PhysicsPrefab.Json
