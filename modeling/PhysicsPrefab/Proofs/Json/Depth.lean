import PhysicsPrefab.Proofs.Json.Building
import PhysicsPrefab.Proofs.Json.Invariants
import PhysicsPrefab.Proofs.Json.Members

/-!
# Depth of what is read

The machine that puts a document together refuses to open too much at once. So what it has put
together is never deeper than that (`Document.depth_ofText`), and neither is a value that is read
from it (`Node.depth_value?`): whatever is read from a file can be written and read again.
-/

namespace PhysicsPrefab.Json

namespace Value

/-- Items are no deeper than a limit if none of them is. -/
theorem itemsDepth_le {items : List Value} {limit : Nat} :
    itemsDepth items ≤ limit ↔ ∀ item ∈ items, item.depth ≤ limit := by
  induction items with
  | nil => simp [itemsDepth]
  | cons item rest ih => simp [itemsDepth, ih]

/-- Members are no deeper than a limit if none of them is. -/
theorem membersDepth_le {members : List (String × Value)} {limit : Nat} :
    membersDepth members ≤ limit ↔ ∀ member ∈ members, member.2.depth ≤ limit := by
  induction members with
  | nil => simp [membersDepth]
  | cons member rest ih => simp [membersDepth, ih]

end Value

namespace Node

mutual

/-- How many arrays and objects of a tree are open at once. -/
def depth : Node → Nat
  | .array items _ => 1 + itemsDepth items
  | .object members _ => 1 + membersDepth members
  | _ => 0

/-- How many arrays and objects of some trees are open at once. -/
def itemsDepth : List Node → Nat
  | [] => 0
  | item :: rest => max (depth item) (itemsDepth rest)

/-- How many arrays and objects of some members are open at once. -/
def membersDepth : List (String × Node) → Nat
  | [] => 0
  | (_, item) :: rest => max (depth item) (membersDepth rest)

end

/-- An array is open around its items. -/
theorem depth_array_le {items : List Node} {closed : Bool} {limit : Nat} :
    (array items closed).depth ≤ limit + 1 ↔ ∀ item ∈ items, item.depth ≤ limit := by
  rw [depth, Nat.add_comm, Nat.add_le_add_iff_right]
  induction items with
  | nil => simp [itemsDepth]
  | cons item rest ih => simp [itemsDepth, ih]

/-- An object is open around its members. -/
theorem depth_object_le {members : List (String × Node)} {closed : Bool} {limit : Nat} :
    (object members closed).depth ≤ limit + 1 ↔ ∀ member ∈ members, member.2.depth ≤ limit := by
  rw [depth, Nat.add_comm, Nat.add_le_add_iff_right]
  induction members with
  | nil => simp [membersDepth]
  | cons member rest ih => simp [membersDepth, ih]

/-- An item is less deep than its array. -/
theorem depth_lt_of_mem_array {items : List Node} {closed : Bool} {item : Node}
    (member : item ∈ items) : item.depth < (array items closed).depth := by
  have whole : (array items closed).depth ≤ itemsDepth items + 1 := Nat.le_of_eq (Nat.add_comm ..)
  have bound := depth_array_le.1 whole item member
  rw [depth]
  omega

/-- A member is less deep than its object. -/
theorem depth_lt_of_mem_object {members : List (String × Node)} {closed : Bool}
    {entry : String × Node} (member : entry ∈ members) :
    entry.2.depth < (object members closed).depth := by
  have whole : (object members closed).depth ≤ membersDepth members + 1 :=
    Nat.le_of_eq (Nat.add_comm ..)
  have bound := depth_object_le.1 whole entry member
  rw [depth]
  omega

/-- A value is no deeper than its tree. -/
theorem depth_value? {node : Node} {value : Value} (isValue : node.value? = some value) :
    value.depth ≤ node.depth := by
  refine value?_induction (Nat.le_refl 0) (fun _ => Nat.le_refl 0) (fun _ => Nat.le_refl 0)
    (fun _ => Nat.le_refl 0) ?array ?object isValue
  case array =>
    intro items values each
    refine Nat.add_le_add_left (Value.itemsDepth_le.2 fun value inside => ?_) 1
    obtain ⟨item, isItem, bound⟩ := Answer.exists_of_mem_right each inside
    have less : item.depth < 1 + itemsDepth items := @depth_lt_of_mem_array items true item isItem
    omega
  case object =>
    intro members entries each
    refine Nat.add_le_add_left (Value.membersDepth_le.2 fun entry inside => ?_) 1
    obtain ⟨member, isMember, -, bound⟩ :=
      Answer.exists_of_mem_right each (NameMap.mem_of_mem_ofList inside)
    have less : member.2.depth < 1 + membersDepth members :=
      @depth_lt_of_mem_object members true member isMember
    omega

end Node

/-- Nothing that is put together is too deep. -/
theorem Build.depth_isInvariant : IsInvariant (fun _ => True)
    (fun level node => node.depth + level ≤ depthLimit) where
  null inRange := (Nat.zero_add _).trans_le inRange
  boolean inRange _ := (Nat.zero_add _).trans_le inRange
  number inRange _ _ := (Nat.zero_add _).trans_le inRange
  string inRange _ := (Nat.zero_add _).trans_le inRange
  malformed inRange := (Nat.zero_add _).trans_le inRange
  array {level} inRange items closed each := by
    have bound : (Node.array items closed).depth ≤ depthLimit - level - 1 + 1 :=
      Node.depth_array_le.2 fun item member => by
        have := each item member
        omega
    omega
  object {level} inRange members closed each := by
    have bound : (Node.object members closed).depth ≤ depthLimit - level - 1 + 1 :=
      Node.depth_object_le.2 fun member inside => by
        have := each member inside
        omega
    omega

/-- Nothing that is read is too deep. -/
theorem Document.depth_ofText (text : String) :
    (Document.ofText text).root.depth ≤ Build.depthLimit :=
  Document.holds_ofText Build.depth_isInvariant fun _ _ => trivial

end PhysicsPrefab.Json
