import AgentWire.Json.Basic

namespace AgentWire.Json

/-!
# Equality of documents

Two documents are equal when they are built alike; this is decidable.
-/

mutual

/-- Whether two documents are the same. -/
def same : Json → Json → Bool
  | .null, .null => true
  | .bool left, .bool right => left == right
  | .number left, .number right => decide (left = right)
  | .string left, .string right => left == right
  | .array left, .array right => sameItems left right
  | .object left, .object right => sameMembers left right
  | _, _ => false

/-- Whether two lists hold the same documents. -/
def sameItems : List Json → List Json → Bool
  | [], [] => true
  | left :: lefts, right :: rights => same left right && sameItems lefts rights
  | _, _ => false

/-- Whether two lists hold the same members. -/
def sameMembers : List (String × Json) → List (String × Json) → Bool
  | [], [] => true
  | (leftName, left) :: lefts, (rightName, right) :: rights =>
      leftName == rightName && same left right && sameMembers lefts rights
  | _, _ => false

end

mutual

/-- Documents that are the same are equal. -/
theorem eq_of_same (left right : Json) (same : left.same right = true) : left = right := by
  match left, right with
  | .null, right =>
      cases right <;> simp_all [Json.same]
  | .bool _, right =>
      cases right <;> simp_all [Json.same]
  | .number _, right =>
      cases right <;> simp_all [Json.same]
  | .string _, right =>
      cases right <;> simp_all [Json.same]
  | .array items, right =>
      cases right with
      | array others =>
          rw [eq_of_sameItems items others (by simpa [Json.same] using same)]
      | _ => simp [Json.same] at same
  | .object members, right =>
      cases right with
      | object others =>
          rw [eq_of_sameMembers members others (by simpa [Json.same] using same)]
      | _ => simp [Json.same] at same

/-- Lists of the same documents are equal. -/
theorem eq_of_sameItems
    (lefts rights : List Json)
    (same : sameItems lefts rights = true) :
    lefts = rights := by
  match lefts, rights with
  | [], [] => rfl
  | [], _ :: _ => simp [sameItems] at same
  | _ :: _, [] => simp [sameItems] at same
  | left :: lefts, right :: rights =>
      simp only [sameItems, Bool.and_eq_true] at same
      rw [eq_of_same left right same.1, eq_of_sameItems lefts rights same.2]

/-- Lists of the same members are equal. -/
theorem eq_of_sameMembers
    (lefts rights : List (String × Json))
    (same : sameMembers lefts rights = true) :
    lefts = rights := by
  match lefts, rights with
  | [], [] => rfl
  | [], _ :: _ => simp [sameMembers] at same
  | _ :: _, [] => simp [sameMembers] at same
  | (leftName, left) :: lefts, (rightName, right) :: rights =>
      simp only [sameMembers, Bool.and_eq_true, beq_iff_eq] at same
      rw [same.1.1, eq_of_same left right same.1.2, eq_of_sameMembers lefts rights same.2]

end

mutual

/-- A document is the same as itself. -/
theorem same_self : ∀ document : Json, same document document = true
  | .null => rfl
  | .bool _ => by simp [same]
  | .number _ => by simp [same]
  | .string _ => by simp [same]
  | .array items => by simp [same, sameItems_self items]
  | .object members => by simp [same, sameMembers_self members]

/-- Items are the same as themselves. -/
theorem sameItems_self : ∀ items : List Json, sameItems items items = true
  | [] => rfl
  | item :: rest => by simp [sameItems, same_self item, sameItems_self rest]

/-- Members are the same as themselves. -/
theorem sameMembers_self : ∀ members : List (String × Json), sameMembers members members = true
  | [] => rfl
  | (_, value) :: rest => by simp [sameMembers, same_self value, sameMembers_self rest]

end

/-- Equality of documents is decided by comparing them part by part. -/
instance : DecidableEq Json := fun left right =>
  decidable_of_iff (left.same right = true)
    ⟨eq_of_same left right, fun equal => equal ▸ same_self left⟩

end AgentWire.Json
