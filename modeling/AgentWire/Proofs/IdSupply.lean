import AgentWire.IdSupply
import AgentWire.Proofs.Json.Spelling
import Mathlib.Data.List.Nodup

namespace AgentWire.IdSupply

/-!
# Identifiers that are made

The identifiers of one supply differ from each other for as long as their numbers fit in
the fifteen digits that tell them apart.
-/

/-- How many different identifiers a supply can hand out. -/
def capacity : Nat :=
  Nat.pow 16 15

/-- The next identifiers of a supply. -/
def next (supply : IdSupply) (count : Nat) : List String :=
  (List.range count).map fun index => idAt supply.seed (supply.used + index)

@[simp] theorem length_hexPlaces (value places : Nat) :
    (hexPlaces value places).length = places := by
  induction places generalizing value with
  | zero =>
      rfl
  | succ places inductionHypothesis =>
      simp [hexPlaces, inductionHypothesis]

/-- The last digits of a number tell its remainder. -/
theorem mod_eq_of_hexPlaces
    {places left right : Nat}
    (same : hexPlaces left places = hexPlaces right places) :
    left % Nat.pow 16 places = right % Nat.pow 16 places := by
  simp only [Nat.pow_eq]
  induction places generalizing left right with
  | zero =>
      simp [Nat.mod_one]
  | succ places inductionHypothesis =>
      rw [hexPlaces, hexPlaces] at same
      obtain ⟨higher, last⟩ := List.append_inj same (by simp)
      have digits := congrArg Text.hexValue? (List.cons.inj last).1
      rw [Text.hexValue?_hexDigit (by omega), Text.hexValue?_hexDigit (by omega)] at digits
      rw [Nat.pow_succ', Nat.mod_mul, Nat.mod_mul, inductionHypothesis higher,
        Option.some.inj digits]

/-- Identifiers that are the same have numbers that differ by a multiple of the capacity. -/
theorem mod_eq_of_idAt
    {seed left right : Nat}
    (same : idAt seed left = idAt seed right) :
    left % capacity = right % capacity := by
  have texts := String.ofList_injective same
  simp only [List.append_assoc, List.cons_append, List.append_cancel_left_eq,
    List.cons.injEq, true_and] at texts
  obtain ⟨higher, lower⟩ := List.append_inj texts (by simp)
  have high := mod_eq_of_hexPlaces higher
  have low := mod_eq_of_hexPlaces (List.cons.inj lower).2
  simp only [Nat.pow_eq] at high low
  simp only [capacity, Nat.pow_eq]
  omega

/-- The last of the next identifiers comes behind the others. -/
theorem next_succ (supply : IdSupply) (count : Nat) :
    supply.next (count + 1) =
      supply.next count ++ [idAt supply.seed (supply.used + count)] := by
  rw [next, List.range_succ, List.map_append]
  rfl

/-- The first of the next identifiers is the one that is handed out. -/
theorem next_succ_fresh (supply : IdSupply) (count : Nat) :
    supply.next (count + 1) = supply.fresh.1 :: supply.fresh.2.next count := by
  simp only [next, List.range_succ_eq_map, List.map_cons, List.map_map, fresh]
  refine congrArg _ (List.map_congr_left fun index _ => ?_)
  simp only [Function.comp_apply]
  congr 1
  omega

/-- The identifiers that a supply hands out are different. -/
theorem nodup_next
    {supply : IdSupply}
    {count : Nat}
    (fits : supply.used + count ≤ capacity) :
    (supply.next count).Nodup := by
  refine List.Nodup.map_on ?_ List.nodup_range
  intro left leftSmall right rightSmall same
  rw [List.mem_range] at leftSmall rightSmall
  have remainders := mod_eq_of_idAt same
  rw [Nat.mod_eq_of_lt (by omega), Nat.mod_eq_of_lt (by omega)] at remainders
  omega

/-- An identifier that is not empty is kept. -/
theorem orFresh_some
    {supply : IdSupply}
    {id : String}
    (named : id ≠ "") :
    supply.orFresh (some id) = (id, supply) := by
  have full : id.isEmpty = false := by
    simpa using named
  simp [orFresh, full]

/-- Without one, or for an empty one, the next identifier is handed out. -/
theorem orFresh_of_unnamed
    {supply : IdSupply}
    {given : Option String}
    (unnamed : (given.bind nonempty?).isNone) :
    supply.orFresh given = supply.fresh := by
  cases given with
  | none =>
      rfl
  | some id =>
      by_cases empty : id.isEmpty = true
      · simp [orFresh, empty]
      · simp [nonempty?, empty] at unnamed

/-- A name that is given takes nothing from the supply. -/
theorem snd_orFresh_of_named
    {supply : IdSupply}
    {given : Option String}
    (named : ¬(given.bind nonempty?).isNone) :
    (supply.orFresh given).2 = supply := by
  cases given with
  | none =>
      simp at named
  | some id =>
      by_cases empty : id.isEmpty = true
      · simp [nonempty?, empty] at named
      · simp [orFresh, empty]

end AgentWire.IdSupply
