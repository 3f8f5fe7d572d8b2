import AgentWire.Chat.Registry
import AgentWire.Proofs.Json.Decoder
import Mathlib.Data.List.Forall2

namespace AgentWire

/-!
# What a registry can serialize

A payload has a document exactly if it is one or if a serializer that succeeds is
registered for its type.  The arguments of a call become an object exactly if each of
them has a document, and the object then has all of them under their names.
-/

/-- A list has an image under a relation exactly if each of its items has one. -/
theorem exists_forall₂_iff
    {α β : Type}
    {relation : α → β → Prop}
    {items : List α} :
    (∃ images, List.Forall₂ relation items images) ↔
      ∀ item ∈ items, ∃ image, relation item image := by
  induction items with
  | nil =>
      simp
  | cons item rest inductionHypothesis =>
      rw [List.forall_mem_cons, ← inductionHypothesis]
      simp only [List.forall₂_cons_left_iff]
      constructor
      · rintro ⟨_, image, images, first, others, rfl⟩
        exact ⟨⟨image, first⟩, images, others⟩
      · rintro ⟨⟨image, first⟩, images, others⟩
        exact ⟨_, image, images, first, others, rfl⟩

namespace Chat

/-- A payload is a document, or a serializer is registered for its type and succeeds on it. -/
def Serializable (registry : Registry) : Payload → Prop
  | .json _ => True
  | .custom value =>
      ∃ serializer document,
        registry.find? value.typeName = some serializer ∧
          serializer.serialize value.content = .ok document

/-- Members of an object hold payloads as documents, under the same names in the same order. -/
def HeldBy (registry : Registry) (entries : Arguments) (members : List (String × Json)) : Prop :=
  List.Forall₂
    (fun entry member => member.1 = entry.1 ∧ registry.serialize entry.2 = .ok member.2)
    entries
    members

namespace Registry

variable {registry : Registry}

/-- A payload has a document exactly if it is serializable. -/
theorem serialize_ok_iff {payload : Payload} :
    (∃ document, registry.serialize payload = .ok document) ↔
      Serializable registry payload := by
  cases payload with
  | json value =>
      simp [serialize, Serializable]
  | custom value =>
      cases found : registry.find? value.typeName <;>
        simp [serialize, Serializable, found]

/-- Entries make members exactly if each payload makes its document, in order. -/
theorem serializeEntries_eq_ok_iff
    {entries : List (String × Payload)}
    {members : List (String × Json)} :
    registry.serializeEntries entries = .ok members ↔ HeldBy registry entries members := by
  induction entries generalizing members with
  | nil =>
      simp [serializeEntries, HeldBy, eq_comm]
  | cons entry rest inductionHypothesis =>
      obtain ⟨name, payload⟩ := entry
      simp only [HeldBy] at inductionHypothesis
      simp only [serializeEntries, Json.bind_eq_ok, inductionHypothesis, HeldBy,
        List.forall₂_cons_left_iff, Except.ok.injEq]
      constructor
      · rintro ⟨value, first, values, others, rfl⟩
        exact ⟨(name, value), values, ⟨rfl, first⟩, others, rfl⟩
      · rintro ⟨⟨_, value⟩, values, ⟨rfl, first⟩, others, rfl⟩
        exact ⟨value, first, values, others, rfl⟩

/-- Arguments make an object of the documents of their payloads. -/
theorem serializeArguments_eq_ok_iff {arguments : Arguments} {document : Json} :
    registry.serializeArguments arguments = .ok document ↔
      ∃ members, HeldBy registry arguments members ∧ document = .object members := by
  simp only [serializeArguments, Json.bind_eq_ok, serializeEntries_eq_ok_iff, Except.ok.injEq]
  exact exists_congr fun members => and_congr_right fun _ => eq_comm

/-- Arguments are held by some members exactly if each of them can be serialized. -/
theorem heldBy_iff {entries : Arguments} :
    (∃ members, HeldBy registry entries members) ↔
      ∀ entry ∈ entries, Serializable registry entry.2 := by
  simp only [HeldBy, exists_forall₂_iff, ← serialize_ok_iff]
  constructor
  · intro held entry member
    obtain ⟨image, -, serialized⟩ := held entry member
    exact ⟨image.2, serialized⟩
  · intro held entry member
    obtain ⟨document, serialized⟩ := held entry member
    exact ⟨(entry.1, document), rfl, serialized⟩

/-- A result is sent as the text of its document, and null as the empty text. -/
theorem serializeContent_eq_ok_iff {payload : Payload} {content : String} :
    registry.serializeContent payload = .ok content ↔
      ∃ document,
        registry.serialize payload = .ok document ∧
          content = if document = .null then "" else document.text := by
  simp only [serializeContent, Json.bind_eq_ok]
  refine exists_congr fun document => and_congr_right fun _ => ?_
  cases document <;>
    simp [eq_comm]

end Registry

end Chat

end AgentWire
