import AgentWire.Chat.Registry
import AgentWire.Proofs.Client.Inbound
import AgentWire.Proofs.Chat.State

namespace AgentWire.Server

/-!
# What arrives of an item

Documents that are sent as text inside of events are read back by a client, as
long as they hold no doubles and are not nested too deeply.  An item arrives
with its custom payloads replaced by their documents.  Empty texts and data that
is no state do not arrive.
-/

open Chat (ContentItem FunctionCall Payload Registry)

/--
A free-form document without doubles that is nested at most 120 levels deeply.
Its objects are dictionaries, whose members are in order.
-/
structure Portable (document : Json) : Prop where
  canonical : document.canonical = true
  whole : document.wholeNumbers = true
  shallow : document.depth ≤ 120

/--
An item all of whose documents are portable once they are made, and whose state
is a state.  The arguments of a call are a dictionary.
-/
def Sendable (registry : Registry) : ContentItem → Prop
  | .text _ | .error _ _ => True
  | .call made =>
      ∀ arguments, made.arguments = some arguments →
        Dictionary.sortedNames (arguments.map (·.1)) = true ∧
          ∀ entry ∈ arguments, ∀ document,
            registry.serialize entry.2 = .ok document → Portable document
  | .result given =>
      ∀ document, registry.serialize given.value = .ok document → Portable document
  | .data mediaType bytes =>
      (mediaType ≠ Chat.snapshotType ∧ mediaType ≠ Chat.deltaType) ∨
      (∃ document,
        document ≠ .null ∧ Portable document ∧
          .data mediaType bytes = Chat.encodeSnapshot document) ∨
      ∃ patch : Patch,
        (∀ operation ∈ patch, ∀ value,
          operation.value? = some value → Portable value) ∧
          .data mediaType bytes = Chat.encodeDelta patch

/-- A payload as its document, if it has one. -/
def plain (registry : Registry) (payload : Payload) : Payload :=
  match registry.serialize payload with
  | .ok document => .json document
  | .error _ => payload

/-- The item that a client receives when an item is sent, if it receives one. -/
def arrival? (registry : Registry) : ContentItem → Option ContentItem
  | .text words => if words.isEmpty then none else some (.text words)
  | .error message code => some (.error message code)
  | .call made =>
      some (.call { made with
        arguments := made.arguments.map fun arguments =>
          arguments.map fun (name, payload) => (name, plain registry payload) })
  | .result given => some (.result { given with value := plain registry given.value })
  | .data mediaType bytes =>
      if mediaType = Chat.snapshotType ∨ mediaType = Chat.deltaType then
        some (.data mediaType bytes)
      else
        none

/-- The arguments of a call can be read back once they are written. -/
def Readable (registry : Registry) (call : FunctionCall) : Prop :=
  ∀ arguments document,
    call.arguments = some arguments →
    registry.serializeArguments arguments = .ok document →
    document.wholeNumbers = true ∧ document.depth ≤ Json.Route.deepest

/-- The arguments that a client reads from the members of an object. -/
def readArguments (members : List (String × Json)) : Chat.Arguments :=
  (Dictionary.ofEntries (Json.normalMembers members)).map
    fun (name, value) => (name, .json value)

section Portable

variable
  {registry : Registry}
  {arguments : Chat.Arguments}
  {members : List (String × Json)}

/-- The members that arguments make have their names and their documents. -/
theorem members_of_serializeEntries
    (portable :
      ∀ entry ∈ arguments, ∀ document,
        registry.serialize entry.2 = .ok document → Portable document)
    (serialized : registry.serializeEntries arguments = .ok members) :
    members.map (·.1) = arguments.map (·.1) ∧
      Json.canonicalMembers members = true ∧
      Json.wholeNumbersMembers members = true ∧
      Json.depthMembers members ≤ 120 ∧
      members.map (fun (name, value) => (name, Payload.json value)) =
        arguments.map (fun (name, payload) => (name, plain registry payload)) := by
  induction arguments generalizing members with
  | nil =>
      cases serialized
      simp [Json.canonicalMembers, Json.wholeNumbersMembers, Json.depthMembers]
  | cons entry rest inductionHypothesis =>
      obtain ⟨name, payload⟩ := entry
      rw [Registry.serializeEntries] at serialized
      cases first : registry.serialize payload with
      | error problem =>
          simp [first, bind, Except.bind] at serialized
      | ok document =>
          cases others : registry.serializeEntries rest with
          | error problem =>
              simp [first, others, bind, Except.bind] at serialized
          | ok values =>
              simp only [first, others, bind, Except.bind, Except.ok.injEq] at serialized
              subst serialized
              have fits := portable (name, payload) (by simp) document first
              obtain ⟨names, canonical, whole, shallow, payloads⟩ :=
                inductionHypothesis
                  (fun entry member => portable entry (by simp [member])) others
              have depths := Nat.max_le.mpr ⟨fits.shallow, shallow⟩
              simp [names, canonical, whole, depths, payloads, plain, first, fits.canonical,
                fits.whole, Json.canonicalMembers, Json.wholeNumbersMembers,
                Json.depthMembers]

/-- Arguments whose documents are portable arrive in their plain form. -/
theorem readArguments_of_portable
    (sorted : Dictionary.sortedNames (arguments.map (·.1)) = true)
    (portable :
      ∀ entry ∈ arguments, ∀ document,
        registry.serialize entry.2 = .ok document → Portable document)
    (serialized : registry.serializeEntries arguments = .ok members) :
    readArguments members =
      arguments.map (fun (name, payload) => (name, plain registry payload)) := by
  obtain ⟨names, canonical, -, -, payloads⟩ := members_of_serializeEntries portable serialized
  rw [readArguments, Json.normalMembers_of_canonical members canonical,
    Dictionary.ofEntries_of_sorted (names ▸ sorted), payloads]

/-- A call that can be sent can be read back. -/
theorem Sendable.readable
    {call : FunctionCall}
    (sendable : Sendable registry (.call call)) :
    Readable registry call := by
  intro arguments document made serialized
  obtain ⟨-, portable⟩ := sendable arguments made
  rw [Registry.serializeArguments] at serialized
  cases entries : registry.serializeEntries arguments with
  | error problem =>
      simp [entries, bind, Except.bind] at serialized
  | ok members =>
      simp only [entries, bind, Except.bind, Except.ok.injEq] at serialized
      subst serialized
      obtain ⟨-, -, whole, shallow, -⟩ := members_of_serializeEntries portable entries
      rw [Json.wholeNumbers, Json.depth]
      exact ⟨whole, Nat.le_trans (Nat.succ_le_succ shallow) (by decide)⟩

/-- A result whose document is portable arrives in its plain form. -/
theorem parseResult_of_portable
    {payload : Payload}
    {content : String}
    (portable :
      ∀ document, registry.serialize payload = .ok document → Portable document)
    (serialized : registry.serializeContent payload = .ok content) :
    .json (Client.parseResult content) = plain registry payload := by
  rw [Registry.serializeContent] at serialized
  cases made : registry.serialize payload with
  | error problem =>
      simp [made, bind, Except.bind] at serialized
  | ok document =>
      have fits := portable document made
      have read :=
        Client.parseResult_text fits.whole (Nat.le_trans fits.shallow (by decide))
      rw [Json.normal_of_canonical document fits.canonical] at read
      by_cases null : document = .null
      · subst null
        simp only [made, bind, Except.bind, Except.ok.injEq] at serialized
        subst serialized
        simp [plain, made, Client.parseResult]
      · have written : content = document.text := by
          cases document <;>
            simp_all [bind, Except.bind]
        rw [written, read]
        simp [plain, made]

end Portable

/-- A portable state document is read from its item. -/
theorem decodeState_encodeSnapshot
    {document : Json}
    (portable : Portable document) :
    Chat.decodeState (Chat.encodeSnapshot document) = .ok (some (.snapshot document)) := by
  have shallow : document.depth ≤ Json.Route.deepest := Nat.le_trans portable.shallow (by decide)
  rw [Chat.encodeSnapshot, Chat.decodeState_snapshot,
    Chat.decodeSnapshot_bytes portable.canonical portable.whole shallow]
  rfl

/-- A patch with portable values is read from its item. -/
theorem decodeState_encodeDelta
    {patch : Patch}
    (portable :
      ∀ operation ∈ patch, ∀ value, operation.value? = some value → Portable value) :
    Chat.decodeState (Chat.encodeDelta patch) = .ok (some (.delta patch)) := by
  rw [Chat.encodeDelta, Chat.decodeState_delta, Chat.decodeDelta_bytes]
  case canonical => exact fun _ member _ carried => (portable _ member _ carried).canonical
  case whole => exact fun _ member _ carried => (portable _ member _ carried).whole
  case shallow =>
    intro operation member value carried
    exact Nat.le_trans (portable operation member value carried).shallow (by decide)
  rfl

/-- The item of the state that some data carries, if it carries one that is not null. -/
def stateItem? : Option Chat.StatePayload → Option ContentItem
  | none => none
  | some (.snapshot .null) => none
  | some (.snapshot document) => some (Chat.encodeSnapshot document)
  | some (.delta patch) => some (Chat.encodeDelta patch)

/-- The state of sendable data arrives as it was, and other data does not arrive. -/
theorem arrival?_of_decodeState
    {registry : Registry}
    {mediaType : String}
    {bytes : Text.Bytes}
    {state : Option Chat.StatePayload}
    (sendable : Sendable registry (.data mediaType bytes))
    (decoded : Chat.decodeState (.data mediaType bytes) = .ok state) :
    arrival? registry (.data mediaType bytes) = stateItem? state := by
  rcases sendable with
    ⟨noSnapshot, noDelta⟩ | ⟨document, solid, portable, shape⟩ | ⟨patch, portable, shape⟩
  · simp only [Chat.decodeState, noSnapshot, noDelta, if_false, Except.ok.injEq] at decoded
    subst decoded
    simp [arrival?, noSnapshot, noDelta, stateItem?]
  · rw [shape, decodeState_encodeSnapshot portable] at decoded
    cases decoded
    rw [shape]
    cases document <;>
      simp_all [arrival?, Chat.encodeSnapshot, stateItem?]
  · rw [shape, decodeState_encodeDelta portable] at decoded
    cases decoded
    rw [shape]
    simp [arrival?, Chat.encodeDelta, stateItem?]

end AgentWire.Server
