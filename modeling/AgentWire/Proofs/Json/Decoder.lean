import AgentWire.Proofs.Dictionary
import AgentWire.Proofs.Json.Reader
import AgentWire.Json.Decoder

namespace AgentWire.Json

/-!
# Written documents are decoded

Reading the text of a document as a free-form document gives the document with
the members of its objects in order, as long as it holds no doubles and is not
nested too deeply.  A canonical document is given back as it was.
-/

mutual

/-- The free-form document of a document: every object has its members in order, each once. -/
def normal : Json → Json
  | .array items => .array (normalItems items)
  | .object members => ofMembers (normalMembers members)
  | document => document

/-- The free-form documents of items. -/
def normalItems : List Json → List Json
  | [] => []
  | item :: rest => normal item :: normalItems rest

/-- The free-form documents of members. -/
def normalMembers : List (String × Json) → List (String × Json)
  | [] => []
  | (name, value) :: rest => (name, normal value) :: normalMembers rest

end

theorem normalItems_eq_map (items : List Json) : normalItems items = items.map normal := by
  induction items with
  | nil => rw [normalItems, List.map_nil]
  | cons item rest inductionHypothesis => rw [normalItems, List.map_cons, inductionHypothesis]

theorem normalMembers_eq_map (members : List (String × Json)) :
    normalMembers members = members.map fun member => (member.1, member.2.normal) := by
  induction members with
  | nil => rw [normalMembers, List.map_nil]
  | cons member rest inductionHypothesis =>
      rw [normalMembers, List.map_cons, inductionHypothesis]

mutual

/-- A canonical document is its own free-form document. -/
theorem normal_of_canonical
    (document : Json)
    (canonical : document.canonical = true) :
    document.normal = document := by
  cases document with
  | array items =>
      rw [Json.canonical] at canonical
      rw [normal, normalItems_of_canonical items canonical]
  | object members =>
      rw [Json.canonical, Bool.and_eq_true] at canonical
      rw [normal, normalMembers_of_canonical members canonical.2, ofMembers,
        Dictionary.ofEntries_of_sorted canonical.1]
  | null | bool | number | string =>
      rw [normal] <;> simp

/-- Canonical items are normal as they are. -/
theorem normalItems_of_canonical
    (items : List Json)
    (canonical : canonicalItems items = true) :
    normalItems items = items := by
  cases items with
  | nil =>
      rw [normalItems]
  | cons item rest =>
      rw [canonicalItems, Bool.and_eq_true] at canonical
      rw [normalItems, normal_of_canonical item canonical.1,
        normalItems_of_canonical rest canonical.2]

/-- Canonical members are normal as they are. -/
theorem normalMembers_of_canonical
    (members : List (String × Json))
    (canonical : canonicalMembers members = true) :
    normalMembers members = members := by
  cases members with
  | nil =>
      rw [normalMembers]
  | cons member rest =>
      obtain ⟨name, value⟩ := member
      rw [canonicalMembers, Bool.and_eq_true] at canonical
      rw [normalMembers, normal_of_canonical value canonical.1,
        normalMembers_of_canonical rest canonical.2]

end

theorem depthItems_le_iff
    {levels : Nat}
    {items : List Json} :
    depthItems items ≤ levels ↔ ∀ item ∈ items, item.depth ≤ levels := by
  induction items with
  | nil => simp [depthItems]
  | cons item rest inductionHypothesis =>
      rw [depthItems, Nat.max_le, inductionHypothesis, List.forall_mem_cons]

theorem depthMembers_le_iff
    {levels : Nat}
    {members : List (String × Json)} :
    depthMembers members ≤ levels ↔ ∀ member ∈ members, member.2.depth ≤ levels := by
  induction members with
  | nil => simp [depthMembers]
  | cons member rest inductionHypothesis =>
      rw [depthMembers, Nat.max_le, inductionHypothesis, List.forall_mem_cons]

namespace Route

/-- Whether a route allows so many levels. -/
def Admits (route : Route) (levels : Nat) : Prop :=
  match route with
  | .text available => levels ≤ available
  | .tree | .buffer => True

theorem admits_buffer {levels : Nat} : Route.Admits .buffer levels :=
  trivial

theorem admits_tree {levels : Nat} : Route.Admits .tree levels :=
  trivial

/-- A route that admits one level more can be followed behind a bracket. -/
theorem Admits.enter
    {route : Route}
    {levels : Nat}
    (admits : route.Admits (levels + 1)) :
    ∃ inner, route.enter = .ok inner ∧ inner.Admits levels := by
  cases route with
  | text available =>
      cases available with
      | zero =>
          exact absurd admits (Nat.not_succ_le_zero levels)
      | succ available =>
          exact ⟨.text available, rfl, Nat.le_of_succ_le_succ admits⟩
  | tree =>
      exact ⟨.tree, rfl, trivial⟩
  | buffer =>
      exact ⟨.buffer, rfl, trivial⟩

/-- A route that admits some levels admits fewer. -/
theorem Admits.mono
    {route : Route}
    {few many : Nat}
    (admits : route.Admits many)
    (fewer : few ≤ many) :
    route.Admits few := by
  cases route with
  | text available =>
      exact Nat.le_trans fewer admits
  | tree =>
      trivial
  | buffer =>
      trivial

end Route

/-- Whatever is made of an error, a value stays. -/
theorem mapError_eq_ok
    {ε δ α : Type}
    {result : Except ε α}
    {change : ε → δ}
    {value : α} :
    result.mapError change = .ok value ↔ result = .ok value := by
  cases result with
  | error problem => exact iff_of_false (by rintro ⟨⟩) (by rintro ⟨⟩)
  | ok other =>
      change (Except.ok other : Except δ α) = .ok value ↔ _
      simp

/-- A result is known from its value, which can be computed and compared. -/
theorem eq_ok_of_toOption
    {ε α : Type}
    {result : Except ε α}
    {value : α}
    (found : result.toOption = some value) :
    result = .ok value := by
  cases result <;> simp_all [Except.toOption]

/-- Two steps in a row succeed if the first does, and the second with its value. -/
theorem bind_eq_ok
    {ε α β : Type}
    {first : Except ε α}
    {next : α → Except ε β}
    {result : β} :
    (first >>= next) = .ok result ↔ ∃ value, first = .ok value ∧ next value = .ok result := by
  cases first <;> simp [bind, Except.bind]

/-- A check and a step in a row succeed if both do. -/
theorem check_bind_eq_ok
    {ε α : Type}
    {check : Except ε Unit}
    {next : Unit → Except ε α}
    {value : α} :
    (check >>= next) = .ok value ↔ check = .ok () ∧ next () = .ok value := by
  rw [bind_eq_ok]
  exact ⟨fun ⟨⟨⟩, checked, read⟩ => ⟨checked, read⟩, fun ⟨checked, read⟩ => ⟨(), checked, read⟩⟩

namespace Reading

variable
  {α β : Type}
  {reading : Reading α}
  {value : α}

@[simp] theorem within_ok
    (step : Step)
    (value : α) :
    Reading.within step (.ok value) = .ok value :=
  rfl

/-- Naming the place of an error changes no reading that succeeds. -/
theorem within_eq_ok
    {step : Step} :
    reading.within step = .ok value ↔ reading = .ok value := by
  cases reading with
  | error refusal => exact iff_of_false (by rintro ⟨⟩) (by simp)
  | ok found => exact Iff.rfl

/-- Naming the whole text as the place of an error changes no reading that succeeds. -/
theorem whole_eq_ok : reading.whole = .ok value ↔ reading = .ok value := by
  cases reading with
  | error refusal => exact iff_of_false (by rintro ⟨⟩) (by simp)
  | ok found => exact Iff.rfl

end Reading

namespace Draft

theorem ofItems_eq_map (items : List Json) : ofItems items = items.map ofJson := by
  induction items with
  | nil =>
      rw [ofItems, List.map_nil]
  | cons item rest inductionHypothesis =>
      rw [ofItems, List.map_cons, inductionHypothesis]

theorem ofMembers_eq_map (members : List (String × Json)) :
    ofMembers members = members.map fun member => (.name member.1, ofJson member.2) := by
  induction members with
  | nil => rw [ofMembers, List.map_nil]
  | cons member rest inductionHypothesis =>
      rw [ofMembers, List.map_cons, inductionHypothesis]

@[simp] theorem inMember_ok
    {α : Type}
    (name : String)
    (draft : Draft)
    (value : α) :
    inMember name draft (.ok value) = .ok value := by
  simp [inMember]

theorem inMember_eq_ok
    {α : Type}
    {name : String}
    {draft : Draft}
    {reading : Reading α}
    {value : α} :
    inMember name draft reading = .ok value ↔ reading = .ok value := by
  unfold inMember
  split <;> simp [Reading.within_eq_ok]

mutual

/-- The draft of a document is decoded as its free-form document. -/
theorem document_ofJson
    (source : Json)
    {route : Route}
    (admits : route.Admits source.depth) :
    document route (.ofJson source) = .ok source.normal := by
  cases source with
  | array items =>
      rw [depth] at admits
      obtain ⟨inner, entered, admits⟩ := admits.enter
      have decoded := documentItems_ofItems items admits 0
      rw [ofJson, document, normal, entered]
      simp [decoded, closed, bind, Except.bind]
  | object members =>
      rw [depth] at admits
      obtain ⟨inner, entered, admits⟩ := admits.enter
      have decoded := documentMembers_ofMembers members admits
      rw [ofJson, document, normal, entered]
      simp [decoded, closedMembers, closed, bind, Except.bind]
  | null | bool | number | string =>
      rw [ofJson, document, normal] <;> simp

/-- Items that are drafted are read back in their normal form. -/
theorem documentItems_ofItems
    (items : List Json)
    {route : Route}
    (admits : route.Admits (depthItems items))
    (index : Nat) :
    documentItems route index (ofItems items) = .ok (normalItems items) := by
  cases items with
  | nil =>
      rw [ofItems, documentItems, normalItems]
  | cons item rest =>
      rw [depthItems] at admits
      have first := document_ofJson item (admits.mono (Nat.le_max_left _ _))
      have others :=
        documentItems_ofItems rest (admits.mono (Nat.le_max_right _ _)) (index + 1)
      rw [ofItems, documentItems, normalItems, first]
      simp [others, bind, Except.bind]

/-- Members that are drafted are read back in their normal form. -/
theorem documentMembers_ofMembers
    (members : List (String × Json))
    {route : Route}
    (admits : route.Admits (depthMembers members)) :
    documentMembers route (ofMembers members) = .ok (normalMembers members) := by
  cases members with
  | nil =>
      rw [ofMembers, documentMembers, normalMembers]
  | cons member rest =>
      obtain ⟨name, value⟩ := member
      rw [depthMembers] at admits
      have first := document_ofJson value (admits.mono (Nat.le_max_left _ _))
      have others :=
        documentMembers_ofMembers rest (admits.mono (Nat.le_max_right _ _))
      rw [ofMembers, documentMembers, normalMembers, first]
      simp [others, bind, Except.bind]

end

end Draft

namespace Decoder

/-- A text is decoded if its value is and nothing stands behind it. -/
theorem sheet_eq_ok
    {α : Type}
    {decoder : Decoder α}
    {read : Sheet}
    {value : α} :
    decoder.sheet read = .ok value ↔
      decoder .wholeText read.root = .ok value ∧ read.trailing = false := by
  rw [sheet, bind_eq_ok]
  cases read.trailing <;> simp [Reading.flawed]

/-- A text is decoded if its value is and nothing comes behind it. -/
theorem text_eq_ok
    {α : Type}
    {decoder : Decoder α}
    {text : String}
    {value : α} :
    decoder.text text = .ok value ↔
      decoder .wholeText (readText text).root = .ok value ∧ (readText text).trailing = false :=
  sheet_eq_ok

/-- A text is decoded from its bytes as it would be itself. -/
theorem bytes_encode
    {α : Type}
    (decoder : Decoder α)
    (text : String) :
    decoder.bytes (Text.Utf8.encode text) = decoder.text text := by
  rw [bytes, readBytes, Text.Utf8.glyphs_encode]
  rfl

/-- To decode a text that was written is to decode its document. -/
theorem text_text
    {α : Type}
    (decoder : Decoder α)
    {document : Json}
    (whole : document.wholeNumbers = true) :
    decoder.text document.text = decoder .wholeText (.ofJson document) := by
  rw [text, readText_text whole, sheet]
  cases decoder .wholeText (.ofJson document) <;> rfl

theorem bytes_bytes
    {α : Type}
    (decoder : Decoder α)
    {document : Json}
    (whole : document.wholeNumbers = true) :
    decoder.bytes document.bytes = decoder .wholeText (.ofJson document) := by
  rw [Json.bytes, bytes_encode, text_text decoder whole]

/-- The text of a document is read as its free-form document. -/
theorem json_text
    {document : Json}
    (whole : document.wholeNumbers = true)
    (shallow : document.depth ≤ Route.deepest) :
    json.text document.text = .ok document.normal := by
  rw [text_text json whole]
  exact Draft.document_ofJson document shallow

/-- The bytes of a canonical document are read as that document. -/
theorem json_bytes
    {document : Json}
    (canonical : document.canonical = true)
    (whole : document.wholeNumbers = true)
    (shallow : document.depth ≤ Route.deepest) :
    json.bytes document.bytes = .ok document := by
  have admits : Route.Admits .wholeText document.depth :=
    shallow
  have read := Draft.document_ofJson document admits
  rw [normal_of_canonical document canonical] at read
  rw [bytes_bytes json whole]
  exact read

end Decoder

end AgentWire.Json
