import AgentWire.Proofs.Json.WrittenRecord
import AgentWire.RunInput

namespace AgentWire

/-!
# Written run requests are read back

A message is restored from its document, whatever its role and whichever of its parts are left
out; so is a request, as long as its documents are canonical and neither of the two that may be
left out is null.
-/

open Json (Decoder Draft Parts Route Schema)

namespace ToolCall

/-- A function call stands only inside a message, whose parts are set aside. -/
theorem decode_encode (call : ToolCall) : decode .buffer (.ofJson call.encode) = .ok call :=
  rfl

end ToolCall

namespace Message

/-- The members of a message behind its role. -/
def members : Message → List (String × Json)
  | .spoken _ id content name =>
      [("id", .string id), ("content", .string content)] ++ Json.member? "name" name .string
  | .assistant id content name toolCalls =>
      ("id", .string id)
        :: Json.member? "content" content .string
        ++ Json.member? "name" name .string
        ++ Json.member? "toolCalls" toolCalls (fun calls => .array (calls.map ToolCall.encode))
  | .tool id content toolCallId =>
      [("id", .string id), ("content", .string content), ("toolCallId", .string toolCallId)]

theorem encode_eq (message : Message) :
    message.encode = .object (("role", .string message.role.name) :: message.members) := by
  cases message <;> rfl

/-- No member of a message has the name under which its role stands. -/
theorem members_ne_role (message : Message) :
    ∀ member ∈ message.members, member.1 ≠ "role" := by
  cases message with
  | spoken speaker id content name => cases name <;> simp [members, Json.member?]
  | assistant id content name toolCalls =>
      cases content <;> cases name <;> cases toolCalls <;> simp [members, Json.member?]
  | tool id content toolCallId => simp [members]

theorem ofName?_name (role : Role) : Role.ofName? role.name = some role := by
  cases role <;> rfl

theorem name_mem (role : Role) : role.name ∈ Role.names := by
  cases role <;> simp [Role.names, Role.all]

section Assistant

variable
  (id : String)
  (content name : Option String)
  (toolCalls : Option (List ToolCall))

/-- The calls of a message are recovered. -/
theorem recovers_toolCalls :
    (Decoder.list ToolCall.decode).Recovers .buffer
      (fun calls => .array (calls.map ToolCall.encode)) toolCalls := by
  intro calls _
  refine ⟨by simp [Draft.ofJson], ?_⟩
  exact Decoder.list_ofItems rfl fun call _ => ToolCall.decode_encode call

/-- A message of the assistant is decoded from its members. -/
theorem decodeAssistant_members :
    decodeAssistant
        (.object (Draft.ofMembers (members (.assistant id content name toolCalls))) none) =
      .ok (.assistant id content name toolCalls) := by
  have contentRead := Decoder.recovers_string content .buffer
  have nameRead := Decoder.recovers_string name .buffer
  have callsRead := recovers_toolCalls toolCalls
  have different : ((members (.assistant id content name toolCalls)).map (·.1)).Nodup := by
    have fields : (assistantSchema.fields.map (·.name)).Nodup := by
      simp [assistantSchema, Json.Field.required, Json.Field.omittable]
    refine fields.sublist ?_
    rw [members, List.map_append, List.map_append, List.map_cons]
    exact (((Json.sublist_member? "content" content _).cons_cons "id").append
      (Json.sublist_member? "name" name _)).append (Json.sublist_member? "toolCalls" toolCalls _)
  have fits :
      ∀ member ∈ members (.assistant id content name toolCalls),
        assistantSchema.Fits .buffer member := by
    intro member inside
    rcases List.mem_append.mp inside with inside | last
    · rcases List.mem_append.mp inside with inside | named
      · rcases List.mem_cons.mp inside with rfl | written
        · exact ⟨_, rfl, rfl⟩
        · exact Schema.fits_member? rfl rfl contentRead member written
      · exact Schema.fits_member? rfl rfl nameRead member named
    · exact Schema.fits_member? rfl rfl callsRead member last
  have parts :
      assistantSchema.parts .buffer
          (.object (Draft.ofMembers (members (.assistant id content name toolCalls))) none) =
        .ok ⟨.buffer, Json.noted (members (.assistant id content name toolCalls))⟩ :=
    Schema.parts_ofMembers rfl different fits
  have lookups :
      (members (.assistant id content name toolCalls)).lookup "content" = content.map .string ∧
        (members (.assistant id content name toolCalls)).lookup "name" = name.map .string ∧
        (members (.assistant id content name toolCalls)).lookup "toolCalls" =
          toolCalls.map fun calls => .array (calls.map ToolCall.encode) := by
    simp [members, List.lookup_append, List.lookup_cons, Json.lookup_member?_self,
      Json.lookup_member?_of_ne]
  obtain ⟨contentFound, nameFound, callsFound⟩ := lookups
  have first := Parts.optional_member? contentFound contentRead
  have second := Parts.optional_member? nameFound nameRead
  have third := Parts.optional_member? callsFound callsRead
  have idRead :
      (⟨.buffer, Json.noted (members (.assistant id content name toolCalls))⟩ : Parts).required
          "id" Decoder.string = .ok id :=
    rfl
  rw [decodeAssistant, parts]
  simp only [idRead, first, second, third, bind, Except.bind]

end Assistant

/-- The parts of a message whose role is known are read back. -/
theorem decodeParts_members (message : Message) :
    decodeParts message.role (.object (Draft.ofMembers message.members) none) = .ok message := by
  cases message with
  | spoken speaker id content name => cases speaker <;> cases name <;> rfl
  | assistant id content name toolCalls => exact decodeAssistant_members id content name toolCalls
  | tool id content toolCallId => rfl

/-- A message is restored from its document. -/
theorem restores (message : Message) : decode.Restores encode message := by
  intro route admits
  rw [encode_eq] at admits ⊢
  rw [decode, Decoder.tagged_ofMembers (name_mem message.role) message.members_ne_role admits]
  simp only [bind, Except.bind, ofName?_name, decodeParts_members]
  rfl

end Message

/-- A piece of context is given back from its document. -/
theorem Context.restores (context : Context) : decode.Restores encode context := by
  intro route admits
  rw [encode, Json.depth] at admits
  obtain ⟨inner, entered, -⟩ := admits.enter
  have visited :
      schema.visit inner []
          [(.name "description", .string context.description),
           (.name "value", .string context.value)] =
        .ok [("description", .string context.description), ("value", .string context.value)] :=
    rfl
  simp only [encode, decode, Draft.ofJson, Draft.ofMembers]
  rw [Schema.parts_object entered visited]
  rfl

namespace Tool

variable {tool : Tool}

/-- The members of a tool. -/
def members (tool : Tool) : List (String × Json) :=
  [("name", .string tool.name), ("description", .string tool.description),
   ("parameters", tool.parameters)]

theorem encode_eq (tool : Tool) : tool.encode = .object tool.members :=
  rfl

/-- A tool with canonical parameters is given back from its document. -/
theorem restores (canonical : tool.parameters.canonical = true) : decode.Restores encode tool := by
  intro route admits
  rw [encode_eq, Json.depth] at admits
  obtain ⟨inner, entered, admits⟩ := admits.enter
  have parametersRead : Decoder.json inner (.ofJson tool.parameters) = .ok tool.parameters := by
    refine Decoder.restores_json canonical inner (admits.mono ?_)
    simp [members, Json.depthMembers, Json.depth]
  have different : (tool.members.map (·.1)).Nodup := by simp [members]
  have fits : ∀ member ∈ tool.members, schema.Fits inner member := by
    refine List.forall_mem_cons.mpr ⟨⟨_, rfl, rfl⟩, ?_⟩
    refine List.forall_mem_cons.mpr ⟨⟨_, rfl, rfl⟩, ?_⟩
    exact List.forall_mem_singleton.mpr ⟨_, rfl, Decoder.check_of_ok parametersRead⟩
  have parametersFound :
      (⟨inner, Json.noted tool.members⟩ : Parts).required "parameters" Decoder.json =
        .ok tool.parameters :=
    Parts.required_noted rfl parametersRead
  rw [decode, encode_eq, Draft.ofJson, Schema.parts_ofMembers entered different fits]
  simp only [bind, Except.bind, parametersFound]
  rfl

end Tool

namespace RunInput

variable {input : RunInput}

/-- The members of a request. -/
def members (input : RunInput) : List (String × Json) :=
  [("threadId", .string input.threadId), ("runId", .string input.runId),
   ("messages", .array (input.messages.map Message.encode))]
    ++ Json.member? "state" input.state (·)
    ++ Json.listMember? "context" input.context Context.encode
    ++ Json.listMember? "tools" input.tools Tool.encode
    ++ Json.member? "forwardedProperties" input.forwardedProperties (·)

theorem encode_eq (input : RunInput) : input.encode = .object input.members :=
  rfl

/-- No member of an input has the name of another one. -/
theorem nodup_members (input : RunInput) : (input.members.map (·.1)).Nodup := by
  have fields : (schema.fields.map (·.name)).Nodup := by
    simp [schema, Json.Field.required, Json.Field.omittable, Json.Field.defaulted]
  refine fields.sublist ?_
  simp only [members, List.map_append, List.map_cons, List.map_nil]
  exact ((((List.Sublist.refl _).append (Json.sublist_member? "state" _ _)).append
    (Json.sublist_listMember? "context" _ _)).append (Json.sublist_listMember? "tools" _ _)).append
    (Json.sublist_member? "forwardedProperties" _ _)

theorem lookup_messages (input : RunInput) :
    input.members.lookup "messages" = some (.array (input.messages.map Message.encode)) :=
  rfl

theorem lookup_state (input : RunInput) :
    input.members.lookup "state" = input.state.map (·) := by
  simp [members, List.lookup_append, List.lookup_cons, Json.lookup_member?_self,
    Json.lookup_member?_of_ne, Json.lookup_listMember?_of_ne]

theorem lookup_context (input : RunInput) :
    input.members.lookup "context" =
      (Json.listMember? "context" input.context Context.encode).lookup "context" := by
  simp [members, List.lookup_append, List.lookup_cons, Json.lookup_member?_of_ne,
    Json.lookup_listMember?_of_ne]

theorem lookup_tools (input : RunInput) :
    input.members.lookup "tools" =
      (Json.listMember? "tools" input.tools Tool.encode).lookup "tools" := by
  simp [members, List.lookup_append, List.lookup_cons, Json.lookup_member?_of_ne,
    Json.lookup_listMember?_of_ne]

theorem lookup_forwardedProperties (input : RunInput) :
    input.members.lookup "forwardedProperties" = input.forwardedProperties.map (·) := by
  simp [members, List.lookup_append, List.lookup_cons, Json.lookup_member?_self,
    Json.lookup_member?_of_ne, Json.lookup_listMember?_of_ne]

/--
A request that its document tells in full: its free-form documents are canonical, and
neither of the two that may be left out is null.
-/
structure Canonical (input : RunInput) : Prop where
  state : Json.Settled input.state
  forwardedProperties : Json.Settled input.forwardedProperties
  parameters : ∀ tool ∈ input.tools, tool.parameters.canonical = true

section Restored

variable
  {route : Route}
  (admits : route.Admits (Json.depthMembers input.members))

include admits

/-- A route that leaves enough levels for a request leaves enough for each of its members. -/
theorem admits_member
    {name : String}
    {document : Json}
    (inside : (name, document) ∈ input.members) :
    route.Admits document.depth :=
  admits.mono (Json.depthMembers_le_iff.mp (Nat.le_refl _) _ inside)

/-- The messages of an input are read back. -/
theorem messages_read :
    Decoder.list Message.decode route (.ofJson (.array (input.messages.map Message.encode))) =
      .ok input.messages := by
  have inside : ("messages", .array (input.messages.map Message.encode)) ∈ input.members := by
    simp [members]
  have restores := Decoder.Restores.list fun message (_ : message ∈ input.messages) =>
    message.restores
  exact restores route (admits_member admits inside)

/-- The context of an input is read back where there is any. -/
theorem context_read (some : input.context ≠ []) :
    Decoder.list Context.decode route (.ofJson (.array (input.context.map Context.encode))) =
      .ok input.context := by
  have inside : ("context", .array (input.context.map Context.encode)) ∈ input.members := by
    cases given : input.context <;> simp_all [members, Json.listMember?]
  have restores := Decoder.Restores.list fun context (_ : context ∈ input.context) =>
    context.restores
  exact restores route (admits_member admits inside)

/-- The tools of an input are read back where there are any. -/
theorem tools_read
    (parameters : ∀ tool ∈ input.tools, tool.parameters.canonical = true)
    (some : input.tools ≠ []) :
    Decoder.list Tool.decode route (.ofJson (.array (input.tools.map Tool.encode))) =
      .ok input.tools := by
  have inside : ("tools", .array (input.tools.map Tool.encode)) ∈ input.members := by
    cases given : input.tools <;> simp_all [members, Json.listMember?]
  have restores := Decoder.Restores.list fun tool (member : tool ∈ input.tools) =>
    Tool.restores (parameters tool member)
  exact restores route (admits_member admits inside)

/-- The state of an input is recovered if it is settled. -/
theorem recovers_state (settled : Json.Settled input.state) :
    Decoder.json.Recovers route (·) input.state := by
  refine Decoder.recovers_json settled fun present given => ?_
  have inside : ("state", present) ∈ input.members := by simp [members, given, Json.member?]
  exact admits_member admits inside

/-- The properties that an input forwards are recovered if they are settled. -/
theorem recovers_forwardedProperties (settled : Json.Settled input.forwardedProperties) :
    Decoder.json.Recovers route (·) input.forwardedProperties := by
  refine Decoder.recovers_json settled fun present given => ?_
  have inside : ("forwardedProperties", present) ∈ input.members := by
    simp [members, given, Json.member?]
  exact admits_member admits inside

/-- Every member of a request is known, and can be read. -/
theorem fits_members (canonical : input.Canonical) :
    ∀ member ∈ input.members, schema.Fits route member := by
  have messages := messages_read admits
  have state := recovers_state admits canonical.state
  have context := context_read admits
  have tools := tools_read admits canonical.parameters
  have forwarded := recovers_forwardedProperties admits canonical.forwardedProperties
  simp only [members, List.forall_mem_append, List.forall_mem_cons]
  refine ⟨⟨⟨⟨⟨⟨_, rfl, rfl⟩, ⟨_, rfl, rfl⟩, ⟨_, rfl, ?_⟩, ?_⟩, ?_⟩, ?_⟩, ?_⟩, ?_⟩
  · exact Decoder.check_of_ok messages
  · simp
  · exact Schema.fits_member? rfl rfl state
  · exact Schema.fits_listMember? rfl rfl context
  · exact Schema.fits_listMember? rfl rfl tools
  · exact Schema.fits_member? rfl rfl forwarded

end Restored

/-- A request is restored from its document. -/
theorem restores (canonical : input.Canonical) : decode.Restores encode input := by
  intro route admits
  rw [encode_eq, Json.depth] at admits
  obtain ⟨inner, entered, admits⟩ := admits.enter
  have messages := Parts.required_noted input.lookup_messages (messages_read admits)
  have state :=
    Parts.optional_member? input.lookup_state (recovers_state admits canonical.state)
  have context := Parts.listOrEmpty_listMember? input.lookup_context (context_read admits)
  have tools :=
    Parts.listOrEmpty_listMember? input.lookup_tools (tools_read admits canonical.parameters)
  have forwarded :=
    Parts.optional_member? input.lookup_forwardedProperties
      (recovers_forwardedProperties admits canonical.forwardedProperties)
  have parts := Schema.parts_ofMembers entered input.nodup_members (fits_members admits canonical)
  rw [decode, encode_eq, Draft.ofJson, parts]
  simp only [bind, Except.bind, messages, state, context, tools, forwarded]
  rfl

/-- A request that is told in full by a text, without doubles and no deeper than a text may be. -/
structure Legible (input : RunInput) : Prop where
  canonical : input.Canonical
  whole : input.encode.wholeNumbers = true
  shallow : input.encode.depth ≤ Route.deepest

/-- A request is read back from its text. -/
theorem decode_text (legible : input.Legible) : decode.text input.text = .ok input := by
  rw [text, Decoder.text_text decode legible.whole]
  exact restores legible.canonical .wholeText legible.shallow

end RunInput

end AgentWire
