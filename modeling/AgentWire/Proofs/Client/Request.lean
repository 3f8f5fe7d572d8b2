import AgentWire.Client.HttpLine
import AgentWire.Proofs.Chat.State
import AgentWire.Proofs.Client.Outbound
import AgentWire.Proofs.RunInput
import AgentWire.Server.Intake

namespace AgentWire.Client

/-!
# The request that arrives

What a client asks for is what a server takes in, unless its text is longer than the server
allows.  The state of a request was decoded, so it is canonical whatever bytes carried it; all
other documents of a request are those of the options.
-/

open Chat (ChatMessage Registry)
open Json (Decoder)

/-- Options whose documents are canonical, none of them a null that may be left out. -/
structure Options.Canonical (options : Options) : Prop where
  forwardedProperties : Json.Settled options.forwardedProperties
  parameters : ∀ tool ∈ options.tools, tool.parameters.canonical = true

section Built

variable
  {messages : List ChatMessage}
  {options : Options}
  {registry : Registry}
  {supply last : IdSupply}
  {input : RunInput}

/-- A request is canonical if the options are, and the state that was sent is not null. -/
theorem canonical_of_buildRunInput
    (built : buildRunInput messages options registry supply = .ok (input, last))
    (canonical : options.Canonical)
    (other : input.state ≠ some .null) :
    input.Canonical := by
  obtain ⟨conversation, between, split, -, -, tools, forwarded⟩ := buildRunInput_eq_ok built
  refine ⟨?_, forwarded ▸ canonical.forwardedProperties, tools ▸ canonical.parameters⟩
  intro document given
  rcases splitState_cases split with ⟨none, -⟩ | ⟨carrier, bytes, sent, -, -, decoded, same⟩
  · rw [given] at none
    cases none
  · obtain rfl : document = sent := Option.some.inj (given.symm.trans same)
    exact ⟨(Chat.of_decodeSnapshot decoded).1, by rintro rfl; exact other given⟩

end Built

/-- A server takes in the request that a client makes, if it allows a body of that length. -/
theorem readBody_ask
    {input : RunInput}
    (legible : input.Legible)
    (line : HttpLine)
    (limit : Nat) :
    Server.readBody limit (line.ask (.create input)) =
      if limit < (Text.Utf8.encode input.text).length then .error .tooLong else .ok input := by
  have carries : Server.carriesDocument (line.ask (.create input)) = true := by
    have named : (line.ask (.create input)).header? "content-type" = some "application/json" :=
      rfl
    rw [Server.carriesDocument, named]
    decide +kernel
  have decoded : RunInput.decode.bytes (Text.Utf8.encode input.text) = .ok input := by
    rw [Decoder.bytes_encode, RunInput.decode_text legible]
  simp only [Server.readBody, carries, Bool.not_true, Bool.false_eq_true, if_false]
  simp only [HttpLine.ask, decoded, Except.mapError]

/--
A request whose free-form documents are canonical, without doubles and nested at most 127 levels
as a whole, is read back from its text, unless one of the two documents that may be left out is
null; and the server that it is sent to takes it in.  So is every request that is built from
messages, whatever their roles and contents.
-/
theorem request_read_back (line : HttpLine) (limit : Nat) :
    (∀ input : RunInput, input.Legible →
      RunInput.decode.text input.text = .ok input ∧
        Server.readBody limit (line.ask (.create input)) =
          if limit < (Text.Utf8.encode input.text).length then .error .tooLong else .ok input) ∧
    ∀ messages options registry supply input last,
      buildRunInput messages options registry supply = .ok (input, last) →
        options.Canonical → input.state ≠ some .null →
        input.encode.wholeNumbers = true → input.encode.depth ≤ 127 →
          RunInput.decode.text input.text = .ok input := by
  constructor
  · intro input legible
    exact ⟨RunInput.decode_text legible, readBody_ask legible line limit⟩
  · intro messages options registry supply input last built canonical other whole shallow
    exact RunInput.decode_text ⟨canonical_of_buildRunInput built canonical other, whole, shallow⟩

namespace FullRequest

/-- A message of each role, and three shapes of an assistant's. -/
def messages : List Message :=
  [.spoken .developer "m1" "Be brief.\n\"é\"" (some ""),
   .spoken .system "m2" "" none,
   .spoken .user "m3" "Weather?" (some "ann"),
   .assistant "m4" none none (some []),
   .assistant "m5" (some "") (some "bot") (some [⟨"c1", "weather", "\x7b\"city\":\"Oslo\"\x7d"⟩]),
   .tool "m6" "12" "c1",
   .assistant "m7" (some "Mild.") none none]

/-- Properties that are forwarded: an object with null in an array. -/
def forwarded : Json :=
  .object [("a", .array [.null, .word 18446744073709551615]), ("b", .signed (-1))]

/-- A tool whose parameters are null. -/
def tool : Tool :=
  ⟨"weather", "", .null⟩

/-- A request with everything that may be left out. -/
def full : RunInput :=
  { threadId := "t", runId := "", messages, state := some (.array []),
    context := [⟨"place", "Oslo"⟩], tools := [tool], forwardedProperties := some forwarded }

/-- A request without it. -/
def bare : RunInput :=
  { threadId := "", runId := "r", messages := [] }

/-- A call with a state document in its last message. -/
def call : List ChatMessage :=
  [⟨.user, [.text "Weather?"], some "m1", none⟩, stateMessage (.object [("unit", .string "C")])]

def options : Options :=
  { tools := [tool], forwardedProperties := some forwarded }

def built : RunInput :=
  { threadId := "", runId := IdSupply.idAt 0 0, messages := [.spoken .user "m1" "Weather?" none],
    state := some (.object [("unit", .string "C")]), tools := [tool],
    forwardedProperties := some forwarded }

end FullRequest

open FullRequest

/-- A request with every member and one with none are read back, and so is one that is built. -/
theorem request_read_back_full :
    RunInput.decode.text full.text = .ok full ∧
      RunInput.decode.text bare.text = .ok bare ∧
      Server.readBody (Text.Utf8.encode full.text).length
          (HttpLine.ask ⟨"http://localhost/agent", []⟩ (.create full)) =
        .ok full ∧
      buildRunInput call options .empty {} = .ok (built, ⟨0, 1⟩) ∧
      RunInput.decode.text built.text = .ok built := by
  obtain ⟨each, calls⟩ :=
    request_read_back ⟨"http://localhost/agent", []⟩ (Text.Utf8.encode full.text).length
  have settled : Json.Settled (some forwarded) := by
    rintro _ ⟨⟩
    exact ⟨by decide +kernel, by simp [forwarded]⟩
  have parameters : ∀ offered ∈ [tool], offered.parameters.canonical = true := by
    simp [tool, Json.canonical]
  have fullLegible : full.Legible := by
    refine ⟨⟨?_, settled, parameters⟩, by decide +kernel, by decide +kernel⟩
    rintro _ ⟨⟩
    exact ⟨by decide +kernel, by simp⟩
  have bareLegible : bare.Legible := by
    refine ⟨⟨?_, ?_, ?_⟩, by decide +kernel, by decide +kernel⟩ <;> simp [bare, Json.Settled]
  have made : buildRunInput call options .empty {} = .ok (built, ⟨0, 1⟩) :=
    Json.eq_ok_of_toOption (by decide +kernel)
  obtain ⟨fullRead, fullTaken⟩ := each full fullLegible
  rw [if_neg (Nat.lt_irrefl _)] at fullTaken
  refine ⟨fullRead, (each bare bareLegible).1, fullTaken, made, ?_⟩
  exact calls _ _ _ _ _ _ made ⟨settled, parameters⟩ (by simp [built])
    (by decide +kernel) (by decide +kernel)

end AgentWire.Client
