import AgentWire.Proofs.Text.Utf8
import AgentWire.Text.Percent

namespace AgentWire.Text

/-!
# Percent encoding loses nothing

What was encoded is decoded to the bytes of the text, so different texts have
different encodings.
-/

theorem hexValue?_upperHexDigit : ∀ value < 16, hexValue? (upperHexDigit value) = some value := by
  decide

/-- An unreserved byte is written as its own character. -/
theorem unreserved_plain :
    ∀ code : Fin 256,
      isUnreserved (UInt8.ofNat code) = true →
        Char.ofNat code ≠ '%' ∧
          Utf8.encode (String.singleton (Char.ofNat code)) = [UInt8.ofNat code] := by
  decide +kernel

/-- A byte that was encoded is decoded. -/
theorem percentDecode_percentByte
    (byte : UInt8)
    (rest : List Char) :
    percentDecode (percentByte byte ++ rest) = byte :: percentDecode rest := by
  by_cases plain : isUnreserved byte = true
  · have spelled := unreserved_plain ⟨byte.toNat, byte.toNat_lt⟩
    simp only [UInt8.ofNat_toNat] at spelled
    obtain ⟨other, single⟩ := spelled plain
    rw [percentByte, if_pos plain, List.singleton_append, percentDecode, single,
      List.singleton_append]
    simp [other]
  · have bound := byte.toNat_lt
    have upper := hexValue?_upperHexDigit (byte.toNat / 16) (by omega)
    have lower := hexValue?_upperHexDigit (byte.toNat % 16) (by omega)
    have joined : UInt8.ofNat (16 * (byte.toNat / 16) + byte.toNat % 16) = byte := by
      rw [Nat.div_add_mod, UInt8.ofNat_toNat]
    rw [percentByte, if_neg plain]
    simp [percentDecode, upper, lower, joined]

/-- What was encoded is decoded to the bytes of the text. -/
theorem percentDecode_percentEncode (text : String) :
    percentDecode (percentEncode text).toList = Utf8.encode text := by
  rw [percentEncode, String.toList_ofList]
  induction Utf8.encode text with
  | nil => simp [percentDecode]
  | cons byte rest inductionHypothesis =>
      rw [List.flatMap_cons, percentDecode_percentByte, inductionHypothesis]

/-- Different texts have different encodings. -/
theorem percentEncode_injective
    {first second : String}
    (same : percentEncode first = percentEncode second) :
    first = second := by
  have bytes : Utf8.encode first = Utf8.encode second := by
    rw [← percentDecode_percentEncode, same, percentDecode_percentEncode]
  have texts := congrArg Utf8.decode? bytes
  simpa using texts

end AgentWire.Text
