import AgentWire.Text.Utf8

namespace AgentWire.Text.Utf8

/-!
# The bytes of a text

The bytes of a text are read back as that text, and as its characters with no stray
byte among them.  Bytes that are cut off are a text only where a character ends.
-/

/-- The bytes from an index on are what a loop over them still collects. -/
private theorem toList_loop
    (bytes : ByteArray)
    (index : Nat)
    (collected : List UInt8) :
    ByteArray.toList.loop bytes index collected =
      collected.reverse ++ bytes.data.toList.drop index := by
  rw [ByteArray.toList.loop]
  split
  · rename_i inside
    have inData : index < bytes.data.toList.length := by
      simpa using inside
    have first : bytes.get! index = bytes.data.toList[index] := by
      rw [Array.getElem_toList]
      exact getElem!_pos bytes.data index inside
    rw [toList_loop bytes (index + 1), List.drop_eq_getElem_cons inData, first]
    simp
  · rename_i outside
    have beyond : bytes.data.toList.length ≤ index := by
      simpa using outside
    rw [List.drop_eq_nil_of_le beyond, List.append_nil]
  termination_by bytes.size - index

/-- Bytes that are packed are unpacked as they were. -/
theorem toList_toByteArray (bytes : Bytes) : bytes.toByteArray.toList = bytes := by
  rw [ByteArray.toList, toList_loop]
  simp

/-- A text is encoded character by character. -/
theorem encode_eq (text : String) :
    encode text = text.toList.flatMap String.utf8EncodeChar := by
  rw [encode, String.toUTF8_eq_toByteArray, ← String.utf8Encode_toList, List.utf8Encode,
    toList_toByteArray]

theorem encode_append (first second : String) :
    encode (first ++ second) = encode first ++ encode second := by
  simp [encode_eq]

theorem encode_ofList_eq_nil
    {chars : List Char} :
    encode (String.ofList chars) = [] ↔ chars = [] := by
  rw [encode_eq, String.toList_ofList]
  cases chars with
  | nil => simp
  | cons first rest =>
      simp only [List.flatMap_cons, List.append_eq_nil_iff, String.utf8EncodeChar_ne_nil,
        false_and, reduceCtorEq]

/-- The bytes of a text are read back as that text. -/
@[simp] theorem decode?_encode (text : String) : decode? (encode text) = some text := by
  have packed : (text.toList.flatMap String.utf8EncodeChar).toByteArray = text.toByteArray := by
    rw [← String.utf8Encode_toList, List.utf8Encode]
  rw [decode?, encode_eq, packed, String.fromUTF8?, dif_pos text.isValidUTF8]
  rfl

/-- A character that was encoded is read as such, whatever comes behind it. -/
theorem glyphs_encodeChar
    (c : Char)
    (rest : Bytes) :
    glyphs (String.utf8EncodeChar c ++ rest) = .char c :: glyphs rest := by
  have size : (String.utf8EncodeChar c).length = c.utf8Size :=
    String.length_utf8EncodeChar c
  have bound := c.utf8Size_le_four
  cases encoded : String.utf8EncodeChar c with
  | nil =>
      exact absurd encoded String.utf8EncodeChar_ne_nil
  | cons byte more =>
      have moreSize : more.length + 1 = c.utf8Size := by
        rw [← size, encoded, List.length_cons]
      have window :
          byte :: (more ++ rest).take 3 =
            String.utf8EncodeChar c ++ rest.take (3 - more.length) := by
        rw [encoded, List.take_append, List.take_of_length_le (by omega), List.cons_append]
      have first : firstGlyph byte (more ++ rest) = (.char c, c.utf8Size) := by
        rw [firstGlyph, window, List.toByteArray_append,
          ByteArray.utf8DecodeChar?_utf8EncodeChar_append]
      have remaining : (more ++ rest).drop (c.utf8Size - 1) = rest := by
        rw [← moreSize, Nat.add_sub_cancel, List.drop_left]
      rw [List.cons_append, glyphs, first]
      simp only [remaining]

/-- The bytes of a text are read back as its characters. -/
theorem glyphs_encode (text : String) : glyphs (encode text) = glyphsOf text := by
  rw [encode_eq, glyphsOf]
  induction text.toList with
  | nil =>
      simp [glyphs]
  | cons c rest inductionHypothesis =>
      rw [List.flatMap_cons, glyphs_encodeChar, inductionHypothesis, List.map_cons]

/-- What was decoded is encoded as it was. -/
theorem encode_of_decode?
    {bytes : Bytes}
    {text : String}
    (read : decode? bytes = some text) :
    encode text = bytes := by
  unfold decode? String.fromUTF8? at read
  split at read
  · rw [Option.some.injEq] at read
    subst read
    exact toList_toByteArray bytes
  · cases read

/-- A byte below 128 stands for a character of its own. -/
theorem encodeChar_of_mem
    {c : Char}
    {byte : UInt8}
    (member : byte ∈ String.utf8EncodeChar c)
    (small : byte.toNat < 128) :
    String.utf8EncodeChar c = [byte] ∧ c.toNat = byte.toNat := by
  have value : c.val.toNat = c.toNat := rfl
  by_cases single : c.toNat ≤ 127
  · have encoded : String.utf8EncodeChar c = [UInt8.ofNat c.toNat] := by
      rw [String.utf8EncodeChar, value, if_pos single]
    rw [encoded, List.mem_singleton] at member
    subst member
    refine ⟨encoded, ?_⟩
    rw [UInt8.toNat_ofNat']
    omega
  · exfalso
    simp only [String.utf8EncodeChar, value, single, if_false] at member
    split at member
    · simp only [List.mem_cons, List.not_mem_nil, or_false] at member
      rcases member with rfl | rfl <;> rw [UInt8.toNat_ofNat'] at small <;> omega
    · split at member
      · simp only [List.mem_cons, List.not_mem_nil, or_false] at member
        rcases member with rfl | rfl | rfl <;> rw [UInt8.toNat_ofNat'] at small <;> omega
      · simp only [List.mem_cons, List.not_mem_nil, or_false] at member
        rcases member with rfl | rfl | rfl | rfl <;>
          rw [UInt8.toNat_ofNat'] at small <;> omega

/-- A byte below 128 is among the bytes of a text only with its character. -/
theorem not_mem_encode
    {text : String}
    {c : Char}
    {byte : UInt8}
    (same : c.toNat = byte.toNat)
    (small : byte.toNat < 128)
    (missing : c ∉ text.toList) :
    byte ∉ encode text := by
  rw [encode_eq, List.mem_flatMap]
  rintro ⟨other, member, inside⟩
  obtain ⟨-, equal⟩ := encodeChar_of_mem inside small
  have character : other = c := Char.toNat_inj.mp (equal.trans same.symm)
  exact missing (character ▸ member)

/-- The bytes of a character tell where it ends. -/
private theorem eq_of_encodeChar
    {first second : Char}
    {rest other : Bytes}
    (same : String.utf8EncodeChar first ++ rest = String.utf8EncodeChar second ++ other) :
    first = second ∧ rest = other := by
  have decoded (c : Char) (more : Bytes) :
      (String.utf8EncodeChar c ++ more).toByteArray.utf8DecodeChar? 0 = some c := by
    rw [List.toByteArray_append, ByteArray.utf8DecodeChar?_utf8EncodeChar_append]
  have equal : first = second := by
    have read := decoded first rest
    rw [same, decoded second other, Option.some.injEq] at read
    exact read.symm
  subst equal
  exact ⟨rfl, List.append_cancel_left same⟩

/-- Characters whose bytes start the bytes of others start these. -/
private theorem prefix_of_flatMap_prefix
    {first second : List Char}
    (start : first.flatMap String.utf8EncodeChar <+: second.flatMap String.utf8EncodeChar) :
    first <+: second := by
  induction first generalizing second with
  | nil => exact List.nil_prefix
  | cons c rest inductionHypothesis =>
      obtain ⟨more, whole⟩ := start
      rw [List.flatMap_cons, List.append_assoc] at whole
      cases second with
      | nil =>
          have nonempty : String.utf8EncodeChar c ≠ [] := String.utf8EncodeChar_ne_nil
          simp_all
      | cons d others =>
          rw [List.flatMap_cons] at whole
          obtain ⟨rfl, tails⟩ := eq_of_encodeChar whole
          exact List.cons_prefix_cons.mpr ⟨rfl, inductionHypothesis ⟨more, tails⟩⟩

/-- A text whose bytes start the bytes of another text starts that text. -/
theorem prefix_of_encode_prefix
    {first second : String}
    (start : encode first <+: encode second) :
    first.toList <+: second.toList := by
  rw [encode_eq, encode_eq] at start
  exact prefix_of_flatMap_prefix start

/-- Whether a number of bytes of some characters ends where one of them does. -/
def endsCharacter : List Char → Nat → Bool
  | _, 0 => true
  | [], _ + 1 => false
  | c :: rest, kept + 1 => c.utf8Size ≤ kept + 1 && endsCharacter rest (kept + 1 - c.utf8Size)

/-- A cut is at the end of a character exactly where some characters take all bytes before it. -/
theorem endsCharacter_iff
    {chars : List Char}
    {kept : Nat} :
    endsCharacter chars kept = true ↔
      ∃ start, start <+: chars ∧ (start.flatMap String.utf8EncodeChar).length = kept := by
  induction chars generalizing kept with
  | nil => cases kept <;> simp [endsCharacter]
  | cons c rest inductionHypothesis =>
      cases kept with
      | zero => exact ⟨fun _ => ⟨[], List.nil_prefix, rfl⟩, fun _ => rfl⟩
      | succ kept =>
          rw [endsCharacter, Bool.and_eq_true, decide_eq_true_eq, inductionHypothesis]
          constructor
          · rintro ⟨fits, start, early, length⟩
            refine ⟨c :: start, List.cons_prefix_cons.mpr ⟨rfl, early⟩, ?_⟩
            rw [List.flatMap_cons, List.length_append, length, String.length_utf8EncodeChar]
            omega
          · rintro ⟨start, early, length⟩
            cases start with
            | nil => cases length
            | cons first start =>
                obtain ⟨rfl, later⟩ := List.cons_prefix_cons.mp early
                rw [List.flatMap_cons, List.length_append, String.length_utf8EncodeChar] at length
                exact ⟨by omega, start, later, by omega⟩

/--
The first bytes of a text, behind another text, are a text only if they end between
two characters.
-/
theorem decode?_take_eq_none
    {text : String}
    {kept : Nat}
    (inside : kept ≤ (encode text).length)
    (cut : endsCharacter text.toList kept = false)
    (before : String) :
    decode? (encode before ++ (encode text).take kept) = none := by
  cases decoded : decode? (encode before ++ (encode text).take kept) with
  | none => rfl
  | some read =>
      have bytes := encode_of_decode? decoded
      obtain ⟨rest, split⟩ := prefix_of_encode_prefix ⟨_, bytes.symm⟩
      obtain rfl : before ++ String.ofList rest = read := by
        rw [← String.toList_inj, String.toList_append, String.toList_ofList, split]
      rw [encode_append, List.append_cancel_left_eq] at bytes
      have early : rest <+: text.toList := by
        rw [← String.toList_ofList (l := rest)]
        apply prefix_of_encode_prefix
        rw [bytes]
        exact List.take_prefix kept _
      have length : (rest.flatMap String.utf8EncodeChar).length = kept := by
        rw [← String.toList_ofList (l := rest), ← encode_eq, bytes, List.length_take,
          Nat.min_eq_left inside]
      rw [endsCharacter_iff.mpr ⟨rest, early, length⟩] at cut
      cases cut

/-- Where a character of a text ends, the bytes before are the text up to there. -/
theorem exists_take_eq
    {text : String}
    {kept : Nat}
    (ends : endsCharacter text.toList kept = true) :
    ∃ start, start <+: text.toList ∧ (encode text).take kept = encode (String.ofList start) := by
  obtain ⟨start, early, length⟩ := endsCharacter_iff.mp ends
  refine ⟨start, early, ?_⟩
  obtain ⟨rest, split⟩ := early
  rw [encode_eq, encode_eq, String.toList_ofList, ← split, List.flatMap_append,
    List.take_left' length]

/-- Characters of one byte each end everywhere. -/
theorem endsCharacter_of_narrow
    {chars : List Char}
    (narrow : ∀ c ∈ chars, c.utf8Size = 1)
    {kept : Nat}
    (inside : kept ≤ (chars.flatMap String.utf8EncodeChar).length) :
    endsCharacter chars kept = true := by
  induction chars generalizing kept with
  | nil =>
      obtain rfl : kept = 0 := Nat.le_zero.mp inside
      rfl
  | cons c rest inductionHypothesis =>
      obtain ⟨first, others⟩ := List.forall_mem_cons.mp narrow
      cases kept with
      | zero => rfl
      | succ kept =>
          rw [List.flatMap_cons, List.length_append, String.length_utf8EncodeChar, first] at inside
          have further : endsCharacter rest kept = true := inductionHypothesis others (by omega)
          simp [endsCharacter, first, further]

end AgentWire.Text.Utf8
