import AgentWire.Proofs.Text.Utf8
import AgentWire.Text.Lines

namespace AgentWire.Text

/-!
# The lines of a text that was made of lines

Lines that hold neither of the two ending characters, each with a newline behind
it, are read back as they were, and so is a last line without one.  A text may arrive
in pieces, and as bytes as well as characters.
-/

section Units

variable
  {α : Type}
  [DecidableEq α]
  {newline carriage : α}
  {line pending rest : List α}

/-- Closing a line without returns leaves it as it is. -/
theorem closeLine_reverse (plain : carriage ∉ line) :
    closeLine carriage line.reverse = line := by
  rcases List.eq_nil_or_concat line with rfl | ⟨before, last, rfl⟩
  · rfl
  · have other : last ≠ carriage := by
      rintro rfl
      simp at plain
    simp [closeLine, other]

/-- The first line is cut off at its newline. -/
theorem cutLines_line (single : newline ∉ line) :
    cutLines newline carriage pending (line ++ newline :: rest) =
      (closeLine carriage (line.reverse ++ pending) :: (cutLines newline carriage [] rest).1,
       (cutLines newline carriage [] rest).2) := by
  induction line generalizing pending with
  | nil => simp [cutLines]
  | cons first others inductionHypothesis =>
      simp only [List.mem_cons, not_or] at single
      obtain ⟨different, single⟩ := single
      simp [cutLines, Ne.symm different, inductionHypothesis single]

/-- What has no newline stays open. -/
theorem cutLines_open (single : newline ∉ line) :
    cutLines newline carriage pending line = ([], line.reverse ++ pending) := by
  induction line generalizing pending with
  | nil => rfl
  | cons first others inductionHypothesis =>
      simp only [List.mem_cons, not_or] at single
      obtain ⟨different, single⟩ := single
      simp [cutLines, Ne.symm different, inductionHypothesis single]

/-- Lines that are closed are cut off one by one, and the open one behind them is left. -/
theorem cutLines_lines
    (carriage : α)
    {lines : List (List α)}
    (single : ∀ line ∈ lines, newline ∉ line)
    {last : List α}
    (openEnd : newline ∉ last) :
    cutLines newline carriage [] (lines.flatMap (· ++ [newline]) ++ last) =
      (lines.map (closeLine carriage ·.reverse), last.reverse) := by
  induction lines with
  | nil =>
      rw [List.flatMap_nil, List.nil_append, cutLines_open openEnd, List.append_nil, List.map_nil]
  | cons line rest inductionHypothesis =>
      obtain ⟨first, others⟩ := List.forall_mem_cons.mp single
      rw [List.flatMap_cons, List.append_assoc, List.append_assoc, List.singleton_append,
        cutLines_line first, inductionHypothesis others, List.append_nil, List.map_cons]

/-- Lines that are closed are cut off, and what comes behind them stays open. -/
theorem cutLines_closed
    {lines : List (List α)}
    (plain : ∀ line ∈ lines, newline ∉ line ∧ carriage ∉ line)
    {last : List α}
    (openEnd : newline ∉ last) :
    cutLines newline carriage [] (lines.flatMap (· ++ [newline]) ++ last) =
      (lines, last.reverse) := by
  have whole : lines.map (closeLine carriage ·.reverse) = lines := by
    rw [List.map_congr_left fun line member => closeLine_reverse (plain line member).2,
      List.map_id']
  rw [cutLines_lines carriage (fun line member => (plain line member).1) openEnd, whole]

/-- Pieces are cut one after the other as the whole would be. -/
theorem cutLines_append (first second pending : List α) :
    cutLines newline carriage pending (first ++ second) =
      ((cutLines newline carriage pending first).1 ++
          (cutLines newline carriage (cutLines newline carriage pending first).2 second).1,
       (cutLines newline carriage (cutLines newline carriage pending first).2 second).2) := by
  induction first generalizing pending with
  | nil => rfl
  | cons unit rest inductionHypothesis =>
      rw [List.cons_append, cutLines, cutLines]
      split
      · rw [inductionHypothesis]
        rfl
      · exact inductionHypothesis _

/-- Lines that are closed are read back, and so is a last one that is open and not empty. -/
theorem linesOf_open
    {lines : List (List α)}
    (plain : ∀ line ∈ lines, newline ∉ line ∧ carriage ∉ line)
    {last : List α}
    (single : newline ∉ last)
    (nonempty : last ≠ []) :
    linesOf newline carriage (lines.flatMap (· ++ [newline]) ++ last) = lines ++ [last] := by
  simp [linesOf, cutLines_closed plain single, nonempty]

/-- Lines that are closed are read back. -/
theorem linesOf_closed
    {lines : List (List α)}
    (plain : ∀ line ∈ lines, newline ∉ line ∧ carriage ∉ line) :
    linesOf newline carriage (lines.flatMap (· ++ [newline])) = lines := by
  have cut := cutLines_closed plain List.not_mem_nil
  rw [List.append_nil] at cut
  simp [linesOf, cut]

/-- A line begins with what is left of it when it is closed. -/
theorem closeLine_prefix (line : List α) : closeLine carriage line.reverse <+: line := by
  rcases List.eq_nil_or_concat line with rfl | ⟨before, last, rfl⟩
  · exact List.prefix_refl _
  · rw [List.concat_eq_append, List.reverse_append, List.reverse_singleton,
      List.singleton_append, closeLine]
    split
    · rw [List.reverse_reverse]
      exact List.prefix_append before [last]
    · simp

end Units

/-- Closing a line of bytes closes the line of characters that they stand for. -/
theorem closeLine_encode (text : String) :
    closeLine carriageByte (Utf8.encode text).reverse =
      Utf8.encode (String.ofList (closeLine '\r' text.toList.reverse)) := by
  rw [Utf8.encode_eq, Utf8.encode_eq, String.toList_ofList]
  rcases List.eq_nil_or_concat text.toList with same | ⟨before, last, same⟩
  · rw [same]
    rfl
  · rw [same, List.concat_eq_append]
    by_cases carried : last = '\r'
    · subst carried
      have bytes : String.utf8EncodeChar '\r' = [carriageByte] := by decide
      simp [closeLine, bytes]
    · have other : carriageByte ∉ String.utf8EncodeChar last := by
        intro member
        have value := (Utf8.encodeChar_of_mem member (by decide)).2
        exact carried (Char.toNat_inj.mp value)
      rcases List.eq_nil_or_concat (String.utf8EncodeChar last) with empty | ⟨more, byte, shape⟩
      · exact absurd empty String.utf8EncodeChar_ne_nil
      · rw [shape] at other
        have different : byte ≠ carriageByte := by
          rintro rfl
          simp at other
        simp [closeLine, shape, carried, different]

end AgentWire.Text
