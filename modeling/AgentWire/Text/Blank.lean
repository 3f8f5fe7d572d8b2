namespace AgentWire.Text

/-!
# Blank characters

The characters with the Unicode property White_Space, and trimming and cutting by
them.
-/

/-- The ranges of the Unicode property White_Space. -/
def blankRanges : List (Nat × Nat) :=
  [(0x09, 0x0D), (0x20, 0x20), (0x85, 0x85), (0xA0, 0xA0), (0x1680, 0x1680),
   (0x2000, 0x200A), (0x2028, 0x2029), (0x202F, 0x202F), (0x205F, 0x205F),
   (0x3000, 0x3000)]

/-- A character with the Unicode property White_Space. -/
def isBlank (c : Char) : Bool :=
  blankRanges.any fun (first, last) => first ≤ c.toNat && c.toNat ≤ last

/-- Drop the characters of a class at both ends. -/
def trimBy
    (class? : Char → Bool)
    (text : List Char) :
    List Char :=
  ((text.dropWhile class?).reverse.dropWhile class?).reverse

/-- A text without the blanks at its two ends. -/
def trim (text : String) : String :=
  String.ofList (trimBy isBlank text.toList)

/-- Whether a text holds nothing but blanks. -/
def isBlankText (text : String) : Bool :=
  text.toList.all isBlank

/-- The words of some characters, behind the letters of an open word in reverse. -/
def wordsFrom (word : List Char) : List Char → List String
  | [] => if word.isEmpty then [] else [String.ofList word.reverse]
  | c :: rest =>
      if !isBlank c then
        wordsFrom (c :: word) rest
      else if word.isEmpty then
        wordsFrom [] rest
      else
        String.ofList word.reverse :: wordsFrom [] rest

/-- The words of a text: what stands between blanks. -/
def words (text : String) : List String :=
  wordsFrom [] text.toList

end AgentWire.Text
