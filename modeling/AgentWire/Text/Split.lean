namespace AgentWire.Text

/-!
# Cutting a text at a mark

A text is cut at every place where a mark stands, so there is always at least one
piece, and the pieces with the mark between them make the text again.
-/

/-- The pieces of some characters, behind the letters of an open piece in reverse. -/
def splitFrom (mark : Char) (piece : List Char) : List Char → List (List Char)
  | [] => [piece.reverse]
  | c :: rest =>
      if c = mark then
        piece.reverse :: splitFrom mark [] rest
      else
        splitFrom mark (c :: piece) rest

/-- The pieces of a text between the marks in it. -/
def split (mark : Char) (text : String) : List String :=
  (splitFrom mark [] text.toList).map String.ofList

/-- The pieces of a text, each with the mark behind it that ends it; none is empty. -/
def splitBehind (mark : Char) (piece : List Char) : List Char → List String
  | [] => if piece.isEmpty then [] else [String.ofList piece.reverse]
  | c :: rest =>
      if c = mark then
        String.ofList (c :: piece).reverse :: splitBehind mark [] rest
      else
        splitBehind mark (c :: piece) rest

/-- What stands before the first mark, and what stands behind it if there is one. -/
def cut (mark : Char) (text : List Char) : List Char × Option (List Char) :=
  match text.span (· != mark) with
  | (before, []) => (before, none)
  | (before, _ :: behind) => (before, some behind)

/-- Put the small letters of ASCII in place of the capital ones. -/
def lowerAscii (text : String) : String :=
  String.ofList (text.toList.map Char.toLower)

end AgentWire.Text
