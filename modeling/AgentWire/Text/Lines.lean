namespace AgentWire.Text

/-!
# Lines

A newline ends a line, and one return before it belongs to the ending.  The
functions work on sequences of any kind, so that bytes and characters are cut by
the same rule, and they can go on where an earlier piece of the text stopped.
-/

/-- The line of some units read in reverse, without the return that ends it. -/
def closeLine
    {α : Type}
    [DecidableEq α]
    (carriage : α) :
    List α → List α
  | [] => []
  | last :: before => if last = carriage then before.reverse else (last :: before).reverse

/--
Cut at newlines, behind units of an open line that are given in reverse.  The
result is the closed lines, and the open line that is left, again in reverse.
-/
def cutLines
    {α : Type}
    [DecidableEq α]
    (newline carriage : α)
    (pending : List α) :
    List α → List (List α) × List α
  | [] => ([], pending)
  | unit :: rest =>
      if unit = newline then
        let (lines, left) := cutLines newline carriage [] rest
        (closeLine carriage pending :: lines, left)
      else
        cutLines newline carriage (unit :: pending) rest

/-- All lines; what stands behind the last newline is one if it is not empty. -/
def linesOf
    {α : Type}
    [DecidableEq α]
    (newline carriage : α)
    (units : List α) :
    List (List α) :=
  let (lines, left) := cutLines newline carriage [] units
  if left.isEmpty then lines else lines ++ [left.reverse]

/-- The lines of a text. -/
def lines (text : String) : List String :=
  (linesOf '\n' '\r' text.toList).map String.ofList

/-- The newline as a byte. -/
def newlineByte : UInt8 := 10

/-- The carriage return as a byte. -/
def carriageByte : UInt8 := 13

end AgentWire.Text
