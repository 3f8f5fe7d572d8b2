namespace AgentWire

/-!
# Dictionaries

A dictionary is a list of names with values, sorted by name, each name once.
Names are compared character by character, by code point.
-/

/-- Names with values, sorted by name. -/
abbrev Dictionary (α : Type) := List (String × α)

namespace Dictionary

/-- Put a value at its place by name; an earlier value of that name is replaced. -/
def insert
    {α : Type}
    (name : String)
    (value : α) :
    Dictionary α → Dictionary α
  | [] => [(name, value)]
  | (first, old) :: rest =>
      if name < first then
        (name, value) :: (first, old) :: rest
      else if name = first then
        (name, value) :: rest
      else
        (first, old) :: insert name value rest

/-- The dictionary of these entries; of several with one name the last is kept. -/
def ofEntries {α : Type} (entries : List (String × α)) : Dictionary α :=
  entries.foldl (fun sorted (name, value) => insert name value sorted) []

/-- The value of a name. -/
def get? {α : Type} (dictionary : Dictionary α) (name : String) : Option α :=
  dictionary.lookup name

/-- The dictionary without a name. -/
def erase {α : Type} (dictionary : Dictionary α) (name : String) : Dictionary α :=
  dictionary.filter (·.1 != name)

/-- Names in strictly increasing order. -/
def sortedNames : List String → Bool
  | first :: second :: rest => first < second && sortedNames (second :: rest)
  | _ => true

end Dictionary

end AgentWire
