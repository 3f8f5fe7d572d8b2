import AgentWire.Dictionary
import AgentWire.Text.Utf8

namespace AgentWire.Resume

/-!
# A folder of files

Files are found by name and hold bytes.  The folder itself may not exist yet, or
something else may stand in its place.
-/

/-- What stands under a name. -/
inductive Entry where
  | file (content : Text.Bytes)
  | folder
  deriving Repr, DecidableEq

/-- The place of a folder: nothing, a file that blocks it, or its entries. -/
inductive Folder where
  | absent
  | blocked
  | present (entries : Dictionary Entry)
  deriving Repr, DecidableEq

/-- Why a file operation failed. -/
inductive FileFault where
  | notFound
  | exists
  | notFolder
  | isFolder
  | nameTooLong
  deriving Repr, DecidableEq

namespace FileFault

/-- The wording of a fault, with its number in the operating system. -/
def message : FileFault → String
  | .notFound => "No such file or directory (os error 2)"
  | .exists => "File exists (os error 17)"
  | .notFolder => "Not a directory (os error 20)"
  | .isFolder => "Is a directory (os error 21)"
  | .nameTooLong => "File name too long (os error 36)"

end FileFault

namespace Folder

/-- The greatest length of a name in bytes, unless the system has another. -/
def longestName : Nat := 255

/-- Whether a name is short enough; without a greatest length all names are. -/
def takesName (longest : Option Nat) (name : String) : Bool :=
  longest.all (name.utf8ByteSize ≤ ·)

/-- The entries of a folder in which a name is to be looked up. -/
def entriesFor
    (folder : Folder)
    (name : String)
    (longest : Option Nat) :
    Except FileFault (Dictionary Entry) :=
  match folder with
  | .absent => .error .notFound
  | .blocked => .error .notFolder
  | .present entries =>
      if takesName longest name then .ok entries else .error .nameTooLong

/-- Make the folder unless it is there. -/
def create : Folder → Except FileFault Folder
  | .absent => .ok (.present [])
  | .blocked => .error .exists
  | .present entries => .ok (.present entries)

/-- The content of a file. -/
def read
    (folder : Folder)
    (name : String)
    (longest : Option Nat := some longestName) :
    Except FileFault Text.Bytes := do
  match (← folder.entriesFor name longest).get? name with
  | some (.file content) => .ok content
  | some .folder => .error .isFolder
  | none => .error .notFound

/-- Give a file a new content; it need not exist. -/
def write
    (folder : Folder)
    (name : String)
    (content : Text.Bytes)
    (longest : Option Nat := some longestName) :
    Except FileFault Folder := do
  let entries ← folder.entriesFor name longest
  match entries.get? name with
  | some .folder => .error .isFolder
  | _ => .ok (.present (entries.insert name (.file content)))

/-- Add to the end of a file that exists. -/
def append
    (folder : Folder)
    (name : String)
    (more : Text.Bytes)
    (longest : Option Nat := some longestName) :
    Except FileFault Folder := do
  let content ← folder.read name longest
  folder.write name (content ++ more) longest

/-- Remove a file. -/
def remove
    (folder : Folder)
    (name : String)
    (longest : Option Nat := some longestName) :
    Except FileFault Folder := do
  let entries ← folder.entriesFor name longest
  match entries.get? name with
  | some (.file _) => .ok (.present (entries.erase name))
  | some .folder => .error .isFolder
  | none => .error .notFound

/-- Move a file to another name, in place of a file that has it. -/
def rename
    (folder : Folder)
    (name target : String)
    (longest : Option Nat := some longestName) :
    Except FileFault Folder := do
  let entries ← folder.entriesFor name longest
  let _ ← folder.entriesFor target longest
  match entries.get? name, entries.get? target with
  | none, _ => .error .notFound
  | some _, some .folder => .error .isFolder
  | some entry, _ => .ok (.present ((entries.erase name).insert target entry))

/-- The names of all entries, sorted. -/
def names : Folder → List String
  | .present entries => entries.map (·.1)
  | _ => []

end Folder

end AgentWire.Resume
