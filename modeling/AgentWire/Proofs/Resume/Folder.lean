import AgentWire.Proofs.Dictionary
import AgentWire.Resume.Folder
import Mathlib.Logic.Function.Basic

namespace AgentWire.Resume.Folder

/-!
# Folders as maps

In a folder that nothing blocks, and for names that it takes, each operation is the
one on maps from names to entries.  What an operation has put under a name is read
there afterwards.
-/

/-- What stands under a name. -/
def entryAt (folder : Folder) (name : String) : Option Entry :=
  match folder with
  | .present entries => entries.get? name
  | _ => none

/-- A name that is entered leads to its entry, and the others lead where they led. -/
theorem entryAt_insert
    (entries : Dictionary Entry)
    (name : String)
    (entry : Entry) :
    (present (entries.insert name entry)).entryAt =
      Function.update (present entries).entryAt name (some entry) := by
  funext other
  by_cases same : other = name
  · subst same
    rw [Function.update_self]
    exact Dictionary.get?_insert_self other entry entries
  · rw [Function.update_of_ne same]
    exact Dictionary.get?_insert_of_ne same entry entries

/-- A name that is erased leads nowhere, and the others lead where they led. -/
theorem entryAt_erase
    (entries : Dictionary Entry)
    (name : String) :
    (present (entries.erase name)).entryAt =
      Function.update (present entries).entryAt name none := by
  funext other
  by_cases same : other = name
  · subst same
    rw [Function.update_self]
    exact Dictionary.get?_erase_self entries other
  · rw [Function.update_of_ne same]
    exact Dictionary.get?_erase_of_ne same entries

variable
  {folder : Folder}
  {longest : Option Nat}
  {name target : String}
  {content : Text.Bytes}

/-- A folder that is not blocked can be created, and holds what it held. -/
theorem create_ok (unblocked : folder ≠ .blocked) :
    ∃ entries,
      folder.create = .ok (.present entries) ∧
        (present entries).entryAt = folder.entryAt := by
  cases folder with
  | present entries => exact ⟨entries, rfl, rfl⟩
  | absent => exact ⟨[], rfl, rfl⟩
  | blocked => exact absurd rfl unblocked

section Absent

variable
  (unblocked : folder ≠ .blocked)
  (takes : takesName longest name = true)
  (missing : folder.entryAt name = none)

include unblocked takes missing

theorem read_absent : folder.read name longest = .error .notFound := by
  cases folder with
  | present entries =>
      have found : entries.get? name = none := missing
      simp [read, entriesFor, takes, found, bind, Except.bind]
  | absent => rfl
  | blocked => exact absurd rfl unblocked

theorem append_absent (more : Text.Bytes) :
    folder.append name more longest = .error .notFound := by
  rw [append, read_absent unblocked takes missing]
  rfl

theorem remove_absent : folder.remove name longest = .error .notFound := by
  cases folder with
  | present entries =>
      have found : entries.get? name = none := missing
      simp [remove, entriesFor, takes, found, bind, Except.bind]
  | absent => rfl
  | blocked => exact absurd rfl unblocked

end Absent

/-- A file can be written under a name that is no folder, and nothing else changes. -/
theorem write_ok
    {entries : Dictionary Entry}
    (takes : takesName longest name = true)
    (noFolder : (present entries).entryAt name ≠ some .folder)
    (content : Text.Bytes) :
    ∃ written,
      (present entries).write name content longest = .ok (.present written) ∧
        (present written).entryAt =
          Function.update (present entries).entryAt name (some (.file content)) := by
  refine ⟨entries.insert name (.file content), ?_, entryAt_insert entries name _⟩
  -- `other` selects the last branch, which is the one for all other entries.
  have other : entries.get? name ≠ some .folder := noFolder
  simp only [write, entriesFor, takes, if_true, bind, Except.bind]

section File

variable
  (takes : takesName longest name = true)
  (stands : folder.entryAt name = some (.file content))

include takes stands

/-- A file is read as it is. -/
theorem read_file : folder.read name longest = .ok content := by
  cases folder with
  | present entries =>
      have found : entries.get? name = some (.file content) := stands
      simp [read, entriesFor, takes, found, bind, Except.bind]
  | absent => cases stands
  | blocked => cases stands

/-- Bytes are appended to a file, and nothing else changes. -/
theorem append_file (more : Text.Bytes) :
    ∃ written,
      folder.append name more longest = .ok (.present written) ∧
        (present written).entryAt =
          Function.update folder.entryAt name (some (.file (content ++ more))) := by
  rw [append, read_file takes stands]
  cases folder with
  | present entries => exact write_ok takes (by simp [stands]) (content ++ more)
  | absent => cases stands
  | blocked => cases stands

/-- A file is removed, and nothing else changes. -/
theorem remove_file :
    ∃ left,
      folder.remove name longest = .ok (.present left) ∧
        (present left).entryAt = Function.update folder.entryAt name none := by
  cases folder with
  | present entries =>
      have found : entries.get? name = some (.file content) := stands
      refine ⟨entries.erase name, ?_, entryAt_erase entries name⟩
      simp [remove, entriesFor, takes, found, bind, Except.bind]
  | absent => cases stands
  | blocked => cases stands

/-- A file is renamed, also over another one, and nothing else changes. -/
theorem rename_file
    (takesTarget : takesName longest target = true)
    (noFolder : folder.entryAt target ≠ some .folder) :
    ∃ moved,
      folder.rename name target longest = .ok (.present moved) ∧
        (present moved).entryAt =
          Function.update (Function.update folder.entryAt name none) target
            (some (.file content)) := by
  cases folder with
  | present entries =>
      have found : entries.get? name = some (.file content) := stands
      have other : entries.get? target ≠ some .folder := noFolder
      refine ⟨(entries.erase name).insert target (.file content), ?_, ?_⟩
      · simp only [rename, entriesFor, takes, takesTarget, found, if_true, bind, Except.bind]
      · rw [entryAt_insert, entryAt_erase]
  | absent => cases stands
  | blocked => cases stands

end File

section Reading

variable
  {written : Folder}
  {entries : Dictionary Entry}

/-- The entries are at hand where the folder is there and takes the name. -/
theorem entriesFor_eq_ok :
    folder.entriesFor name longest = .ok entries ↔
      folder = .present entries ∧ takesName longest name = true := by
  cases folder with
  | absent => simp [entriesFor]
  | blocked => simp [entriesFor]
  | present standing =>
      cases takes : takesName longest name <;> simp [entriesFor, takes]

/-- What is read under a name is the file under it. -/
theorem read_eq_ok :
    folder.read name longest = .ok content ↔
      takesName longest name = true ∧ folder.entryAt name = some (.file content) := by
  refine ⟨fun reads => ?_, fun ⟨takes, stands⟩ => read_file takes stands⟩
  cases looked : folder.entriesFor name longest with
  | error fault =>
      rw [read, looked] at reads
      cases reads
  | ok entries =>
      rw [read, looked] at reads
      obtain ⟨rfl, takes⟩ := entriesFor_eq_ok.mp looked
      refine ⟨takes, ?_⟩
      cases found : entries.get? name with
      | none => simp [found, bind, Except.bind] at reads
      | some entry => cases entry <;> simp_all [bind, Except.bind, entryAt]

/-- What was written is read. -/
theorem read_write (wrote : folder.write name content longest = .ok written) :
    written.read name longest = .ok content := by
  cases looked : folder.entriesFor name longest with
  | error fault =>
      rw [write, looked] at wrote
      cases wrote
  | ok entries =>
      obtain ⟨rfl, takes⟩ := entriesFor_eq_ok.mp looked
      have noFolder : (present entries).entryAt name ≠ some .folder := by
        intro stands
        have found : entries.get? name = some .folder := stands
        simp [write, looked, found, bind, Except.bind] at wrote
      obtain ⟨inserted, same, entryAt⟩ := write_ok takes noFolder content
      rw [same, Except.ok.injEq] at wrote
      subst wrote
      exact read_file takes (by rw [entryAt, Function.update_self])

/-- What is renamed is read under its new name. -/
theorem read_rename
    (reads : folder.read name longest = .ok content)
    (renamed : folder.rename name target longest = .ok written) :
    written.read target longest = .ok content := by
  obtain ⟨takes, stands⟩ := read_eq_ok.mp reads
  cases folder with
  | absent => cases reads
  | blocked => cases reads
  | present entries =>
      have moved : entries.get? name = some (.file content) := stands
      have takesTarget : takesName longest target = true := by
        cases long : takesName longest target with
        | true => rfl
        | false => simp [rename, entriesFor, takes, long, bind, Except.bind] at renamed
      have noFolder : (present entries).entryAt target ≠ some .folder := by
        intro blocks
        have found : entries.get? target = some .folder := blocks
        simp [rename, entriesFor, takes, takesTarget, moved, found, bind, Except.bind] at renamed
      obtain ⟨left, same, entryAt⟩ := rename_file takes stands takesTarget noFolder
      rw [same, Except.ok.injEq] at renamed
      subst renamed
      exact read_file takesTarget (by rw [entryAt, Function.update_self])

/-- A file that can be read can be written. -/
theorem write_of_read
    (reads : folder.read name longest = .ok content)
    (other : Text.Bytes) :
    ∃ written, folder.write name other longest = .ok written := by
  obtain ⟨takes, stands⟩ := read_eq_ok.mp reads
  cases folder with
  | present entries =>
      have noFolder : (present entries).entryAt name ≠ some .folder := by simp [stands]
      obtain ⟨written, wrote, -⟩ := write_ok takes noFolder other
      exact ⟨_, wrote⟩
  | absent => cases reads
  | blocked => cases reads

/-- A file that can be read can be removed, and is not found then. -/
theorem remove_of_read (reads : folder.read name longest = .ok content) :
    ∃ left,
      folder.remove name longest = .ok left ∧ left.read name longest = .error .notFound := by
  obtain ⟨takes, stands⟩ := read_eq_ok.mp reads
  obtain ⟨left, removed, entryAt⟩ := remove_file takes stands
  exact ⟨_, removed, read_absent nofun takes (by rw [entryAt, Function.update_self])⟩

end Reading

end AgentWire.Resume.Folder
