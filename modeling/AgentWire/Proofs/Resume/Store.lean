import AgentWire.Proofs.Resume.Files
import AgentWire.Proofs.Resume.Folder
import AgentWire.Proofs.Resume.Memory
import AgentWire.Proofs.Text.Percent
import AgentWire.Resume.Store
import Mathlib

namespace AgentWire.Resume

/-!
# The stores are the same store

Whatever is asked of a store in files and of one in memory, both give the same
results.  A file stands under the name of a key exactly if the memory has progress
under that key, and reading the file gives that progress.
-/

open Client (ClientError)

/-- One thing that is asked of a store. -/
inductive Operation where
  | load (key : String)
  | save (key : String) (progress : Progress)
  | append (key : String) (event : Event) (lastNumber : UInt64)
  | clear (key : String)

/-- What a store answers. -/
inductive Outcome where
  | loaded (result : Except ClientError (Option Progress))
  | done (result : Except ClientError Unit)

/-- Only events that a line can hold are stored, and only progress that was recorded. -/
def Operation.Storable : Operation → Prop
  | .load _ | .clear _ => True
  | .save _ progress =>
      ∃ events, progress = Progress.ofEvents events ∧ ∀ event ∈ events, event.Storable
  | .append _ event _ => event.Storable

namespace Store

/-- Carry out one operation. -/
def perform (store : Store) : Operation → Outcome × Store
  | .load key =>
      let (result, next) := store.load key
      (.loaded result, next)
  | .save key progress =>
      let (result, next) := store.save key progress
      (.done result, next)
  | .append key event lastNumber =>
      let (result, next) := store.append key event lastNumber
      (.done result, next)
  | .clear key =>
      let (result, next) := store.clear key
      (.done result, next)

/-- Carry out operations in order. -/
def performAll (store : Store) : List Operation → List Outcome × Store
  | [] => ([], store)
  | operation :: rest =>
      let (outcome, next) := store.perform operation
      let (outcomes, last) := next.performAll rest
      (outcome :: outcomes, last)

end Store

namespace Files

/-- Different keys have different files. -/
theorem nameOf_injective : Function.Injective nameOf := by
  intro first second same
  have encoded := congrArg String.toList same
  simp only [nameOf, String.toList_append, List.append_cancel_right_eq] at encoded
  exact Text.percentEncode_injective (String.toList_inj.mp encoded)

/-- No staging file has the name of the file of a key. -/
theorem stagingName_ne_nameOf (key id other : String) : stagingName key id ≠ nameOf other := by
  intro same
  have ends := congrArg (fun name => name.toList.reverse.head?) same
  simp [stagingName, nameOf] at ends

end Files

/-- What stands under the name of a key when the memory has this progress under it. -/
inductive Stored : Option Entry → Option Progress → Prop where
  | nothing : Stored none none
  | file
      (header : Progress)
      (entries : List (Event × UInt64))
      (storable : ∀ entry ∈ entries, entry.1.Storable) :
      Stored (some (.file (contentOf header entries)))
        (some ({ header with events := [] }.recordAll entries))

theorem Stored.not_folder
    {entry : Option Entry}
    {progress : Option Progress}
    (stored : Stored entry progress) :
    entry ≠ some .folder := by
  cases stored <;> simp

/-- The file of progress, as it is saved. -/
theorem Stored.own
    {progress : Progress}
    (consistent : progress.Consistent)
    (storable : ∀ event ∈ progress.events, event.Storable) :
    Stored (some (.file (fileOf progress))) (some progress) := by
  have stored := Stored.file progress _ (storable_own storable)
  rwa [← fileOf_eq, consistent.recordAll_own] at stored

/-- Names hold no folders, and those of keys hold what the memory has. -/
structure Mirrors
    (standing : String → Option Entry)
    (memory : Memory) :
    Prop where
  noFolder : ∀ name, standing name ≠ some .folder
  stored : ∀ key, Stored (standing (Files.nameOf key)) (memory.load key)

namespace Mirrors

variable
  {standing : String → Option Entry}
  {memory changed : Memory}
  {entry : Option Entry}
  {name key : String}

/-- A name that no key has makes no difference. -/
theorem aside
    (mirrors : Mirrors standing memory)
    (other : ∀ key, name ≠ Files.nameOf key)
    (entry : Option Entry)
    (noFolder : entry ≠ some .folder) :
    Mirrors (Function.update standing name entry) memory where
  noFolder :=
    (Function.forall_update_iff standing fun _ entry => entry ≠ some .folder).mpr
      ⟨noFolder, fun other _ => mirrors.noFolder other⟩
  stored := by
    intro key
    rw [Function.update_of_ne (other key).symm]
    exact mirrors.stored key

/-- One key is changed in both. -/
theorem put
    (mirrors : Mirrors standing memory)
    (stored : Stored entry (changed.load key))
    (others : ∀ other, other ≠ key → changed.load other = memory.load other) :
    Mirrors (Function.update standing (Files.nameOf key) entry) changed where
  noFolder :=
    (Function.forall_update_iff standing fun _ entry => entry ≠ some .folder).mpr
      ⟨stored.not_folder, fun other _ => mirrors.noFolder other⟩
  stored := by
    intro other
    by_cases same : other = key
    · rw [same, Function.update_self]
      exact stored
    · rw [Function.update_of_ne (Files.nameOf_injective.ne same), others other same]
      exact mirrors.stored other

end Mirrors

/-- Files in a folder that takes all names, which hold what the memory has. -/
structure Files.Agree
    (place : Files)
    (memory : Memory) :
    Prop where
  unlimited : place.longestName = none
  unblocked : place.folder ≠ .blocked
  mirrors : Mirrors place.folder.entryAt memory

namespace Files.Agree

variable
  {place : Files}
  {memory : Memory}
  {progress : Progress}
  {event : Event}

private theorem takes (name : String) : Folder.takesName none name = true :=
  rfl

/-- Files that agree with a memory load what it does, and stay as they are. -/
theorem load
    (agree : place.Agree memory)
    (key : String) :
    place.load key = .ok (memory.load key, place) := by
  have stored := agree.mirrors.stored key
  generalize found : place.folder.entryAt (nameOf key) = entry at stored
  generalize memory.load key = held at stored ⊢
  rw [Files.load, agree.unlimited]
  cases stored with
  | nothing => rw [Folder.read_absent agree.unblocked (takes _) found]
  | file header entries storable =>
      rw [Folder.read_file (takes _) found]
      simp only [ofFile?_contentOf storable]

/-- Files that agree with a memory save what it does, and agree with it behind this. -/
theorem save
    (agree : place.Agree memory)
    (key : String)
    (consistent : progress.Consistent)
    (storable : ∀ event ∈ progress.events, event.Storable) :
    ∃ next,
      place.save key progress = (.ok (), next) ∧ next.Agree (memory.save key progress) := by
  have apart := stagingName_ne_nameOf key place.supply.fresh.1
  obtain ⟨entries, created, kept⟩ := Folder.create_ok agree.unblocked
  have before : Mirrors (Folder.present entries).entryAt memory := kept ▸ agree.mirrors
  obtain ⟨written, wrote, afterWrite⟩ :=
    Folder.write_ok (takes _) (before.noFolder _) (fileOf progress)
  have staged := before.aside apart (some (.file (fileOf progress))) (by simp)
  rw [← afterWrite] at staged
  have stands :
      (Folder.present written).entryAt (stagingName key place.supply.fresh.1) =
        some (.file (fileOf progress)) := by
    rw [afterWrite, Function.update_self]
  obtain ⟨moved, renamed, afterRename⟩ :=
    Folder.rename_file (takes _) stands (takes _) (staged.noFolder (nameOf key))
  have removed := staged.aside apart none (by simp)
  have own : Stored (some (.file (fileOf progress))) ((memory.save key progress).load key) := by
    rw [Memory.load_save]
    exact .own consistent storable
  have replaced := removed.put own fun other different =>
    Memory.load_save_of_ne different memory progress
  rw [← afterRename] at replaced
  refine ⟨{ place with folder := .present moved, supply := place.supply.fresh.2 }, ?_,
    agree.unlimited, nofun, replaced⟩
  simp only [Files.save, created, agree.unlimited, wrote, renamed]

/-- Files that agree with a memory append what it does, and agree with it behind this. -/
theorem append
    (agree : place.Agree memory)
    (key : String)
    (storable : event.Storable)
    (lastNumber : UInt64) :
    ∃ next,
      place.append key event lastNumber = (.ok (), next) ∧
        next.Agree (memory.append key event lastNumber) := by
  have stored := agree.mirrors.stored key
  generalize found : place.folder.entryAt (nameOf key) = entry at stored
  generalize held : memory.load key = progress at stored
  cases stored with
  | nothing =>
      have missing := Folder.append_absent agree.unblocked (takes _) found
        (lineOf (entryOf event lastNumber))
      have consistent : (({} : Progress).recordAt event lastNumber).Consistent :=
        (Progress.consistent_ofEvents []).recordAt event lastNumber
      have saved := agree.save key consistent (by simpa [Progress.recordAt] using storable)
      rw [Files.append, agree.unlimited, missing, Memory.append, held]
      exact saved
  | file header entries stored =>
      obtain ⟨longer, appended, after⟩ := Folder.append_file (takes _) found
        (lineOf (entryOf event lastNumber))
      have all : ∀ entry ∈ entries ++ [(event, lastNumber)], entry.1.Storable :=
        List.forall_mem_append.mpr ⟨stored, List.forall_mem_singleton.mpr storable⟩
      have longerStored := Stored.file header _ all
      rw [← contentOf_append, Progress.recordAll_concat] at longerStored
      have now : (memory.append key event lastNumber).load key =
          some (({ header with events := [] }.recordAll entries).recordAt event lastNumber) := by
        rw [Memory.load_append, held, Option.getD_some]
      rw [← now] at longerStored
      have appendedTo := agree.mirrors.put longerStored fun other different =>
        Memory.load_save_of_ne different memory _
      rw [← after] at appendedTo
      refine ⟨{ place with folder := .present longer }, ?_, agree.unlimited, by simp, appendedTo⟩
      simp only [Files.append, agree.unlimited, appended]

/-- Files that agree with a memory clear what it does, and agree with it behind this. -/
theorem clear
    (agree : place.Agree memory)
    (key : String) :
    ∃ next, place.clear key = .ok next ∧ next.Agree (memory.clear key) := by
  have stored := agree.mirrors.stored key
  have gone : Stored none ((memory.clear key).load key) := by
    rw [Memory.load_clear]
    exact .nothing
  have cleared := agree.mirrors.put gone fun other different =>
    Memory.load_clear_of_ne different memory
  generalize found : place.folder.entryAt (nameOf key) = entry at stored
  generalize memory.load key = held at stored
  cases stored with
  | nothing =>
      have missing := Folder.remove_absent agree.unblocked (takes _) found
      rw [← found, Function.update_eq_self] at cleared
      refine ⟨place, ?_, agree.unlimited, agree.unblocked, cleared⟩
      simp only [Files.clear, agree.unlimited, missing]
  | file header entries storable =>
      obtain ⟨left, removed, after⟩ := Folder.remove_file (takes _) found
      rw [← after] at cleared
      refine ⟨{ place with folder := .present left }, ?_, agree.unlimited, nofun, cleared⟩
      simp only [Files.clear, agree.unlimited, removed]

end Files.Agree

namespace Store

variable
  {place : Files}
  {memory : Memory}

/-- Both stores answer an operation in the same way, and go on agreeing. -/
theorem perform_agree
    (agree : place.Agree memory)
    {operation : Operation}
    (storable : operation.Storable) :
    ∃ outcome nextPlace nextMemory,
      (Store.files place).perform operation = (outcome, .files nextPlace) ∧
        (Store.memory memory).perform operation = (outcome, .memory nextMemory) ∧
        nextPlace.Agree nextMemory := by
  cases operation with
  | load key =>
      refine ⟨.loaded (.ok (memory.load key)), place, memory, ?_, rfl, agree⟩
      simp only [perform, Store.load, agree.load key]
  | save key progress =>
      obtain ⟨events, rfl, each⟩ := storable
      obtain ⟨next, saved, still⟩ := agree.save key (Progress.consistent_ofEvents events)
        (by rwa [Progress.ofEvents_events])
      refine ⟨.done (.ok ()), next, _, ?_, rfl, still⟩
      simp only [perform, Store.save, saved]
  | append key event lastNumber =>
      obtain ⟨next, appended, still⟩ := agree.append key storable lastNumber
      refine ⟨.done (.ok ()), next, _, ?_, rfl, still⟩
      simp only [perform, Store.append, appended]
  | clear key =>
      obtain ⟨next, cleared, still⟩ := agree.clear key
      refine ⟨.done (.ok ()), next, _, ?_, rfl, still⟩
      simp only [perform, Store.clear, cleared]

/-- Files that agree with a memory give its answers, whatever they are asked. -/
theorem performAll_agree
    (agree : place.Agree memory)
    {operations : List Operation}
    (storable : ∀ operation ∈ operations, operation.Storable) :
    ((Store.files place).performAll operations).1 =
      ((Store.memory memory).performAll operations).1 := by
  induction operations generalizing place memory with
  | nil => rfl
  | cons operation rest inductionHypothesis =>
      obtain ⟨first, others⟩ := List.forall_mem_cons.mp storable
      obtain ⟨outcome, nextPlace, nextMemory, inFiles, inMemory, still⟩ :=
        perform_agree agree first
      simp only [performAll, inFiles, inMemory, inductionHypothesis still others]

/--
A store in files, in a folder that is empty or not made yet and takes names of any
length, answers all operations just as a store in memory does.
-/
theorem files_agree_with_memory
    (path : String)
    (supply : IdSupply)
    {folder : Folder}
    (empty : folder = .absent ∨ folder = .present [])
    {operations : List Operation}
    (storable : ∀ operation ∈ operations, operation.Storable) :
    ((Store.files { path, folder, supply, longestName := none }).performAll operations).1 =
      ((Store.memory []).performAll operations).1 := by
  have vacant (name : String) : folder.entryAt name = none := by
    rcases empty with rfl | rfl <;> rfl
  refine performAll_agree ⟨rfl, ?_, ?_, ?_⟩ storable
  · rcases empty with rfl | rfl <;> simp
  · intro name
    simp [vacant]
  · intro key
    simp only [vacant]
    exact .nothing

end Store

namespace MixedUse

/-- An event that opens a run. -/
def opening : Event :=
  ⟨none, none, some 1, .runStarted "thread" "run"⟩

/-- An event with the whole state of an agent. -/
def snapshot : Event :=
  ⟨some 5, none, some 2, .stateSnapshot (some (.object [("deep", .array [.null, .word 7])]))⟩

theorem storable_opening : opening.Storable where
  decoded :=
    ⟨"\x7b\"type\":\"RUN_STARTED\",\"threadId\":\"thread\","
      ++ "\"runId\":\"run\",\"sequenceNumber\":1\x7d",
     by cbv⟩
  whole := rfl
  shallow := by decide

theorem storable_snapshot : snapshot.Storable where
  decoded :=
    ⟨"\x7b\"snapshot\":\x7b\"deep\":[null, 7]\x7d,\"timestamp\":5,"
      ++ "\"type\":\"STATE_SNAPSHOT\",\"sequenceNumber\":2\x7d",
     by cbv⟩
  whole := rfl
  shallow := by decide

/-- Operations of all kinds, on keys that could not be names of files themselves. -/
def operations : List Operation :=
  [.append "a/b" opening 1,
   .save "" (Progress.ofEvents [opening, snapshot]),
   .append "" snapshot 9,
   .load "a/b",
   .clear "a/b",
   .load "a/b",
   .load ""]

end MixedUse

namespace Store

open MixedUse

/-- Operations of every kind, on two keys that have to be encoded. -/
theorem files_agree_with_memory_mixed :
    (∀ operation ∈ operations, operation.Storable) ∧
      ((Store.files { path := "runs", longestName := none }).performAll operations).1 =
        [.done (.ok ()),
         .done (.ok ()),
         .done (.ok ()),
         .loaded (.ok (some (({} : Progress).recordAt opening 1))),
         .done (.ok ()),
         .loaded (.ok none),
         .loaded (.ok (some ((Progress.ofEvents [opening, snapshot]).recordAt snapshot 9)))] := by
  have both : ∀ event ∈ [opening, snapshot], event.Storable := by
    simp [storable_opening, storable_snapshot]
  have storable : ∀ operation ∈ operations, operation.Storable := by
    simp only [operations, List.forall_mem_cons]
    exact ⟨storable_opening, ⟨_, rfl, both⟩, storable_snapshot, trivial, trivial, trivial, trivial,
      nofun⟩
  refine ⟨storable, ?_⟩
  rw [files_agree_with_memory "runs" {} (.inl rfl) storable]
  cbv

end Store

end AgentWire.Resume
