import AgentWire.Proofs.Server.Recorder

namespace AgentWire.Server

/-!
# Following a log that is being written

A recorder and any number of followers take turns in any order, and other work may
change the store in between.  Each follower hands over what the log holds behind
its number, in order, and ends where the log ends; while it waits there is nothing
that it has not been told of.  The turns may stop at any moment, so that the streams
here stand for the beginnings of an endless one as well.
-/

/-- A reader with the number behind which it reads and what it has handed over. -/
structure Follower where
  number : Nat
  reader : Reader
  yielded : List Event := []
  deriving Repr, DecidableEq

/-- A recorder at work, and those who follow its log. -/
structure Recording where
  store : RunStore
  recorder : Recorder
  followers : List Follower := []
  deriving Repr

/-- What may happen next to a recording. -/
inductive Turn where
  /-- The recorder takes a step. -/
  | record
  /-- Somebody starts to follow the log behind a number. -/
  | follow (number : Nat)
  /-- The follower with an index takes a step. -/
  | read (index : Nat)
  /-- Other work changes the store, but not this log. -/
  | elsewhere (store : RunStore)
  deriving Repr

namespace Follower

/-- One step of the reader of a follower; nothing happens while it has to wait. -/
def step (log : RunLog) (follower : Follower) : Follower :=
  match follower.reader.step? log with
  | none => follower
  | some (event, reader) =>
      { follower with reader, yielded := follower.yielded ++ event.toList }

/-- A follower that is not done and has to wait for news. -/
def Waits (log : RunLog) (follower : Follower) : Prop :=
  follower.reader.isEnded = false ∧ follower.reader.step? log = none

end Follower

namespace Recording

/-- Start to record a stream into a new log. -/
def start
    (store : RunStore)
    (runId : String)
    (source : EventStream)
    (retention : Nat) :
    Recording :=
  let (log, store) := store.create runId
  { store, recorder := { log, runId, source, retention } }

/-- The log that is being written. -/
def log? (recording : Recording) : Option RunLog :=
  recording.store.log? recording.recorder.log

/-- Take one turn. -/
def turn (recording : Recording) : Turn → Recording
  | .record =>
      let (store, recorder) := recording.recorder.step recording.store
      { recording with store, recorder }
  | .follow number =>
      let added := recording.log?.toList.map fun log =>
        { number, reader := Reader.start log number : Follower }
      { recording with followers := recording.followers ++ added }
  | .read index =>
      let step := (recording.log?.map Follower.step).getD id
      { recording with followers := recording.followers.modify index step }
  | .elsewhere store =>
      let same := store.log? recording.recorder.log = recording.log?
      { recording with store := if same then store else recording.store }

/-- Take some turns. -/
def run (recording : Recording) (turns : List Turn) : Recording :=
  turns.foldl turn recording

end Recording

/-- A reader has read all of an unfinished log, or there is news for it. -/
def Informed (recorder : Recorder) (log : RunLog) (reader : Reader) : Prop :=
  recorder.OwesNews ∨
    reader.heard < log.news ∨
    log.size ≤ reader.position ∧ log.finished = false

/-- What a reader knows of the log, by what it is about to do. -/
def Aware (recorder : Recorder) (log : RunLog) (reader : Reader) : Prop :=
  match reader.stage with
  | .looking => True
  | .handing _ true | .ended => log.size ≤ reader.position ∧ log.finished = true
  | .handing _ false | .waiting => Informed recorder log reader

section Awareness

variable
  {recorder next : Recorder}
  {log changed : RunLog}
  {reader : Reader}

/-- A reader stays informed when the recorder takes a step. -/
theorem Informed.moved
    (informed : Informed recorder log reader)
    (heard : reader.heard ≤ log.news)
    (moves : recorder.Moves log next changed) :
    Informed next changed reader := by
  by_cases owes : next.OwesNews
  · exact .inl owes
  · obtain ⟨events, finished⟩ := moves.unchanged owes
    rcases informed with owed | news | ⟨reached, unfinished⟩
    · have told := moves.news_of_owesNews owed
      exact .inr (.inl (by omega))
    · exact .inr (.inl (Nat.lt_of_lt_of_le news moves.news_monotone))
    · have reached : changed.size ≤ reader.position := by
        rwa [RunLog.size, events]
      exact .inr (.inr ⟨reached, finished.trans unfinished⟩)

/-- A reader stays aware when the recorder takes a step. -/
theorem Aware.moved
    (aware : Aware recorder log reader)
    (heard : reader.heard ≤ log.news)
    (moves : recorder.Moves log next changed) :
    Aware next changed reader := by
  have atEnd :
      log.size ≤ reader.position ∧ log.finished = true →
        changed.size ≤ reader.position ∧ changed.finished = true := by
    rintro ⟨reached, finished⟩
    obtain ⟨events, still⟩ := moves.keeps_finished finished
    refine ⟨?_, still⟩
    rwa [RunLog.size, events]
  cases stage : reader.stage with
  | looking => simp [Aware, stage]
  | handing events last =>
      cases last with
      | true => simpa [Aware, stage] using atEnd (by simpa [Aware, stage] using aware)
      | false =>
          have informed : Informed recorder log reader := by simpa [Aware, stage] using aware
          simpa [Aware, stage] using informed.moved heard moves
  | waiting =>
      have informed : Informed recorder log reader := by simpa [Aware, stage] using aware
      simpa [Aware, stage] using informed.moved heard moves
  | ended => simpa [Aware, stage] using atEnd (by simpa [Aware, stage] using aware)

end Awareness

/-- A follower that is where it should be in its log. -/
structure Tracks (recorder : Recorder) (log : RunLog) (follower : Follower) : Prop where
  behind : follower.number ≤ follower.reader.position
  within :
    follower.reader.position ≤ log.size ∨ follower.reader.position = follower.number
  handed :
    follower.yielded ++ follower.reader.pending =
      (log.eventsAfter follower.number).take (follower.reader.position - follower.number)
  heard : follower.reader.heard ≤ log.news
  aware : Aware recorder log follower.reader

namespace Tracks

variable
  {recorder next : Recorder}
  {log changed : RunLog}
  {follower : Follower}

/-- A reader that starts keeps track of the log. -/
theorem of_start (number : Nat) :
    Tracks recorder log { number, reader := Reader.start log number } where
  behind := Nat.le_refl _
  within := .inr rfl
  handed := by simp [Reader.start, Reader.pending]
  heard := Nat.le_refl _
  aware := by simp [Aware, Reader.start]

/-- What was handed over and what is left make up the events behind the number. -/
theorem yielded_append_eventsAfter
    (tracks : Tracks recorder log follower)
    (empty : follower.reader.pending = []) :
    follower.yielded ++ log.eventsAfter follower.reader.position =
      log.eventsAfter follower.number := by
  have handed := tracks.handed
  rw [empty, List.append_nil] at handed
  have rest :
      log.eventsAfter follower.reader.position =
        (log.eventsAfter follower.number).drop (follower.reader.position - follower.number) := by
    rw [RunLog.eventsAfter, RunLog.eventsAfter, List.drop_drop,
      Nat.add_sub_cancel' tracks.behind]
  rw [handed, rest, List.take_append_drop]

/-- A reader that has come to the end has handed over all events behind its number. -/
theorem complete
    (tracks : Tracks recorder log follower)
    (empty : follower.reader.pending = [])
    (reached : log.size ≤ follower.reader.position) :
    follower.yielded = log.eventsAfter follower.number := by
  have nothing : log.eventsAfter follower.reader.position = [] :=
    List.drop_eq_nil_of_le reached
  simpa [nothing] using tracks.yielded_append_eventsAfter empty

/-- A reader that looks at the log keeps track of it. -/
theorem look
    (tracks : Tracks recorder log follower)
    (stage : follower.reader.stage = .looking) :
    Tracks recorder log (follower.step log) := by
  have whole := tracks.yielded_append_eventsAfter (by simp [Reader.pending, stage])
  have behind := tracks.behind
  have within := tracks.within
  have length :
      (log.eventsAfter follower.reader.position).length =
        log.size - follower.reader.position :=
    List.length_drop
  have now :
      follower.step log =
        { follower with
          reader :=
            { follower.reader with
              position :=
                follower.reader.position + (log.eventsAfter follower.reader.position).length
              stage := .handing (log.eventsAfter follower.reader.position) log.finished } } := by
    simp [Follower.step, Reader.step?, stage]
  rw [now]
  refine ⟨?_, ?_, ?_, tracks.heard, ?_⟩
  · exact Nat.le_add_right_of_le behind
  · simp only [length]
    omega
  · rw [Reader.pending, whole]
    refine (List.take_of_length_le ?_).symm
    simp only [RunLog.eventsAfter, RunLog.size, List.length_drop] at *
    omega
  · have reached : log.size ≤ follower.reader.position + (log.size - follower.reader.position) := by
      omega
    cases finished : log.finished with
    | true => exact ⟨by simpa [length] using reached, finished⟩
    | false => exact .inr (.inr ⟨by simpa [length] using reached, finished⟩)

/-- A follower keeps its track if it reads nothing new and is as aware as before. -/
theorem carry
    {later : Follower}
    (tracks : Tracks recorder log follower)
    (number : later.number = follower.number)
    (position : later.reader.position = follower.reader.position)
    (handed :
      later.yielded ++ later.reader.pending = follower.yielded ++ follower.reader.pending)
    (heard : later.reader.heard ≤ log.news)
    (aware : Aware recorder log later.reader) :
    Tracks recorder log later where
  behind := by rw [number, position]; exact tracks.behind
  within := by rw [number, position]; exact tracks.within
  handed := by rw [number, position, handed]; exact tracks.handed
  heard := heard
  aware := aware

/-- A reader keeps track of the log with every step of its own. -/
theorem step (tracks : Tracks recorder log follower) :
    Tracks recorder log (follower.step log) := by
  have aware := tracks.aware
  cases stage : follower.reader.stage with
  | looking => exact tracks.look stage
  | handing events last =>
      -- What is handed over was taken from the log before, so the log is not read again.
      rw [Aware, stage] at aware
      cases events with
      | cons event rest =>
          have now :
              follower.step log =
                { follower with
                  reader := { follower.reader with stage := .handing rest last }
                  yielded := follower.yielded ++ [event] } := by
            simp [Follower.step, Reader.step?, stage]
          rw [now]
          refine tracks.carry rfl rfl (by simp [Reader.pending, stage]) tracks.heard ?_
          cases last <;> exact aware
      | nil =>
          cases last with
          | true =>
              have now :
                  follower.step log =
                    { follower with reader := { follower.reader with stage := .ended } } := by
                simp [Follower.step, Reader.step?, stage]
              rw [now]
              exact tracks.carry rfl rfl (by simp [Reader.pending, stage]) tracks.heard aware
          | false =>
              have now :
                  follower.step log =
                    { follower with reader := { follower.reader with stage := .waiting } } := by
                simp [Follower.step, Reader.step?, stage]
              rw [now]
              exact tracks.carry rfl rfl (by simp [Reader.pending, stage]) tracks.heard aware
  | waiting =>
      by_cases silent : follower.reader.heard = log.news
      · have now : follower.step log = follower := by
          simp [Follower.step, Reader.step?, stage, silent]
        rw [now]
        exact tracks
      · have now :
            follower.step log =
              { follower with
                reader := { follower.reader with heard := log.news, stage := .looking } } := by
          simp [Follower.step, Reader.step?, stage, silent]
        rw [now]
        exact tracks.carry rfl rfl (by simp [Reader.pending, stage]) (Nat.le_refl _) trivial
  | ended =>
      have now : follower.step log = follower := by
        simp [Follower.step, Reader.step?, stage]
      rw [now]
      exact tracks

/-- A reader keeps track of the log with every step of the recorder. -/
theorem moved
    (tracks : Tracks recorder log follower)
    (moves : recorder.Moves log next changed) :
    Tracks next changed follower := by
  have behind := tracks.behind
  obtain ⟨more, grown⟩ := moves.events_monotone
  have larger : changed.size = log.size + more.length := by
    simp [RunLog.size, ← grown]
  refine ⟨behind, ?_, ?_, Nat.le_trans tracks.heard moves.news_monotone, ?_⟩
  · have within := tracks.within
    omega
  · rw [tracks.handed]
    rcases tracks.within with within | same
    · have inside : follower.number ≤ log.events.length := Nat.le_trans behind within
      rw [RunLog.eventsAfter, RunLog.eventsAfter, ← grown, List.drop_append_of_le_length inside]
      refine (List.take_append_of_le_length ?_).symm
      rw [List.length_drop]
      exact Nat.sub_le_sub_right within _
    · simp [same]
  · exact tracks.aware.moved tracks.heard moves

/-- What was handed over is a first part of the events behind the number. -/
theorem yielded_start (tracks : Tracks recorder log follower) :
    follower.yielded <+: log.eventsAfter follower.number := by
  have upTo := List.take_prefix (follower.reader.position - follower.number)
    (log.eventsAfter follower.number)
  rw [← tracks.handed] at upTo
  exact (List.prefix_append _ _).trans upTo

/-- A reader has ended only when the log is finished and all of it was handed over. -/
theorem yielded_of_ended
    (tracks : Tracks recorder log follower)
    (ended : follower.reader.isEnded = true) :
    log.finished = true ∧ follower.yielded = log.eventsAfter follower.number := by
  have stage : follower.reader.stage = .ended := by
    simpa [Reader.isEnded] using ended
  have aware := tracks.aware
  rw [Aware, stage] at aware
  obtain ⟨reached, finished⟩ := aware
  exact ⟨finished, tracks.complete (by simp [Reader.pending, stage]) reached⟩

/-- A follower has to wait exactly where its reader waits and has heard of all the news. -/
theorem waits_iff :
    follower.Waits log ↔
      follower.reader.stage = .waiting ∧ follower.reader.heard = log.news := by
  cases stage : follower.reader.stage with
  | looking => simp [Follower.Waits, Reader.step?, stage]
  | handing events last =>
      cases events with
      | cons event rest => simp [Follower.Waits, Reader.step?, stage]
      | nil => cases last <;> simp [Follower.Waits, Reader.step?, stage]
  | waiting => simp [Follower.Waits, Reader.step?, Reader.isEnded, stage]
  | ended => simp [Follower.Waits, Reader.isEnded, stage]

/-- A follower that waits has everything, or the next step of the recorder wakes it. -/
theorem of_waits
    (tracks : Tracks recorder log follower)
    (moves : recorder.Moves log next changed)
    (waits : follower.Waits log) :
    log.finished = false ∧ follower.yielded = log.eventsAfter follower.number ∨
      ¬follower.Waits changed := by
  obtain ⟨stage, heard⟩ := waits_iff.mp waits
  have aware := tracks.aware
  rw [Aware, stage] at aware
  rcases aware with owes | news | ⟨reached, unfinished⟩
  · right
    intro still
    have told := moves.news_of_owesNews owes
    have silent := (waits_iff.mp still).2
    omega
  · omega
  · exact .inl ⟨unfinished, tracks.complete (by simp [Reader.pending, stage]) reached⟩

end Tracks

namespace Recording

/-- A recording whose log and whose followers are where they should be. -/
def Holds (all : List Event) (recording : Recording) : Prop :=
  ∃ log,
    recording.log? = some log ∧
      recording.recorder.Writes all log ∧
      ∀ follower ∈ recording.followers, Tracks recording.recorder log follower

variable
  {all : List Event}
  {recording : Recording}
  {log : RunLog}
  {store : RunStore}

/-- The invariant holds of a recording that starts. -/
theorem holds_start
    (store : RunStore)
    (runId : String)
    (source : EventStream)
    (retention : Nat) :
    (start store runId source retention).Holds source.events :=
  ⟨{ runId }, RunStore.log?_create,
    Recorder.Writes.nil (start store runId source retention).recorder rfl runId,
    by simp [start]⟩

/-- The recorder moves its own log. -/
theorem log?_record (found : recording.log? = some log) :
    ∃ changed,
      (recording.turn .record).log? = some changed ∧
        recording.recorder.Moves log (recording.turn .record).recorder changed := by
  obtain ⟨changed, stored, moves⟩ := Recorder.step_moves found
  refine ⟨changed, ?_, moves⟩
  rw [log?, ← stored, ← moves.same_log]
  rfl

/-- Other work leaves the log of a recording alone. -/
theorem log?_elsewhere (store : RunStore) :
    (recording.turn (.elsewhere store)).log? = recording.log? := by
  by_cases same : store.log? recording.recorder.log = recording.log?
  · simp only [turn, same, ↓reduceIte]
    exact same
  · simp only [turn, same, ↓reduceIte]

/-- Every turn keeps the invariant. -/
theorem Holds.turn
    (holds : recording.Holds all)
    (turn : Turn) :
    (recording.turn turn).Holds all := by
  obtain ⟨log, found, writes, tracks⟩ := holds
  cases turn with
  | record =>
      obtain ⟨changed, stored, moves⟩ := log?_record found
      exact ⟨changed, stored, moves.writes writes,
        fun follower member => (tracks follower member).moved moves⟩
  | follow number =>
      refine ⟨log, found, writes, ?_⟩
      intro follower member
      simp only [Recording.turn, found, Option.toList_some, List.map_singleton,
        List.mem_append, List.mem_singleton] at member
      rcases member with before | rfl
      · exact tracks follower before
      · exact Tracks.of_start number
  | read index =>
      refine ⟨log, found, writes, ?_⟩
      intro follower member
      simp only [Recording.turn, found, Option.map_some, Option.getD_some] at member
      obtain ⟨place, stands⟩ := List.mem_iff_getElem?.mp member
      rw [List.getElem?_modify, Option.map_eq_map, Option.map_eq_some_iff] at stands
      obtain ⟨before, stood, rfl⟩ := stands
      have tracked := tracks before (List.mem_of_getElem? stood)
      split
      · exact tracked.step
      · exact tracked
  | elsewhere store => exact ⟨log, (log?_elsewhere store).trans found, writes, tracks⟩

/-- Whatever turns are taken, the invariant holds. -/
theorem Holds.run
    (holds : recording.Holds all)
    (turns : List Turn) :
    (recording.run turns).Holds all := by
  induction turns generalizing recording with
  | nil => exact holds
  | cons turn rest inductionHypothesis => exact inductionHypothesis (holds.turn turn)

/-- A log that is finished keeps its events, whatever happens next. -/
theorem finished_run
    (found : recording.log? = some log)
    (finished : log.finished = true)
    (turns : List Turn) :
    ∃ last,
      (recording.run turns).log? = some last ∧
        last.events = log.events ∧ last.finished = true := by
  induction turns generalizing recording log with
  | nil => exact ⟨log, found, rfl, finished⟩
  | cons turn rest inductionHypothesis =>
      cases turn with
      | record =>
          obtain ⟨changed, stored, moves⟩ := log?_record found
          obtain ⟨events, still⟩ := moves.keeps_finished finished
          obtain ⟨last, kept, same, closed⟩ := inductionHypothesis stored still
          exact ⟨last, kept, same.trans events, closed⟩
      | follow number => exact inductionHypothesis found finished
      | read index => exact inductionHypothesis found finished
      | elsewhere store =>
          exact inductionHypothesis ((log?_elsewhere store).trans found) finished

/--
At every moment the log holds the first events of the stream, and all of them once
it is finished; then it stays as it is.  A follower has handed over the first of
the events with greater numbers, all of them when it ends, and it ends only with
the log.  While it waits it has missed nothing, or the recorder is about to wake it.
-/
theorem followers_read_log
    (store : RunStore)
    (runId : String)
    (source : EventStream)
    (retention : Nat)
    (turns later : List Turn) :
    let recording := (start store runId source retention).run turns
    let whole := inLog (untilEnd source.events)
    ∃ log,
      recording.log? = some log ∧
        log.events <+: whole ∧
        (log.finished = true →
          log.events = whole ∧
            ∃ last,
              (recording.run later).log? = some last ∧
                last.events = log.events ∧ last.finished = true) ∧
        ∀ follower ∈ recording.followers,
          follower.yielded <+: log.eventsAfter follower.number ∧
            (log.size < UInt64.size →
              log.eventsAfter follower.number =
                log.events.filter (numberedAbove follower.number)) ∧
            (follower.reader.isEnded = true →
              log.finished = true ∧
                follower.yielded = log.eventsAfter follower.number) ∧
            (follower.Waits log →
              log.finished = false ∧
                  follower.yielded = log.eventsAfter follower.number ∨
                ∃ woken,
                  (recording.turn .record).log? = some woken ∧ ¬follower.Waits woken) := by
  intro recording whole
  have holds : recording.Holds source.events :=
    (holds_start store runId source retention).run turns
  obtain ⟨log, found, writes, tracks⟩ := holds
  obtain ⟨kept, written, first, complete⟩ := writes.kept
  refine ⟨log, found, ?_, ?_, ?_⟩
  · rw [written]
    exact inLog_monotone first
  · intro finished
    refine ⟨?_, finished_run found finished later⟩
    rw [written, complete finished]
  · intro follower member
    have tracked := tracks follower member
    refine ⟨tracked.yielded_start, ?_, tracked.yielded_of_ended, ?_⟩
    · intro short
      rw [RunLog.eventsAfter, written]
      apply drop_inLog
      simpa [RunLog.size, written] using short
    · intro waits
      obtain ⟨woken, stored, moves⟩ := log?_record found
      rcases tracked.of_waits moves waits with settled | wakes
      · exact .inl settled
      · exact .inr ⟨woken, stored, wakes⟩

end Recording

end AgentWire.Server
