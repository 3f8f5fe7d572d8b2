import AgentWire.Proofs.Server.RunStore
import AgentWire.Server.Archive
import Mathlib.Data.List.Perm.Basic

namespace AgentWire.Server

/-!
# Upkeep of an archive

The work of an archive in small steps that come in any order: a run is to be
recorded, a task that is due goes on by one step, or time passes.  A task may go on
long after it is due.  Whatever an archive does while somebody waits is one of these
interleavings.
-/

/-- A run that is to be recorded. -/
structure Job where
  runId : String
  source : EventStream
  retention : Nat
  deriving Repr

/-- The recorder of a run before its first step. -/
def Job.recorder (job : Job) (log : LogNumber) : Recorder where
  log := log
  runId := job.runId
  source := job.source
  retention := job.retention

namespace Archive

/-- What may happen next to an archive. -/
inductive Act where
  | record (job : Job)
  /-- The task at a place goes on, if it is due. -/
  | turn (place : Nat)
  | pass (milliseconds : Nat)
  deriving Repr

/-- Go on with the work of a task by one step. -/
def goOn (archive : Archive) : Duty → Archive
  | .expire runId => { archive with store := archive.store.remove runId }
  | .record recorder =>
      if recorder.isDone then
        archive.expireAfter recorder.runId recorder.retention
      else
        let due := archive.now + recorder.delay
        let (store, recorder) := recorder.step archive.store
        { archive with store }.schedule due (.record recorder)

/-- Let the task at a place go on, if it is due. -/
def turn (archive : Archive) (place : Nat) : Archive :=
  match archive.tasks[place]? with
  | none => archive
  | some task =>
      if task.due ≤ archive.now then
        { archive with tasks := archive.tasks.eraseIdx place }.goOn task.duty
      else
        archive

/-- Let something happen. -/
def act (archive : Archive) : Act → Archive
  | .record job => (archive.record job.runId job.source job.retention).2
  | .turn place => archive.turn place
  | .pass milliseconds => { archive with now := archive.now + milliseconds }

/-- Any interleaving of requests, work and time. -/
def run (archive : Archive) (acts : List Act) : Archive :=
  acts.foldl act archive

/-- The runs that are to be recorded. -/
def jobs (acts : List Act) : List Job :=
  acts.filterMap fun
    | .record job => some job
    | _ => none

/-- What one turn makes of an archive. -/
inductive Turns (archive : Archive) : Archive → Prop where
  | stay : Turns archive archive
  | expire
      {due : Nat}
      {runId : String}
      {rest : List Task}
      (taken : archive.tasks.Perm (⟨due, .expire runId⟩ :: rest))
      (isDue : due ≤ archive.now) :
      Turns archive { archive with store := archive.store.remove runId, tasks := rest }
  | retire
      {due : Nat}
      {recorder : Recorder}
      {rest : List Task}
      (taken : archive.tasks.Perm (⟨due, .record recorder⟩ :: rest))
      (done : recorder.stage = .done) :
      Turns archive
        { archive with
          tasks := rest ++ [⟨archive.now + recorder.retention, .expire recorder.runId⟩] }
  | record
      {due : Nat}
      {recorder : Recorder}
      {rest : List Task}
      (taken : archive.tasks.Perm (⟨due, .record recorder⟩ :: rest)) :
      Turns archive
        { archive with
          store := (recorder.step archive.store).1
          tasks :=
            rest ++
              [⟨archive.now + recorder.delay, .record (recorder.step archive.store).2⟩] }

section Turning

variable
  {archive : Archive}
  {place : Nat}
  {task : Task}

/-- A run that is to be recorded gets a log and a recorder. -/
theorem act_record (job : Job) :
    archive.act (.record job) =
      { archive with
        store := (archive.store.create job.runId).2
        tasks :=
          archive.tasks ++
            [⟨archive.now, .record (job.recorder archive.store.logs.length)⟩] } :=
  rfl

/-- A task that is due goes on. -/
theorem turn_of_due
    (found : archive.tasks[place]? = some task)
    (isDue : task.due ≤ archive.now) :
    archive.turn place =
      { archive with tasks := archive.tasks.eraseIdx place }.goOn task.duty := by
  simp [turn, found, isDue]

/-- Whatever place has its turn, the archive takes one of its turns. -/
theorem turns_turn : archive.Turns (archive.turn place) := by
  cases found : archive.tasks[place]? with
  | none =>
      rw [show archive.turn place = archive by simp [turn, found]]
      exact .stay
  | some task =>
      by_cases isDue : task.due ≤ archive.now
      · rw [turn_of_due found isDue]
        obtain ⟨inside, rfl⟩ := List.getElem?_eq_some_iff.mp found
        have taken := (List.getElem_cons_eraseIdx_perm inside).symm
        generalize archive.tasks[place] = task at taken isDue
        obtain ⟨due, duty⟩ := task
        cases duty with
        | expire runId => exact .expire taken isDue
        | record recorder =>
            cases done : recorder.isDone with
            | true =>
                simp only [goOn, done, if_true]
                exact .retire taken (by simpa [Recorder.isDone] using done)
            | false =>
                simp only [goOn, done, Bool.false_eq_true, if_false]
                exact .record taken
      · rw [show archive.turn place = archive by simp [turn, found, isDue]]
        exact .stay

/-- No time passes while a task goes on. -/
theorem Turns.now_eq
    {next : Archive}
    (turns : archive.Turns next) :
    next.now = archive.now := by
  cases turns <;> rfl

/-- A task that goes on at once is the one that has waited for the shortest time. -/
theorem turn_schedule (duty : Duty) :
    (archive.schedule archive.now duty).turn archive.tasks.length = archive.goOn duty := by
  have stands :
      (archive.schedule archive.now duty).tasks[archive.tasks.length]? =
        some ⟨archive.now, duty⟩ := by
    simp [schedule]
  rw [turn_of_due stands (Nat.le_refl archive.now)]
  simp [schedule, List.eraseIdx_append_of_length_le]

end Turning

/-!
A task of a waiting archive does many steps before another task goes on, and time
passes only up to the next task.
-/

section Waiting

variable
  {archive later : Archive}
  {time : Nat}

@[simp] theorem run_nil : archive.run [] = archive :=
  rfl

@[simp] theorem run_cons
    (act : Act)
    (acts : List Act) :
    archive.run (act :: acts) = (archive.act act).run acts :=
  rfl

theorem run_append (first second : List Act) :
    archive.run (first ++ second) = (archive.run first).run second :=
  List.foldl_append

/-- No time passes while tasks go on. -/
theorem now_run_turns (places : List Nat) :
    (archive.run (places.map .turn)).now = archive.now := by
  induction places generalizing archive with
  | nil => rfl
  | cons place rest inductionHypothesis =>
      exact inductionHypothesis.trans turns_turn.now_eq

@[simp] theorem jobs_turns (places : List Nat) : jobs (places.map .turn) = [] := by
  simp [jobs]

theorem jobs_append (first second : List Act) :
    jobs (first ++ second) = jobs first ++ jobs second :=
  List.filterMap_append

/-- The steps that a recorder takes without waiting are as many turns. -/
theorem goOn_workFor
    (steps : Nat)
    (archive : Archive)
    (recorder : Recorder) :
    ∃ places : List Nat,
      ({ archive with store := (recorder.workFor steps archive.store).1 } : Archive).goOn
          (.record (recorder.workFor steps archive.store).2) =
        (archive.goOn (.record recorder)).run (places.map .turn) := by
  induction steps generalizing archive recorder with
  | zero => exact ⟨[], rfl⟩
  | succ steps inductionHypothesis =>
      by_cases waits : (recorder.isDone || recorder.delay != 0) = true
      · refine ⟨[], ?_⟩
        simp only [Recorder.workFor, waits, if_true]
        rfl
      · simp only [Bool.or_eq_true, bne_iff_ne, not_or, Bool.not_eq_true,
          Decidable.not_not] at waits
        obtain ⟨goes, atOnce⟩ := waits
        obtain ⟨places, same⟩ :=
          inductionHypothesis { archive with store := (recorder.step archive.store).1 }
            (recorder.step archive.store).2
        have begun :
            archive.goOn (.record recorder) =
              schedule { archive with store := (recorder.step archive.store).1 } archive.now
                (.record (recorder.step archive.store).2) := by
          simp [goOn, goes, atOnce]
        refine ⟨archive.tasks.length :: places, ?_⟩
        simp only [Recorder.workFor, goes, atOnce, bne_self_eq_false, Bool.or_self,
          Bool.false_eq_true, if_false]
        rw [same, List.map_cons, run_cons, begun]
        exact congrArg (run · _) (turn_schedule _).symm

/-- What a task does until it waits are turns of tasks. -/
theorem perform_run
    (archive : Archive)
    (duty : Duty) :
    ∃ places : List Nat,
      archive.perform duty = (archive.goOn duty).run (places.map .turn) := by
  cases duty with
  | expire runId => exact ⟨[], rfl⟩
  | record recorder => exact goOn_workFor (4 * recorder.source.length + 8) archive recorder

/-- A task that is taken out is due, and the others stay in their order. -/
theorem dueTask?_eq_some
    {tasks rest : List Task}
    {duty : Duty}
    (taken : dueTask? time tasks = some (duty, rest)) :
    ∃ place due,
      tasks[place]? = some ⟨due, duty⟩ ∧ due ≤ time ∧ rest = tasks.eraseIdx place := by
  induction tasks generalizing rest with
  | nil => cases taken
  | cons task others inductionHypothesis =>
      unfold dueTask? at taken
      split at taken
      · next isDue =>
        cases taken
        exact ⟨0, task.due, rfl, isDue, rfl⟩
      · obtain ⟨⟨duty, rest⟩, found, shape⟩ := Option.map_eq_some_iff.mp taken
        cases shape
        obtain ⟨place, due, stands, isDue, rfl⟩ := inductionHypothesis found
        exact ⟨place + 1, due, stands, isDue, rfl⟩

/-- What is done without time passing are turns of tasks. -/
theorem settleFor_run
    (turns : Nat)
    (archive : Archive) :
    ∃ places : List Nat, archive.settleFor turns = archive.run (places.map .turn) := by
  induction turns generalizing archive with
  | zero => exact ⟨[], rfl⟩
  | succ turns inductionHypothesis =>
      unfold settleFor
      split
      · exact ⟨[], rfl⟩
      · next duty tasks taken =>
        obtain ⟨place, due, stands, isDue, rfl⟩ := dueTask?_eq_some taken
        obtain ⟨working, performed⟩ :=
          perform_run { archive with tasks := archive.tasks.eraseIdx place } duty
        obtain ⟨others, settled⟩ :=
          inductionHypothesis
            ({ archive with tasks := archive.tasks.eraseIdx place }.perform duty)
        refine ⟨place :: working ++ others, ?_⟩
        rw [settled, performed, List.map_append, run_append, List.map_cons, run_cons]
        congr 2
        exact (turn_of_due stands isDue).symm

/-- Going on to the next time that a task is due starts no run. -/
theorem advance?_run
    {due : Nat}
    (next : archive.nextDue? = some due)
    (advanced : archive.advance? = some later) :
    ∃ acts, jobs acts = [] ∧ later = archive.run acts ∧ later.now = max archive.now due := by
  rw [advance?, next, Option.map_some, Option.some.injEq] at advanced
  subst advanced
  have passed :
      ({ archive with now := max archive.now due } : Archive) =
        archive.act (.pass (due - archive.now)) := by
    have time : max archive.now due = archive.now + (due - archive.now) := by omega
    rw [act, time]
  obtain ⟨places, settled⟩ :=
    settleFor_run ({ archive with now := max archive.now due } : Archive).turnBound
      { archive with now := max archive.now due }
  rw [← settle] at settled
  refine ⟨.pass (due - archive.now) :: places.map .turn, jobs_turns places, ?_, ?_⟩
  · rw [settled, run_cons, passed]
  · rw [settled, now_run_turns]

/-- Working up to a time starts no run and does not pass this time. -/
theorem workUntil_run
    (rounds : Nat)
    (archive : Archive)
    (early : archive.now ≤ time) :
    ∃ acts,
      jobs acts = [] ∧
        archive.workUntil time rounds = archive.run acts ∧
        (archive.workUntil time rounds).now ≤ time := by
  induction rounds generalizing archive with
  | zero => exact ⟨[], rfl, rfl, early⟩
  | succ rounds inductionHypothesis =>
      unfold workUntil
      split
      · exact ⟨[], rfl, rfl, early⟩
      · next due next =>
        split
        · next before =>
          split
          · exact ⟨[], rfl, rfl, early⟩
          · next later advanced =>
            obtain ⟨first, noJobs, reached, now⟩ := advance?_run next advanced
            have notLate : later.now ≤ time := now ▸ Nat.max_le.mpr ⟨early, Nat.le_of_lt before⟩
            obtain ⟨second, none, same, bound⟩ := inductionHypothesis later notLate
            refine ⟨first ++ second, ?_, ?_, bound⟩
            · rw [jobs_append, noJobs, none]
              rfl
            · rw [run_append, ← reached, same]
        · exact ⟨[], rfl, rfl, early⟩

/-- What an archive does while somebody waits is one of the interleavings. -/
theorem wait_run
    (archive : Archive)
    (milliseconds : Nat) :
    ∃ acts, jobs acts = [] ∧ archive.wait milliseconds = archive.run acts := by
  unfold wait
  split
  · exact ⟨[], rfl, rfl⟩
  · obtain ⟨acts, noJobs, same, bound⟩ :=
      workUntil_run archive.turnBound archive (Nat.le_add_right archive.now milliseconds)
    refine ⟨acts ++ [.pass (archive.now + milliseconds - (archive.run acts).now)], ?_, ?_⟩
    · rw [jobs_append, noJobs]
      rfl
    · rw [same] at bound
      simp only [same, run_append, run_cons, run_nil, act, Nat.add_sub_cancel' bound]

end Waiting

end Archive

end AgentWire.Server
