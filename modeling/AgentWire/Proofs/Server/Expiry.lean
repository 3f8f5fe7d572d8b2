import AgentWire.Proofs.Server.Naming
import AgentWire.Proofs.Server.Upkeep

namespace AgentWire.Server

/-!
# The expiry of a log

A log expires by the id of its run: what is dropped is the log that is found under
that id when the time has come.  `Tended` is the invariant of a log whose ids no
other work touches: one task is about it until it is dropped, first a recorder and
then its expiry, and as long as there is such a task the log is found under its id.
-/

namespace Job

/-- All ids under which the log of a run is entered. -/
def ids (job : Job) : List String :=
  job.runId :: announced job.source.events

/-- Two runs, neither of which has its id among the ids of the other. -/
def Apart (first second : Job) : Prop :=
  first.runId ∉ second.ids ∧ second.runId ∉ first.ids

end Job

namespace Duty

/-- Work that neither enters a log under the id of a run nor drops one of its ids. -/
def LeavesAlone (job : Job) : Duty → Prop
  | .expire id => id ∉ job.ids
  | .record recorder => recorder.runId ∉ job.ids ∧ job.runId ∉ recorder.names

end Duty

/-- Whether a task records a log of a run or lets it expire. -/
def Task.isAbout (job : Job) (log : LogNumber) (task : Task) : Bool :=
  match task.duty with
  | .expire id => id == job.runId
  | .record recorder => recorder.log == log

/-- A task that has to do neither with a log nor with its ids. -/
def Task.Aside (job : Job) (log : LogNumber) (task : Task) : Prop :=
  task.isAbout job log = false ∧ task.duty.LeavesAlone job

namespace Archive

/-- Every id leads to a log that was made, and so does every recorder. -/
structure Sound (archive : Archive) : Prop where
  store : archive.store.WellFormed
  recorders :
    ∀ task ∈ archive.tasks, ∀ recorder,
      task.duty = .record recorder → recorder.log < archive.store.logs.length

namespace Sound

variable
  {archive next : Archive}

/-- An archive in which nothing was recorded is sound. -/
theorem empty : Sound {} where
  store := .empty
  recorders := by simp

/-- A turn of a task leaves the archive sound. -/
theorem turned
    (sound : archive.Sound)
    (turns : archive.Turns next) :
    next.Sound := by
  cases turns with
  | stay => exact sound
  | expire taken isDue =>
      refine ⟨sound.store.remove, fun task member recorder duty => ?_⟩
      rw [RunStore.length_remove]
      exact sound.recorders task (taken.mem_iff.mpr (.tail _ member)) recorder duty
  | retire taken done =>
      refine ⟨sound.store, List.forall_mem_append.mpr ⟨?_, by simp⟩⟩
      intro task member recorder duty
      exact sound.recorders task (taken.mem_iff.mpr (.tail _ member)) recorder duty
  | @record due working rest taken =>
      have made : working.log < archive.store.logs.length :=
        sound.recorders _ (taken.mem_iff.mpr (.head _)) working rfl
      refine ⟨Recorder.wellFormed_step sound.store made, List.forall_mem_append.mpr ⟨?_, ?_⟩⟩
      · intro task member recorder duty
        rw [Recorder.length_step]
        exact sound.recorders task (taken.mem_iff.mpr (.tail _ member)) recorder duty
      · rintro task member recorder duty
        obtain rfl := List.mem_singleton.mp member
        cases duty
        rw [Recorder.length_step, Recorder.log_step made]
        exact made

/-- Whatever happens next leaves the archive sound. -/
theorem acted
    (sound : archive.Sound)
    (act : Act) :
    (archive.act act).Sound := by
  cases act with
  | record job =>
      rw [act_record]
      refine ⟨sound.store.create, List.forall_mem_append.mpr ⟨?_, ?_⟩⟩
      · intro task member recorder duty
        rw [RunStore.length_create]
        exact Nat.lt_succ_of_lt (sound.recorders task member recorder duty)
      · intro task member recorder duty
        obtain rfl := List.mem_singleton.mp member
        cases duty
        rw [RunStore.length_create]
        exact Nat.lt_succ_self _
  | turn place => exact sound.turned turns_turn
  | pass milliseconds => exact ⟨sound.store, sound.recorders⟩

/-- Whatever happens leaves the archive sound. -/
theorem run
    (sound : archive.Sound)
    (acts : List Act) :
    (archive.run acts).Sound := by
  induction acts generalizing archive with
  | nil => exact sound
  | cons act rest inductionHypothesis => exact inductionHypothesis (sound.acted act)

end Sound

/-- What a task has to do with a log that was recorded. -/
inductive Role
    (job : Job)
    (log : LogNumber)
    (since : Nat)
    (store : RunStore) :
    Task → Prop where
  | recorder
      {due : Nat}
      {recorder : Recorder}
      (own : recorder.log = log)
      (run : recorder.runId = job.runId ∧ recorder.retention = job.retention)
      (names : recorder.names ⊆ job.ids)
      (closed : recorder.Closed → store.Finished log) :
      Role job log since store ⟨due, .record recorder⟩
  | expiry
      {due : Nat}
      (late : since + job.retention ≤ due)
      (finished : store.Finished log) :
      Role job log since store ⟨due, .expire job.runId⟩
  | aside
      {task : Task}
      (leaves : task.Aside job log) :
      Role job log since store task

/-- No id comes to lead to a log, and the id of its run still does if it did. -/
def Spares (job : Job) (log : LogNumber) (before after : RunStore) : Prop :=
  (∀ id, after.number? id = some log → before.number? id = some log) ∧
    (before.number? job.runId = some log → after.number? job.runId = some log)

/--
The invariant of a log whose ids no other work touches.  One task is about the log,
and the log is found under its id; or no task is, and no id leads to the log.  The
log was not finished before a time, so that it is dropped only a retention later.
-/
structure Tended (job : Job) (log : LogNumber) (since : Nat) (archive : Archive) : Prop where
  sound : archive.Sound
  passed : since ≤ archive.now
  made : log < archive.store.logs.length
  roles : ∀ task ∈ archive.tasks, Role job log since archive.store task
  ids : ∀ id, archive.store.number? id = some log → id ∈ job.ids
  phase :
    archive.tasks.countP (Task.isAbout job log) = 1 ∧
        archive.store.number? job.runId = some log ∨
      archive.tasks.countP (Task.isAbout job log) = 0 ∧
        (∀ id, archive.store.number? id ≠ some log) ∧
        since + job.retention ≤ archive.now ∧
        archive.store.Finished log

section Keeping

variable
  {job other : Job}
  {log : LogNumber}
  {since : Nat}
  {archive next : Archive}
  {store changed : RunStore}
  {task : Task}
  {rest : List Task}

/-- A task keeps its role where a finished log stays finished. -/
theorem Role.mono
    (role : Role job log since store task)
    (finished : store.Finished log → changed.Finished log) :
    Role job log since changed task := by
  cases role with
  | recorder own run names closed => exact .recorder own run names (finished ∘ closed)
  | expiry late ended => exact .expiry late (finished ended)
  | aside leaves => exact .aside leaves

/-- A recorder that leaves a log alone spares it with each step. -/
theorem spares_step
    {recorder : Recorder}
    (others : recorder.log ≠ log)
    (apart : job.runId ∉ recorder.names) :
    Spares job log store (recorder.step store).1 := by
  constructor
  · intro id found
    rcases recorder.number?_step store id with same | ⟨-, entered⟩
    · rwa [same] at found
    · rw [entered, Option.some.injEq] at found
      exact absurd found others
  · intro found
    rcases recorder.number?_step store job.runId with same | ⟨entered, -⟩
    · rwa [same]
    · exact absurd entered apart

/-- Dropping the ids of another log spares this one. -/
theorem spares_remove
    {id : String}
    (wellFormed : store.WellFormed)
    (others : store.number? id ≠ some log) :
    Spares job log store (store.remove id) := by
  constructor
  · intro name found
    rcases RunStore.number?_eq_or_of_remove wellFormed with same | gone
    · rwa [same] at found
    · rw [gone] at found
      cases found
  · intro found
    rw [RunStore.number?_remove wellFormed.sorted, found, if_neg (Ne.symm others)]

/-- Recording a run under another id spares the log. -/
theorem spares_create
    (made : log < store.logs.length)
    (apart : other.runId ∉ job.ids) :
    Spares job log store (store.create other.runId).2 := by
  constructor
  · intro id found
    rcases store.number?_eq_or_of_create other.runId id with same | ⟨-, entered⟩
    · rwa [same] at found
    · rw [entered, Option.some.injEq] at found
      exact absurd found (Nat.ne_of_gt made)
  · intro found
    have different : job.runId ≠ other.runId := by
      intro same
      exact apart (same ▸ List.mem_cons_self)
    rwa [RunStore.number?_create_of_ne different]

namespace Tended

/-- A task about the log is still there, so that the log is found. -/
theorem kept
    (tended : Tended job log since archive)
    (member : task ∈ archive.tasks)
    (about : task.isAbout job log = true) :
    archive.tasks.countP (Task.isAbout job log) = 1 ∧
      archive.store.number? job.runId = some log := by
  refine tended.phase.resolve_right ?_
  rintro ⟨nothing, -⟩
  rw [List.countP_eq_zero] at nothing
  exact nothing task member about

/-- Whatever leaves the log alone keeps the invariant. -/
theorem aside
    (tended : Tended job log since archive)
    (sound : next.Sound)
    (passed : archive.now ≤ next.now)
    (more : archive.store.logs.length ≤ next.store.logs.length)
    (finished : archive.store.Finished log → next.store.Finished log)
    (tasks : ∀ task ∈ next.tasks, task ∈ archive.tasks ∨ task.Aside job log)
    (count :
      next.tasks.countP (Task.isAbout job log) = archive.tasks.countP (Task.isAbout job log))
    (spares : Spares job log archive.store next.store) :
    Tended job log since next where
  sound := sound
  passed := Nat.le_trans tended.passed passed
  made := Nat.lt_of_lt_of_le tended.made more
  roles := by
    intro task member
    rcases tasks task member with before | leaves
    · exact (tended.roles task before).mono finished
    · exact .aside leaves
  ids id found := tended.ids id (spares.1 id found)
  phase := by
    rw [count]
    rcases tended.phase with ⟨one, found⟩ | ⟨none, gone, late, ended⟩
    · exact .inl ⟨one, spares.2 found⟩
    · exact .inr
        ⟨none, fun id found => gone id (spares.1 id found), Nat.le_trans late passed,
          finished ended⟩

/-- A task that leaves the log alone goes on as others that do so, or ends. -/
theorem exchanged
    {added : List Task}
    (tended : Tended job log since archive)
    (taken : archive.tasks.Perm (task :: rest))
    (leaves : task.Aside job log)
    (sound : next.Sound)
    (now : next.now = archive.now)
    (more : archive.store.logs.length ≤ next.store.logs.length)
    (finished : archive.store.Finished log → next.store.Finished log)
    (tasks : next.tasks = rest ++ added)
    (others : ∀ task ∈ added, task.Aside job log)
    (spares : Spares job log archive.store next.store) :
    Tended job log since next := by
  refine tended.aside sound (Nat.le_of_eq now.symm) more finished ?_ ?_ spares
  · rw [tasks]
    refine List.forall_mem_append.mpr ⟨?_, fun task member => .inr (others task member)⟩
    exact fun task member => .inl (taken.mem_iff.mpr (.tail _ member))
  · have none : added.countP (Task.isAbout job log) = 0 := by
      rw [List.countP_eq_zero]
      intro task member
      simp [(others task member).1]
    rw [tasks, taken.countP_eq, List.countP_append, none, Nat.add_zero,
      List.countP_cons_of_neg (by simp [leaves.1])]

/-- Besides a task about the log there is none. -/
theorem countP_rest
    (tended : Tended job log since archive)
    (taken : archive.tasks.Perm (task :: rest))
    (about : task.isAbout job log = true) :
    rest.countP (Task.isAbout job log) = 0 := by
  have one := (tended.kept (taken.mem_iff.mpr (.head _)) about).1
  rw [taken.countP_eq, List.countP_cons_of_pos about] at one
  omega

/-- A task about the log goes on as another one. -/
theorem replaced
    {added : Task}
    (tended : Tended job log since archive)
    (taken : archive.tasks.Perm (task :: rest))
    (about : task.isAbout job log = true)
    (sound : next.Sound)
    (now : next.now = archive.now)
    (more : archive.store.logs.length ≤ next.store.logs.length)
    (finished : archive.store.Finished log → next.store.Finished log)
    (tasks : next.tasks = rest ++ [added])
    (still : added.isAbout job log = true)
    (role : Role job log since next.store added)
    (ids : ∀ id, next.store.number? id = some log → id ∈ job.ids)
    (found : next.store.number? job.runId = some log) :
    Tended job log since next where
  sound := sound
  passed := now ▸ tended.passed
  made := Nat.lt_of_lt_of_le tended.made more
  roles := by
    rw [tasks]
    refine List.forall_mem_append.mpr ⟨?_, by simpa using role⟩
    intro task member
    exact (tended.roles task (taken.mem_iff.mpr (.tail _ member))).mono finished
  ids := ids
  phase := by
    refine .inl ⟨?_, found⟩
    rw [tasks, List.countP_append, tended.countP_rest taken about]
    simp [still]

/-- Only its own expiry drops the log. -/
theorem expired
    {due : Nat}
    {id : String}
    (tended : Tended job log since archive)
    (taken : archive.tasks.Perm (⟨due, .expire id⟩ :: rest))
    (isDue : due ≤ archive.now)
    (sound : Sound { archive with store := archive.store.remove id, tasks := rest }) :
    Tended job log since { archive with store := archive.store.remove id, tasks := rest } := by
  have member : ⟨due, .expire id⟩ ∈ archive.tasks := taken.mem_iff.mpr (.head _)
  cases tended.roles _ member with
  | expiry late finished =>
      have about : Task.isAbout job log ⟨due, .expire job.runId⟩ = true := by
        simp [Task.isAbout]
      have found := (tended.kept member about).2
      have gone (name) : (archive.store.remove job.runId).number? name ≠ some log := by
        rw [RunStore.drops_remove tended.sound.store found name]
        split
        · exact nofun
        · assumption
      refine
        { sound
          passed := tended.passed
          made := by
            rw [RunStore.length_remove]
            exact tended.made
          roles := fun task inside => ?_
          ids := fun name leads => absurd leads (gone name)
          phase := .inr
            ⟨tended.countP_rest taken about, gone, Nat.le_trans late isDue,
              RunStore.finished_remove finished⟩ }
      exact (tended.roles task (taken.mem_iff.mpr (.tail _ inside))).mono
        RunStore.finished_remove
  | aside leaves =>
      -- The id may well lead to some log, but not to this one.
      have others : archive.store.number? id ≠ some log :=
        fun found => leaves.2 (tended.ids id found)
      exact tended.exchanged taken leaves sound rfl (Nat.le_of_eq RunStore.length_remove.symm)
        RunStore.finished_remove (List.append_nil rest).symm (by simp)
        (spares_remove tended.sound.store others)

/-- A recorder that is done leaves the log to its expiry. -/
theorem retired
    {due : Nat}
    {recorder : Recorder}
    (tended : Tended job log since archive)
    (taken : archive.tasks.Perm (⟨due, .record recorder⟩ :: rest))
    (done : recorder.stage = .done)
    (retires :
      next =
        { archive with
          tasks := rest ++ [⟨archive.now + recorder.retention, .expire recorder.runId⟩] })
    (sound : next.Sound) :
    Tended job log since next := by
  subst retires
  have member : ⟨due, .record recorder⟩ ∈ archive.tasks := taken.mem_iff.mpr (.head _)
  cases tended.roles _ member with
  | recorder own run names closed =>
      have about : Task.isAbout job log ⟨due, .record recorder⟩ = true := by
        simp [Task.isAbout, own]
      refine tended.replaced taken about sound rfl (Nat.le_refl _) id rfl ?_ ?_ tended.ids
        (tended.kept member about).2
      · simp [Task.isAbout, run.1]
      · rw [run.1, run.2]
        exact .expiry (Nat.add_le_add_right tended.passed _) (closed (.inr done))
  | aside leaves =>
      have different : recorder.runId ≠ job.runId := by
        intro same
        exact leaves.2.1 (same ▸ List.mem_cons_self)
      exact tended.exchanged taken leaves sound rfl (Nat.le_refl _) id rfl
        (List.forall_mem_singleton.mpr ⟨beq_eq_false_iff_ne.mpr different, leaves.2.1⟩)
        ⟨fun _ => id, id⟩

/-- A recorder goes on as a recorder of the same log. -/
theorem stepped
    {due : Nat}
    {recorder : Recorder}
    (tended : Tended job log since archive)
    (taken : archive.tasks.Perm (⟨due, .record recorder⟩ :: rest))
    (steps :
      next =
        { archive with
          store := (recorder.step archive.store).1
          tasks :=
            rest ++
              [⟨archive.now + recorder.delay, .record (recorder.step archive.store).2⟩] })
    (sound : next.Sound) :
    Tended job log since next := by
  subst steps
  have member : ⟨due, .record recorder⟩ ∈ archive.tasks := taken.mem_iff.mpr (.head _)
  have made := tended.sound.recorders _ member recorder rfl
  obtain ⟨before, stored⟩ := RunStore.exists_log? made
  obtain ⟨changed, -, moves⟩ := Recorder.step_moves stored
  have more := Nat.le_of_eq (recorder.length_step archive.store).symm
  cases tended.roles _ member with
  | recorder own run names closed =>
      have about : Task.isAbout job log ⟨due, .record recorder⟩ = true := by
        simp [Task.isAbout, own]
      have same : (recorder.step archive.store).2.log = log := moves.same_log.trans own
      have found := (tended.kept member about).2
      refine tended.replaced taken about sound rfl more Recorder.finished_step rfl
        (by simp [Task.isAbout, same]) ?_ ?_ ?_
      · refine .recorder same ?_ (List.Subset.trans moves.names_subset names) ?_
        · rw [moves.same_run.1, moves.same_run.2]
          exact run
        · intro behind
          rw [← own] at closed ⊢
          exact Recorder.closed_step made closed behind
      -- The step may enter an id that was announced, and does so for this log.
      · intro id leads
        rcases recorder.number?_step archive.store id with kept | ⟨entered, -⟩
        · exact tended.ids id (kept ▸ leads)
        · exact names entered
      · rcases recorder.number?_step archive.store job.runId with kept | ⟨-, entered⟩
        · rw [kept, found]
        · rw [entered, own]
  | aside leaves =>
      have different : recorder.log ≠ log := by simpa [Task.isAbout] using leaves.1
      refine tended.exchanged taken leaves sound rfl more Recorder.finished_step rfl
        (List.forall_mem_singleton.mpr ⟨?_, ?_, ?_⟩) (spares_step different leaves.2.2)
      · simpa [Task.isAbout, moves.same_log] using different
      · rw [moves.same_run.1]
        exact leaves.2.1
      · exact fun named => leaves.2.2 (moves.names_subset named)

/-- A turn of any task leaves the log tended. -/
theorem turned
    (tended : Tended job log since archive)
    (turns : archive.Turns next) :
    Tended job log since next := by
  have sound := tended.sound.turned turns
  cases turns with
  | stay => exact tended
  | expire taken isDue => exact tended.expired taken isDue sound
  | retire taken done => exact tended.retired taken done rfl sound
  | record taken => exact tended.stepped taken rfl sound

/-- Whatever happens next leaves the log tended, as long as other runs stay apart. -/
theorem acted
    {act : Act}
    (tended : Tended job log since archive)
    (apart : ∀ other ∈ jobs [act], job.Apart other) :
    Tended job log since (archive.act act) := by
  have ownId : job.runId ∈ job.ids := List.mem_cons_self
  cases act with
  | record other =>
      obtain ⟨ownApart, otherApart⟩ := apart other (by simp [jobs])
      have different : archive.store.logs.length ≠ log := Nat.ne_of_gt tended.made
      have sound := tended.sound.acted (.record other)
      rw [act_record] at sound ⊢
      refine tended.aside sound (Nat.le_refl _) ?_ RunStore.finished_create ?_ ?_
        (spares_create tended.made otherApart)
      · rw [RunStore.length_create]
        exact Nat.le_succ _
      · refine List.forall_mem_append.mpr ⟨fun task => .inl, ?_⟩
        simp only [List.forall_mem_singleton]
        refine .inr ⟨beq_eq_false_iff_ne.mpr different, otherApart, fun named => ?_⟩
        exact ownApart (List.mem_cons_of_mem _ named)
      · simp [Task.isAbout, Job.recorder, different]
  | turn place => exact tended.turned turns_turn
  | pass milliseconds =>
      exact tended.aside (tended.sound.acted (.pass milliseconds)) (Nat.le_add_right _ _)
        (Nat.le_refl _) id (fun task => .inl) rfl ⟨fun _ => id, id⟩

/-- Whatever happens leaves the log tended, as long as other runs stay apart. -/
theorem run
    {acts : List Act}
    (tended : Tended job log since archive)
    (apart : ∀ other ∈ jobs acts, job.Apart other) :
    Tended job log since (archive.run acts) := by
  induction acts generalizing archive with
  | nil => exact tended
  | cons act rest inductionHypothesis =>
      rw [← List.singleton_append, jobs_append, List.forall_mem_append] at apart
      exact inductionHypothesis (tended.acted apart.1) apart.2

/-- A log that nothing pending touches is tended from the moment it is recorded. -/
theorem recorded
    (sound : archive.Sound)
    (pending : ∀ task ∈ archive.tasks, task.duty.LeavesAlone job) :
    Tended job archive.store.logs.length archive.now (archive.act (.record job)) := by
  have ownId : job.runId ∈ job.ids := List.mem_cons_self
  -- No task is about the new log yet: its number is fresh, and its id is left alone.
  have others : ∀ task ∈ archive.tasks, task.isAbout job archive.store.logs.length = false := by
    rintro ⟨due, duty⟩ member
    have leaves := pending _ member
    cases duty with
    | expire id =>
        refine beq_eq_false_iff_ne.mpr ?_
        rintro rfl
        exact leaves ownId
    | record recorder =>
        exact beq_eq_false_iff_ne.mpr (Nat.ne_of_lt (sound.recorders _ member recorder rfl))
  have recordedSound := sound.acted (.record job)
  rw [act_record] at recordedSound ⊢
  refine
    { sound := recordedSound
      passed := Nat.le_refl _
      made := ?_
      roles := List.forall_mem_append.mpr ⟨?_, ?_⟩
      ids := ?_
      phase := .inl ⟨?_, RunStore.number?_create_self⟩ }
  · rw [RunStore.length_create]
    exact Nat.lt_succ_self _
  · exact fun task member => .aside ⟨others task member, pending task member⟩
  · simp only [List.forall_mem_singleton]
    refine .recorder rfl ⟨rfl, rfl⟩ (List.subset_cons_self _ _) ?_
    simp [Recorder.Closed, Job.recorder]
  · intro id leads
    rcases archive.store.number?_eq_or_of_create job.runId id with same | ⟨rfl, -⟩
    · exact absurd (sound.store.made id _ (same ▸ leads)) (Nat.lt_irrefl _)
    · exact ownId
  · have none : archive.tasks.countP (Task.isAbout job archive.store.logs.length) = 0 := by
      rw [List.countP_eq_zero]
      intro task member
      rw [others task member]
      exact Bool.false_ne_true
    simp [none, Task.isAbout, Job.recorder]

/-- As long as the run of a log goes on, its retention has not begun. -/
theorem restarted
    (tended : Tended job log since archive)
    (running : ¬archive.store.Finished log) :
    Tended job log archive.now archive where
  sound := tended.sound
  passed := Nat.le_refl _
  made := tended.made
  roles := by
    intro task member
    cases tended.roles task member with
    | recorder own run names closed => exact .recorder own run names closed
    | expiry late finished => exact absurd finished running
    | aside leaves => exact .aside leaves
  ids := tended.ids
  phase := .inl (tended.phase.resolve_right fun gone => running gone.2.2.2)

end Tended

/-- An expiry that is due drops the log that is found under its id then. -/
theorem drops_turn
    {place due : Nat}
    {id : String}
    (sound : archive.Sound)
    (stands : archive.tasks[place]? = some ⟨due, .expire id⟩)
    (isDue : due ≤ archive.now)
    (found : archive.store.number? id = some log) :
    RunStore.Drops log archive.store (archive.turn place).store := by
  rw [turn_of_due stands isDue]
  exact RunStore.drops_remove sound.store found

end Keeping

/--
However requests, work and time interleave: a log is found under the id of its run
until a retention has passed since its run went on, and when its expiry comes up
that drops this log and no other.  It takes that none of the work that is pending
when the log is recorded, and no run that is recorded later, has to do with the ids
of its run; an earlier run with the same id may have come and gone.
-/
theorem expires_alone
    {earlier running later : List Act}
    {job : Job}
    (pending :
      ∀ task ∈ (({} : Archive).run earlier).tasks, task.duty.LeavesAlone job)
    (apart : ∀ other ∈ jobs (running ++ later), job.Apart other) :
    let before := ({} : Archive).run earlier
    let log := (before.record job.runId job.source job.retention).1
    let during := (before.act (.record job)).run running
    let archive := during.run later
    (¬during.store.Finished log →
        archive.now < during.now + job.retention →
          archive.store.number? job.runId = some log) ∧
      ∀ place due,
        archive.tasks[place]? = some ⟨due, .expire job.runId⟩ →
          due ≤ archive.now →
            RunStore.Drops log archive.store (archive.turn place).store := by
  intro before log during archive
  rw [jobs_append, List.forall_mem_append] at apart
  -- The retention is counted from the last moment at which the run is known to go on.
  have begun : Tended job log before.now during :=
    (Tended.recorded (Sound.empty.run earlier) pending).run apart.1
  refine ⟨fun running inTime => ?_, fun place due stands isDue => ?_⟩
  · have tended : Tended job log during.now archive := (begun.restarted running).run apart.2
    refine (tended.phase.resolve_right fun gone => ?_).2
    exact absurd gone.2.2.1 (Nat.not_le.mpr inTime)
  · have tended : Tended job log before.now archive := begun.run apart.2
    have member : ⟨due, .expire job.runId⟩ ∈ archive.tasks := List.mem_of_getElem? stands
    have found := (tended.kept member (by simp [Task.isAbout])).2
    exact drops_turn tended.sound stands isDue found

end Archive

namespace Retry

def started (runId : String) : Timed Event :=
  .arrival (EventBody.runStarted "thread" runId).toEvent

def finished (runId : String) : Timed Event :=
  .arrival (EventBody.runFinished "thread" runId none).toEvent

/-- A run that is over at once. -/
def short : Job where
  runId := "r"
  source := [started "r", finished "r"]
  retention := 100

/-- The same run again, which takes longer. -/
def long : Job :=
  { short with source := [started "r", .pause 1000, finished "r"] }

/-- A run that announces an id of its own, while another one goes on. -/
def named : Job where
  runId := "first"
  source := [started "agent"]
  retention := 10

/-- All work of the run is done, and some time passes. -/
def upkeep (milliseconds : Nat) : List Archive.Act :=
  List.replicate 8 (.turn 1) ++ [.pass milliseconds]

/-- The archive in which a run is recorded beside another one. -/
def beside (milliseconds : Nat) : Archive :=
  ((({} : Archive).run [.record long]).act (.record named)).run (upkeep milliseconds)

/-- A run is recorded again under its id while its first log waits for its expiry. -/
def retried : Archive :=
  ((({} : Archive).act (.record short)).wait 50).act (.record long)

end Retry

namespace Archive

open Retry

/-- A run that announces an id of its own expires while another one goes on. -/
theorem expires_alone_beside :
    (beside 9).store.number? "first" = some 1 ∧
      (beside 10).store.number? "agent" = some 1 ∧
      RunStore.Drops 1 (beside 10).store ((beside 10).turn 1).store := by
  have pending :
      ∀ task ∈ (({} : Archive).run [.record long]).tasks, task.duty.LeavesAlone named :=
    List.forall_mem_singleton.mpr ⟨by decide, by decide⟩
  have apart (milliseconds) : ∀ other ∈ jobs ([] ++ upkeep milliseconds), named.Apart other := by
    simp [upkeep, jobs]
  have running :
      ¬RunStore.Finished ((({} : Archive).run [.record long]).act (.record named)).store 1 := by
    rintro ⟨log, found, finished⟩
    cases found
    cases finished
  have inTime : (beside 9).now < 10 := by decide
  have stands : (beside 10).tasks[1]? = some ⟨10, .expire "first"⟩ := rfl
  have isDue : 10 ≤ (beside 10).now := by decide
  exact ⟨(expires_alone pending (apart 9)).1 running inTime, by decide,
    (expires_alone pending (apart 10)).2 1 10 stands isDue⟩

/-- The expiry of the first log drops the second one, whose run goes on. -/
theorem other_log_dropped :
    (retried.wait 40).store.number? "r" = some 1 ∧
      ((retried.wait 40).wait 60).now = 150 ∧
      ((retried.wait 40).wait 60).store.number? "r" = none ∧
      ((retried.wait 40).wait 60).store.log? 1 =
        some { runId := "r", events := [(EventBody.runStarted "thread" "r").toEvent.numbered 1],
               news := 1 } := by
  decide

end Archive

end AgentWire.Server
