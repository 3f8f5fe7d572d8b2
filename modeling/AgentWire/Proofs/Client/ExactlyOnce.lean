import AgentWire.Proofs.Client.WriteAhead

namespace AgentWire.Client

/-!
# Exactly-once delivery from a log

A server that keeps the log of a run answers a request for the run with the log
from its start, and a request to go on with it behind a number with what is left,
possibly behind events that were delivered before.  Each connection may break
off anywhere.  A stream over such connections hands over the log in order and
each event once, also where it takes over from streams that were given up.
-/

open Resume (Memory Progress)

/-- Whether an action is for the server to answer. -/
def Action.isRemote : Action → Bool
  | .connect _ | .read => true
  | _ => false

/-- The log of a complete run: numbered from one, announced first, and ended last. -/
structure CompleteLog (log : List Event) (runId : String) : Prop where
  numbered :
    ∀ index (inLog : index < log.length),
      log[index].sequenceNumber.map UInt64.toNat = some (index + 1)
  started :
    ∃ threadId, log.head?.map Event.body = some (.runStarted threadId runId)
  named : runId ≠ ""
  startedOnce : ∀ event ∈ log.tail, event.kind ≠ .runStarted
  ended : ∃ event, log.getLast? = some event ∧ event.isTerminal = true
  endedOnce : ∀ event ∈ log.dropLast, event.isTerminal = false

/-- Events up to a number of a log that do not carry the first number. -/
def Repeated (log : List Event) (count : Nat) (events : List Event) : Prop :=
  ∀ event ∈ events,
    event ∈ log.take count ∧
      ∃ number, event.sequenceNumber = some number ∧ 2 ≤ number

/-- The frames in which events are sent to their end. -/
def framesOf (events : List Event) : List Frame :=
  events.map Frame.event ++ [.done]

/-- What a connection hands over in answer to a request, until it ends. -/
inductive Serves (log : List Event) (runId : String) :
    Request → List Frame → Prop where
  | create {input : RunInput} {frames : List Frame} :
      frames <+: framesOf log →
      Serves log runId (.create input) frames
  | resume {lastNumber : UInt64} {repeated : List Event} {rest : List Frame} :
      Repeated log lastNumber.toNat repeated →
      rest <+: framesOf (log.drop lastNumber.toNat) →
      Serves log runId (.resume runId lastNumber) (repeated.map Frame.event ++ rest)

/--
An exchange with such a server: what the open connection still hands over before
it, and after it.  A connection that hands over nothing more ends.
-/
inductive Fits (log : List Event) (runId : String) :
    List Frame → Exchange → List Frame → Prop where
  | refused {request : Request} {error : ClientError} {due : List Frame} :
      error.isRetryable = true →
      Fits log runId due ⟨.connect request, .failed error⟩ due
  | connected {request : Request} {frames due : List Frame} :
      Serves log runId request frames →
      Fits log runId due ⟨.connect request, .done⟩ frames
  | received {frame : Frame} {due : List Frame} :
      Fits log runId (frame :: due) ⟨.read, .frame frame⟩ due
  | closed :
      Fits log runId [] ⟨.read, .closed⟩ []
  | broken {error : ClientError} :
      error.isRetryable = true →
      Fits log runId [] ⟨.read, .failed error⟩ []
  | apart {action : Action} {answer : Answer} {due : List Frame} :
      action.isRemote = false →
      Fits log runId due ⟨action, answer⟩ due

/-- A history in which all connections are answered by such a server. -/
inductive Served (log : List Event) (runId : String) :
    List Frame → List Exchange → List Frame → Prop where
  | nil {due : List Frame} :
      Served log runId due [] due
  | cons {before middle after : List Frame} {exchange : Exchange} {rest : List Exchange} :
      Fits log runId before exchange middle →
      Served log runId middle rest after →
      Served log runId before (exchange :: rest) after

/-- The stores that streams over such a server leave behind, wherever each is given up. -/
inductive LeftBy (log : List Event) (runId key : String) : Memory → Prop where
  | fresh {memory : Memory} :
      memory.load key = none →
      LeftBy log runId key memory
  | run {memory : Memory} {due : List Frame}
      (policy : RetryPolicy)
      (input : RunInput)
      (moves : List Move) :
      LeftBy log runId key memory →
      Served log runId []
        ((Session.start policy key input memory).run moves).history due →
      LeftBy log runId key ((Session.start policy key input memory).run moves).memory

/-- A server that has served a history has served all but its last exchange, and then this one. -/
theorem Served.of_concat
    {log : List Event}
    {runId : String}
    {before after : List Frame}
    {history : List Exchange}
    {exchange : Exchange}
    (served : Served log runId before (history ++ [exchange]) after) :
    ∃ middle,
      Served log runId before history middle ∧
        Fits log runId middle exchange after := by
  induction history generalizing before with
  | nil =>
      cases served with
      | cons fits rest =>
          cases rest
          exact ⟨before, .nil, fits⟩
  | cons first rest inductionHypothesis =>
      cases served with
      | cons fits later =>
          obtain ⟨middle, earlier, last⟩ := inductionHypothesis later
          exact ⟨middle, .cons fits earlier, last⟩

namespace CompleteLog

variable
  {log events : List Event}
  {runId : String}
  {event : Event}

/-- An event among the first of a log has a number among the first. -/
theorem number_of_mem_take
    (complete : CompleteLog log runId)
    {count : Nat}
    (member : event ∈ log.take count) :
    ∃ number, event.sequenceNumber = some number ∧ number.toNat ≤ count := by
  obtain ⟨index, inTake, rfl⟩ := List.getElem_of_mem member
  have bounds : index < min count log.length := by
    simpa using inTake
  have inLog : index < log.length := by
    omega
  have numbered := complete.numbered index inLog
  rw [Option.map_eq_some_iff] at numbered
  obtain ⟨number, carries, position⟩ := numbered
  rw [List.getElem_take]
  exact ⟨number, carries, by omega⟩

/-- The next event of a log has the next number. -/
theorem number_of_next
    (complete : CompleteLog log runId)
    (ordered : events ++ [event] <+: log) :
    ∃ number, event.sequenceNumber = some number ∧
      number.toNat = events.length + 1 := by
  have inLog : events.length < log.length := by
    have bound := ordered.length_le
    simp only [List.length_append, List.length_singleton] at bound
    omega
  have found : log[events.length] = event := by
    rw [← ordered.getElem (by simp : events.length < (events ++ [event]).length)]
    simp
  have numbered := complete.numbered events.length inLog
  rw [found, Option.map_eq_some_iff] at numbered
  exact numbered

/-- The last number of a beginning of a log is its length. -/
theorem lastNumber_of_ordered
    (complete : CompleteLog log runId)
    (ordered : events <+: log) :
    (Progress.ofEvents events).lastNumber.toNat = events.length := by
  cases events using List.reverseRecOn with
  | nil =>
      rfl
  | append_singleton earlier event =>
      obtain ⟨number, carries, position⟩ := complete.number_of_next ordered
      simp [Progress.ofEvents_concat, carries, position]

/-- No first events announce no run, and any others announce the run of the log. -/
theorem responseId_of_ordered
    (complete : CompleteLog log runId)
    (ordered : events <+: log) :
    (Progress.ofEvents events).responseId = if events = [] then none else some runId := by
  cases events with
  | nil =>
      rfl
  | cons first rest =>
      obtain ⟨later, rfl⟩ := ordered
      obtain ⟨threadId, body⟩ := complete.started
      have announces : Progress.announcedId? first.body = some runId := by
        have bodyShape : first.body = .runStarted threadId runId := by
          simpa using body
        simp [bodyShape, Progress.announcedId?, complete.named]
      have silent : rest.filterMap (Progress.announcedId? ·.body) = [] := by
        rw [List.filterMap_eq_nil_iff]
        intro event member
        have other : event.kind ≠ .runStarted :=
          complete.startedOnce event (by simp [member])
        cases body : event.body <;>
          simp_all [Progress.announcedId?, Event.kind, EventBody.kind]
      simp [Progress.ofEvents_responseId, announces, silent]

/-- Only the whole log ends with an event that ends the run. -/
theorem eq_of_terminal
    (complete : CompleteLog log runId)
    (ordered : events ++ [event] <+: log)
    (terminal : event.isTerminal = true) :
    events ++ [event] = log := by
  obtain ⟨later, rfl⟩ := ordered
  cases later using List.reverseRecOn with
  | nil =>
      simp
  | append_singleton earlier last =>
      have unended :=
        complete.endedOnce event (by simp [← List.append_assoc])
      simp [terminal] at unended

/-- When nothing is left behind the first events, one of them ends the run. -/
theorem exists_terminal
    (complete : CompleteLog log runId)
    (ordered : events <+: log)
    (exhausted : log.drop events.length = []) :
    ∃ event ∈ events, event.isTerminal = true := by
  obtain ⟨event, last, terminal⟩ := complete.ended
  have whole : events = log := by
    apply ordered.eq_of_length_le
    simpa using exhausted
  exact ⟨event, whole ▸ List.mem_of_getLast? last, terminal⟩

/-- The event behind the first ones goes forward. -/
theorem admissionOf_next
    (complete : CompleteLog log runId)
    (ordered : events ++ [event] <+: log) :
    admissionOf (.ofEvents events) event = .forward := by
  obtain ⟨number, carries, position⟩ := complete.number_of_next ordered
  have count :=
    complete.lastNumber_of_ordered ((List.prefix_append events [event]).trans ordered)
  simp only [admissionOf, carries]
  rw [if_neg, if_neg]
  · rw [UInt64.le_iff_toNat_le, count]
    omega
  · rw [UInt64.le_iff_toNat_le, UInt64.lt_iff_toNat_lt, count]
    have one : (1 : UInt64).toNat = 1 := rfl
    omega

/-- A repeated event is a duplicate. -/
theorem admissionOf_repeated
    (complete : CompleteLog log runId)
    (ordered : events <+: log)
    (again : Repeated log events.length [event]) :
    admissionOf (.ofEvents events) event = .duplicate := by
  obtain ⟨member, number, carries, second⟩ := again event (by simp)
  obtain ⟨same, carriesSame, bound⟩ := complete.number_of_mem_take member
  cases carries.symm.trans carriesSame
  have count := complete.lastNumber_of_ordered ordered
  simp only [admissionOf, carries]
  rw [if_neg, if_pos]
  · rw [UInt64.le_iff_toNat_le, count]
    exact bound
  · rintro ⟨first, -⟩
    exact absurd (UInt64.le_trans second first) (by decide)

end CompleteLog

/-- What an open connection hands over from a count: repeated events, then what is left. -/
def DueFrom (log : List Event) (count : Nat) (due : List Frame) : Prop :=
  ∃ repeated rest,
    due = repeated.map Frame.event ++ rest ∧
      Repeated log count repeated ∧
      rest <+: framesOf (log.drop count)

/-- A frame that is due is a repeated event, the next event, or the mark behind the last one. -/
theorem DueFrom.cons_cases
    {log : List Event}
    {count : Nat}
    {frame : Frame}
    {due : List Frame}
    (dueNow : DueFrom log count (frame :: due)) :
    (∃ event,
      frame = .event event ∧ Repeated log count [event] ∧ DueFrom log count due) ∨
    (∃ event later,
      frame = .event event ∧ log.drop count = event :: later ∧
        DueFrom log (count + 1) due) ∨
    (frame = .done ∧ log.drop count = []) := by
  obtain ⟨repeated, rest, shape, again, sent⟩ := dueNow
  cases repeated with
  | cons event repeated =>
      obtain ⟨rfl, rfl⟩ := List.cons.inj shape
      refine .inl ⟨event, rfl, ?_, repeated, rest, rfl, ?_, sent⟩
      · intro same member
        exact again same (by simp_all)
      · intro other member
        exact again other (by simp [member])
  | nil =>
      cases (shape : frame :: due = rest)
      cases left : log.drop count with
      | nil =>
          rw [left] at sent
          exact .inr (.inr ⟨(List.cons_prefix_cons.mp sent).1, rfl⟩)
      | cons event later =>
          rw [left] at sent
          obtain ⟨shape, sent⟩ := List.cons_prefix_cons.mp sent
          have laterShape : log.drop (count + 1) = later := by
            rw [← List.drop_drop, left]
            rfl
          refine .inr (.inl ⟨event, later, shape, rfl, [], due, rfl, by simp [Repeated], ?_⟩)
          rw [laterShape]
          exact sent

/-- What is delivered and due at each stage; some stages are never reached. -/
def Placed
    (log : List Event)
    (progress : Progress)
    (segment : List Event)
    (due : List Frame) :
    Stage → Prop
  | .reading | .saving _ | .appending _ | .settling _ | .delivering _ =>
      DueFrom log progress.events.length due
  | .closing | .finished => segment = log
  | .forgetting | .forgotten | .restarting _ | .restarted _ _ => False
  | .loading | .replaying _ _ | .connecting | .waiting _ | .failed _ => True

/-- All that a stream has stored and delivered are first events of the log. -/
structure OnLog
    (log : List Event)
    (controller : Controller)
    (stored : Option Progress)
    (deliveries : List Delivery)
    (segment : List Event)
    (due : List Frame) :
    Prop where
  deliveries_eq : deliveries = segment.map Delivery.event
  segment_ordered : segment <+: log
  stored_ordered : ∀ progress, stored = some progress → progress.events <+: log
  progress_ordered : controller.progress.events <+: log
  placed : Placed log controller.progress segment due controller.stage

namespace OnLog

variable
  {log segment : List Event}
  {runId : String}
  {controller next : Controller}
  {stored : Option Progress}
  {deliveries : List Delivery}
  {due after : List Frame}
  {event : Event}

/-- A stage may be entered whose place on the log is right. -/
theorem goTo
    (before : OnLog log controller stored deliveries segment due)
    (stage : Stage)
    (placed : Placed log controller.progress segment after stage) :
    OnLog log (controller.goTo stage) stored deliveries segment after :=
  { before with placed }

/-- An interruption leaves what is due to the next connection. -/
theorem interrupt
    (before : OnLog log controller stored deliveries segment due)
    (error : ClientError) :
    OnLog log (controller.interrupt error) stored deliveries segment after := by
  refine { before with placed := ?_ }
  simp only [Controller.interrupt]
  split <;> trivial

/-- So does an error, whether it may be retried or not. -/
theorem fallBack
    (before : OnLog log controller stored deliveries segment due)
    (error : ClientError) :
    OnLog log (controller.fallBack error) stored deliveries segment after := by
  simp only [Controller.fallBack]
  split
  · exact before.interrupt error
  · exact before.goTo _ trivial

/-- What is replayed is a beginning of the log. -/
theorem replay
    (before : OnLog log controller stored deliveries segment due)
    (rest : List Event) :
    OnLog log (controller.replay rest) stored deliveries segment after := by
  cases rest <;> exact before.goTo _ trivial

/-- A stream starts with first events of the log. -/
theorem begin
    (before : OnLog log controller stored deliveries segment due)
    (stage : controller.stage = .loading) :
    OnLog log (controller.begin stored) stored deliveries segment after := by
  have loaded : (stored.getD {}).events <+: log := by
    cases found : stored with
    | none =>
        exact List.nil_prefix
    | some progress =>
        exact before.stored_ordered progress found
  have placed :
      Placed log (stored.getD {}) segment due controller.stage := by
    rw [stage]
    trivial
  exact replay { before with progress_ordered := loaded, placed } _

/-- A connection that opens goes on where the progress ends. -/
theorem opened
    (complete : CompleteLog log runId)
    (invariant : WriteAhead controller stored segment)
    (before : OnLog log controller stored deliveries segment due)
    (serves : Serves log runId controller.request after) :
    OnLog log (controller.goTo .reading) stored deliveries segment after := by
  apply before.goTo
  have ordered := before.progress_ordered
  have count := complete.lastNumber_of_ordered ordered
  have announced := complete.responseId_of_ordered ordered
  rw [← invariant.folded] at count announced
  by_cases fresh : controller.progress.events = []
  · have request : controller.request = .create controller.input := by
      simp [Controller.request, announced, fresh]
    rw [request] at serves
    cases serves with
    | create sent =>
        exact ⟨[], after, rfl, by simp [Repeated], by simpa [fresh] using sent⟩
  · have request :
        controller.request = .resume runId controller.progress.lastNumber := by
      simp [Controller.request, announced, fresh]
    rw [request] at serves
    cases serves with
    | resume again sent =>
        rw [count] at again sent
        exact ⟨_, _, rfl, again, sent⟩

/-- The next event is accepted, and what was due behind it is due behind its progress. -/
theorem accept
    (before : OnLog log controller stored deliveries segment due)
    (ordered : controller.progress.events ++ [event] <+: log)
    (left : DueFrom log (controller.progress.events.length + 1) after) :
    OnLog log (controller.accept event) stored deliveries segment after := by
  have progressShape :
      (controller.accept event).progress.events =
        controller.progress.events ++ [event] :=
    rfl
  refine { before with progress_ordered := by rwa [progressShape], placed := ?_ }
  have dueNext :
      DueFrom log (controller.accept event).progress.events.length after := by
    rw [progressShape, List.length_append]
    exact left
  rcases controller.accept_stage event with stage | stage | stage <;>
    · rw [stage]
      exact dueNext

/-- What a connection hands over is passed over, or is the next event of the log. -/
theorem receive
    (complete : CompleteLog log runId)
    (invariant : WriteAhead controller stored segment)
    (stage : controller.stage = .reading)
    (before :
      OnLog log controller stored deliveries segment (.event event :: after)) :
    OnLog log (controller.receive event) stored deliveries segment after := by
  have placed := before.placed
  rw [stage] at placed
  have ordered := before.progress_ordered
  rcases DueFrom.cons_cases placed with
    ⟨same, shape, again, left⟩ | ⟨same, later, shape, next, left⟩ | ⟨shape, exhausted⟩
  · -- A repeated event carries a number that was reached, and is not the first.
    cases shape
    have duplicate : admissionOf controller.progress event = .duplicate := by
      rw [invariant.folded]
      exact complete.admissionOf_repeated ordered again
    have unchanged : controller.receive event = controller := by
      simp [Controller.receive, duplicate]
    rw [unchanged]
    refine { before with placed := ?_ }
    rw [stage]
    exact left
  · cases shape
    have nextOrdered : controller.progress.events ++ [event] <+: log := by
      refine ⟨later, ?_⟩
      rw [List.append_assoc, List.singleton_append, ← next]
      exact List.prefix_iff_eq_append.mp ordered
    have forward : admissionOf controller.progress event = .forward := by
      rw [invariant.folded]
      exact complete.admissionOf_next nextOrdered
    have accepted : controller.receive event = controller.accept event := by
      simp [Controller.receive, forward]
    rw [accepted]
    exact before.accept nextOrdered left
  · cases shape

/-- The mark behind the last event is never read, since the stream stops at that event. -/
theorem not_marked
    (complete : CompleteLog log runId)
    (invariant : WriteAhead controller stored segment)
    (stage : controller.stage = .reading) :
    ¬OnLog log controller stored deliveries segment (.done :: after) := by
  intro before
  have placed := before.placed
  rw [stage] at placed
  rcases DueFrom.cons_cases placed with
    ⟨same, shape, -⟩ | ⟨same, later, shape, -⟩ | ⟨-, exhausted⟩
  · cases shape
  · cases shape
  · -- All of the log would be stored, but what is stored does not end its run.
    obtain ⟨event, member, terminal⟩ :=
      complete.exists_terminal before.progress_ordered exhausted
    have standing := invariant.standing
    rw [stage] at standing
    have storedShape : stored = some controller.progress := by
      rw [standing.stored_eq, kept_of_ne_nil (List.ne_nil_of_mem member)]
    have unended := (invariant.resumable _ storedShape).unended event member
    simp [terminal] at unended

/-- An event that is handed over extends the segment within the log. -/
theorem deliver
    (before : OnLog log controller stored deliveries segment due)
    (ordered : segment ++ [event] <+: log)
    (stage : Stage)
    (placed : Placed log controller.progress (segment ++ [event]) after stage) :
    OnLog log (controller.goTo stage) stored (deliveries ++ [.event event])
      (segment ++ [event]) after where
  deliveries_eq := by simp [before.deliveries_eq]
  segment_ordered := ordered
  stored_ordered := before.stored_ordered
  progress_ordered := before.progress_ordered
  placed := placed

/-- Every transition that fits a log server keeps the stream on the log. -/
theorem transition
    {memory later : Memory}
    {exchange : Exchange}
    (complete : CompleteLog log runId)
    (invariant :
      WriteAhead controller (memory.load controller.key) segment)
    (before :
      OnLog log controller (memory.load controller.key) deliveries segment due)
    (taken : Transition controller memory exchange next later)
    (fits : Fits log runId due exchange after) :
    OnLog log next (later.load next.key)
      (deliveries ++ exchange.delivery?.toList)
      (exchange.delivery?.toList.foldl Session.extendSegment segment) after := by
  rw [taken.key_eq]
  have standing := invariant.standing
  have placed := before.placed
  cases taken <;>
    simp only [Exchange.delivery?, Option.toList_none, Option.toList_some,
      List.append_nil, List.foldl_nil, List.foldl_cons, Session.extendSegment]
  case loaded stage =>
    exact before.begin stage
  case replayed event rest stage =>
    rw [stage] at standing
    obtain ⟨storedShape, eventsShape, -⟩ := standing
    have ordered : segment ++ [event] <+: log := by
      refine List.IsPrefix.trans ⟨rest, ?_⟩ before.progress_ordered
      simp [eventsShape]
    have handed :
        OnLog log (controller.goTo .connecting) (memory.load controller.key)
          (deliveries ++ [.event event]) (segment ++ [event]) after :=
      before.deliver ordered .connecting trivial
    cases rest with
    | nil =>
        exact handed
    | cons following rest =>
        exact handed.goTo _ trivial
  case opened stage =>
    cases fits with
    | connected serves =>
        exact before.opened complete invariant serves
    | apart elsewhere =>
        cases elsewhere
  case unknownRun stage requested =>
    cases fits with
    | refused retryable =>
        -- Status 404 is not retryable, and such a server refuses with nothing else.
        cases retryable
    | apart elsewhere =>
        cases elsewhere
  case refused stage fallsBack =>
    exact before.fallBack _
  case received event stage =>
    cases fits with
    | received =>
        exact receive complete invariant stage before
    | apart elsewhere =>
        cases elsewhere
  case marked stage =>
    cases fits with
    | received =>
        exact (not_marked complete invariant stage before).elim
    | apart elsewhere =>
        cases elsewhere
  case ended stage =>
    exact before.interrupt _
  case broken stage =>
    exact before.fallBack _
  case saved event stage =>
    rw [stage] at placed
    cases fits
    rw [Memory.load_save]
    refine { before with stored_ordered := ?_, placed }
    rintro progress found
    cases found
    exact before.progress_ordered
  case appended event stage =>
    rw [stage] at placed
    cases fits
    rw [invariant.append_eq stage]
    refine { before with stored_ordered := ?_, placed }
    rintro progress found
    cases found
    exact before.progress_ordered
  case settled event stage =>
    rw [stage] at placed
    cases fits
    rw [Memory.load_clear]
    exact { before with stored_ordered := by simp, placed }
  case delivered event stage =>
    rw [stage] at standing placed
    cases fits
    have ordered : segment ++ [event] <+: log := by
      rw [← standing.1]
      exact before.progress_ordered
    apply before.deliver ordered
    split
    · rename_i terminal
      exact complete.eq_of_terminal ordered terminal
    · exact placed
  case closed stage =>
    rw [stage] at placed
    rw [Memory.load_clear]
    exact { before with stored_ordered := by simp, placed }
  case waited stage =>
    exact before.goTo _ trivial
  case cancelled stage =>
    exact before.goTo _ trivial
  -- A run of the log is neither unknown to its server nor started anew.
  all_goals
    rename_i stage
    rw [stage] at placed
    exact placed.elim

end OnLog

namespace Session

variable
  {log : List Event}
  {runId key : String}
  {memory : Memory}

/-- A stream that is served from a log stays on it. -/
theorem onLog_run
    (complete : CompleteLog log runId)
    (resumable : Resumable (memory.load key))
    (ordered : ∀ progress, memory.load key = some progress → progress.events <+: log)
    (policy : RetryPolicy)
    (input : RunInput)
    (moves : List Move) :
    let session := (start policy key input memory).run moves
    WriteAhead session.controller session.stored session.segment ∧
      ∀ due,
        Served log runId [] session.history due →
        OnLog log session.controller session.stored session.deliveries
          session.segment due := by
  refine run_keeps
    (fun session =>
      WriteAhead session.controller session.stored session.segment ∧
        ∀ due,
          Served log runId [] session.history due →
          OnLog log session.controller session.stored session.deliveries
            session.segment due)
    ?_ ?_ ⟨.start resumable policy key input, ?_⟩ moves
  · rintro session exchange controller memory ⟨invariant, before⟩ taken
    refine ⟨?_, ?_⟩
    · rw [segment_concat]
      exact invariant.transition taken
    · intro due served
      obtain ⟨middle, earlier, fits⟩ := Served.of_concat served
      rw [segment_concat, deliveries_concat]
      exact (before middle earlier).transition complete invariant taken fits
  · rintro session memory ⟨invariant, before⟩ same
    have storedShape : stored { session with memory } = session.stored := same
    rw [storedShape]
    exact ⟨invariant, before⟩
  · intro due served
    cases served
    exact ⟨rfl, List.nil_prefix, ordered, List.nil_prefix, trivial⟩

/-- What streams leave behind that were served from a log is what any streams may leave. -/
theorem left_of_leftBy
    (left : LeftBy log runId key memory) :
    Left key memory := by
  induction left with
  | fresh empty =>
      exact .fresh empty
  | run policy input moves _ _ inductionHypothesis =>
      exact .run policy input moves inductionHypothesis

/-- Streams over a log server leave first events of the log in the store. -/
theorem ordered_of_leftBy
    (complete : CompleteLog log runId)
    (left : LeftBy log runId key memory) :
    ∀ progress, memory.load key = some progress → progress.events <+: log := by
  induction left with
  | fresh empty =>
      intro progress found
      rw [empty] at found
      cases found
  | run policy input moves earlier served inductionHypothesis =>
      have resumable := (left_of_leftBy earlier).resumable
      obtain ⟨-, onLog⟩ :=
        onLog_run complete resumable inductionHypothesis policy input moves
      obtain ⟨keyShape, -⟩ := writeAhead_run resumable policy input moves
      have ordered := (onLog _ served).stored_ordered
      rwa [stored, keyShape] at ordered

/-- All that the consumer has received is first events of the log. -/
theorem yielded_ordered
    {session : Session}
    {due : List Frame}
    (invariant :
      WriteAhead session.controller session.stored session.segment)
    (onLog :
      OnLog log session.controller session.stored session.deliveries
        session.segment due) :
    ∃ events, session.yielded = events.map Delivery.event ∧ events <+: log := by
  have standing := invariant.standing
  have placed := onLog.placed
  rw [yielded, onLog.deliveries_eq]
  cases offered : session.offered? with
  | none =>
      exact ⟨session.segment, by simp, onLog.segment_ordered⟩
  | some item =>
      cases item with
      | event event =>
          refine ⟨session.segment ++ [event], by simp, ?_⟩
          refine List.IsPrefix.trans ?_ onLog.progress_ordered
          rcases stage_of_offered_event offered with ⟨rest, stage⟩ | stage
          · rw [stage] at standing
            rw [standing.2.1]
            exact ⟨rest, by simp⟩
          · rw [stage] at standing
            exact standing.1 ▸ List.prefix_rfl
      | restarted lastNumber =>
          cases stage : session.controller.stage <;>
            simp [offered?, Controller.action, stage] at offered <;>
            rw [stage] at placed
          case forgotten =>
            exact placed.elim
          case restarted =>
            exact placed.elim

/-- The consumer of a stream that has ended has received all of the log. -/
theorem yielded_of_ended
    {session : Session}
    {due : List Frame}
    (onLog :
      OnLog log session.controller session.stored session.deliveries
        session.segment due)
    (ended : session.hasEnded = true) :
    session.yielded = log.map Delivery.event := by
  have placed := onLog.placed
  cases stage : session.controller.stage <;>
    simp [hasEnded, Controller.action, stage] at ended
  rw [stage] at placed
  have whole : session.segment = log := placed
  simp [yielded, offered?, Controller.action, stage, onLog.deliveries_eq, whole]

/--
Over a server that keeps the log of a run, and whatever streams were given up
before, what a stream hands over is the first events of the log, each once and
in order, and never a restart.  A stream that ends without an error has handed
over all of the log, and leaves nothing in the store.
-/
theorem delivered_exactly_once
    (complete : CompleteLog log runId)
    (left : LeftBy log runId key memory)
    (policy : RetryPolicy)
    (input : RunInput)
    (moves : List Move)
    {due : List Frame}
    (served :
      Served log runId [] ((start policy key input memory).run moves).history due) :
    let session := (start policy key input memory).run moves
    (∃ events, session.yielded = events.map Delivery.event ∧ events <+: log) ∧
      (∀ lastNumber, Delivery.restarted lastNumber ∉ session.yielded) ∧
      (session.hasEnded = true →
        session.yielded = log.map Delivery.event ∧
          session.memory.load key = none) := by
  intro session
  have resumable := (left_of_leftBy left).resumable
  have ordered := ordered_of_leftBy complete left
  obtain ⟨invariant, onLogServed⟩ :=
    onLog_run complete resumable ordered policy input moves
  obtain ⟨keyShape, -⟩ := writeAhead_run resumable policy input moves
  have onLog := onLogServed due served
  obtain ⟨events, yieldedShape, yieldedPrefix⟩ := yielded_ordered invariant onLog
  refine ⟨⟨events, yieldedShape, yieldedPrefix⟩, ?_, ?_⟩
  · intro lastNumber member
    rw [yieldedShape] at member
    simp at member
  · intro ended
    have cleared : session.memory.load session.controller.key = none :=
      stored_of_ended invariant ended
    rw [keyShape] at cleared
    exact ⟨yielded_of_ended onLog ended, cleared⟩

end Session

namespace ShortRun

/-- The log of a short run. -/
def log : List Event :=
  [started, spoken, finished]

theorem log_complete : CompleteLog log "run" where
  numbered := by decide
  started := ⟨"thread", rfl⟩
  named := by decide
  startedOnce := by decide
  ended := ⟨finished, rfl, rfl⟩
  endedOnce := by decide

/-- The connection breaks behind the second event, and the next one repeats it. -/
def recovered : List Move :=
  resumed ++
    [.answer .done, .answer (.failed (.connection "reset")), .answer .done, .answer .done,
     .answer (.frame (.event spoken)), .answer (.frame (.event finished)),
     .answer .done, .answer .done, .answer .done]

theorem interrupted_served :
    Served log "run" []
      ((Session.start {} "run" input []).run interrupted).history [] := by
  have sent : [Frame.event started] <+: framesOf log :=
    ⟨_, rfl⟩
  refine .cons (.apart rfl) ?_
  refine .cons (.connected (.create sent)) ?_
  refine .cons .received ?_
  exact .cons (.apart rfl) .nil

theorem recovered_served :
    Served log "run" []
      ((Session.start {} "run" input leftOver).run recovered).history [.done] := by
  have none : Repeated log 1 [] := by
    simp [Repeated]
  have again : Repeated log 2 [spoken] := by
    intro event member
    cases List.mem_singleton.mp member
    exact ⟨by decide, 2, rfl, by decide⟩
  have dropped : [Frame.event spoken] <+: framesOf (log.drop 1) :=
    ⟨_, rfl⟩
  have complete : [Frame.event finished, .done] <+: framesOf (log.drop 2) :=
    ⟨_, rfl⟩
  refine .cons (.apart rfl) ?_
  refine .cons (.apart rfl) ?_
  refine .cons (.connected (.resume none dropped)) ?_
  refine .cons .received ?_
  refine .cons (.apart rfl) ?_
  refine .cons (.apart rfl) ?_
  refine .cons (.broken rfl) ?_
  refine .cons (.apart rfl) ?_
  refine .cons (.connected (.resume again complete)) ?_
  refine .cons .received ?_
  refine .cons .received ?_
  refine .cons (.apart rfl) ?_
  refine .cons (.apart rfl) ?_
  exact .cons (.apart rfl) .nil

end ShortRun

namespace Session

open ShortRun

/-- A stream that was left and is broken off once delivers all events, each of them once. -/
theorem delivered_exactly_once_recovered :
    let session := (start {} "run" input leftOver).run recovered
    session.hasEnded = true ∧
      session.yielded = [.event started, .event spoken, .event finished] ∧
      session.memory.load "run" = none := by
  intro session
  have left : LeftBy log "run" "run" leftOver :=
    .run {} input interrupted (.fresh rfl) interrupted_served
  have ended : session.hasEnded = true := by
    decide
  obtain ⟨-, -, whole⟩ :=
    delivered_exactly_once log_complete left {} input recovered recovered_served
  exact ⟨ended, whole ended⟩

end Session

end AgentWire.Client
