import AgentWire.Client.Rehearsal
import AgentWire.Proofs.Client.Session

namespace AgentWire.Client

/-!
# Rehearsals are sessions

A rehearsal over a store in memory that refuses nothing takes a session through
some moves: whatever the connections were prepared to do and whenever the
consumer stops or cancels, its store and the items that it notes are those of
the session.  What holds of all sessions therefore holds of every rehearsal.
-/

open Resume (Memory Store)

namespace Note

/-- The item that a note tells of. -/
def item? : Note → Option Delivery
  | .item delivery => some delivery
  | _ => none

end Note

namespace Session

/-- An item is on offer exactly if the controller delivers it. -/
theorem offered?_eq_some {session : Session} {item : Delivery} :
    session.offered? = some item ↔ session.controller.action = .deliver item := by
  unfold offered?
  split <;> simp_all

/-- A reply that fits takes the session one step on, and counts what was on offer as received. -/
theorem step_of_reply?
    {session : Session}
    {given answer : Answer}
    {memory : Memory}
    (replied : session.reply? given = some (answer, memory)) :
    (session.step (.answer given)).controller = session.controller.advance answer ∧
      (session.step (.answer given)).memory = memory ∧
      (session.step (.answer given)).deliveries = session.yielded := by
  have next :
      session.step (.answer given) =
        { controller := session.controller.advance answer
          memory
          history := session.history ++ [⟨session.controller.action, answer⟩] } := by
    simp only [step, replied]
  rw [next, deliveries_concat]
  exact ⟨rfl, rfl, rfl⟩

end Session

namespace Scene

/-- The items that the consumer has received, in order. -/
def items (scene : Scene) : List Delivery :=
  scene.history.filterMap Note.item?

/-- Whether the stream has ended and no error was noted. -/
def EndedWell (scene : Scene) : Prop :=
  Note.ended ∈ scene.notes ∧ ∀ error, Note.failed error ∉ scene.notes

/-- A scene before the end of the stream, with a store and what was received so far. -/
structure Shows (scene : Scene) (memory : Memory) (items : List Delivery) : Prop where
  willing : scene.refusing = none
  store : scene.store = .memory memory
  items : scene.items = items
  unended : Note.ended ∉ scene.notes

/-- A note adds the item that it is about, if it is about one. -/
theorem items_note (scene : Scene) (note : Note) :
    (scene.note note).items = scene.items ++ note.item?.toList := by
  cases received : note.item? <;>
    simp [items, history, Scene.note, received]

section

variable {scene : Scene} {memory : Memory} {items : List Delivery}

/-- A note that is neither an item nor the end changes nothing that is shown. -/
theorem Shows.note
    (shows : scene.Shows memory items)
    (note : Note)
    (silent : note.item? = none)
    (goesOn : note ≠ .ended) :
    (scene.note note).Shows memory items where
  willing := shows.willing
  store := shows.store
  items := by
    rw [items_note, silent, shows.items]
    simp
  unended := by
    simp [Scene.note, shows.unended, goesOn.symm]

/-- The consumer receives one more item. -/
theorem Shows.consume
    (shows : scene.Shows memory items)
    (item : Delivery) :
    (scene.consume (.item item)).Shows memory (items ++ [item]) where
  willing := shows.willing
  store := shows.store
  items := by
    rw [← shows.items]
    exact items_note scene (.item item)
  unended := by
    simp [Scene.consume, Scene.note, shows.unended]

/-- The end of the stream is noted without an error only if there is none. -/
theorem Shows.close
    (shows : scene.Shows memory items)
    (error : Option ClientError) :
    (scene.close error).store = .memory memory ∧
      (scene.close error).items = items ∧
      ((scene.close error).EndedWell → error = none) := by
  cases error with
  | none =>
      refine ⟨shows.store, ?_, fun _ => rfl⟩
      simp [Scene.close, items_note, Note.item?, shows.items]
  | some error =>
      have noted := shows.note (.failed error) rfl (by simp)
      have closed :
          scene.close (some error) = scene.consume (.failed error) ∨
            scene.close (some error) = (scene.consume (.failed error)).note .ended := by
        by_cases sated : (scene.consume (.failed error)).appetite.isSated = true
        · exact .inl (if_pos sated)
        · exact .inr (if_neg sated)
      rcases closed with closed | closed <;> rw [closed]
      · exact ⟨shows.store, noted.items,
          fun ended => absurd List.mem_cons_self (ended.2 error)⟩
      · exact ⟨shows.store, by rw [items_note]; exact (List.append_nil _).trans noted.items,
          fun ended => absurd (List.mem_cons_of_mem _ List.mem_cons_self) (ended.2 error)⟩

/-- A store that is willing does what it is asked for. -/
theorem Shows.useStore_eq
    (shows : scene.Shows memory items)
    (step : StoreStep)
    (use : Store → Answer × Store) :
    scene.useStore step use =
      ((use (.memory memory)).1, { scene with store := (use (.memory memory)).2 }) := by
  simp [Scene.useStore, shows.willing, shows.store]

/-- Reading gives a frame, an end or an error, and shows nothing new. -/
theorem Shows.read
    (shows : scene.Shows memory items)
    (cues : List Cue) :
    (scene.read cues).2.Shows memory items ∧
      ((∃ frame, (scene.read cues).1 = .frame frame) ∨
        (scene.read cues).1 = .closed ∨
        ∃ error, (scene.read cues).1 = .failed error) := by
  induction cues generalizing scene with
  | nil =>
      exact ⟨⟨shows.willing, shows.store, shows.items, shows.unended⟩, .inr (.inl rfl)⟩
  | cons cue rest inductionHypothesis =>
      cases cue with
      | arrival value =>
          cases value with
          | ok frame =>
              exact ⟨⟨shows.willing, shows.store, shows.items, shows.unended⟩,
                .inl ⟨frame, rfl⟩⟩
          | error error =>
              exact ⟨⟨shows.willing, shows.store, shows.items, shows.unended⟩,
                .inr (.inr ⟨error, rfl⟩)⟩
      | pause milliseconds =>
          simp only [Scene.read]
          split
          · exact inductionHypothesis
              ⟨shows.willing, shows.store, shows.items, shows.unended⟩
          · exact ⟨⟨shows.willing, shows.store, shows.items, shows.unended⟩,
              .inr (.inr ⟨_, rfl⟩)⟩

/-- Connecting succeeds or fails, and shows nothing new. -/
theorem Shows.connect
    (shows : scene.Shows memory items)
    (request : Request) :
    (scene.connect request).2.Shows memory items ∧
      ((scene.connect request).1 = .done ∨
        ∃ error, (scene.connect request).1 = .failed error) := by
  have noted :
      (scene.note (.connected request scene.clock.now)).Shows memory items :=
    shows.note (.connected request scene.clock.now) rfl (by simp)
  simp only [Scene.connect]
  split
  · exact ⟨noted, .inr ⟨_, rfl⟩⟩
  · exact ⟨⟨noted.willing, noted.store, noted.items, noted.unended⟩, .inr ⟨_, rfl⟩⟩
  · exact ⟨⟨noted.willing, noted.store, noted.items, noted.unended⟩, .inl rfl⟩

end

/-- What a scene answers to a controller is a reply of the session. -/
theorem perform_reply?
    {scene : Scene}
    {session : Session}
    {items : List Delivery}
    (shows : scene.Shows session.memory items)
    (offersNothing : session.offered? = none)
    (goesOn :
      session.controller.action ≠ .finish ∧
        ∀ error, session.controller.action ≠ .fail error) :
    ∃ memory,
      session.reply?
          (scene.perform session.controller.key session.controller.action).1 =
        some ((scene.perform session.controller.key session.controller.action).1, memory) ∧
      (scene.perform session.controller.key session.controller.action).2.Shows
        memory items := by
  obtain ⟨notFinish, notFail⟩ := goesOn
  cases asked : session.controller.action with
  | load =>
      have noted := shows.note (.loaded session.controller.key) rfl (by simp)
      simp only [Session.reply?, asked, Scene.perform, noted.useStore_eq]
      exact ⟨_, rfl, noted.willing, rfl, noted.items, noted.unended⟩
  | save progress =>
      have noted := shows.note (.saved session.controller.key progress) rfl (by simp)
      simp only [Session.reply?, asked, Scene.perform, noted.useStore_eq]
      exact ⟨_, rfl, noted.willing, rfl, noted.items, noted.unended⟩
  | append event lastNumber =>
      have noted :=
        shows.note (.appended session.controller.key event lastNumber) rfl (by simp)
      simp only [Session.reply?, asked, Scene.perform, noted.useStore_eq]
      exact ⟨_, rfl, noted.willing, rfl, noted.items, noted.unended⟩
  | clear =>
      have noted := shows.note (.cleared session.controller.key) rfl (by simp)
      simp only [Session.reply?, asked, Scene.perform, noted.useStore_eq]
      exact ⟨_, rfl, noted.willing, rfl, noted.items, noted.unended⟩
  | connect request =>
      -- A scene that is cancelled answers so and is left as it was.
      by_cases cancelled : scene.clock.cancelled = true
      · simp only [Session.reply?, asked, Scene.perform, if_pos cancelled]
        exact ⟨_, rfl, shows⟩
      · simp only [Session.reply?, asked, Scene.perform, if_neg cancelled]
        obtain ⟨after, opened | ⟨error, failed⟩⟩ := shows.connect request
        · simp only [opened]
          exact ⟨_, rfl, after⟩
        · simp only [failed]
          exact ⟨_, rfl, after⟩
  | read =>
      by_cases cancelled : scene.clock.cancelled = true
      · simp only [Session.reply?, asked, Scene.perform, if_pos cancelled]
        exact ⟨_, rfl, shows⟩
      · simp only [Session.reply?, asked, Scene.perform, if_neg cancelled]
        obtain ⟨after, ⟨frame, handedOver⟩ | closed | ⟨error, failed⟩⟩ :=
          shows.read scene.current
        · simp only [handedOver]
          exact ⟨_, rfl, after⟩
        · simp only [closed]
          exact ⟨_, rfl, after⟩
        · simp only [failed]
          exact ⟨_, rfl, after⟩
  | wait delay =>
      simp only [Session.reply?, asked, Scene.perform]
      cases passed : (scene.clock.wait delay.milliseconds).1 with
      | true =>
          exact ⟨_, rfl, shows.willing, shows.store, shows.items, shows.unended⟩
      | false =>
          exact ⟨_, rfl, shows.willing, shows.store, shows.items, shows.unended⟩
  | deliver item =>
      simp [Session.offered?, asked] at offersNothing
  | finish =>
      exact absurd asked notFinish
  | fail error =>
      exact absurd asked (notFail error)

end Scene

namespace Controller

open Scene

/-- A rehearsal that asks for something goes on with the answer. -/
theorem rehearse_succ
    (steps : Nat)
    (session : Session)
    (scene : Scene)
    (offersNothing : session.offered? = none)
    (goesOn :
      session.controller.action ≠ .finish ∧
        ∀ error, session.controller.action ≠ .fail error) :
    session.controller.rehearse (steps + 1) scene =
      (session.controller.advance
          (scene.perform session.controller.key session.controller.action).1).rehearse steps
        (scene.perform session.controller.key session.controller.action).2 := by
  rw [rehearse]
  split
  · rename_i asked
    exact absurd asked goesOn.1
  · rename_i error asked
    exact absurd asked (goesOn.2 error)
  · rename_i item asked
    simp [Session.offered?, asked] at offersNothing
  · rfl

/--
A rehearsal leaves the store of a session behind, whose items are those that the
consumer has received, and it ends without an error only if the session does.
-/
theorem rehearse_eq_run
    (steps : Nat)
    (session : Session)
    (scene : Scene)
    (shows : scene.Shows session.memory session.deliveries) :
    ∃ moves,
      (session.controller.rehearse steps scene).store =
          .memory (session.run moves).memory ∧
        ((session.controller.rehearse steps scene).items = (session.run moves).deliveries ∨
          (session.controller.rehearse steps scene).items = (session.run moves).yielded) ∧
        ((session.controller.rehearse steps scene).EndedWell →
          (session.run moves).hasEnded = true) := by
  induction steps generalizing session scene with
  | zero =>
      exact ⟨[], shows.store, .inl shows.items, fun ended => absurd ended.1 shows.unended⟩
  | succ steps inductionHypothesis =>
      cases offered : session.offered? with
      | some item =>
          have asked := Session.offered?_eq_some.mp offered
          have consumed := shows.consume item
          have yielded : session.yielded = session.deliveries ++ [item] := by
            simp [Session.yielded, offered]
          rw [rehearse, asked]
          simp only
          split
          · -- The consumer leaves with the item that the session still offers.
            exact ⟨[], consumed.store, .inr (consumed.items.trans yielded.symm),
              fun ended => absurd ended.1 consumed.unended⟩
          · have replied : session.reply? .done = some (.done, session.memory) := by
              simp [Session.reply?, asked]
            obtain ⟨controller, memory, deliveries⟩ := Session.step_of_reply? replied
            obtain ⟨moves, rehearsed⟩ :=
              inductionHypothesis (session.step (.answer .done)) (scene.consume (.item item)) (by
                rw [memory, deliveries, yielded]
                exact consumed)
            rw [controller] at rehearsed
            exact ⟨.answer .done :: moves, rehearsed⟩
      | none =>
          have yielded : session.yielded = session.deliveries := by
            simp [Session.yielded, offered]
          by_cases finishes : session.controller.action = .finish
          · obtain ⟨store, items, -⟩ := shows.close none
            rw [rehearse, finishes]
            exact ⟨[], store, .inl items, fun _ => by
              simp [Session.run, Session.hasEnded, finishes]⟩
          by_cases fails : ∃ error, session.controller.action = .fail error
          · obtain ⟨error, fails⟩ := fails
            obtain ⟨store, items, ended⟩ := shows.close (some error)
            rw [rehearse, fails]
            exact ⟨[], store, .inl items, fun well => absurd (ended well) (by simp)⟩
          have goesOn :
              session.controller.action ≠ .finish ∧
                ∀ error, session.controller.action ≠ .fail error :=
            ⟨finishes, fun error asked => fails ⟨error, asked⟩⟩
          obtain ⟨after, replied, shows⟩ := perform_reply? shows offered goesOn
          obtain ⟨controller, memory, deliveries⟩ := Session.step_of_reply? replied
          obtain ⟨moves, rehearsed⟩ :=
            inductionHypothesis (session.step (.answer _)) _ (by
              rw [memory, deliveries, yielded]
              exact shows)
          rw [rehearse_succ steps session scene offered goesOn, ← controller]
          exact ⟨_ :: moves, rehearsed⟩

/-- A rehearsal of a stream leaves a store behind that streams under its key leave. -/
theorem left_of_rehearse
    {key : String}
    {memory : Memory}
    (left : Session.Left key memory)
    (policy : RetryPolicy)
    (input : RunInput)
    (steps : Nat)
    {scene : Scene}
    (shows : scene.Shows memory []) :
    ∃ after,
      ((Session.start policy key input memory).controller.rehearse steps scene).store =
          .memory after ∧
        Session.Left key after := by
  obtain ⟨moves, store, -, -⟩ :=
    rehearse_eq_run steps (Session.start policy key input memory) scene shows
  exact ⟨_, store, .run policy input moves left⟩

end Controller

end AgentWire.Client
