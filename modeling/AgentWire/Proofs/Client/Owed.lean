import AgentWire.Proofs.Client.Session
import Mathlib.Data.List.Induction

namespace AgentWire.Client

/-!
# What a stream owes its consumer

`owed` reads off the exchanges of a stream what it has to hand over: what the
store held, each event that arrives unless its number was reached, and a restart
where the run is numbered anew or is unknown to the server.  From its definition
alone it follows that every restart ends a segment and tells its last number, and
that numbers increase between two restarts if those in the store do.
-/

/-- The numbers of events, in order. -/
def numbersOf (events : List Event) : List UInt64 :=
  events.filterMap (·.sequenceNumber)

/-- The number of the last event with one, or zero. -/
def lastNumberOf (events : List Event) : UInt64 :=
  (numbersOf events).getLast?.getD 0

/-- The events behind the last restart. -/
def segmentOf (items : List Delivery) : List Event :=
  items.foldl Session.extendSegment []

/--
What is to be handed over for an event that arrives behind others: nothing if its
number was reached, and a restart before it if it numbers the run anew.
-/
def itemsOfEvent (segment : List Event) (event : Event) : List Delivery :=
  match event.sequenceNumber with
  | none => [.event event]
  | some number =>
      let reached := lastNumberOf segment
      if number ≤ 1 ∧ 1 < reached then
        [.restarted reached, .event event]
      else if number ≤ reached then
        []
      else
        [.event event]

/-- What an exchange makes due behind other items. -/
def itemsOf (past : List Delivery) (exchange : Exchange) : List Delivery :=
  match exchange.action, exchange.answer with
  | .load, .loaded stored => (stored.getD {}).events.map .event
  | .read, .frame (.event event) => itemsOfEvent (segmentOf past) event
  | .connect (.resume _ _), .failed (.transport 404 _) =>
      if segmentOf past = [] then [] else [.restarted (lastNumberOf (segmentOf past))]
  | _, _ => []

/-- All items that are due behind some exchanges. -/
def owed (history : List Exchange) : List Delivery :=
  history.foldl (fun past exchange => past ++ itemsOf past exchange) []

theorem owed_concat (history : List Exchange) (exchange : Exchange) :
    owed (history ++ [exchange]) = owed history ++ itemsOf (owed history) exchange := by
  simp [owed]

/-! ### Numbers and restarts among the items that are due -/

/-- Between two restarts the numbers of the events increase. -/
def Ordered (items : List Delivery) : Prop :=
  ∀ events, events.map Delivery.event <:+: items → (numbersOf events).Pairwise (· < ·)

/-- A restart ends a segment that is not empty and tells its last number. -/
def Told (items : List Delivery) : Prop :=
  ∀ before lastNumber,
    before ++ [.restarted lastNumber] <+: items →
    segmentOf before ≠ [] ∧ lastNumber = lastNumberOf (segmentOf before)

section Items

variable
  {items more : List Delivery}
  {events : List Event}
  {event : Event}

/-- The number of the last event, if it has one, comes last. -/
theorem numbersOf_concat (events : List Event) (event : Event) :
    numbersOf (events ++ [event]) = numbersOf events ++ event.sequenceNumber.toList := by
  cases numbered : event.sequenceNumber <;>
    simp [numbersOf, numbered]

/-- Events go on with the segment. -/
theorem segmentOf_append_events (items : List Delivery) (events : List Event) :
    segmentOf (items ++ events.map .event) = segmentOf items ++ events := by
  induction events using List.reverseRecOn with
  | nil =>
      simp
  | append_singleton events event inductionHypothesis =>
      rw [List.map_append, ← List.append_assoc, segmentOf, List.foldl_append,
        ← segmentOf, inductionHypothesis]
      simp [Session.extendSegment]

/-- Events at the end stand at the end of the segment, since no restart is between them. -/
theorem suffix_segmentOf
    (last : events.map Delivery.event <:+ items) :
    events <:+ segmentOf items := by
  obtain ⟨before, rfl⟩ := last
  rw [segmentOf_append_events]
  exact List.suffix_append _ _

theorem Ordered.of_initial
    (ordered : Ordered more)
    (first : items <+: more) :
    Ordered items :=
  fun events inside => ordered events (inside.trans first.isInfix)

theorem Told.of_initial
    (told : Told more)
    (first : items <+: more) :
    Told items :=
  fun before lastNumber start => told before lastNumber (start.trans first)

/-- No events are in order. -/
theorem Ordered.nil : Ordered [] := by
  intro events inside
  have empty : events = [] := by
    simpa using inside
  simp [empty, numbersOf]

theorem Told.nil : Told [] := by
  intro before lastNumber start
  simp at start

/-- In a segment the numbers increase. -/
theorem Ordered.segment (ordered : Ordered items) :
    (numbersOf (segmentOf items)).Pairwise (· < ·) := by
  apply ordered
  -- The segment ends the items: this is by the way in which it is cut off.
  suffices ends : (segmentOf items).map Delivery.event <:+ items from ends.isInfix
  induction items using List.reverseRecOn with
  | nil =>
      simp [segmentOf]
  | append_singleton items item inductionHypothesis =>
      have earlier := inductionHypothesis (ordered.of_initial (List.prefix_append _ _))
      rw [segmentOf, List.foldl_append, ← segmentOf]
      cases item with
      | event event =>
          obtain ⟨before, shape⟩ := earlier
          refine ⟨before, ?_⟩
          simp [Session.extendSegment, ← List.append_assoc, shape]
      | restarted lastNumber =>
          simp [Session.extendSegment]

/-- Among numbers that increase none is above the last one. -/
theorem le_lastNumberOf
    (increasing : (numbersOf events).Pairwise (· < ·))
    {number : UInt64}
    (member : number ∈ numbersOf events) :
    number ≤ lastNumberOf events := by
  cases shape : numbersOf events using List.reverseRecOn with
  | nil =>
      simp [shape] at member
  | append_singleton earlier last =>
      rw [shape] at increasing member
      have reached : lastNumberOf events = last := by
        simp [lastNumberOf, shape]
      rw [reached]
      rcases List.mem_append.mp member with before | same
      · have across := (List.pairwise_append.mp increasing).2.2
        exact UInt64.le_of_lt (across number before last (by simp))
      · exact (List.mem_singleton.mp same) ▸ UInt64.le_refl _

/-- The item at the end is checked against the segment before it. -/
theorem Ordered.concat_event
    (ordered : Ordered items)
    (increasing : (numbersOf (segmentOf items ++ [event])).Pairwise (· < ·)) :
    Ordered (items ++ [.event event]) := by
  intro events inside
  rcases List.infix_concat_iff.mp inside with last | earlier
  · have shape : segmentOf (items ++ [.event event]) = segmentOf items ++ [event] :=
      segmentOf_append_events items [event]
    have part := (suffix_segmentOf last).sublist
    rw [shape] at part
    exact increasing.sublist (part.filterMap _)
  · exact ordered events earlier

/-- A restart keeps the order: no events stand on both sides of it. -/
theorem Ordered.concat_restarted
    (ordered : Ordered items)
    (lastNumber : UInt64) :
    Ordered (items ++ [.restarted lastNumber]) := by
  intro events inside
  rcases List.infix_concat_iff.mp inside with last | earlier
  · have part := suffix_segmentOf last
    rw [segmentOf, List.foldl_append] at part
    have empty : events = [] := by
      simpa [Session.extendSegment] using part
    simp [empty, numbersOf]
  · exact ordered events earlier

/-- Events may come one after the other if they go on with the segment in order. -/
theorem Ordered.append_events
    (ordered : Ordered items)
    (increasing : (numbersOf (segmentOf items ++ events)).Pairwise (· < ·)) :
    Ordered (items ++ events.map .event) := by
  induction events using List.reverseRecOn with
  | nil =>
      simpa using ordered
  | append_singleton events event inductionHypothesis =>
      rw [← List.append_assoc] at increasing
      have earlier :
          (numbersOf (segmentOf items ++ events)).Pairwise (· < ·) :=
        increasing.sublist ((List.sublist_append_left _ _).filterMap _)
      rw [List.map_append, ← List.append_assoc]
      apply (inductionHypothesis earlier).concat_event
      rwa [segmentOf_append_events]

/-- What is due for an event that arrives is in order behind what was due before. -/
theorem Ordered.append_itemsOfEvent
    (ordered : Ordered items)
    (event : Event) :
    Ordered (items ++ itemsOfEvent (segmentOf items) event) := by
  have increasing := ordered.segment
  cases numbered : event.sequenceNumber with
  | none =>
      have due : itemsOfEvent (segmentOf items) event = [.event event] := by
        simp [itemsOfEvent, numbered]
      rw [due]
      apply ordered.concat_event
      simpa [numbersOf_concat, numbered] using increasing
  | some number =>
      simp only [itemsOfEvent, numbered]
      split
      · rw [List.append_cons]
        apply (ordered.concat_restarted _).concat_event
        rw [segmentOf, List.foldl_append]
        simp [Session.extendSegment, numbersOf, numbered]
      · split
        · simpa using ordered
        · rename_i unreached
          apply ordered.concat_event
          rw [numbersOf_concat, numbered, List.pairwise_append]
          refine ⟨increasing, List.pairwise_singleton _ _, ?_⟩
          intro earlier member last same
          cases List.mem_singleton.mp same
          exact UInt64.lt_of_le_of_lt (le_lastNumberOf increasing member)
            (UInt64.not_le.mp unreached)

/-- Events tell of no restart. -/
theorem Told.concat_event
    (told : Told items)
    (event : Event) :
    Told (items ++ [.event event]) := by
  intro before lastNumber start
  rcases List.prefix_concat_iff.mp start with whole | earlier
  · simp at whole
  · exact told before lastNumber earlier

/-- A restart is told rightly if the segment is not empty and the number is its last. -/
theorem Told.concat_restarted
    (told : Told items)
    (something : segmentOf items ≠ []) :
    Told (items ++ [.restarted (lastNumberOf (segmentOf items))]) := by
  intro before lastNumber start
  rcases List.prefix_concat_iff.mp start with whole | earlier
  · obtain ⟨rfl, same⟩ := List.append_inj' whole rfl
    simp only [List.cons.injEq, Delivery.restarted.injEq, and_true] at same
    exact ⟨something, same⟩
  · exact told before lastNumber earlier

/-- A restart in front of an event that numbers the run anew is told rightly. -/
theorem Told.append_itemsOfEvent
    (told : Told items)
    (event : Event) :
    Told (items ++ itemsOfEvent (segmentOf items) event) := by
  unfold itemsOfEvent
  split
  · exact told.concat_event event
  · dsimp only
    split
    · rename_i anew
      have something : segmentOf items ≠ [] := by
        intro empty
        rw [empty] at anew
        exact absurd anew.2 (by decide)
      rw [List.append_cons]
      exact (told.concat_restarted something).concat_event event
    · split
      · simpa using told
      · exact told.concat_event event

/-- Any number of events tell of no restart. -/
theorem Told.append_events
    (told : Told items)
    (events : List Event) :
    Told (items ++ events.map .event) := by
  induction events using List.reverseRecOn with
  | nil =>
      simpa using told
  | append_singleton events event inductionHypothesis =>
      rw [List.map_append, ← List.append_assoc]
      exact inductionHypothesis.concat_event event

end Items

/-- Behind items in order, what an exchange makes due is in order. -/
theorem Ordered.append_itemsOf
    {past : List Delivery}
    {exchange : Exchange}
    (ordered : Ordered past)
    (loaded :
      ∀ progress,
        exchange = ⟨.load, .loaded (some progress)⟩ →
        (numbersOf (segmentOf past ++ progress.events)).Pairwise (· < ·)) :
    Ordered (past ++ itemsOf past exchange) := by
  obtain ⟨action, answer⟩ := exchange
  unfold itemsOf
  split
  · rename_i stored asked given
    cases asked
    cases given
    cases stored with
    | none =>
        simpa using ordered
    | some progress =>
        exact ordered.append_events (loaded progress rfl)
  · exact ordered.append_itemsOfEvent _
  · split
    · simpa using ordered
    · exact ordered.concat_restarted _
  · simpa using ordered

/-- Every restart that is due ends a segment and tells its last number. -/
theorem told_owed (history : List Exchange) : Told (owed history) := by
  induction history using List.reverseRecOn with
  | nil =>
      exact .nil
  | append_singleton history exchange inductionHypothesis =>
      rw [owed_concat]
      unfold itemsOf
      split
      · exact inductionHypothesis.append_events _
      · exact inductionHypothesis.append_itemsOfEvent _
      · split
        · simpa using inductionHypothesis
        · exact inductionHypothesis.concat_restarted ‹_›
      · simpa using inductionHypothesis

end AgentWire.Client
