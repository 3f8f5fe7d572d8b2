import AgentWire.Client.Direct

namespace AgentWire

/-!
# Following a log that is finished

Whoever follows a finished log gets its events at once, and a direct line hands them
over with the mark of the end behind them.
-/

namespace Server

namespace Reader

/-- A reader that has the last events in hand gives them and is done. -/
theorem pollFor_handing
    (log : RunLog)
    (position heard : Nat)
    {events : List Event}
    {steps room : Nat}
    (enough : events.length < steps)
    (fits : events.length < room) :
    pollFor log steps room ⟨position, heard, .handing events true⟩ =
      (events, ⟨position, heard, .ended⟩) := by
  induction events generalizing steps room with
  | nil =>
      obtain ⟨steps, rfl⟩ := Nat.exists_eq_succ_of_ne_zero (Nat.ne_of_gt enough)
      have ended : pollFor log steps room ⟨position, heard, .ended⟩ =
          ([], ⟨position, heard, .ended⟩) := by
        cases steps <;> simp [pollFor, step?]
      rw [pollFor, if_neg (by omega)]
      exact ended
  | cons event rest inductionHypothesis =>
      obtain ⟨steps, rfl⟩ := Nat.exists_eq_succ_of_ne_zero (Nat.ne_of_gt (Nat.zero_lt_of_lt enough))
      rw [List.length_cons] at enough fits
      rw [pollFor, if_neg (by omega)]
      simp only [step?, inductionHypothesis (show rest.length < steps by omega)
        (show rest.length < room - 1 by omega)]

/-- A reader of a finished log takes all that is behind its number, and has ended. -/
theorem take_finished
    {log : RunLog}
    (finished : log.finished = true)
    (number : Nat)
    {room : Nat}
    (fits : log.size < room) :
    (start log number).take log room =
      (log.eventsAfter number,
       ⟨number + (log.eventsAfter number).length, log.news, .ended⟩) := by
  have short : (log.eventsAfter number).length ≤ log.size := by
    rw [RunLog.eventsAfter, List.length_drop, RunLog.size]
    omega
  have steps : (start log number).stepBound log = log.size + 5 + 1 := by
    simp [stepBound, start, pending]
  have look :
      (start log number).step? log =
        some (none,
          ⟨number + (log.eventsAfter number).length, log.news,
            .handing (log.eventsAfter number) true⟩) := by
    simp [step?, start, finished]
  rw [take, steps, pollFor, if_neg (by omega), look]
  exact pollFor_handing log _ _ (by omega) (by omega)

end Reader

/-- Who follows a finished log gets its events without a pause. -/
theorem Archive.follow_finished
    {archive : Archive}
    {number : LogNumber}
    {log : RunLog}
    (found : archive.store.log? number = some log)
    (finished : log.finished = true)
    (behind : Nat) :
    archive.follow number behind none = ((log.eventsAfter behind).map .arrival, archive) := by
  have taken := Reader.take_finished finished behind
    (show log.size < archive.turnBound + log.size + 1 by omega)
  rw [follow, found]
  simp only [Option.getD_none, followFor, found, taken, Reader.isEnded]
  rfl

end Server

namespace Client

open Server (LogNumber RunLog)

/-- A direct line hands over the events of a finished log, and then the mark of the end. -/
theorem DirectLine.follow_finished
    {line : DirectLine}
    (waiting : line.cancelled = false)
    {number : LogNumber}
    {log : RunLog}
    (found : line.archive.store.log? number = some log)
    (finished : log.finished = true)
    (behind : Nat) :
    (line.follow number behind none).1 = (log.eventsAfter behind).map .event ++ [.done] := by
  have followed := Server.Archive.follow_finished found finished behind
  simp [follow, waiting, followed, framesOf, Server.EventStream.events_arrivals]

end Client

end AgentWire
