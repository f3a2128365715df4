import Parley.Trial.Log

/-!
# Observers

An observer looks at a session now and then, and tells what is new since it last looked: what was written, logged and reported,
and which of the requests that it was given have been answered. Nothing is told twice.
-/

namespace Parley

/-- What is new at a session. -/
structure News where
  written : List Bytes := []
  log : List String := []
  reports : List Report := []
  /-- The replies to requests, by number. -/
  replies : List (Nat × PeerReply) := []

/-- What an observer has seen of a session. -/
structure Observer where
  /-- How many frames, entries of the log and reports were seen. -/
  frames : Nat := 0
  entries : Nat := 0
  reports : Nat := 0
  /-- The requests that are not answered yet, by number and handle. -/
  awaited : List (Nat × Nat) := []
  deriving Repr

namespace Observer

variable {α : Type} [HasLog α]

/-- Waits for the answer to a request, from now on. -/
def await (o : Observer) (number handle : Nat) : Observer := { o with awaited := o.awaited ++ [(number, handle)] }

/-- The reply to a request that is awaited, if it is there. -/
def replyOf (s : Session α) (request : Nat × Nat) : Option (Nat × PeerReply) :=
  (s.answer? request.2).map fun r => (request.1, r)

/-- Looks at a session. -/
def look (o : Observer) (s : Session α) : News × Observer :=
  let connection := s.site.connection
  let entries := logEntries s.site.own
  ({ written := s.written.drop o.frames
     log := entries.drop o.entries
     reports := connection.reports.drop o.reports
     replies := o.awaited.filterMap (replyOf s) },
   { frames := s.written.length
     entries := entries.length
     reports := connection.reports.length
     awaited := o.awaited.filter fun r => (s.answer? r.2).isNone })

end Observer

end Parley
