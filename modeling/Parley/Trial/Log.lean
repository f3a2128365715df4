import Parley.Client.Basic
import Parley.Server.Builtins

/-!
# Logs

A program can keep a log beside its connection: a list of entries that only grows. Where a server or a client keeps something of
its own, the log of that is its log.
-/

namespace Parley

/-- A log, the oldest entry first. -/
structure Log where
  entries : List String := []
  deriving DecidableEq, Repr

/-- A state that holds a log. -/
class HasLog (α : Type) where
  log : α → Log
  setLog : α → Log → α

instance : HasLog Log := ⟨id, fun _ l => l⟩

instance {β : Type} [HasLog β] : HasLog (Served β) :=
  ⟨fun s => HasLog.log s.own, fun s l => { s with own := HasLog.setLog s.own l }⟩

instance {β : Type} [HasLog β] : HasLog (Client β) :=
  ⟨fun c => HasLog.log c.own, fun c l => { c with own := HasLog.setLog c.own l }⟩

/-- The entries of the log of a state. -/
def logEntries {α : Type} [HasLog α] (s : α) : List String := (HasLog.log s).entries

/-- Adds an entry to the log of a state. -/
def addEntry {α : Type} [HasLog α] (entry : String) (s : α) : α := HasLog.setLog s ⟨logEntries s ++ [entry]⟩

end Parley
