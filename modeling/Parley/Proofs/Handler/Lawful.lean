import Parley.Handler.Basic
import Parley.Proofs.Conversation.Basic

/-!
# Lawful handlers

A handler works at a site, and nothing in its type keeps it from putting another connection there. A lawful one leaves the
connection as our side may leave it in a conversation (`Connection.ActsTo`): it sends, cancels, takes what is queued, or releases
the connection. The operations of `Site` are all lawful, so the handlers that are made of them are.
-/

namespace Parley

namespace Connection

/-- Our side may leave a connection in this state: moves of our side, or the release of the connection, lead there. -/
def ActsTo (c c' : Connection) : Prop :=
  ∃ ms : List Move, (∀ m ∈ ms, m.isOurs = true ∨ m = .teardown) ∧ ∀ jobs, (Conversation.mk c jobs).run ms = ⟨c', jobs⟩

theorem ActsTo.refl (c : Connection) : c.ActsTo c := ⟨[], by simp, fun _ => rfl⟩

/-- Our side acts, and acts again. -/
theorem ActsTo.trans {c c' c'' : Connection} (h : c.ActsTo c') (h' : c'.ActsTo c'') : c.ActsTo c'' := by
  obtain ⟨ms, ho, hr⟩ := h
  obtain ⟨ms', ho', hr'⟩ := h'
  refine ⟨ms ++ ms', fun m hm => ?_, fun jobs => by rw [Conversation.run_append, hr, hr']⟩
  exact (List.mem_append.mp hm).elim (ho m) (ho' m)

/-- Our side may send a request. -/
theorem actsTo_request (c : Connection) (method : String) (params : Json) : c.ActsTo (c.request method params).2 :=
  ⟨[.request (mintedId c.minted) method params], by simp [Move.isOurs], fun _ => rfl⟩

/-- Our side may send a notification. -/
theorem actsTo_notify (c : Connection) (method : String) (params : Json) : c.ActsTo (c.notify method params).2 :=
  ⟨[.notify method params], by simp [Move.isOurs], fun _ => rfl⟩

/-- Our side may report something. -/
theorem actsTo_report (c : Connection) (kind : ReportKind) (text : String) : c.ActsTo (c.report kind text) :=
  ⟨[.report kind text], by simp [Move.isOurs], fun _ => rfl⟩

/-- The writer may go away. -/
theorem actsTo_dropWriter (c : Connection) : c.ActsTo c.dropWriter := ⟨[.dropWriter], by simp [Move.isOurs], fun _ => rfl⟩

/-- The connection may be released. -/
theorem actsTo_teardown (c : Connection) : c.ActsTo c.teardown := ⟨[.teardown], by simp, fun _ => rfl⟩

/-- The writer takes the items of the queue one after the other. -/
theorem actsTo_takeAll (c : Connection) : c.ActsTo { c with queue := [] } := by
  generalize hq : c.queue = items
  induction items generalizing c with
  | nil =>
    rw [← hq]
    exact .refl c
  | cons item items ih =>
    have ht : c.ActsTo { c with queue := c.queue.tail } := ⟨[.take], by simp [Move.isOurs], fun _ => rfl⟩
    exact ht.trans (ih _ (by rw [hq]; rfl))

end Connection

variable {α : Type}

/-- Whatever the routine comes across, it leaves the connection as our side may. -/
def Routine.Lawful : Routine α → Prop
  | .done _ => True
  | .act update next => (∀ s : Site α, s.connection.ActsTo (update s).connection) ∧ ∀ s, (next s).Lawful
  | .reply _ next => ∀ r, (next r).Lawful
  | .wait _ next => next.Lawful
  | .invoke _ _ next => ∀ o, (next o).Lawful

namespace Routine

@[simp] theorem lawful_done (o : Outcome) : (done o : Routine α).Lawful := trivial

/-- A lawful action on the site with a result is a lawful routine, if what comes next is. -/
theorem lawful_acting {ρ : Type} {f : Site α → ρ × Site α} (hf : ∀ s : Site α, s.connection.ActsTo (f s).2.connection)
    {next : ρ → Routine α} (hn : ∀ r, (next r).Lawful) : (acting f next).Lawful :=
  ⟨hf, fun s => hn (f s).1⟩

/-- To ask the peer is lawful, if what comes next is. -/
theorem lawful_call {method : String} {params : Json} {next : PeerReply → Routine α} (hn : ∀ r, (next r).Lawful) :
    (call method params next).Lawful :=
  lawful_acting (fun s => s.connection.actsTo_request method params) fun _ => hn

end Routine

namespace Handler

/-- Whatever the call, the handler leaves the connection as our side may. -/
def Lawful : Handler α → Prop
  | .direct run => ∀ c (s : Site α), s.connection.ActsTo (run c s).2.connection
  | .coroutine body => ∀ c, (body c).Lawful
  | .threaded body => ∀ c, (body c).Lawful

/-- The routine of a lawful handler is lawful, whatever the mode. -/
theorem Lawful.routine {h : Handler α} (hl : h.Lawful) (c : Call) : (h.routine c).Lawful := by
  cases h with
  | direct run => exact Routine.lawful_acting (hl c) Routine.lawful_done
  | coroutine body => exact hl c
  | threaded body => exact hl c

/-- A handler that is made to run on a worker stays lawful. -/
theorem Lawful.onWorker {h h' : Handler α} (hl : h.Lawful) (ho : h.onWorker = .ok h') : h'.Lawful := by
  cases h with
  | direct run =>
    cases ho
    exact hl.routine
  | coroutine body => cases ho
  | threaded body =>
    cases ho
    exact hl

/-- A direct handler of typed params is lawful if it is on params that have been read. -/
theorem lawful_directOf {shape : Shape} {run : Call → Json → Site α → Outcome × Site α}
    (h : ∀ c params (s : Site α), s.connection.ActsTo (run c params s).2.connection) : (directOf shape run).Lawful := by
  intro c s
  cases hr : c.read shape with
  | ok params => simpa [hr] using h c params s
  | error f => simpa [hr] using Connection.ActsTo.refl _

/-- A body of typed params is lawful if it is on params that have been read. -/
theorem lawful_typedBody {shape : Shape} {body : Call → Json → Routine α} (h : ∀ c params, (body c params).Lawful) (c : Call) :
    (typedBody shape body c).Lawful := by
  unfold typedBody
  split
  · exact h c _
  · trivial

end Handler

/-- Every handler of a registry is lawful. -/
def Registry.Lawful (r : Registry (Handler α)) : Prop := ∀ origin name h, r.find? origin name = some h → h.Lawful

end Parley
