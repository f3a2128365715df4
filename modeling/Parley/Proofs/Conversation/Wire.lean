import Parley.Proofs.Conversation.Handles
import Parley.Proofs.Conversation.Stages
import Parley.Proofs.Writer.Task

/-!
# The writer and the ledger

A connection only learns from its queue whether a message can be sent, and the queue is open as long as the writer has not closed it.
A `Wire` is a conversation with the writer at work at its end, one small step of which may come between any two moves. What a request
needs to get an answer, its frame on the sink, and what the ledger does about a frame that never gets there, are two different things:
a frame that is queued behind a request to close, or that is not written when a write has failed, is lost for good, and its request
waits on (`Wire.lost_requests_wait`).
-/

namespace Parley

namespace Outgoing

/-- A request that is made in an open ledger waits as long as it can be sent. -/
theorem find?_sent_self {l : Outgoing} (hc : l.closed = false) (id : MessageId) (method : String) (writable : Bool) :
    (l.sent id method writable).pending.find? id = if writable then some ⟨method, l.handles⟩ else none := by
  unfold sent
  cases hr : l.register? id method with
  | none =>
    rw [register?_eq_none_iff, hc] at hr
    cases hr
  | some r =>
    obtain ⟨-, -, hl⟩ := register?_eq_some hr
    have hf : r.2.pending.find? id = some ⟨method, l.handles⟩ := by
      rw [hl]
      simp [Table.find?_insert]
    cases writable with
    | true => exact hf
    | false => simp [find?_resolve]

end Outgoing

namespace Connection

/-- Behind what was queued something is put, if the writer is still there, and with it a request to close if the connection leaves. -/
def Puts (leaves : Bool) (c c' : Connection) : Prop :=
  ∃ items, c'.queue = c.queue ++ c.kept items ∧ (Outbound.close ∈ items ↔ leaves = true)

theorem Puts.nothing {c c' : Connection} (h : c'.queue = c.queue) : Puts false c c' := ⟨[], by simp [h, kept], by simp⟩

theorem Puts.message {c c' : Connection} {m : Message} (h : c'.queue = c.queue ++ c.kept [.frame m]) : Puts false c c' :=
  ⟨[.frame m], h, by simp⟩

/-- What a payload has queued. -/
theorem Received.puts {c : Connection} {d : Except DecodeFault Message} {s : Step} (h : Received c d s) :
    Puts (c.ends .exit d) c s.1 := by
  cases h with
  | faulty f => exact ⟨_, by rw [refuse_eq], by simp [ends, takes]⟩
  | ignored m hl =>
    have he : c.ends .exit (.ok m) = false := by cases m <;> simp [ends, takes, hl]
    exact he ▸ .nothing rfl
  | refused h => exact .message (by rw [send_eq])
  | begun => exact .nothing rfl
  | @closed id params n incoming ha hb hs =>
    have hc : incoming.contains id = true := by simp [Incoming.contains_begin hb]
    exact .message (m := Reply.ofOutcome id (.ok .null)) (by simp [completeShutdown_eq, hc, kept, Except.map])
  | cancelled params hl =>
    have he : c.ends .exit (.ok (.notification cancelMethod params)) = false := by simp [ends, takes, cancelMethod, exitMethod]
    rw [he]
    refine .nothing ?_
    simp only [receiveCancel]
    split <;> rfl
  | left params hl hs => exact ⟨[.close], by rw [completeExit_eq], by simp [ends, takes, Farewell.method, hl, hs]⟩
  | leaving hl hs =>
    refine ⟨[], by simp [kept], ?_⟩
    simp [ends, takes, Farewell.method, hs]
  | noted job hc he hl hd => exact ⟨[], by simp [kept], by simp [ends, takes, he]⟩
  | answered id v hl => exact .nothing rfl
  | failed id e hl => exact .nothing rfl
  | unattributed e hl => exact .nothing rfl

/-- What the outcome of a job has queued. -/
theorem complete_puts (c : Connection) (j : Job) (o : Outcome) : Puts (j.duty.isFor .exit) c (c.complete j o).1 := by
  unfold complete
  cases hd : j.duty with
  | request id =>
    refine ⟨if c.incoming.contains id then [.frame (Reply.ofOutcome id o)] else [], ?_, ?_⟩
    · simp only [finish_eq]
      split <;> simp [kept]
    · split <;> simp [Duty.isFor]
  | shutdown id =>
    refine ⟨if c.incoming.contains id then [.frame (Reply.ofOutcome id (o.map fun _ => .null))] else [], ?_, ?_⟩
    · simp only [completeShutdown_eq]
      split <;> simp [kept]
    · split <;> simp [Duty.isFor]
  | exit => exact ⟨[.close], by simp [completeExit_eq, noteFailure_eq, kept], by simp [Duty.isFor]⟩
  | builtin => exact .nothing (by simp [noteFailure_eq])
  | notification => exact .nothing (by simp [noteFailure_eq])

end Connection

/-- What settles a request of ours or makes it anew: its answer, its cancellation, another request under its id, the teardown. -/
def Move.concerns (id : MessageId) : Move → Prop
  | .receive payload => Message.replier? payload = some id
  | .cancel i | .request i _ _ => i = id
  | .teardown => True
  | _ => False

/-- A move that only the writer makes. -/
def Move.isWriters : Move → Bool
  | .take | .dropWriter => true
  | _ => false

namespace Conversation

/-- What a move has queued. -/
theorem step_puts (v : Conversation) {m : Move} (hw : m.isWriters = false) (ht : m ≠ .teardown) :
    Connection.Puts (v.ends .exit m) v.connection (v.step m).connection := by
  cases m with
  | receive payload => exact (Connection.receive_received v.connection payload).puts
  | finish n o =>
    cases hj : v.jobs[n]? with
    | none =>
      have he : v.ends .exit (.finish n o) = false := by simp [ends, hj]
      simp only [he, step, hj]
      exact .nothing rfl
    | some j =>
      have hp := Connection.complete_puts v.connection j o
      simpa [step, ends, hj, absorb] using hp
  | request id method params =>
    cases hr : v.connection.outgoing.register? id method with
    | none => exact .nothing (by simp [step, Connection.requestAs_eq, hr])
    | some r => exact .message (m := .request id method params) (by simp [step, Connection.requestAs_eq, hr, Connection.kept])
  | notify method params => exact .message (m := .notification method params) (by simp [step, Connection.notify, Connection.send_eq])
  | cancel id => exact .message (by rw [step, Connection.cancelRequest_eq])
  | post m => exact .message (m := m) (by simp [step, Connection.send_eq])
  | report kind text => exact .nothing rfl
  | take | dropWriter => cases hw
  | teardown => exact absurd rfl ht

/-- Only the writer itself is ever gone. -/
theorem writable_step (v : Conversation) {m : Move} (hw : m.isWriters = false) :
    (v.step m).connection.writable = v.connection.writable := by
  cases m with
  | receive payload => exact (Connection.receive_sameSetup v.connection payload).writable
  | finish n o =>
    simp only [step]
    split
    · rename_i j _
      exact (Connection.complete_sameSetup v.connection j o).writable
    · rfl
  | request id method params => simp [step, Connection.requestAs_eq]
  | notify method params => simp [step, Connection.notify, Connection.send_eq]
  | cancel id => simp [step, Connection.cancelRequest_eq]
  | post m => simp [step, Connection.send_eq]
  | report kind text => rfl
  | take | dropWriter => cases hw
  | teardown => simp [step, Connection.teardown, Connection.enqueue_eq]

/-- A request waits on as long as nothing concerns it. -/
theorem find?_step_of_not_concerns {v : Conversation} {m : Move} {id : MessageId} (h : ¬ m.concerns id) :
    (v.step m).connection.outgoing.pending.find? id = v.connection.outgoing.pending.find? id := by
  have hm : m.requestId? ≠ some id := by
    cases m with
    | request i method params => simpa [Move.requestId?, Move.concerns] using h
    | _ => simp [Move.requestId?]
  have hf : v.fate id m = none := by
    cases m with
    | receive payload =>
      simp only [fate]
      split
      · rename_i i r hs
        have ht := Connection.told_of_settlement? hs
        rw [Connection.reads, Message.told_decode] at ht
        have hi : i ≠ id := fun hi => h (by rw [Move.concerns, ht, hi])
        rw [if_neg hi]
      · rfl
    | cancel i => simpa [fate, Move.concerns] using h
    | request i method params =>
      have hi : i ≠ id := h
      simp [fate, hi]
    | teardown => exact absurd trivial h
    | _ => rfl
  rw [find?_step hm, hf]
  rfl

/-- Only the teardown closes the ledger. -/
theorem closed_step_eq (v : Conversation) {m : Move} (ht : m ≠ .teardown) :
    (v.step m).connection.outgoing.closed = v.connection.outgoing.closed := by
  rw [step_outgoing]
  cases m with
  | receive payload => exact Outgoing.closed_settle _ _
  | request id method params => exact Outgoing.closed_sent_eq _ _ _ _
  | cancel id => exact Outgoing.closed_settle _ _
  | teardown => exact absurd rfl ht
  | _ => rfl

/-- What waits has waited before, or is a request that is made with this move and queued. -/
theorem waits_of_step {v : Conversation} {m : Move} (hc : v.connection.outgoing.closed = false) {id : MessageId} {p : Pending}
    (h : (v.step m).connection.outgoing.pending.find? id = some p) :
    v.connection.outgoing.pending.find? id = some p ∨
      ∃ params, m = .request id p.method params ∧
        (v.step m).connection.queue = v.connection.queue ++ [.frame (.request id p.method params)] := by
  by_cases hm : m.requestId? = some id
  · obtain ⟨method, params, rfl⟩ : ∃ method params, m = .request id method params := by
      cases m with
      | request i method params => exact ⟨method, params, by rw [Option.some.inj hm]⟩
      | _ => cases hm
    rw [step_outgoing] at h
    simp only at h
    rw [Outgoing.find?_sent_self hc] at h
    split at h
    · rename_i hw
      obtain rfl := Option.some.inj h
      refine .inr ⟨params, rfl, ?_⟩
      cases hr : v.connection.outgoing.register? id method with
      | none => rw [Outgoing.register?_eq_none_iff, hc] at hr; cases hr
      | some r => simp [step, Connection.requestAs_eq, hr, Connection.kept, hw]
    · cases h
  · rw [find?_step hm] at h
    split at h
    · cases h
    · exact .inl h

end Conversation

/-- A conversation with the writer at work at its end. -/
structure Wire where
  talk : Conversation
  phase : Writer.Phase Message := .receiving
  calls : List (Sink.Call Message) := []

namespace Wire

/-- What can happen next: a move in the conversation, or the writer goes on, and what the sink had to do went well or did not. -/
inductive Act where
  | move (m : Move)
  | write (ok : Bool)

/-- A wire before anything has happened. -/
def start (routes : Registry Mode) (catalogue : Catalogue) : Wire := { talk := Conversation.start routes catalogue }

/-- The writer; the connection holds its sender. -/
def task (w : Wire) : Writer.Task Message := ⟨1, w.talk.connection.queue, w.phase, w.calls⟩

/-- What the conversation notices of the writer that goes on: it takes the next item, or is gone. -/
def noticed (w : Wire) : List Move :=
  match w.phase, w.talk.connection.queue with
  | .receiving, _ :: _ => [.take]
  | .leaving, _ => [.dropWriter]
  | _, _ => []

/-- The wire after an act. Only the writer itself takes anything or is gone. -/
def step (w : Wire) : Act → Wire
  | .move m => if m.isWriters then w else { w with talk := w.talk.step m }
  | .write ok =>
    { talk := w.talk.run w.noticed
      phase := (w.task.advance ok).phase
      calls := (w.task.advance ok).calls }

/-- The wire after some acts. -/
def run (w : Wire) (acts : List Act) : Wire := acts.foldl step w

/-- What an act queues. -/
def queues (w : Wire) : Act → List (Outbound Message)
  | .move m => (w.step (.move m)).talk.connection.queue.drop w.talk.connection.queue.length
  | .write _ => []

/-- All that is queued by some acts. -/
def queued (w : Wire) : List Act → List (Outbound Message)
  | [] => []
  | a :: acts => w.queues a ++ (w.step a).queued acts

/-- The requests of ours that wait. -/
def pending (w : Wire) : Table MessageId Pending := w.talk.connection.outgoing.pending

variable {w : Wire} {acts : List Act} {queued : List (Outbound Message)}

/-- Acts of two rows are those of one. -/
theorem run_append (w : Wire) (acts later : List Act) : w.run (acts ++ later) = (w.run acts).run later := List.foldl_append

/-- The writer of a wire goes on as a writer at work does. -/
theorem task_write (w : Wire) (ok : Bool) : (w.step (.write ok)).task = w.task.advance ok := by
  obtain ⟨⟨c, jobs⟩, phase, calls⟩ := w
  cases phase with
  | receiving =>
    cases hq : c.queue with
    | nil => simp [step, task, noticed, Writer.Task.advance, hq]
    | cons x queue => cases x <;> simp [step, task, noticed, Writer.Task.advance, hq, Conversation.step]
  | writing m => cases ok <;> simp [step, task, noticed, Writer.Task.advance]
  | leaving => simp [step, task, noticed, Writer.Task.advance, Conversation.step, Connection.dropWriter]
  | closing | finished => simp [step, task, noticed, Writer.Task.advance]

/-- Nothing else of the conversation changes then. -/
theorem talk_write (w : Wire) (ok : Bool) :
    ∃ queue writable, (w.step (.write ok)).talk = { w.talk with connection := { w.talk.connection with queue, writable } } ∧
      (w.talk.connection.writable = w.task.isOpen → writable = (w.step (.write ok)).task.isOpen) := by
  rw [task_write]
  obtain ⟨⟨c, jobs⟩, phase, calls⟩ := w
  cases phase with
  | receiving =>
    cases hq : c.queue with
    | nil =>
      have hn : noticed ⟨⟨c, jobs⟩, .receiving, calls⟩ = [] := by simp [noticed, hq]
      exact ⟨c.queue, c.writable, by rw [step, hn]; rfl, by simp [task, Writer.Task.advance, hq]⟩
    | cons x queue =>
      refine ⟨queue, c.writable, by simp [step, noticed, hq, Conversation.step], ?_⟩
      cases x <;> simp [task, Writer.Task.advance, hq, Writer.Task.isOpen]
  | writing m =>
    refine ⟨c.queue, c.writable, by simp [step, noticed], ?_⟩
    cases ok <;> simp [task, Writer.Task.advance, Writer.Task.isOpen]
  | leaving =>
    exact ⟨[], false, by simp [step, noticed, Conversation.step, Connection.dropWriter],
      by simp [task, Writer.Task.advance, Writer.Task.isOpen]⟩
  | closing | finished =>
    exact ⟨c.queue, c.writable, by simp [step, noticed], by simp [task, Writer.Task.advance, Writer.Task.isOpen]⟩

/-- What is true of a wire after some acts without a teardown, when all this was queued. -/
structure Sound (queued : List (Outbound Message)) (acts : List Act) (w : Wire) : Prop where
  course : Writer.Task.Course queued w.task
  writable : w.talk.connection.writable = w.task.isOpen
  ledger : w.talk.connection.outgoing.closed = false
  /-- Only an `exit` that has ended asks the writer to close. -/
  asked : Outbound.close ∈ queued → w.talk.connection.exitCode ≠ none
  /-- It does so as long as the queue is open. -/
  left : w.talk.connection.exitCode ≠ none → Outbound.close ∈ queued ∨ w.task.isOpen = false
  /-- The frame of each request that waits was queued when the request was made. -/
  pending : ∀ id p, w.pending.find? id = some p →
    ∃ params, Act.move (.request id p.method params) ∈ acts ∧ .frame (.request id p.method params) ∈ queued

/-- The writer goes on. -/
theorem Sound.write (h : Sound queued acts w) (ok : Bool) : Sound queued (acts ++ [.write ok]) (w.step (.write ok)) := by
  obtain ⟨queue, writable, ht, hw⟩ := talk_write w ok
  constructor
  · rw [task_write]
    exact h.course.advance ok
  · rw [ht]
    exact hw h.writable
  · rw [ht]
    exact h.ledger
  · rw [ht]
    exact h.asked
  · rw [ht]
    rw [task_write]
    exact fun hx => (h.left hx).imp_right fun ho => Writer.Task.isOpen_step ho (.advance ok)
  · intro id p hp
    rw [Wire.pending, ht] at hp
    obtain ⟨params, ha, hq⟩ := h.pending id p hp
    exact ⟨params, List.mem_append_left _ ha, hq⟩

/-- A move is made, other than the teardown. -/
theorem Sound.move (h : Sound queued acts w) {m : Move} (ht : m ≠ .teardown) :
    Sound (queued ++ w.queues (.move m)) (acts ++ [.move m]) (w.step (.move m)) := by
  cases hm : m.isWriters with
  | true =>
    -- What the writer does is for the writer's own acts to say: as a move it leaves the wire as it is.
    have hs : w.step (.move m) = w := by simp [step, hm]
    have hq : w.queues (.move m) = [] := by simp [queues, hs]
    rw [hs, hq, List.append_nil]
    refine ⟨h.course, h.writable, h.ledger, h.asked, h.left, fun id p hp => ?_⟩
    obtain ⟨params, ha, hq⟩ := h.pending id p hp
    exact ⟨params, List.mem_append_left _ ha, hq⟩
  | false =>
    have hs : w.step (.move m) = { w with talk := w.talk.step m } := by simp [step, hm]
    have hwr := w.talk.writable_step hm
    obtain ⟨-, hx⟩ := w.talk.step_stage m
    obtain ⟨items, hqueue, hclose⟩ := w.talk.step_puts hm ht
    have hq : w.queues (.move m) = w.talk.connection.kept items := by rw [queues, hs, hqueue, List.drop_left]
    have htask : (w.step (.move m)).task = { w.task with queue := w.task.queue ++ w.queues (.move m) } := by
      rw [hs, hq]
      simp only [task, hqueue]
    have hopen : (w.step (.move m)).task.isOpen = w.task.isOpen := by rw [htask]; rfl
    constructor
    · rw [htask]
      cases ho : w.task.isOpen with
      | true => exact h.course.enqueue Nat.one_ne_zero ho _
      | false =>
        -- The writer has gone: the queue takes nothing, and the task has stopped.
        have hk : w.queues (.move m) = [] := by rw [hq, Connection.kept, h.writable, ho]; rfl
        rw [hk, List.append_nil, List.append_nil]
        exact h.course
    · rw [hopen, hs]
      exact hwr.trans h.writable
    · rw [hs]
      exact (w.talk.closed_step_eq ht).trans h.ledger
    · intro hc
      rw [hs, hx]
      rcases List.mem_append.mp hc with hc | hc
      · split
        · simp
        · exact h.asked hc
      · rw [hq, Connection.kept] at hc
        split at hc
        · rw [if_pos (hclose.mp hc)]
          simp
        · cases hc
    · intro hc
      rw [hopen]
      rw [hs, hx] at hc
      split at hc
      -- This very move leaves the conversation, so it queues the close if there is anybody to take it.
      · rename_i he
        cases ho : w.task.isOpen with
        | false => exact .inr rfl
        | true =>
          refine .inl (List.mem_append_right _ ?_)
          rw [hq, Connection.kept, h.writable, if_pos ho]
          exact hclose.mpr he
      · exact (h.left hc).imp_left (List.mem_append_left _)
    · intro id p hp
      rw [Wire.pending, hs] at hp
      rcases Conversation.waits_of_step h.ledger hp with hp | ⟨params, rfl, hqueue⟩
      · obtain ⟨params, ha, hq⟩ := h.pending id p hp
        exact ⟨params, List.mem_append_left _ ha, List.mem_append_left _ hq⟩
      · refine ⟨params, by simp, List.mem_append_right _ ?_⟩
        rw [queues, hs, hqueue, List.drop_left]
        exact List.mem_singleton_self _

/-- So it stays true until a teardown. -/
theorem Sound.run {later : List Act} (h : Sound queued acts w) (ht : .move .teardown ∉ later) :
    Sound (queued ++ w.queued later) (acts ++ later) (w.run later) := by
  induction later generalizing queued acts w with
  | nil => simpa [Wire.queued, Wire.run] using h
  | cons a later ih =>
    have hs : Sound (queued ++ w.queues a) (acts ++ [a]) (w.step a) := by
      cases a with
      | write ok => simpa [queues] using h.write ok
      | move m => exact h.move fun hm => ht (by simp [hm])
    have hn := ih hs fun hm => ht (List.mem_cons_of_mem _ hm)
    simpa [Wire.queued, Wire.run] using hn

/-- At the beginning the wire has lost nothing. -/
theorem sound_start (routes : Registry Mode) (catalogue : Catalogue) : Sound [] [] (start routes catalogue) :=
  ⟨.receiving 1 [] [] rfl, rfl, rfl, by simp, fun h => absurd rfl h, fun _ _ hp => by cases hp⟩

/-! ## Lost requests -/

/-- The writer takes back no call of the sink. -/
theorem calls_step (w : Wire) (a : Act) : w.calls <+: (w.step a).calls := by
  cases a with
  | move m =>
    rw [step]
    split <;> exact List.prefix_refl _
  | write ok => exact Writer.Task.calls_advance w.task ok

/-- No call of ours is taken back. -/
theorem calls_run (w : Wire) (acts : List Act) : w.calls <+: (w.run acts).calls := by
  induction acts generalizing w with
  | nil => exact List.prefix_refl _
  | cons a acts ih => exact (calls_step w a).trans (ih (w.step a))

/-- A request waits on as long as nothing concerns it, whatever the writer does. -/
theorem find?_run {id : MessageId} {later : List Act} (h : ∀ m, .move m ∈ later → ¬ m.concerns id) :
    (w.run later).pending.find? id = w.pending.find? id := by
  induction later generalizing w with
  | nil => rfl
  | cons a later ih =>
    have hs : (w.step a).pending.find? id = w.pending.find? id := by
      cases a with
      | write ok =>
        obtain ⟨queue, writable, ht, -⟩ := talk_write w ok
        rw [Wire.pending, ht]
        rfl
      | move m =>
        rw [step]
        split
        · rfl
        · exact Conversation.find?_step_of_not_concerns (h m List.mem_cons_self)
    exact (ih fun m hm => h m (List.mem_cons_of_mem _ hm)).trans hs

/-- The frame of a request that is made behind a request to close, or when the writer takes no more, is lost. -/
theorem Sound.lost_of_request (h : Sound queued acts w) (hx : w.talk.connection.exitCode ≠ none ∨ w.task.isTaking = false)
    (ho : w.task.isOpen = true) {id : MessageId} {method : String} {params : Json}
    (hn : .frame (.request id method params) ∉ queued) :
    ¬ (w.step (.move (.request id method params))).task.Reaches (.request id method params) := by
  have hs := h.move (m := .request id method params) nofun
  have hcalls : (w.step (.move (.request id method params))).task.written = w.task.written := rfl
  rintro (hr | ⟨ht, hr⟩)
  · exact hn (Outbound.mem_of_mem_due (h.course.faithful.order.subset (hcalls ▸ hr)))
  · have ht' : w.task.isTaking = true := ht
    have hc : Outbound.close ∈ queued := by
      rcases hx with hx | hx
      · exact (h.left hx).resolve_right (by simp [ho])
      · rw [hx] at ht'
        cases ht'
    have hd := (hs.course.faithful.reaches_iff _).mp (.inr ⟨ht, hr⟩)
    rw [Outbound.due_append_of_close_mem hc] at hd
    exact hn (Outbound.mem_of_mem_due hd.1)

/-- What becomes of requests whose frames are lost. (1) The frame of a request that waits was queued with it. It is written, or will be
if the writes go well, exactly if it was queued before the first request to close and, once a write has failed, was written before; so
as long as no `exit` has ended and no write has failed, no frame is lost. (2) What is lost is lost for good. (3) Nobody tells: whatever
the writer does and whether or not the connection has left, a request waits until it is answered or cancelled, or until the teardown
fails it. (4) A request that is made while the queue is open waits, and is lost if an `exit` has ended or the writer takes no more; one
that is made when the queue is closed fails at once. -/
theorem lost_requests_wait (routes : Registry Mode) (catalogue : Catalogue) (acts later : List Act)
    (ht : .move .teardown ∉ acts ∧ .move .teardown ∉ later) :
    let w := (start routes catalogue).run acts
    let queued := (start routes catalogue).queued acts
    (∀ id p, w.pending.find? id = some p → ∃ params,
      Act.move (.request id p.method params) ∈ acts ∧ .frame (.request id p.method params) ∈ queued ∧
      (w.task.Reaches (.request id p.method params) ↔ Message.request id p.method params ∈ Outbound.due queued ∧
        (w.task.failures = [] ∨ Message.request id p.method params ∈ w.task.written)) ∧
      (w.talk.connection.exitCode = none → w.task.failures = [] → w.task.Reaches (.request id p.method params))) ∧
    (∀ m, .frame m ∈ queued → ¬ w.task.Reaches m → ¬ (w.run later).task.Reaches m) ∧
    (∀ id p, w.pending.find? id = some p → (∀ m, .move m ∈ later → ¬ m.concerns id) →
      (w.run later).pending.find? id = some p ∧
      (p.handle, .reply (.error .closed)) ∈ ((w.run later).step (.move .teardown)).talk.connection.outgoing.answers) ∧
    ∀ id method params, w.pending.find? id = none →
      let w' := w.step (.move (.request id method params))
      if w.task.isOpen = true then
        w'.pending.find? id = some ⟨method, w.talk.connection.outgoing.handles⟩ ∧
        (w.talk.connection.exitCode ≠ none ∨ w.task.isTaking = false → .frame (.request id method params) ∉ queued →
          ¬ w'.task.Reaches (.request id method params))
      else
        w'.pending.find? id = none ∧
        (w.talk.connection.outgoing.handles, .reply (.error .closed)) ∈ w'.talk.connection.outgoing.answers := by
  intro w queued
  have hs : Sound queued acts w := (sound_start routes catalogue).run ht.1
  refine ⟨fun id p hp => ?_, fun m hm hn => ?_, fun id p hp hl => ?_, fun id method params hp => ?_⟩
  · obtain ⟨params, ha, hq⟩ := hs.pending id p hp
    have hr := hs.course.faithful.reaches_iff (.request id p.method params)
    refine ⟨params, ha, hq, hr, fun hx hf => hr.mpr ⟨Outbound.mem_due (fun hc => ?_) hq, .inl hf⟩⟩
    exact hs.asked hc hx
  · exact hs.course.faithful.lost (hs.run ht.2).course.faithful (calls_run w later) hm hn
  · have hw : (w.run later).pending.find? id = some p := (find?_run hl).trans hp
    exact ⟨hw, Conversation.mem_answers_step (m := .teardown) nofun hw rfl⟩
  · have hsent := Outgoing.sent_new hp method w.talk.connection.writable
    have hout : (w.talk.step (.request id method params)).connection.outgoing =
        w.talk.connection.outgoing.sent id method w.talk.connection.writable := Conversation.step_outgoing w.talk _
    rw [← hout, hs.ledger, hs.writable] at hsent
    cases ho : w.task.isOpen with
    | true =>
      simp only [ho] at hsent
      exact ⟨hsent, fun hx hn => hs.lost_of_request hx ho hn⟩
    | false =>
      simp only [ho] at hsent
      exact hsent

/-- Our side asks for something, and the first write fails. -/
def brokenPipe : List Act := [.move (.request (.str "a") "ask" .null), .write true, .write false]

/-- The peer has said goodbye, and then our side asks for something. -/
def askedTooLate : List Act :=
  [.move (.receive (Message.notification Connection.exitMethod .null).encode), .move (.request (.str "a") "ask" .null)]

/-- In both runs the request waits, and its frame is lost. -/
theorem requests_wait_for_nothing :
    (((start {} {}).run brokenPipe).pending.find? (.str "a")).isSome = true ∧
    (((start {} {}).run askedTooLate).pending.find? (.str "a")).isSome = true ∧
    ∀ m, ¬ ((start {} {}).run brokenPipe).task.Reaches m ∧ ¬ ((start {} {}).run askedTooLate).task.Reaches m := by
  refine ⟨by decide +kernel, by decide +kernel, fun m => ⟨?_, ?_⟩⟩
  · have hw : ((start {} {}).run brokenPipe).task.written = [] := rfl
    have ht : ((start {} {}).run brokenPipe).task.isTaking = false := rfl
    rintro (h | ⟨h, -⟩)
    · rw [hw] at h
      cases h
    · rw [ht] at h
      cases h
  · have hw : ((start {} {}).run askedTooLate).task.written = [] := List.eq_nil_of_length_eq_zero (by decide +kernel)
    have hh : ((start {} {}).run askedTooLate).task.inHand = [] := List.eq_nil_of_length_eq_zero (by decide +kernel)
    have hd : Outbound.due ((start {} {}).run askedTooLate).task.queue = [] := List.eq_nil_of_length_eq_zero (by decide +kernel)
    rintro (h | ⟨-, h | h⟩)
    · rw [hw] at h
      cases h
    · rw [hh] at h
      cases h
    · rw [hd] at h
      cases h

/-- In `brokenPipe` the request waits on when the writer has closed the sink, and a request that is made then fails at once. -/
theorem lost_requests_wait_brokenPipe :
    let w := (start {} {}).run brokenPipe
    let last := (start {} {}).run (brokenPipe ++ [.write true, .write true])
    (∃ p, last.pending.find? (.str "a") = some p) ∧ last.phase = .finished ∧
    (∀ m, .frame m ∈ (start {} {}).queued brokenPipe → ¬ w.task.Reaches m → ¬ last.task.Reaches m) ∧
    (1, .reply (.error .closed)) ∈ (last.step (.move (.request (.str "b") "ask" .null))).talk.connection.outgoing.answers := by
  intro w last
  obtain ⟨-, hlost, hwait, -⟩ := lost_requests_wait {} {} brokenPipe [.write true, .write true] (by simp [brokenPipe])
  obtain ⟨-, -, -, hfails⟩ := lost_requests_wait {} {} (brokenPipe ++ [.write true, .write true]) [] (by simp [brokenPipe])
  have hlast : last = w.run [.write true, .write true] := run_append _ _ _
  refine ⟨⟨⟨"ask", 0⟩, ?_⟩, rfl, ?_, (hfails (.str "b") "ask" .null rfl).2⟩
  · rw [hlast]
    exact (hwait (.str "a") ⟨"ask", 0⟩ rfl (by simp)).1
  · rw [hlast]
    exact hlost

end Wire

end Parley
