import Parley.Proofs.Conversation.Results
import Parley.Proofs.Conversation.Shutdown

/-!
# Teardown

A teardown releases everything that depends on the connection (`Connection.Released`): nothing waits in either ledger, no shape
is remembered, and every token has fired. Jobs may still be open then, and they end in any order later on. None of them finds the
request that it serves, so what was released stays released as long as no payload comes (`released_run`), and the end of a job
queues no answer.
-/

namespace Parley

namespace Outgoing

/-- A closed ledger answers a request from the start. -/
theorem sent_of_closed {l : Outgoing} (h : l.closed = true) (id : MessageId) (method : String) (writable : Bool) :
    l.sent id method writable = (l.settled (.error .closed)).2 := by
  rw [sent, register?_eq_none_iff.mpr h]

/-- A handle has an answer, or a request waits with it. -/
theorem Sound.answered_or_waits {l : Outgoing} (h : l.Sound) {handle : Nat} (hh : handle < l.handles) :
    (∃ a, l.answer? handle = some a) ∨ ∃ id p, l.pending.find? id = some p ∧ p.handle = handle := by
  rcases List.mem_append.mp (h.handles.mem_iff.mpr (List.mem_range.mpr hh)) with ha | hw
  · obtain ⟨⟨_, a⟩, hm, rfl⟩ := List.mem_map.mp ha
    exact .inl ⟨a, h.answer?_eq_some_iff.mpr hm⟩
  · obtain ⟨p, hp, rfl⟩ := List.mem_map.mp hw
    obtain ⟨id, hf⟩ := Table.mem_values_iff.mp hp
    exact .inr ⟨id, p, hf, rfl⟩

/-- Closing the table leaves no handle without an answer, and takes none away. -/
theorem Sound.answer?_closeAll {l : Outgoing} (h : l.Sound) {handle : Nat} (hh : handle < l.handles) :
    l.closeAll.2.answer? handle = some ((l.answer? handle).getD (.reply (.error .closed))) := by
  rw [h.closeAll.answer?_eq_some_iff]
  rcases h.answered_or_waits hh with ⟨a, ha⟩ | ⟨id, p, hp, rfl⟩
  · rw [ha]
    exact List.mem_append_left _ (h.answer?_eq_some_iff.mp ha)
  · rw [h.answer?_of_pending hp]
    exact mem_answers_closeAll hp

end Outgoing

namespace Connection

/-- Everything that depends on the connection has been released. -/
structure Released (c : Connection) : Prop where
  pending : c.outgoing.pending = {}
  closed : c.outgoing.closed = true
  serving : c.incoming.entries = {}
  cancelled : c.incoming.closed = true
  expected : c.expected = {}

/-- A connection that is released has nothing left. -/
theorem released_teardown (c : Connection) : c.teardown.Released := by
  constructor <;> simp [teardown, enqueue_eq, Outgoing.closeAll, Incoming.purge, Incoming.close]

variable {c : Connection}

/-- No request is being served any more. -/
theorem Released.not_contains (h : c.Released) (id : MessageId) : c.incoming.contains id = false := by
  rw [Incoming.contains, h.serving]
  rfl

/-- A job whose request was released ends without an answer; only that of `exit` has the writer close. -/
theorem Released.complete_queue (h : c.Released) (j : Job) (o : Outcome) :
    (c.complete j o).1.queue = c.queue ++ if j.duty = .exit then c.kept [.close] else [] := by
  unfold complete
  cases j.duty with
  | request id => simp [finish_eq, h.not_contains]
  | shutdown id => simp [completeShutdown_eq, h.not_contains]
  | exit => simp [completeExit_eq, noteFailure_eq, kept]
  | builtin => simp [noteFailure_eq]
  | notification => simp [noteFailure_eq]

/-- The end of a job brings nothing back. -/
theorem Released.complete (h : c.Released) (j : Job) (o : Outcome) : (c.complete j o).1.Released := by
  have hs : ((c.complete j o).1.incoming.entries = {}) ∧ (c.complete j o).1.incoming.closed = true := by
    unfold Connection.complete
    cases j.duty with
    | request id => simpa [finish_eq, Incoming.finish_of_not_contains (h.not_contains id)] using ⟨h.serving, h.cancelled⟩
    | shutdown id =>
      have hn : (c.incoming.cancelAllExcept id).2.contains id = false := h.not_contains id
      simpa [completeShutdown_eq, Incoming.finish_of_not_contains hn] using ⟨h.serving, h.cancelled⟩
    | exit => simpa [completeExit_eq, noteFailure_eq] using ⟨h.serving, h.cancelled⟩
    | builtin => simpa [noteFailure_eq] using ⟨h.serving, h.cancelled⟩
    | notification => simpa [noteFailure_eq] using ⟨h.serving, h.cancelled⟩
  refine ⟨?_, ?_, hs.1, hs.2, (complete_expected c j o).trans h.expected⟩
  · rw [complete_outgoing]
    exact h.pending
  · rw [complete_outgoing]
    exact h.closed

end Connection

namespace Conversation

/-- Whatever happens, other than a payload, brings nothing back. -/
theorem released_step {v : Conversation} (h : v.connection.Released) {m : Move} (hm : ∀ payload, m ≠ .receive payload) :
    (v.step m).connection.Released := by
  have hr (id : MessageId) (method : String) : v.connection.outgoing.register? id method = none :=
    Outgoing.register?_eq_none_iff.mpr h.closed
  cases m with
  | receive payload => exact absurd rfl (hm payload)
  | finish n o =>
    simp only [step]
    split
    · exact h.complete _ o
    · exact h
  | request id method params =>
    simp only [step, Connection.requestAs_eq, hr, Outgoing.sent_of_closed h.closed]
    exact ⟨h.pending, h.closed, h.serving, h.cancelled, h.expected⟩
  | cancel id =>
    have hn : v.connection.outgoing.pending.find? id = none := by rw [h.pending]; rfl
    have he : v.connection.expected.find? id = none := by rw [h.expected]; rfl
    simp only [step, Connection.cancelRequest_eq, Outgoing.resolve_eq_of_none hn, Table.erase_of_find?_eq_none he]
    exact ⟨h.pending, h.closed, h.serving, h.cancelled, h.expected⟩
  | notify method params =>
    simp only [step, Connection.notify, Connection.send_eq]
    exact ⟨h.pending, h.closed, h.serving, h.cancelled, h.expected⟩
  | post m =>
    simp only [step, Connection.send_eq]
    exact ⟨h.pending, h.closed, h.serving, h.cancelled, h.expected⟩
  | report | take | dropWriter => exact ⟨h.pending, h.closed, h.serving, h.cancelled, h.expected⟩
  | teardown => exact Connection.released_teardown _

/-- What was released stays released as long as no payload comes. -/
theorem released_run {v : Conversation} (h : v.connection.Released) {ms : List Move} (hm : ∀ payload, .receive payload ∉ ms) :
    (v.run ms).connection.Released := by
  induction ms generalizing v with
  | nil => exact h
  | cons m ms ih =>
    refine ih (released_step h fun payload he => hm payload ?_) fun payload he => hm payload (List.mem_cons_of_mem _ he)
    rw [he]
    exact List.mem_cons_self

/-- A move of such a run is made while everything is released. -/
theorem released_of_mem_trace {v u : Conversation} (h : v.connection.Released) {ms : List Move}
    (hm : ∀ payload, .receive payload ∉ ms) {m : Move} (hu : (u, m) ∈ v.trace ms) : u.connection.Released := by
  obtain ⟨before, after, rfl, rfl⟩ := mem_trace_iff.mp hu
  exact released_run h fun payload he => hm payload (List.mem_append_left _ he)

/-- A job that ends when its request was released queues nothing, or a request to close if it is that of `exit`. -/
theorem own_finish_of_released {v : Conversation} (h : v.connection.Released) {n : Nat} {o : Outcome} {item : Outbound Message}
    (hi : item ∈ v.own (.finish n o)) : item = .close ∧ ∃ j, v.jobs[n]? = some j ∧ j.duty = .exit := by
  simp only [own, step] at hi
  split at hi
  · rename_i j hj
    have hq : (v.connection.complete j o).1.queue.drop v.connection.queue.length =
        if j.duty = .exit then v.connection.kept [.close] else [] := by
      rw [h.complete_queue, List.drop_left]
    simp only [absorb, hq] at hi
    split at hi
    · rename_i hd
      simp only [Connection.kept] at hi
      split at hi
      · exact ⟨List.mem_singleton.mp hi, j, hj, hd⟩
      · cases hi
    · cases hi
  · simp at hi

/-- A teardown is complete and permanent, for all handlers, whatever came before it, in four parts.
1. A handle that had an answer keeps it, and every other handle made so far is answered as closed.
2. At once, and after any later moves but payloads, both ledgers and the table of shapes are empty, every token has fired, and
   every handle has an answer, which for those made before the teardown is the same as at once.
3. A later request gets the next handle, which is answered as closed at once, and nothing is queued.
4. A job that ends later queues nothing, save that the end of `exit` asks the writer to close. -/
theorem teardown_releases_for_good (routes : Registry Mode) (catalogue : Catalogue) (ms : List Move) :
    let before := (start routes catalogue).run ms
    let gone := before.step .teardown
    (∀ handle < before.connection.outgoing.handles,
      gone.connection.outgoing.answer? handle =
        some ((before.connection.outgoing.answer? handle).getD (.reply (.error .closed)))) ∧
    ∀ later, (∀ payload, .receive payload ∉ later) →
      (let last := gone.run later
       last.connection.outgoing.pending.entries = [] ∧ last.connection.incoming.entries.entries = [] ∧
       last.connection.expected.entries = [] ∧ (∀ t, last.connection.isFired t = true) ∧
       (∀ handle < last.connection.outgoing.handles, ∃ a, last.connection.outgoing.answer? handle = some a) ∧
       ∀ handle a, gone.connection.outgoing.answer? handle = some a → last.connection.outgoing.answer? handle = some a) ∧
      (∀ u id method params, (u, .request id method params) ∈ gone.trace later →
        let sent := u.step (.request id method params)
        (u.connection.requestAs id method params).1 = u.connection.outgoing.handles ∧
        sent.connection.outgoing.handles = u.connection.outgoing.handles + 1 ∧
        sent.connection.outgoing.answer? u.connection.outgoing.handles = some (.reply (.error .closed)) ∧
        sent.connection.queue = u.connection.queue) ∧
      ∀ u n o, (u, .finish n o) ∈ gone.trace later → ∀ item ∈ u.own (.finish n o),
        item = .close ∧ ∃ j, u.jobs[n]? = some j ∧ j.duty = .exit := by
  intro before gone
  have hb : before.connection.outgoing.Sound := run_sound Outgoing.sound_empty ms
  have hs : gone.connection.outgoing.Sound := step_sound hb .teardown
  have hg : gone.connection.Released := Connection.released_teardown _
  refine ⟨fun handle hh => ?_, fun later hl => ⟨?_, ?_, ?_⟩⟩
  · have ho : gone.connection.outgoing = before.connection.outgoing.closeAll.2 := step_outgoing before .teardown
    rw [ho]
    exact hb.answer?_closeAll hh
  · intro last
    have hr : last.connection.Released := released_run hg hl
    have hls : last.connection.outgoing.Sound := run_sound hs later
    refine ⟨by rw [hr.pending]; rfl, by rw [hr.serving]; rfl, by rw [hr.expected]; rfl,
      Incoming.isFired_of_closed hr.cancelled, fun handle hh => ?_, fun handle a ha => ?_⟩
    · rcases hls.answered_or_waits hh with ha | ⟨id, p, hp, -⟩
      · exact ha
      · rw [hr.pending] at hp
        cases hp
    · exact hls.answer?_eq_some_iff.mpr ((answers_run gone later).subset (hs.answer?_eq_some_iff.mp ha))
  · intro u id method params hu sent
    have hr : u.connection.Released := released_of_mem_trace hg hl hu
    have hus : u.connection.outgoing.Sound := by
      obtain ⟨earlier, -, -, rfl⟩ := mem_trace_iff.mp hu
      exact run_sound hs earlier
    have ho : sent.connection.outgoing = (u.connection.outgoing.settled (.error .closed)).2 :=
      (step_outgoing u _).trans (Outgoing.sent_of_closed hr.closed id method _)
    refine ⟨Connection.requestAs_fst _ _ _ _, by rw [ho]; rfl, ?_, ?_⟩
    · rw [ho, (hus.settled _).answer?_eq_some_iff]
      exact List.mem_append_right _ List.mem_cons_self
    · simp [sent, step, Connection.requestAs_eq, Outgoing.register?_eq_none_iff.mpr hr.closed]
  · exact fun u n o hu item hi => own_finish_of_released (released_of_mem_trace hg hl hu) hi

/-- A request is being served, `shutdown` is, and a request of ours waits. -/
def midway : List Move :=
  [.receive (Message.request (.num 2) "slow" .null).encode, .receive firstShutdown, .request (.str "a") "sum" .null]

/-- The handler of `shutdown` ends, then the other one, and in between our side cancels a request and makes a new one. -/
def afterwards : List Move :=
  [.finish 1 (.ok .null), .cancel (.str "a"), .request (.str "b") "sum" .null, .finish 0 (.error (.failed "no"))]

/-- After `midway` a teardown answers the request of ours as closed, and `afterwards` brings nothing back. -/
theorem teardown_releases_for_good_midway :
    let before := (start patientRoutes {}).run midway
    let gone := before.step .teardown
    let last := gone.run afterwards
    (before.jobs.map (·.duty) = [.request (.num 2), .shutdown (.num 1)] ∧ before.connection.outgoing.answer? 0 = none) ∧
    (∀ payload, .receive payload ∉ afterwards) ∧
    gone.connection.outgoing.answer? 0 = some (.reply (.error .closed)) ∧
    last.connection.outgoing.answer? 0 = some (.reply (.error .closed)) ∧
    last.connection.incoming.entries.entries = [] ∧ last.connection.isFired (.request 1) = true := by
  intro before gone last
  have hb : before.jobs.map (·.duty) = [.request (.num 2), .shutdown (.num 1)] := by decide +kernel
  have hn : before.connection.outgoing.answer? 0 = none := by decide +kernel
  have hl : ∀ payload, .receive payload ∉ afterwards := by simp [afterwards]
  obtain ⟨h1, h2⟩ := teardown_releases_for_good patientRoutes {} midway
  have hg : gone.connection.outgoing.answer? 0 = some (.reply (.error .closed)) :=
    (h1 0 (by decide +kernel)).trans (by rw [hn]; rfl)
  obtain ⟨-, hi, -, ht, -, ha⟩ := (h2 afterwards hl).1
  exact ⟨⟨hb, hn⟩, hl, hg, ha 0 _ hg, hi, ht _⟩

end Conversation

end Parley
