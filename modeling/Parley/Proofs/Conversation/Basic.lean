import Parley.Proofs.Connection.Received

/-!
# Conversations

The course of a connection, whatever its handlers do and in whatever order their jobs end. A conversation is a connection with the
jobs that are open, and `Conversation.step` says what each move does to it, with the operations of `Connection` alone. A job is
open from the moment it begins until its outcome is handed back, and in between anything may happen: payloads come, other jobs
end, our side sends and cancels, the writer takes what is queued. So the runs of a conversation hold every order in which handlers
can be run, those of a session among them (`Session.Follows`), and a statement about all runs is a statement about all of these.
-/

namespace Parley

/-- What can happen next in a conversation. -/
inductive Move where
  /-- The peer sends a payload. -/
  | receive (payload : Bytes)
  /-- The `n`-th of the open jobs ends. -/
  | finish (n : Nat) (o : Outcome)
  /-- Our side sends a request under an id. -/
  | request (id : MessageId) (method : String) (params : Json)
  /-- Our side sends a notification. -/
  | notify (method : String) (params : Json)
  /-- Our side cancels a request of ours. -/
  | cancel (id : MessageId)
  /-- Our side queues a message as it is. -/
  | post (m : Message)
  /-- Our side reports a failure. -/
  | report (kind : ReportKind) (text : String)
  /-- The writer takes the first item of the queue. -/
  | take
  /-- The writer is gone. -/
  | dropWriter
  /-- Everything that depends on the connection is released. -/
  | teardown

/-- The id under which a move sends a request of ours. -/
def Move.requestId? : Move → Option MessageId
  | .request id _ _ => some id
  | _ => none

/-- The ids under which moves send requests of ours. -/
def Move.requestIds (ms : List Move) : List MessageId := ms.filterMap requestId?

theorem Move.requestIds_append (ms ms' : List Move) : requestIds (ms ++ ms') = requestIds ms ++ requestIds ms' :=
  List.filterMap_append

theorem Move.not_mem_requestIds_cons {id : MessageId} {m : Move} {ms : List Move} (h : id ∉ requestIds (m :: ms)) :
    m.requestId? ≠ some id ∧ id ∉ requestIds ms := by
  refine ⟨fun hm => h (List.mem_filterMap.mpr ⟨m, List.mem_cons_self, hm⟩), fun hms => h ?_⟩
  obtain ⟨m', hm', hi⟩ := List.mem_filterMap.mp hms
  exact List.mem_filterMap.mpr ⟨m', List.mem_cons_of_mem _ hm', hi⟩

/-- A move of our side or of the writer, which the peer's requests have no part in. -/
def Move.isOurs : Move → Bool
  | .receive _ | .finish .. | .teardown => false
  | _ => true

/-- A move is one of our side or of the writer, or a payload, or the end of a job, or the teardown. -/
theorem Move.kinds (m : Move) :
    m.isOurs = true ∨ (∃ payload, m = .receive payload) ∨ (∃ n o, m = .finish n o) ∨ m = .teardown := by
  cases m <;> simp [isOurs]

/-- A connection with the jobs that are open, in the order in which they began. -/
structure Conversation where
  connection : Connection
  jobs : List Job := []

namespace Conversation

/-- A conversation before its first move. -/
def start (routes : Registry Mode) (catalogue : Catalogue) : Conversation := ⟨{ routes, catalogue }, []⟩

/-- The conversation after a step of its connection: the job that comes of it is open. -/
def absorb (v : Conversation) (s : Connection.Step) : Conversation := ⟨s.1, v.jobs ++ s.2.toList⟩

/-- The conversation after a move. -/
def step (v : Conversation) : Move → Conversation
  | .receive payload => v.absorb (v.connection.receive payload)
  | .finish n o =>
    match v.jobs[n]? with
    | some j => { v with jobs := v.jobs.eraseIdx n }.absorb (v.connection.complete j o)
    | none => v
  | .request id method params =>
    { v with connection := ({ v.connection with minted := v.connection.minted + 1 }.requestAs id method params).2 }
  | .notify method params => { v with connection := (v.connection.notify method params).2 }
  | .cancel id => { v with connection := (v.connection.cancelRequest id).2 }
  | .post m => { v with connection := v.connection.send m }
  | .report kind text => { v with connection := v.connection.report kind text }
  | .take => { v with connection := { v.connection with queue := v.connection.queue.tail } }
  | .dropWriter => { v with connection := v.connection.dropWriter }
  | .teardown => { v with connection := v.connection.teardown }

/-- The conversation after a run of moves. -/
def run (v : Conversation) (ms : List Move) : Conversation := ms.foldl step v

/-- The moves of a run, each with the conversation that it is made in. -/
def trace (v : Conversation) : List Move → List (Conversation × Move)
  | [] => []
  | m :: ms => (v, m) :: (v.step m).trace ms

/-- What the connection itself queues when it takes a payload or the outcome of a job; what our side sends is not counted. -/
def own (v : Conversation) : Move → List (Outbound Message)
  | .receive payload => (v.step (.receive payload)).connection.queue.drop v.connection.queue.length
  | .finish n o => (v.step (.finish n o)).connection.queue.drop v.connection.queue.length
  | _ => []

/-- What the connection itself queues in a run. -/
def output (v : Conversation) (ms : List Move) : List (Outbound Message) :=
  (v.trace ms).flatMap fun e => e.1.own e.2

@[simp] theorem run_nil (v : Conversation) : v.run [] = v := rfl

@[simp] theorem run_cons (v : Conversation) (m : Move) (ms : List Move) : v.run (m :: ms) = (v.step m).run ms := rfl

/-- Moves of two rows are those of one. -/
theorem run_append (v : Conversation) (ms ms' : List Move) : v.run (ms ++ ms') = (v.run ms).run ms' :=
  List.foldl_append

@[simp] theorem trace_nil (v : Conversation) : v.trace [] = [] := rfl

@[simp] theorem trace_cons (v : Conversation) (m : Move) (ms : List Move) :
    v.trace (m :: ms) = (v, m) :: (v.step m).trace ms := rfl

/-- What every move preserves holds after a run. -/
theorem run_preserves {P : Conversation → Prop} (h : ∀ v m, P v → P (v.step m)) (ms : List Move) (v : Conversation) (hv : P v) :
    P (v.run ms) := by
  induction ms generalizing v with
  | nil => exact hv
  | cons m ms ih => exact ih (v.step m) (h v m hv)

/-- A move of a run is made in a conversation that a part of the run leads to. -/
theorem mem_trace_iff {v w : Conversation} {ms : List Move} {m : Move} :
    (w, m) ∈ v.trace ms ↔ ∃ before after, ms = before ++ m :: after ∧ w = v.run before := by
  induction ms generalizing v with
  | nil => simp
  | cons m' ms ih =>
    rw [trace_cons, List.mem_cons, ih]
    constructor
    · rintro (h | ⟨before, after, rfl, rfl⟩)
      · obtain ⟨rfl, rfl⟩ := Prod.mk.inj h
        exact ⟨[], ms, rfl, rfl⟩
      · exact ⟨m' :: before, after, rfl, rfl⟩
    · rintro ⟨before, after, he, rfl⟩
      cases before with
      | nil =>
        obtain ⟨rfl, -⟩ := List.cons.inj he
        exact .inl rfl
      | cons m'' before =>
        obtain ⟨rfl, rfl⟩ := List.cons.inj he
        exact .inr ⟨before, after, rfl, rfl⟩

/-- A move of our side leaves the peer's requests and the jobs for them as they are. -/
theorem step_of_isOurs {m : Move} (hm : m.isOurs = true) (v : Conversation) :
    v.connection.SameService (v.step m).connection ∧ (v.step m).jobs = v.jobs := by
  cases m with
  | request id method params => exact ⟨by constructor <;> simp [step, Connection.requestAs_eq], rfl⟩
  | cancel id => exact ⟨by constructor <;> simp [step, Connection.cancelRequest_eq], rfl⟩
  | notify method params => exact ⟨by constructor <;> simp [step, Connection.notify, Connection.send_eq], rfl⟩
  | post m => exact ⟨by constructor <;> simp [step, Connection.send_eq], rfl⟩
  | report | take | dropWriter => exact ⟨⟨rfl, rfl, rfl⟩, rfl⟩
  | receive | finish | teardown => cases hm

/-- A writer that is still there was there before. -/
theorem writable_of_step {v : Conversation} {m : Move} (h : (v.step m).connection.writable = true) :
    v.connection.writable = true := by
  cases m with
  | receive payload => rwa [← (Connection.receive_sameSetup v.connection payload).writable]
  | finish n o =>
    simp only [step] at h
    split at h
    · rename_i j _
      rwa [← (Connection.complete_sameSetup v.connection j o).writable]
    · exact h
  | request id method params => simpa [step, Connection.requestAs_eq] using h
  | cancel id => simpa [step, Connection.cancelRequest_eq] using h
  | notify method params => simpa [step, Connection.notify, Connection.send_eq] using h
  | post m => simpa [step, Connection.send_eq] using h
  | report | take => exact h
  | dropWriter => cases h
  | teardown => simpa [step, Connection.teardown, Connection.enqueue_eq] using h

/-- A writer that is still there at the end of a run was there at its beginning. -/
theorem writable_of_run {v : Conversation} {ms : List Move} (h : (v.run ms).connection.writable = true) :
    v.connection.writable = true := by
  induction ms generalizing v with
  | nil => exact h
  | cons m ms ih => exact writable_of_step (ih h)

/-- The handlers and the shapes stay as they are. -/
theorem setup_step (v : Conversation) (m : Move) :
    (v.step m).connection.routes = v.connection.routes ∧ (v.step m).connection.catalogue = v.connection.catalogue := by
  cases m with
  | receive payload =>
    have h := Connection.receive_sameSetup v.connection payload
    exact ⟨h.routes, h.catalogue⟩
  | finish n o =>
    simp only [step]
    split
    · rename_i j _
      have h := Connection.complete_sameSetup v.connection j o
      exact ⟨h.routes, h.catalogue⟩
    · exact ⟨rfl, rfl⟩
  | request id method params => simp [step, Connection.requestAs_eq]
  | cancel id => simp [step, Connection.cancelRequest_eq]
  | notify method params => simp [step, Connection.notify, Connection.send_eq]
  | post m => simp [step, Connection.send_eq]
  | report | take | dropWriter => exact ⟨rfl, rfl⟩
  | teardown => simp [step, Connection.teardown, Connection.enqueue_eq]

/-- The handlers of a run are those it began with. -/
@[simp] theorem routes_run (v : Conversation) (ms : List Move) : (v.run ms).connection.routes = v.connection.routes :=
  run_preserves (P := fun w => w.connection.routes = v.connection.routes) (fun w m h => (setup_step w m).1.trans h) ms v rfl

/-- The shapes of a run are those it began with. -/
@[simp] theorem catalogue_run (v : Conversation) (ms : List Move) :
    (v.run ms).connection.catalogue = v.connection.catalogue :=
  run_preserves (P := fun w => w.connection.catalogue = v.connection.catalogue) (fun w m h => (setup_step w m).2.trans h) ms v rfl

end Conversation

end Parley
