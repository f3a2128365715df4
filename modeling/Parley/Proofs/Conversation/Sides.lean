import Parley.Proofs.Connection.Inside
import Parley.Proofs.Conversation.Answers
import Parley.Proofs.Conversation.Results

/-!
# The two sides of a connection

The requests of the peer and ours do not interfere, whatever ids they have. A payload that answers nothing leaves ours as they
are, and one that answers leaves those of the peer as they are, whether or not it can be read. So a run can be made without the
answers of the peer (`Move.unanswered`), and everything that is done for the peer's requests stays the same (`run_apart`). The
same holds of handlers that act by what they see of the connection (`play_apart`), as long as they do not look at the answers.
-/

namespace Parley

/-- A move is a payload that has the shape of an answer. -/
def Move.isResponse : Move → Bool
  | .receive payload => Message.isResponse payload
  | _ => false

/-- The moves without the answers of the peer. -/
def Move.unanswered (ms : List Move) : List Move := ms.filter (!·.isResponse)

namespace Conversation

/-- A conversation without what its connection keeps of our requests to the peer. -/
def inside (v : Conversation) : Conversation := { v with connection := v.connection.inside }

/-- The jobs that a run opens. -/
def opens (v : Conversation) (ms : List Move) : List Job := (v.trace ms).filterMap fun e => e.1.begins e.2

theorem inside_absorb (v : Conversation) (s : Connection.Step) : (v.absorb s).inside = v.absorb s.inside := rfl

/-- An answer of the peer: no job begins, nothing is queued, and inside nothing changes. -/
theorem step_of_isResponse {m : Move} (hm : m.isResponse = true) (v : Conversation) :
    (v.step m).inside = v.inside ∧ v.begins m = none ∧ v.own m = [] := by
  cases m with
  | receive payload =>
    have hs := Connection.inside_receive_of_isResponse (c := v.connection) hm
    have hj : (v.connection.receive payload).2 = none := congrArg Prod.snd hs
    have hc : (v.connection.receive payload).1.inside = v.connection.inside := congrArg Prod.fst hs
    have hq : (v.connection.receive payload).1.queue = v.connection.queue := (congrArg Connection.queue hc :)
    refine ⟨?_, hj, ?_⟩
    · simp [step, inside, absorb, hj, hc]
    · simp [own, step, absorb, hq]
  | _ => cases hm

/-- Any other move: inside it comes to what it comes to without the rest. -/
theorem step_inside {m : Move} (hm : m.isResponse = false) (v : Conversation) :
    (v.step m).inside = (v.inside.step m).inside ∧ v.begins m = v.inside.begins m := by
  cases m with
  | receive payload =>
    have hs : (v.connection.receive payload).inside = (v.inside.connection.receive payload).inside :=
      Connection.inside_receive_of_not_isResponse hm
    have hj : (v.connection.receive payload).2 = (v.inside.connection.receive payload).2 := (congrArg Prod.snd hs :)
    refine ⟨?_, hj⟩
    simp only [step, inside_absorb, hs]
    rfl
  | finish n o =>
    have hi : v.inside.jobs[n]? = v.jobs[n]? := rfl
    simp only [step, begins, hi]
    cases v.jobs[n]? with
    | none => exact ⟨by simp [inside], rfl⟩
    | some j =>
      have hs : (v.connection.complete j o).inside = v.inside.connection.complete j o := v.connection.inside_complete j o
      have hj : (v.connection.complete j o).2 = (v.inside.connection.complete j o).2 := (congrArg Prod.snd hs :)
      refine ⟨?_, hj⟩
      simp only [inside_absorb, ← hs]
      simp [inside, absorb, Connection.Step.inside]
  -- Our own requests concern the table that is left out.
  | request id method params =>
    have hs := Connection.inside_requestAs { v.connection with minted := v.connection.minted + 1 } id method params
    exact ⟨congrArg (Conversation.mk · v.jobs) hs, rfl⟩
  | cancel id => exact ⟨congrArg (Conversation.mk · v.jobs) (v.connection.inside_cancelRequest id), rfl⟩
  | notify method params =>
    have hs := congrArg Connection.inside (v.connection.inside_send (.notification method params))
    rw [Connection.inside_inside] at hs
    exact ⟨congrArg (Conversation.mk · v.jobs) hs, rfl⟩
  | post m =>
    have hs := congrArg Connection.inside (v.connection.inside_send m)
    rw [Connection.inside_inside] at hs
    exact ⟨congrArg (Conversation.mk · v.jobs) hs, rfl⟩
  | report kind text => exact ⟨congrArg (Conversation.mk · v.jobs) (v.connection.inside_report kind text), rfl⟩
  | take | dropWriter => exact ⟨by simp [step, inside, Connection.inside, Connection.dropWriter], rfl⟩
  | teardown => exact ⟨congrArg (Conversation.mk · v.jobs) v.connection.inside_teardown, rfl⟩

variable {v w : Conversation}

/-- Conversations that are the same inside queue the same, if they stay the same. -/
theorem own_of_inside (h : v.inside = w.inside) {m : Move} (hs : (v.step m).inside = (w.step m).inside) : v.own m = w.own m := by
  have hq : v.connection.queue = w.connection.queue := (congrArg (·.connection.queue) h :)
  have hs : (v.step m).connection.queue = (w.step m).connection.queue := (congrArg (·.connection.queue) hs :)
  cases m <;> simp [own, hq, hs]

/-- A move that is no answer of the peer does the same in conversations that are the same inside. -/
theorem step_apart (h : v.inside = w.inside) {m : Move} (hm : m.isResponse = false) :
    (v.step m).inside = (w.step m).inside ∧ v.begins m = w.begins m ∧ v.own m = w.own m := by
  obtain ⟨hv, hbv⟩ := step_inside hm v
  obtain ⟨hw, hbw⟩ := step_inside hm w
  have hs : (v.step m).inside = (w.step m).inside := by rw [hv, hw, h]
  exact ⟨hs, by rw [hbv, hbw, h], own_of_inside h hs⟩

/-- The jobs that a row of moves opens are those of the first and of the others. -/
theorem opens_cons (v : Conversation) (m : Move) (ms : List Move) :
    v.opens (m :: ms) = (v.begins m).toList ++ (v.step m).opens ms := by
  rw [opens, trace_cons, List.filterMap_cons]
  cases v.begins m <;> rfl

/-- What a row of moves queues is what the first does and what the others do. -/
theorem output_cons (v : Conversation) (m : Move) (ms : List Move) : v.output (m :: ms) = v.own m ++ (v.step m).output ms := rfl

/-- A run without the answers of the peer does the same for the peer's requests. -/
theorem run_apart (h : v.inside = w.inside) (ms : List Move) :
    (v.run ms).inside = (w.run (Move.unanswered ms)).inside ∧ v.opens ms = w.opens (Move.unanswered ms) ∧
      v.output ms = w.output (Move.unanswered ms) := by
  induction ms generalizing v w with
  | nil => exact ⟨h, rfl, rfl⟩
  | cons m ms ih =>
    rw [opens_cons, output_cons, run_cons]
    cases hm : m.isResponse with
    | true =>
      obtain ⟨hs, hb, ho⟩ := step_of_isResponse hm v
      have hf : Move.unanswered (m :: ms) = Move.unanswered ms := List.filter_cons_of_neg (by simp [hm])
      rw [hf, hb, ho]
      exact ih (hs.trans h)
    | false =>
      obtain ⟨hs, hb, ho⟩ := step_apart h hm
      have hf : Move.unanswered (m :: ms) = m :: Move.unanswered ms := List.filter_cons_of_pos (by simp [hm])
      rw [hf, opens_cons, output_cons, run_cons, hb, ho]
      obtain ⟨hi, hj, hq⟩ := ih hs
      exact ⟨hi, by rw [hj], by rw [hq]⟩

/-- Runs that differ only in the answers of the peer do the same for the peer's requests. -/
theorem runs_apart (h : v.inside = w.inside) {ms ms' : List Move} (hms : Move.unanswered ms = Move.unanswered ms') :
    (v.run ms).inside = (w.run ms').inside ∧ v.opens ms = w.opens ms' ∧ v.output ms = w.output ms' := by
  obtain ⟨hi, hj, hq⟩ := run_apart h ms
  obtain ⟨hi', hj', hq'⟩ := run_apart (rfl : w.inside = w.inside) ms'
  rw [← hms] at hi' hj' hq'
  exact ⟨hi.trans hi'.symm, hj.trans hj'.symm, hq.trans hq'.symm⟩

/-! ## Handlers that do not look at the answers -/

/-- What drives a connection: a payload comes, or our side has its turn. -/
inductive Occasion where
  | arrival (payload : Bytes)
  | turn
  deriving DecidableEq

/-- An occasion is a payload that has the shape of an answer. -/
def Occasion.isResponse : Occasion → Bool
  | .arrival payload => Message.isResponse payload
  | .turn => false

/-- The occasions without the answers of the peer. -/
def Occasion.unanswered (occasions : List Occasion) : List Occasion := occasions.filter (!·.isResponse)

/-- How our side acts that does not look at the answers of the peer: the moves of a turn follow from what was to be seen inside,
at this turn and at those before it, the last one first. -/
abbrev Conduct := List Conversation → List Move

/-- The moves that come of some occasions, when our side acts in its turns. -/
def play (act : Conduct) (seen : List Conversation) (v : Conversation) : List Occasion → List Move
  | [] => []
  | .arrival payload :: occasions => .receive payload :: play act seen (v.step (.receive payload)) occasions
  | .turn :: occasions => act (v.inside :: seen) ++ play act (v.inside :: seen) (v.run (act (v.inside :: seen))) occasions

/-- Our side does the same whether or not the peer answers. -/
theorem play_apart (act : Conduct) (seen : List Conversation) (h : v.inside = w.inside) (occasions : List Occasion) :
    Move.unanswered (v.play act seen occasions) = Move.unanswered (w.play act seen (Occasion.unanswered occasions)) := by
  induction occasions generalizing v w seen with
  | nil => rfl
  | cons occasion occasions ih =>
    cases occasion with
    | arrival payload =>
      cases hp : Message.isResponse payload with
      | true =>
        have hf : Occasion.unanswered (.arrival payload :: occasions) = Occasion.unanswered occasions :=
          List.filter_cons_of_neg (by simp [Occasion.isResponse, hp])
        have hm : Move.unanswered (v.play act seen (.arrival payload :: occasions)) =
            Move.unanswered ((v.step (.receive payload)).play act seen occasions) :=
          List.filter_cons_of_neg (by simp [Move.isResponse, hp])
        rw [hf, hm]
        exact ih seen ((step_of_isResponse (m := .receive payload) hp v).1.trans h)
      | false =>
        have hf : Occasion.unanswered (.arrival payload :: occasions) = .arrival payload :: Occasion.unanswered occasions :=
          List.filter_cons_of_pos (by simp [Occasion.isResponse, hp])
        have hm (u : Conversation) (later : List Occasion) : Move.unanswered (u.play act seen (.arrival payload :: later)) =
            .receive payload :: Move.unanswered ((u.step (.receive payload)).play act seen later) :=
          List.filter_cons_of_pos (by simp [Move.isResponse, hp])
        rw [hf, hm, hm, ih seen (step_apart (m := .receive payload) h hp).1]
    | turn =>
      have hf : Occasion.unanswered (.turn :: occasions) = .turn :: Occasion.unanswered occasions := List.filter_cons_of_pos rfl
      rw [hf, play, play, ← h, Move.unanswered, Move.unanswered, List.filter_append, List.filter_append]
      exact congrArg _ (ih _ (runs_apart h rfl).1)

/-- The requests of the peer and ours never interfere, whatever ids they have, in four parts.
1. A payload that can be read is an answer exactly if it has the shape of one.
2. In every state, a payload that does not have the shape of an answer leaves our requests, their answers and the table of shapes
   as they are, and so does the outcome of every job.
3. In every state, a payload that has the shape of an answer, whether or not it can be read, leaves what is served, every token
   and the stage of life as they are; it queues nothing, and no job begins.
4. Occasions that differ only in answers of the peer come to the same, for all handlers that do not look at the answers: our side
   makes the same moves, and the connection is the same inside, with the same jobs begun and open, and queues the same. -/
theorem sides_never_interfere (routes : Registry Mode) (catalogue : Catalogue) :
    (∀ (c : Connection) payload m, c.reads payload = .ok m → Message.isResponse payload = m.isReply) ∧
    ((∀ (c : Connection) payload, Message.isResponse payload = false →
        (c.receive payload).1.outgoing = c.outgoing ∧ (c.receive payload).1.expected = c.expected) ∧
      ∀ (c : Connection) j o, (c.complete j o).1.outgoing = c.outgoing ∧ (c.complete j o).1.expected = c.expected) ∧
    (∀ (c : Connection) payload, Message.isResponse payload = true →
      let s := c.receive payload
      s.1.incoming = c.incoming ∧ (∀ t, s.1.isFired t = c.isFired t) ∧ s.1.lifecycle = c.lifecycle ∧
        s.1.exitCode = c.exitCode ∧ s.1.queue = c.queue ∧ s.2 = none) ∧
    ∀ (act : Conduct) occasions occasions', Occasion.unanswered occasions = Occasion.unanswered occasions' →
      let first := start routes catalogue
      let ms := first.play act [] occasions
      let ms' := first.play act [] occasions'
      Move.unanswered ms = Move.unanswered ms' ∧ (first.run ms).inside = (first.run ms').inside ∧
        first.opens ms = first.opens ms' ∧ first.output ms = first.output ms' := by
  refine ⟨fun c payload m h => Message.isResponse_of_decode h, ⟨fun c payload h => ?_, fun c j o => ?_⟩, ?_, ?_⟩
  · have hn := Message.replier?_of_not_isResponse h
    have ht : Message.told (c.reads payload) = none := by rw [Connection.reads, Message.told_decode, hn]
    have hr := Connection.receive_received c payload
    rw [Connection.opened_of_not_told ht] at hr
    refine ⟨?_, hr.expected fun id hid => ?_⟩
    · have hs : c.settlement? (c.reads payload) = none := by
        refine Option.eq_none_iff_forall_ne_some.mpr fun e he => ?_
        rw [Connection.told_of_settlement? he] at ht
        cases ht
      rw [hr.outgoing, hs]
      rfl
    · rw [ht] at hid
      cases hid
  · exact ⟨Connection.complete_outgoing c j o, Connection.complete_expected c j o⟩
  · intro c payload h s
    have hs : s.inside = (c.inside, none) := Connection.inside_receive_of_isResponse h
    have hc : s.1.inside = c.inside := (congrArg Prod.fst hs :)
    have hi : s.1.incoming = c.incoming := (congrArg (·.incoming) hc :)
    exact ⟨hi, fun t => by rw [Connection.isFired, hi]; rfl, (congrArg (·.lifecycle) hc :), (congrArg (·.exitCode) hc :),
      (congrArg (·.queue) hc :), (congrArg Prod.snd hs :)⟩
  · intro act occasions occasions' ho first ms ms'
    have hm : Move.unanswered ms = Move.unanswered ms' :=
      (play_apart act [] rfl occasions).trans (by rw [ho]; exact (play_apart act [] rfl occasions').symm)
    exact ⟨hm, runs_apart rfl hm⟩

/-- In its first turn our side makes a request, and later it ends the jobs that are open. -/
def obliging : Conduct
  | [_] => [.request (.num 1) "sum" .null]
  | v :: _ => v.jobs.map fun _ => .finish 0 (.ok (.bool true))
  | [] => []

/-- A request of the peer, under an id that our side has used. -/
def coinciding : Bytes := (Message.request (.num 1) "slow" .null).encode

/-- Our side has its turn, a request comes, and our side has its turn again. -/
def unhelped : List Occasion := [.turn, .arrival coinciding, .turn]

/-- As `unhelped`, but the peer answers under the id of its own request: with a result, and with an error that cannot be read. -/
def helped : List Occasion :=
  [.turn, .arrival coinciding, .arrival (Message.result (.num 1) .null).encode,
   .arrival (Json.print (.obj [("error", .int 5), ("id", .int 1), ("jsonrpc", .str "2.0")])), .turn]

/-- The answers of `helped` complete the request of our side, and the peer gets the same answer as in `unhelped`. -/
theorem sides_never_interfere_helped :
    let first := start slowRoutes {}
    let ms := first.play obliging [] helped
    let ms' := first.play obliging [] unhelped
    Occasion.unanswered helped = Occasion.unanswered unhelped ∧
    ((first.run ms).connection.outgoing.answer? 0).isSome = true ∧
    ((first.run ms').connection.outgoing.answer? 0).isSome = false ∧
    first.output ms = first.output ms' ∧ (first.output ms').countP (Outbound.isAnswerTo (.num 1)) = 1 := by
  intro first ms ms'
  have ho : Occasion.unanswered helped = Occasion.unanswered unhelped := by decide +kernel
  exact ⟨ho, by decide +kernel, by decide +kernel, ((sides_never_interfere slowRoutes {}).2.2.2 obliging _ _ ho).2.2.2,
    by decide +kernel⟩

end Conversation

end Parley
