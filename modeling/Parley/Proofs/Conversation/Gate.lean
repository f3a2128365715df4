import Parley.Proofs.Conversation.Handles
import Parley.Proofs.Conversation.Stages
import Parley.Proofs.Message.Written

/-!
# After the service has ended

The life of a connection only goes forward, and once it has left the first stage no payload starts anything but the handler of
`exit`. A request is turned down with one answer, or ignored after `exit`; a notification other than `$/cancelRequest` and `exit`
changes nothing; and what the peer answers to requests of ours counts as before (`gate_after_shutdown`).
-/

namespace Parley

/-- How far a stage of life is. -/
def Lifecycle.rank : Lifecycle → Nat
  | .active => 0
  | .shuttingDown => 1
  | .exited => 2

namespace Connection

/-- A request that comes after the service has ended is turned down, or ignored after `exit`. -/
theorem receive_late_request {c : Connection} {payload : Bytes} {id : MessageId} {method : String} {params : Json}
    (hl : c.lifecycle ≠ .active) (hr : c.reads payload = .ok (.request id method params)) :
    c.receive payload =
      ({ c with
        queue := c.queue ++ if c.lifecycle = .shuttingDown then c.kept [.frame (Reply.shuttingDown id)] else [] }, none) := by
  have ho : c.opened payload = c := opened_of_not_told (by rw [hr]; rfl)
  rw [receive_of_ok hr, ho]
  by_cases hx : c.lifecycle = .exited
  · rw [if_pos hx, if_neg (by simp [hx]), List.append_nil]
  · have hs : c.lifecycle = .shuttingDown := by
      cases h : c.lifecycle <;> simp_all
    rw [if_neg hx, if_pos hs, receiveMessage, receiveRequest, if_pos hl, send_eq]

/-- A notification that comes after the service has ended changes nothing, unless it cancels a request or is an `exit`. -/
theorem receive_late_notification {c : Connection} {payload : Bytes} {method : String} {params : Json}
    (hl : c.lifecycle ≠ .active) (hr : c.reads payload = .ok (.notification method params)) (hc : method ≠ cancelMethod)
    (he : method ≠ exitMethod) : c.receive payload = (c, none) := by
  have ho : c.opened payload = c := opened_of_not_told (by rw [hr]; rfl)
  rw [receive_of_ok hr, ho]
  simp [receiveMessage, receiveNotification, hc, he, hl]

/-- Requests and notifications are what asks something of this side. -/
def asksUs : Except DecodeFault Message → Bool
  | .ok (.request ..) | .ok (.notification ..) => true
  | _ => false

/-- What asks nothing of this side does the same at both stages before `exit`. -/
theorem receive_reply_at (c : Connection) {payload : Bytes} (ha : asksUs (c.reads payload) = false)
    (hl : c.lifecycle ≠ .exited) (stage : Lifecycle) (hs : stage ≠ .exited) :
    { c with lifecycle := stage }.receive payload = ({ (c.receive payload).1 with lifecycle := stage }, none) ∧
      (c.receive payload).2 = none := by
  have hr : { c with lifecycle := stage }.reads payload = c.reads payload := rfl
  cases hd : c.reads payload with
  | error f =>
    rw [receive_of_error (hr.trans hd), receive_of_error hd, refuse_eq, refuse_eq]
    refine ⟨?_, rfl⟩
    cases f <;> rfl
  | ok m =>
    rw [hd] at ha
    rw [receive_of_ok (hr.trans hd), receive_of_ok hd, if_neg hs, if_neg hl]
    cases m with
    | request id method params => cases ha
    | notification method params => cases ha
    | result id v => exact ⟨rfl, rfl⟩
    | error id e => cases id <;> exact ⟨rfl, rfl⟩

/-- The only job that a payload opens after the service has ended is that of `exit`. -/
theorem Received.job_of_late {c : Connection} {d : Except DecodeFault Message} {s : Step} (h : Received c d s)
    (hl : c.lifecycle ≠ .active) {j : Job} (hj : s.2 = some j) :
    c.lifecycle = .shuttingDown ∧ j.duty = .exit ∧ j.method = exitMethod ∧
      c.routes.serving? exitMethod = some (j.origin, j.mode) := by
  cases h with
  | begun j ha => exact absurd ha hl
  | @leaving params origin mode he hs =>
    obtain rfl := Option.some.inj hj
    refine ⟨?_, rfl, rfl, hs⟩
    cases hc : c.lifecycle with
    | active => exact absurd hc hl
    | shuttingDown => rfl
    | exited => exact absurd hc he
  | noted job hc he ha hd =>
    have hn : job ≠ none := fun hn => by
      rw [hn] at hj
      cases hj
    exact absurd (ha hn) hl
  | _ => cases hj

end Connection

namespace Conversation

/-- A move never takes the connection back. -/
theorem rank_le_step (v : Conversation) (m : Move) : v.connection.lifecycle.rank ≤ (v.step m).connection.lifecycle.rank := by
  rw [(step_stage v m).1]
  split
  · cases v.connection.lifecycle <;> decide
  · split
    · rename_i h
      rw [h.2]
      decide
    · exact Nat.le_refl _

/-- So no row of moves does. -/
theorem rank_le_run (v : Conversation) (ms : List Move) : v.connection.lifecycle.rank ≤ (v.run ms).connection.lifecycle.rank :=
  run_preserves (P := fun w => v.connection.lifecycle.rank ≤ w.connection.lifecycle.rank)
    (fun w m h => Nat.le_trans h (rank_le_step w m)) ms v (Nat.le_refl _)

/-- A connection that has left the first stage does not come back to it. -/
theorem not_active_run {v : Conversation} (h : v.connection.lifecycle ≠ .active) (ms : List Move) :
    (v.run ms).connection.lifecycle ≠ .active := by
  intro ha
  have hr := rank_le_run v ms
  rw [ha] at hr
  cases hl : v.connection.lifecycle with
  | active => exact h hl
  | shuttingDown | exited =>
    rw [hl] at hr
    exact absurd hr (by decide)

/-- The conversation at another stage of life. -/
def atStage (v : Conversation) (stage : Lifecycle) : Conversation :=
  { v with connection := { v.connection with lifecycle := stage } }

/-- The gate that stands after `shutdown`, at every point of every run, in five parts.
1. The life of the connection only goes forward, whatever comes later.
2. Once it has left the first stage, a request changes nothing but the queue, which gets one answer while the connection is shutting
   down, as long as the writer is there, and none after `exit`.
3. Then a notification changes nothing, unless it cancels a request or is an `exit`.
4. While the connection is shutting down, a payload that asks nothing of this side does what it does before the shutdown; and
   the handle of a request of ours that it settles has the outcome that it carries.
5. The only job that any later payload opens is that of an `exit`, while the connection is shutting down: that of its builtin handler,
   or of the user's if there is no builtin one. -/
theorem gate_after_shutdown (routes : Registry Mode) (catalogue : Catalogue) (ms : List Move) :
    let v := (start routes catalogue).run ms
    (∀ later, v.connection.lifecycle.rank ≤ (v.run later).connection.lifecycle.rank) ∧
    (v.connection.lifecycle ≠ .active → ∀ payload id method params,
      v.connection.reads payload = .ok (.request id method params) →
      v.step (.receive payload) =
        { v with connection := { v.connection with queue := v.connection.queue ++
          if v.connection.lifecycle = .shuttingDown then v.connection.kept [.frame (Reply.shuttingDown id)] else [] } }) ∧
    (v.connection.lifecycle ≠ .active → ∀ payload method params,
      v.connection.reads payload = .ok (.notification method params) → method ≠ Connection.cancelMethod →
      method ≠ Connection.exitMethod → v.step (.receive payload) = v) ∧
    (v.connection.lifecycle = .shuttingDown → ∀ payload, Connection.asksUs (v.connection.reads payload) = false →
      v.step (.receive payload) = ((v.atStage .active).step (.receive payload)).atStage .shuttingDown ∧
      ∀ id r p, v.connection.settlement? (v.connection.reads payload) = some (id, r) →
        v.connection.outgoing.pending.find? id = some p →
        (v.step (.receive payload)).connection.outgoing.answer? p.handle = some (.reply r)) ∧
    (v.connection.lifecycle ≠ .active → ∀ later payload j, (v.run later).begins (.receive payload) = some j →
      (v.run later).connection.lifecycle = .shuttingDown ∧ j.duty = .exit ∧ j.method = Connection.exitMethod ∧
      routes.serving? Connection.exitMethod = some (j.origin, j.mode) ∧
      (routes.find? .builtin Connection.exitMethod = none → j.origin = .user)) := by
  intro v
  refine ⟨rank_le_run v, ?_, ?_, ?_, ?_⟩
  · intro hl payload id method params hr
    have hs := Connection.receive_late_request hl hr
    simp [step, absorb, hs]
  · intro hl payload method params hr hc he
    have hs := Connection.receive_late_notification hl hr hc he
    simp [step, absorb, hs]
  · intro hs payload ha
    refine ⟨?_, fun id r p hset hp => ?_⟩
    -- To go back to the first stage and on again is to stay.
    · have hc : { (v.atStage .active).connection with lifecycle := .shuttingDown } = v.connection := by
        rw [← hs]
        rfl
      have ha : Connection.asksUs ((v.atStage .active).connection.reads payload) = false := ha
      have hat := Connection.receive_reply_at (v.atStage .active).connection ha (by simp [atStage]) .shuttingDown (by simp)
      rw [hc] at hat
      simp only [step, absorb, hat.1, hat.2]
      rfl
    · have hf : v.fate id (.receive payload) = some r := by simp [fate, hset]
      have hsound : v.connection.outgoing.Sound := run_sound Outgoing.sound_empty ms
      exact (step_sound hsound _).answer?_eq_some_iff.mpr (mem_answers_step (by simp [Move.requestId?]) hp hf)
  · intro hl later payload j hb
    have hl : (v.run later).connection.lifecycle ≠ .active := not_active_run hl later
    obtain ⟨hs, hd, hm, ht⟩ := (Connection.receive_received (v.run later).connection payload).job_of_late hl hb
    have hroutes : ((v.run later).connection.opened payload).routes = routes :=
      (routes_run v later).trans (routes_run (start routes catalogue) ms)
    rw [hroutes] at ht
    refine ⟨hs, hd, hm, ht, fun hn => ?_⟩
    rw [Registry.serving?, hn] at ht
    obtain ⟨mode, -, he⟩ := Option.map_eq_some_iff.mp ht
    exact (congrArg Prod.fst he).symm

/-- `exit` has a builtin handler. -/
def builtinExit : Registry Mode := { builtins := ({} : Table String Mode).insert Connection.exitMethod .direct }

/-- A `shutdown`, which ends at once where it has no handler. -/
def closing : List Move := [.receive (Message.request (.num 1) Connection.shutdownMethod .null).encode]

/-- After the `shutdown` of `closing` has ended, an `exit` starts the builtin handler if there is one. And where the writer is gone, a
request gets no answer. -/
theorem gate_lets_builtin_exit_pass :
    ((start builtinExit {}).run closing).connection.lifecycle = .shuttingDown ∧
    (((start builtinExit {}).run closing).begins
      (.receive (Message.notification Connection.exitMethod .null).encode)).map (·.origin) = some .builtin ∧
    ((start {} {}).run (closing ++ [.dropWriter])).connection.lifecycle = .shuttingDown ∧
    (((start {} {}).run (closing ++ [.dropWriter])).step
      (.receive (Message.request (.num 2) "ask" .null).encode)).connection.queue = [] := by
  decide +kernel

/-- After the `shutdown` of `closing` has ended, a request is turned down and leaves what is served as it is. -/
theorem gate_after_shutdown_closing :
    ((start builtinExit {}).run closing).connection.lifecycle ≠ .active ∧
    ((start builtinExit {}).run closing).connection.reads (Message.request (.num 2) "slow" .null).encode =
      .ok (.request (.num 2) "slow" .null) ∧
    (((start builtinExit {}).run closing).step (.receive (Message.request (.num 2) "slow" .null).encode)).connection.incoming =
      ((start builtinExit {}).run closing).connection.incoming := by
  have hl : ((start builtinExit {}).run closing).connection.lifecycle ≠ .active := by decide +kernel
  have hr : ((start builtinExit {}).run closing).connection.reads (Message.request (.num 2) "slow" .null).encode =
      .ok (.request (.num 2) "slow" .null) := by
    rw [Connection.reads, catalogue_run]
    exact congrArg Prod.fst (Message.decode_request (c := {}) (rfl : (MessageId.num 2).IsAccepted) rfl rfl _)
  refine ⟨hl, hr, ?_⟩
  rw [(gate_after_shutdown builtinExit {} closing).2.1 hl _ _ _ _ hr]

end Conversation

end Parley
