import Parley.Proofs.Server.Lawful
import Parley.Proofs.Session.Calls
import Parley.Proofs.Session.Loop

/-!
# What the loop waits for

A payload is done with when the connection has taken it and a direct handler has come to its outcome; the handlers of the other
modes are left to run, with one exception. A builtin handler of a notification has its first turn at once, and the loop waits for
it if it does not end there, whatever its mode (`loop_waits_for_builtins`). So a builtin handler that waits for an answer of the
peer waits for ever: the answer is behind the notification, and the loop does not read it (`loop_waits_for_what_it_would_read`).
-/

namespace Parley

namespace Connection

/-- The payload is a notification that a builtin handler of the mode is called for. -/
def Notifies (c : Connection) (payload : Bytes) (method : String) (mode : Mode) : Prop :=
  (∃ params, c.reads payload = .ok (.notification method params)) ∧ method ≠ cancelMethod ∧ method ≠ exitMethod ∧
    c.lifecycle = .active ∧ c.routes.find? .builtin method = some mode

/-- A notification begins the job of its builtin handler, if it has one. -/
theorem receive_builtin {c : Connection} {payload : Bytes} {method : String} {params : Json} {mode : Mode}
    (hd : c.reads payload = .ok (.notification method params)) (hc : method ≠ cancelMethod) (he : method ≠ exitMethod)
    (hl : c.lifecycle = .active) (hb : c.routes.find? .builtin method = some mode) :
    c.receive payload = (c.opened payload, some ⟨.builtin, .builtin, method, mode, method, params, .connection⟩) := by
  have hb' : (c.opened payload).routes.find? .builtin method = some mode := hb
  simp [receive_of_ok hd, receiveMessage, receiveNotification, receiveFeature, hc, he, hl, hb']

/-- A notification for a builtin handler begins its job. -/
theorem Notifies.receive {c : Connection} {payload : Bytes} {method : String} {mode : Mode}
    (h : c.Notifies payload method mode) :
    ∃ connection j, c.receive payload = (connection, some j) ∧ j.duty = .builtin ∧ j.mode = mode := by
  obtain ⟨⟨params, hd⟩, hc, he, hl, hb⟩ := h
  exact ⟨_, _, receive_builtin hd hc he hl hb, rfl, rfl⟩

/-- The job of a builtin handler of a notification begins with no other payload. -/
theorem notifies_of_receive {c connection : Connection} {payload : Bytes} {j : Job}
    (h : c.receive payload = (connection, some j)) (hj : j.duty = .builtin) : ∃ method, c.Notifies payload method j.mode := by
  have hr := receive_received c payload
  cases hd : c.reads payload with
  | error f =>
    rw [receive_of_error hd] at h
    cases h
  | ok m =>
    rw [h, hd] at hr
    rw [receive_of_ok hd] at h
    cases hr with
    | begun _ ha hb ht hm hn =>
      rcases ht with ⟨-, -, ht, -⟩ | ⟨-, -, ht⟩ <;> simp [hj] at ht
    | leaving => cases hj
    | @noted method params _ hc he hl hd' =>
      have ha : c.lifecycle = .active := hl (by simp)
      refine ⟨method, ⟨params, hd⟩, hc, he, ha, ?_⟩
      have ha : c.lifecycle = .active := ha
      rw [if_neg (by simp [ha])] at h
      simp only [receiveMessage, receiveNotification, hc, he, opened_lifecycle, ha, ne_eq, not_true, if_false,
        receiveFeature] at h
      split at h
      · rename_i mode hb
        obtain ⟨-, h⟩ := Prod.mk.inj h
        obtain rfl := Option.some.inj h
        exact hb
      · -- the user's handler has a duty of its own
        obtain ⟨-, h⟩ := Prod.mk.inj h
        obtain ⟨mode, -, rfl⟩ := Option.map_eq_some_iff.mp h
        cases hj

end Connection

namespace Session

variable {α : Type}

theorem fibers_enqueue (s : Session α) (a : Actor) : (s.enqueue a).fibers = s.fibers := by
  unfold enqueue
  split <;> rfl

theorem handlers_rouse (s : Session α) : s.rouse.handlers = s.handlers := (onward_rouse s).handlers

theorem nextFiber_rouse (s : Session α) : s.rouse.nextFiber = s.nextFiber := (onward_rouse s).nextFiber

/-- The loop waits for a fiber exactly if it is that of a builtin handler of a notification, of another mode than direct, which
has not ended in its first turn. -/
theorem receive_waits_iff (s : Session α) (payload : Bytes) (n : Nat) :
    (s.receive payload).2 = some n ↔
      n = s.nextFiber ∧ (s.receive payload).1.fibers.contains n = true ∧
        ∃ method mode, s.site.connection.Notifies payload method mode ∧ mode ≠ .direct := by
  constructor
  · intro h
    unfold receive at h ⊢
    cases hr : s.site.connection.receive payload with
    | mk connection job =>
      cases job with
      | none => simp [hr] at h
      | some j =>
        simp only [hr] at h ⊢
        by_cases hm : j.mode = .direct
        · simp [hm] at h
        · rw [if_neg hm] at h ⊢
          by_cases hb : j.duty = .builtin
          · have hl : j.isInline = true := by simp [Job.isInline, hb]
            simp only [hl, if_true] at h ⊢
            split at h
            · rename_i hf
              obtain rfl := Option.some.inj h
              obtain ⟨method, hn⟩ := Connection.notifies_of_receive hr hb
              exact ⟨nextFiber_rouse _, hf, method, j.mode, hn, hm⟩
            · cases h
          · simp [Job.isInline, hm, hb] at h
  · rintro ⟨rfl, hf, method, mode, hn, hm⟩
    obtain ⟨connection, j, hr, hb, rfl⟩ := hn.receive
    have hl : j.isInline = true := by simp [Job.isInline, hb]
    have hnext : (s.withConnection connection).rouse.nextFiber = s.nextFiber := nextFiber_rouse _
    simp only [receive, hr, hm, hl, hnext, if_true, if_false] at hf ⊢
    rw [if_pos hf]

/-- The other handlers that are not direct are left to run: the call waits for its turn, and nothing of it has been done. -/
theorem receive_leaves {s : Session α} {payload : Bytes} {connection : Connection} {j : Job}
    (hr : s.site.connection.receive payload = (connection, some j)) (hm : j.mode ≠ .direct) (hb : j.duty ≠ .builtin) :
    (s.receive payload).2 = none ∧ (s.receive payload).1.site = { s.site with connection } ∧
      (s.receive payload).1.fibers.find? s.nextFiber = some (s.fiberOf j) ∧
      .fiber s.nextFiber ∈ (s.receive payload).1.ready := by
  have hl : j.isInline = false := by simp [Job.isInline, hm, hb]
  have hnext : (s.withConnection connection).rouse.nextFiber = s.nextFiber := nextFiber_rouse _
  have hf : (s.withConnection connection).rouse.fiberOf j = s.fiberOf j := by
    unfold fiberOf
    rw [handlers_rouse, withConnection]
  have hs : s.receive payload = ((s.withConnection connection).rouse.spawn (s.fiberOf j), none) := by
    simp [receive, hr, hm, hl, hf]
  rw [hs]
  refine ⟨rfl, ?_, ?_, ?_⟩
  · simp only [spawn, site_enqueue, store, site_rouse, withConnection]
  · simp only [spawn, fibers_enqueue, hnext]
    exact find?_store_self _ _ _
  · simp only [spawn, hnext]
    exact mem_ready_enqueue _ _

end Session

namespace Server

variable {β : Type}

/-- Of the builtin features of a server, only the handler of `initialize` is not direct. -/
theorem eq_initialize_of_mem_builtins {config : Config} {method : String} {h : Handler (Served β)}
    (hm : (method, h) ∈ builtins config) (hd : h.mode ≠ .direct) : method = initializeMethod := by
  simp only [builtins, List.mem_cons, Prod.mk.injEq, List.not_mem_nil, or_false] at hm
  rcases hm with ⟨rfl, -⟩ | ⟨-, rfl⟩ | ⟨-, rfl⟩ | ⟨-, rfl⟩ | ⟨-, rfl⟩ | ⟨-, rfl⟩ | ⟨-, rfl⟩
  · rfl
  all_goals exact absurd rfl hd

end Server

namespace Session

/-- What the loop waits for, in every state of a session and on the connections of a server, in four parts.
1. The loop waits behind a payload exactly if this is a notification that a builtin handler of another mode than direct is called
   for, and the call has not ended in its first turn; the fiber is the one that began with the payload.
2. Every other handler that a payload calls and that is not direct is left to run: the loop does not wait, the call waits for its
   turn, and nothing has become of the site but what the connection made of the payload.
3. Whatever happens while the loop waits for a fiber, the loop waits on and takes nothing of what arrives, until the fiber is gone.
4. On a connection of a server, whatever its user has registered, the notification is `initialize`. -/
theorem loop_waits_for_builtins {α β : Type} (s : Session α) :
    (∀ payload n, (s.receive payload).2 = some n ↔
      n = s.nextFiber ∧ (s.receive payload).1.fibers.contains n = true ∧
        ∃ method mode, s.site.connection.Notifies payload method mode ∧ mode ≠ .direct) ∧
    (∀ payload connection j, s.site.connection.receive payload = (connection, some j) → j.mode ≠ .direct →
      j.duty ≠ .builtin →
      (s.receive payload).2 = none ∧ (s.receive payload).1.site = { s.site with connection } ∧
        (s.receive payload).1.fibers.find? s.nextFiber = some (s.fiberOf j) ∧
        .fiber s.nextFiber ∈ (s.receive payload).1.ready) ∧
    (∀ n s', s.intake = .busy n → Ticks s s' → (s'.intake = .busy n ∧ s.source.Grows s'.source) ∨
      ∃ v, Ticks s v ∧ Ticks v s' ∧ v.fibers.find? n = none ∧ v.intake = .busy n ∧ s.source.Grows v.source) ∧
    ∀ (server : Server β) handlers, server.connectionRegistry = .ok handlers →
      ∀ t : Session (Served β), t.site.connection.routes = handlers.map Handler.mode →
      ∀ payload n, (t.receive payload).2 = some n →
        ∃ mode, t.site.connection.Notifies payload Server.initializeMethod mode := by
  refine ⟨s.receive_waits_iff, fun payload connection j => receive_leaves, fun n s' hi h => h.waits hi, ?_⟩
  intro server handlers hr t ht payload n hw
  obtain ⟨-, -, method, mode, hn, hm⟩ := (t.receive_waits_iff payload n).mp hw
  have hroute := hn.2.2.2.2
  rw [ht, Registry.find?_map] at hroute
  obtain ⟨h, hf, rfl⟩ := Option.map_eq_some_iff.mp hroute
  rcases Server.find?_connectionRegistry hr hf with hb | hu
  · obtain rfl := Server.eq_initialize_of_mem_builtins hb hm
    exact ⟨h.mode, hn⟩
  · exact absurd rfl (Registry.exists_of_find?_asUsers hu).1

/-- A builtin handler that asks the peer something. -/
def askingHandlers : Registry (Handler Unit) :=
  { builtins := ({} : Table String (Handler Unit)).insert "note"
      (.coroutine fun _ => Routine.call "client/ask" .null fun _ => .done (.ok .null)) }

/-- The notification that it is called for. -/
def askingNote : Bytes := (Message.notification "note" .null).encode

/-- The notification has come, and the handler has asked. -/
def asking : Session Unit := (((make askingHandlers {} 1 ()).start (.queue [])).feed askingNote).run 1

/-- The loop of `asking` waits for the fiber that the notification begins. -/
theorem loop_waits_for_builtins_asking :
    let s := make askingHandlers {} 1 ()
    s.site.connection.Notifies askingNote "note" .coroutine ∧ (s.receive askingNote).2 = some 0 ∧ asking.intake = .busy 0 := by
  intro s
  have hn : s.site.connection.Notifies askingNote "note" .coroutine := ⟨⟨.null, rfl⟩, by decide, by decide, rfl, rfl⟩
  have hw := ((loop_waits_for_builtins (β := Unit) s).1 askingNote 0).mpr ⟨rfl, rfl, "note", .coroutine, hn, by decide⟩
  exact ⟨hn, hw, rfl⟩

/-- The answer to the request of the handler. -/
def awaitedAnswer : Bytes := (Message.result (Connection.mintedId 0) (.bool true)).encode

/-- The loop waits for a coroutine that waits for an answer. The answer has arrived, nobody else has anything to do, and the loop
does not read it. -/
theorem loop_waits_for_what_it_would_read :
    ((asking.fibers.find? 0).bind fun f => f.job.map (·.mode)) = some .coroutine ∧
    let later := (asking.feed awaitedAnswer).run 100
    later.ready = [] ∧ later.running = [] ∧ later.intake = .busy 0 ∧
    later.source.next.map (·.1) = some (.payload awaitedAnswer) ∧ later.answer? 0 = none :=
  ⟨rfl, rfl, rfl, rfl, rfl, rfl⟩

end Session

end Parley
