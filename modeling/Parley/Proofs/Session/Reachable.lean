import Parley.Proofs.Conversation.Exit
import Parley.Proofs.Conversation.Handles
import Parley.Proofs.Session.Course

/-!
# Reachable sessions

The states that a session can come to, whatever happens to it from outside and however long it goes on in between, and what is
true of all of them because it is true after every run of a conversation.
-/

namespace Parley

namespace Session

variable {α : Type}

/-- The states of a session with these handlers. What acts on it from outside acts as our side may. -/
inductive Reachable (handlers : Registry (Handler α)) (catalogue : Catalogue) : Session α → Prop
  | make (workers : Nat) (own : α) : Reachable handlers catalogue (make handlers catalogue workers own)
  | outfit {s} (h : Reachable handlers catalogue s) (framed : Bool) (sink : Option Sink) :
    Reachable handlers catalogue { s with framed, sink }
  | start {s} (h : Reachable handlers catalogue s) (source : Source) : Reachable handlers catalogue (s.start source)
  | feed {s} (h : Reachable handlers catalogue s) (bytes : Bytes) : Reachable handlers catalogue (s.feed bytes)
  | close {s} (h : Reachable handlers catalogue s) : Reachable handlers catalogue s.close
  | fail {s} (h : Reachable handlers catalogue s) (f : Frame.FrameFault) : Reachable handlers catalogue (s.fail f)
  | stop {s} (h : Reachable handlers catalogue s) : Reachable handlers catalogue s.stop
  | release {s} (h : Reachable handlers catalogue s) (name : String) : Reachable handlers catalogue (s.release name)
  | act {s} (h : Reachable handlers catalogue s) {ρ : Type} (f : Site α → ρ × Site α)
    (hf : ∀ site : Site α, site.connection.ActsTo (f site).2.connection) : Reachable handlers catalogue (s.act f).2
  | begin {s} (h : Reachable handlers catalogue s) (r : Routine α) (hr : r.Lawful) : Reachable handlers catalogue (s.begin r)
  | takeQueue {s} (h : Reachable handlers catalogue s) : Reachable handlers catalogue s.takeQueue.2
  | dropWriter {s} (h : Reachable handlers catalogue s) : Reachable handlers catalogue s.dropWriter
  | sever {s} (h : Reachable handlers catalogue s) : Reachable handlers catalogue s.sever
  | run {s} (h : Reachable handlers catalogue s) (fuel : Nat) : Reachable handlers catalogue (s.run fuel)
  | passTime {s} (h : Reachable handlers catalogue s) (fuel moment : Nat) :
    Reachable handlers catalogue (passTime fuel moment s)

theorem onward_nudge (s : Session α) : Onward s s.nudge := by
  unfold nudge
  split
  · exact onward_enqueue s _
  · exact .refl s

/-- Where only the source differs, the loop looks at it. -/
theorem onward_source (s : Session α) (source : Source) : Onward s { s with source }.nudge := by
  have hs : Onward s { s with source } := .of_eq rfl rfl rfl rfl rfl rfl rfl
  exact hs.trans (onward_nudge _)

theorem onward_release (s : Session α) (name : String) : Onward s (s.release name) := by
  have hs : Onward s { s with latches := name :: s.latches } := .of_eq rfl rfl rfl rfl rfl rfl rfl
  exact hs.trans ((onward_addPermit _ name).trans (onward_rouse _))

variable {handlers : Registry (Handler α)} {catalogue : Catalogue} {s : Session α}

/-- A session comes to each of its states by steps. -/
theorem Reachable.later (h : Reachable handlers catalogue s) :
    ∃ workers own, Later (Session.make handlers catalogue workers own) s := by
  have on {s s' : Session α} (hs : Later s s') :
      (∃ workers own, Later (Session.make handlers catalogue workers own) s) →
        ∃ workers own, Later (Session.make handlers catalogue workers own) s' :=
    fun ⟨workers, own, h⟩ => ⟨workers, own, h.trans hs⟩
  induction h with
  | make workers own => exact ⟨workers, own, .refl⟩
  | @outfit s h framed sink ih =>
    have hs : Onward s { s with framed, sink } := .of_eq rfl rfl rfl rfl rfl rfl rfl
    exact on hs.later ih
  | @start s h source ih =>
    have hs : Onward s { s with intake := .reading, source } := .of_eq rfl rfl rfl rfl rfl rfl rfl
    exact on (hs.trans (onward_enqueue _ _)).later ih
  | @feed s h bytes ih =>
    refine on ?_ ih
    unfold Session.feed
    split
    · exact .single (.aside (.receive s bytes))
    · exact (onward_source s _).later
  | @close s h ih => exact on (onward_source s _).later ih
  | @fail s h f ih => exact on (onward_source s _).later ih
  | @stop s h ih =>
    have hs : Onward s { s with stopping := true } := .of_eq rfl rfl rfl rfl rfl rfl rfl
    exact on (hs.trans (onward_rouse _)).later ih
  | @release s h name ih => exact on (onward_release s name).later ih
  | @act s h ρ f hf ih => exact on (onward_site (hf s.site)).later ih
  | @begin s h r hr ih => exact on (.single (.aside (.begin s hr))) ih
  | @takeQueue s h ih =>
    have hs : Onward s s.takeQueue.2 := .of_actsTo (Connection.actsTo_takeAll _) rfl rfl rfl rfl rfl rfl
    exact on hs.later ih
  | @dropWriter s h ih =>
    have hs : Onward s s.dropWriter := .of_actsTo (Connection.actsTo_dropWriter _) rfl rfl rfl rfl rfl rfl
    exact on hs.later ih
  | @sever s h ih =>
    have hs : Onward s s.sever := .of_eq rfl rfl rfl rfl rfl rfl rfl
    exact on hs.later ih
  | @run s h fuel ih => exact on (later_run s fuel) ih
  | @passTime s h fuel moment ih => exact on (later_passTime s fuel moment) ih

/-- A session follows the conversation that begins with the modes of its handlers. -/
theorem Reachable.follows (h : Reachable handlers catalogue s) (hh : handlers.Lawful) :
    Follows (Conversation.start (handlers.map Handler.mode) catalogue) [] s := by
  obtain ⟨workers, own, hl⟩ := h.later
  have hm : Follows (Conversation.start (handlers.map Handler.mode) catalogue) []
      (Session.make handlers catalogue workers own) := by
    refine ⟨[], rfl, .refl _, hh, fun n f hf => ?_⟩
    cases hf
  exact hm.later hl

/-- What holds after every run of a conversation holds of the connection of every session. -/
theorem Reachable.of_run {P : Connection → Prop} (h : Reachable handlers catalogue s) (hh : handlers.Lawful)
    (hp : ∀ ms, P ((Conversation.start (handlers.map Handler.mode) catalogue).run ms).connection) : P s.site.connection := by
  obtain ⟨ms, hc, -⟩ := h.follows hh
  exact hc ▸ hp ms

/-- The code of a session is recorded when the last stage is reached and not before, and it is 0 or 1. -/
theorem Reachable.recorded (h : Reachable handlers catalogue s) (hh : handlers.Lawful) :
    (s.site.connection.exitCode = none ∧ s.site.connection.lifecycle ≠ .exited) ∨
      (s.site.connection.lifecycle = .exited ∧
        (s.site.connection.exitCode = some 0 ∨ s.site.connection.exitCode = some 1)) := by
  refine h.of_run hh (P := fun c => (c.exitCode = none ∧ c.lifecycle ≠ .exited) ∨
    (c.lifecycle = .exited ∧ (c.exitCode = some 0 ∨ c.exitCode = some 1))) fun ms => ?_
  exact Conversation.Recorded.run (.inl ⟨rfl, by simp [Conversation.start]⟩) ms

/-- Each request of a session's own has its one answer, or waits for it. -/
theorem Reachable.sound (h : Reachable handlers catalogue s) (hh : handlers.Lawful) : s.site.connection.outgoing.Sound :=
  h.of_run hh (P := fun c => c.outgoing.Sound) fun ms => Conversation.run_sound Outgoing.sound_empty ms

/-- Until the connection is released, the requests being served are those that the fibers answer, and no two fibers answer the
same. -/
theorem Follows.serves {routes : Registry Mode} (h : Follows (Conversation.start routes catalogue) [] s)
    (ho : s.site.connection.outgoing.closed = false) :
    (∀ id, s.site.connection.incoming.contains id = true ↔ ∃ j ∈ s.jobs, j.duty.id? = some id) ∧
      (s.jobs.filterMap (·.duty.id?)).Nodup := by
  obtain ⟨ms, hc, hj, -⟩ := h
  have hm : .teardown ∉ ms := by
    intro hm
    rw [hc, Conversation.closed_of_teardown hm] at ho
    cases ho
  have ht := (Conversation.Tied.start routes catalogue).run hm
  rw [List.nil_append] at hj
  refine ⟨fun id => ?_, (hj.filterMap _).nodup_iff.mp ht.nodup⟩
  rw [hc]
  constructor
  · intro hi
    obtain ⟨j, hm, hd⟩ := ht.exists_job hi
    exact ⟨j, hj.mem_iff.mp hm, hd⟩
  · rintro ⟨j, hm, hd⟩
    obtain ⟨n, -, hf⟩ := ht.find? (hj.mem_iff.mpr hm) hd
    exact Incoming.contains_eq_true_iff.mpr ⟨n, hf⟩

/-- So it is in every state that a session can come to. -/
theorem Reachable.serves (h : Reachable handlers catalogue s) (hh : handlers.Lawful)
    (ho : s.site.connection.outgoing.closed = false) :
    (∀ id, s.site.connection.incoming.contains id = true ↔ ∃ j ∈ s.jobs, j.duty.id? = some id) ∧
      (s.jobs.filterMap (·.duty.id?)).Nodup :=
  (h.follows hh).serves ho

end Session

end Parley
