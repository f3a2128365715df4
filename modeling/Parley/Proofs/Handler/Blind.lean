import Parley.Demo.Server
import Parley.Proofs.Connection.Behind
import Parley.Proofs.Handler.Lawful

/-!
# Blind handlers

A direct handler gets the whole site that it works at, but what waits for the writer and what was reported are not shown to it: it
can add to both, and it cannot look at either. A handler that does the same behind any items and reports is blind. The operations
of `Site` are, so the handlers that are made of them are; and a handler that is both lawful and blind leaves the writer alone.
-/

namespace Parley

variable {α : Type}

namespace Site

/-- The site with items queued and failures reported before everything else. -/
def behind (site : Site α) (items : List (Outbound Message)) (news : List Report) : Site α :=
  { site with connection := site.connection.behind items news }

/-- The site with nothing queued and nothing reported. -/
def bare (site : Site α) : Site α := { site with connection := site.connection.bare }

/-- A site is what it is with nothing queued and reported, behind what is. -/
theorem bare_behind (site : Site α) : site.bare.behind site.connection.queue site.connection.reports = site :=
  congrArg (fun connection => { site with connection }) site.connection.bare_behind

/-- An action on a site looks neither at what is queued nor at what was reported. -/
def Blind {ρ : Type} (f : Site α → ρ × Site α) : Prop :=
  ∀ site items news, f (site.behind items news) = ((f site).1, (f site).2.behind items news)

/-- Whoever only has a result is blind. -/
theorem blind_result {ρ : Type} (r : ρ) : Blind fun site : Site α => (r, site) := fun _ _ _ => rfl

/-- Whoever sends a notification is blind. -/
theorem blind_notify (method : String) (params : Json) : Blind (notify method params : Site α → Bool × Site α) := by
  intro site items news
  simp only [notify, behind, Connection.behind_notify]

/-- Whoever releases the connection is blind. -/
theorem blind_teardown : Blind fun site : Site α => ((), site.teardown) := by
  intro site items news
  simp only [teardown, behind, Connection.behind_teardown]

/-- What a blind action does is what it does with nothing queued and reported, behind what is. -/
theorem Blind.eq_bare {ρ : Type} {f : Site α → ρ × Site α} (hf : Blind f) (site : Site α) :
    f site = ((f site.bare).1, (f site.bare).2.behind site.connection.queue site.connection.reports) := by
  have hb := hf site.bare site.connection.queue site.connection.reports
  rwa [bare_behind] at hb

end Site

namespace Handler

/-- A direct handler that is blind, whatever the call. -/
def Blind : Handler α → Prop
  | .direct run => ∀ c, Site.Blind (run c)
  | .coroutine _ | .threaded _ => False

/-- Only direct handlers are called blind. -/
theorem Blind.mode {h : Handler α} (hb : h.Blind) : h.mode = .direct := by
  cases h with
  | direct run => rfl
  | coroutine body => exact hb.elim
  | threaded body => exact hb.elim

/-- A direct handler of typed params is blind if it is on params that have been read. -/
theorem blind_directOf {shape : Shape} {run : Call → Json → Site α → Outcome × Site α} (h : ∀ c params, Site.Blind (run c params)) :
    (directOf shape run).Blind := by
  intro c site items news
  cases hr : c.read shape with
  | ok params => simpa [hr] using h c params site items news
  | error f => simp [hr]

end Handler

/-- Every handler of a registry is a direct one that is blind. -/
def Registry.Blind (r : Registry (Handler α)) : Prop := ∀ origin name h, r.find? origin name = some h → h.Blind

namespace Connection

/-- While our side acts, the writer stays, or it goes and what was queued with it. -/
theorem ActsTo.writable {c c' : Connection} (h : c.ActsTo c') : c'.writable = c.writable ∨ c'.queue = [] ∧ c'.writable = false := by
  obtain ⟨ms, hm, hr⟩ := h
  have hrun (v : Conversation) (ms : List Move) (hm : ∀ m ∈ ms, m.isOurs = true ∨ m = .teardown)
      (hv : v.connection.writable = c.writable ∨ v.connection.queue = [] ∧ v.connection.writable = false) :
      (v.run ms).connection.writable = c.writable ∨
        (v.run ms).connection.queue = [] ∧ (v.run ms).connection.writable = false := by
    induction ms generalizing v with
    | nil => exact hv
    | cons m ms ih =>
      refine ih (v.step m) (fun m' hm' => hm m' (List.mem_cons_of_mem _ hm')) ?_
      have hm := hm m List.mem_cons_self
      cases m with
      | receive | finish => simp [Move.isOurs] at hm
      | dropWriter => exact .inr ⟨rfl, rfl⟩
      | take => exact hv.imp id fun h => ⟨by simp [Conversation.step, h.1], h.2⟩
      | report => exact hv
      | request id method params =>
        refine hv.imp (fun h => by simpa [Conversation.step, requestAs_eq] using h) fun h => ?_
        simp only [Conversation.step, requestAs_eq, kept, h, Bool.false_eq_true, if_false, List.nil_append, and_true]
        split <;> rfl
      | _ =>
        exact hv.imp (fun h => by simpa [Conversation.step, notify, cancelRequest_eq, send_eq, teardown, enqueue_eq] using h)
          fun h => by simp [Conversation.step, notify, cancelRequest_eq, send_eq, teardown, enqueue_eq, kept, h]
  have hs := hrun ⟨c, []⟩ ms hm (.inl rfl)
  rw [hr []] at hs
  exact hs

end Connection

/-- A lawful action that is blind leaves the writer alone: if it dropped the writer, what was queued would be gone. -/
theorem Site.Blind.writable {ρ : Type} {f : Site α → ρ × Site α} (hf : Blind f)
    (hl : ∀ site : Site α, site.connection.ActsTo (f site).2.connection) (site : Site α) :
    (f site).2.connection.writable = site.connection.writable := by
  have hw := (hl (site.behind [.close] [])).writable
  rw [hf site [.close] []] at hw
  rcases hw with hw | ⟨hq, -⟩
  · exact hw
  · cases hq

namespace Demo

variable {β : Type}

theorem blind_add : (add : Handler (Served β)).Blind := Handler.blind_directOf fun _ _ => Site.blind_result _

theorem blind_hello : (hello : Handler (Served β)).Blind := Handler.blind_directOf fun _ _ => Site.blind_result _

/-- The reminders are published blindly. -/
theorem blind_publishTodos : (publishTodos : Handler (Served β)).Blind := by
  refine Handler.blind_directOf fun _ params site items news => ?_
  have hn := Site.blind_notify Server.diagnosticsMethod
    (Server.diagnosticsParams ⟨(Document.ofJson (params.valueField "textDocument")).uri⟩
      ((TodoMark.ofText (Document.ofJson (params.valueField "textDocument")).text).map TodoMark.toJson)
      (some (Document.ofJson (params.valueField "textDocument")).version)) site items news
  simp only [hn]

end Demo

end Parley
