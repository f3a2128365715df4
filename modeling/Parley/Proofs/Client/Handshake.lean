import Parley.Client.Caller
import Parley.Proofs.Session.Discreet
import Parley.Proofs.Session.Waiting

/-!
# The handshake of a client

A handshake asks, records what the server can do when it accepts the answer, and only then says so to the server. So a client is
initialized exactly if an answer was accepted, and if the writer is gone by then it is, although the handshake fails
(`initialized_iff_accepted`, `initialized_by_failed_handshake`). `Client.Course` says how far a handshake has come, whatever else
happens; it is kept at each step, because nothing but the turn of its call changes what the client keeps for its calls.
-/

namespace Parley

variable {α γ : Type}

/-! ## Calls of no job -/

/-- A fiber goes on with a routine on its own: here, for no job and for no caller. -/
structure Fiber.Alone (r : Routine α) (f : Fiber α) : Prop where
  job : f.job = none
  guarded : f.guarded = false
  place : f.place = .here
  routine : f.routine = r
  callers : f.callers = []

/-- What was given to a fiber does not matter. -/
theorem Fiber.Alone.of_bare {r : Routine α} {f f' : Fiber α} (h : f.Alone r) (hb : f'.bare = f.bare) : f'.Alone r := by
  obtain ⟨hj, hg, hp, hr, hc⟩ := h
  simp only [bare, Fiber.mk.injEq] at hb
  obtain ⟨hj', -, hg', hp', hr', hc', -⟩ := hb
  exact ⟨hj'.trans hj, hg'.trans hg, hp'.trans hp, hr'.trans hr, hc'.trans hc⟩

namespace Session

variable {view : α → γ} {s : Session α} {n : Nat} {f : Fiber α}

/-- A routine that begins on its own has a fiber to itself. -/
theorem exists_fiber_begin (s : Session α) (r : Routine α) :
    ∃ f, (s.begin r).fibers.find? s.nextFiber = some f ∧ f.Alone r := by
  refine ⟨{ job := none, call := ⟨none, "", .connection, .null⟩, routine := r }, ?_, ⟨rfl, rfl, rfl, rfl, rfl⟩⟩
  rw [begin, spawn, fibers_enqueue]
  exact find?_store_self s s.nextFiber _

/-- To begin leaves the site as it is. -/
theorem site_begin (s : Session α) (r : Routine α) : (s.begin r).site = s.site := by
  rw [begin, spawn, site_enqueue]
  rfl

/-- A call that begins where all calls are discreet is the one exception. -/
theorem Discreet.spawn (hd : s.Discreet view none) (f : Fiber α) : (s.spawn f).Discreet view (some s.nextFiber) := by
  have hs : s.Discreet view (some s.nextFiber) := ⟨hd.handlers, fun n f hf _ => hd.calls n f hf (by simp)⟩
  obtain ⟨hq, -⟩ := Leaves.store s s.nextFiber (f := f) (fun _ hn => absurd rfl hn) hs
  have hq : Session.Discreet view (some s.nextFiber) { s.store s.nextFiber f with nextFiber := s.nextFiber + 1 } :=
    ⟨hq.handlers, hq.calls⟩
  exact hq.onward (onward_enqueue _ _)

/-- Where a routine acts, the turn goes on at the site that is left behind. -/
theorem drive_act {update : Site α → Site α} {next : Site α → Routine α} (hp : f.place = .here)
    (hr : f.routine = .act update next) (s : Session α) (fuel n : Nat) :
    ∃ s₁ : Session α, s₁.site = update s.site ∧
      s.drive (fuel + 1) n f = s₁.drive fuel n { f with routine := next s.site } := by
  refine ⟨_, site_rouse { s with site := update s.site }, ?_⟩
  rw [drive, node]
  simp only [hp, hr]

/-- A call of no job that comes to wait at its turn waits as it is. -/
theorem driveFiber_waits {s' : Session α} {f' : Fiber α} (hg : f.guarded = false)
    (hd : s.drive turnBound n f = (s', .waits f')) : s.driveFiber n f = s'.park n f' := by
  simp only [driveFiber, hg, Bool.false_and, Bool.false_eq_true, if_false, hd]

/-- A call of no job that comes to its end at its turn is gone. -/
theorem driveFiber_ends {s' : Session α} {o : Outcome} (hg : f.guarded = false) (hj : f.job = none)
    (hd : s.drive turnBound n f = (s', .ends o)) : s.driveFiber n f = s'.without n := by
  simp only [driveFiber, hg, Bool.false_and, Bool.false_eq_true, if_false, hd, hj]
  rfl

end Session

namespace Client

variable {β : Type}

/-- What a client keeps for its calls, which is out of reach for its handlers: what the server can do, and the replies. -/
def account (c : Client β) : Option Json × List (Nat × ClientReply) := (c.serverCapabilities, c.replies)

/-- The site where the reply to a call is kept. -/
def kept (number : Nat) (r : ClientReply) (s : Site (Client β)) : Site (Client β) :=
  { s with own := { s.own with replies := s.own.replies ++ [(number, r)] } }

/-- The handshake behind an accepted answer, which has been recorded. -/
def announce (next : ClientReply → Routine (Client β)) (result : Json) : Routine (Client β) :=
  .acting (Site.notify "initialized" (Json.object [])) fun sent => next (if sent then .ok result else .error (.peer .closed))

/-- The handshake behind the answer to its request. -/
def accept (next : ClientReply → Routine (Client β)) (a : PeerReply) : Routine (Client β) :=
  match a.typed Schema.initializeResult with
  | .ok result => .act (recordServer result) fun _ => announce next result
  | .error f => next (.error (.peer f))

theorem handshake_eq (params : Json) (next : ClientReply → Routine (Client β)) :
    handshake params next =
      .act id fun s =>
        if s.own.isInitialized then next (.error .alreadyInitialized) else .call "initialize" params (accept next) := rfl

/-- How a handshake ends whose request has got an answer: the site, the reply, and the site that is left behind. -/
inductive Returns (a : PeerReply) (s : Site (Client β)) : ClientReply → Site (Client β) → Prop
  /-- The answer is not accepted. -/
  | refused {f : PeerFailure} (ha : a.typed Schema.initializeResult = .error f) : Returns a s (.error (.peer f)) s
  /-- The answer is accepted, and `initialized` is queued. -/
  | accepted {result : Json} (ha : a.typed Schema.initializeResult = .ok result) (hw : s.connection.writable = true) :
    Returns a s (.ok result)
      { recordServer result s with connection := s.connection.send (.notification "initialized" (Json.object [])) }
  /-- The answer is accepted, and the writer is gone. -/
  | unsaid {result : Json} (ha : a.typed Schema.initializeResult = .ok result) (hw : s.connection.writable = false) :
    Returns a s (.error (.peer .closed)) (recordServer result s)

variable {s : Session (Client β)} {n number handle : Nat} {f : Fiber (Client β)} {a : PeerReply}

/-- The reply is kept, and that is the end. -/
theorem drive_keepReply {r : ClientReply} (hp : f.place = .here) (hc : f.callers = [])
    (hr : f.routine = Caller.keepReply number r) (s : Session (Client β)) (fuel n : Nat) :
    ∃ s', s.drive (fuel + 2) n f = (s', .ends (.ok .null)) ∧ s'.site = kept number r s.site := by
  obtain ⟨s₁, hs₁, hd₁⟩ := Session.drive_act hp hr s (fuel + 1) n
  exact ⟨s₁, hd₁.trans (Session.drive_done (f := { f with routine := .done (.ok .null) }) hp rfl hc _ _ _), hs₁⟩

/-- An accepted answer is announced, and the reply is kept. -/
theorem drive_announce {result : Json} (hp : f.place = .here) (hc : f.callers = [])
    (hr : f.routine = announce (Caller.keepReply number) result) (s : Session (Client β)) (fuel n : Nat) :
    ∃ s', s.drive (fuel + 3) n f = (s', .ends (.ok .null)) ∧
      s'.site = kept number (if s.site.connection.writable then .ok result else .error (.peer .closed))
        { s.site with connection := s.site.connection.send (.notification "initialized" (Json.object [])) } := by
  obtain ⟨s₁, hs₁, hd₁⟩ := Session.drive_act hp hr s (fuel + 2) n
  obtain ⟨s₂, hd₂, hs₂⟩ := drive_keepReply (f := { f with routine := Caller.keepReply number _ }) hp hc rfl s₁ fuel n
  rw [hs₁] at hs₂
  exact ⟨s₂, hd₁.trans hd₂, hs₂⟩

/-- Behind the answer the handshake comes to its end. -/
theorem drive_accept (hp : f.place = .here) (hc : f.callers = []) (hr : f.routine = accept (Caller.keepReply number) a)
    (s : Session (Client β)) (fuel n : Nat) :
    ∃ s' r site, s.drive (fuel + 4) n f = (s', .ends (.ok .null)) ∧ Returns a s.site r site ∧
      s'.site = kept number r site := by
  unfold accept at hr
  cases ha : a.typed Schema.initializeResult with
  | error e =>
    rw [ha] at hr
    obtain ⟨s', hd, hs⟩ := drive_keepReply hp hc hr s (fuel + 2) n
    exact ⟨s', _, _, hd, .refused ha, hs⟩
  | ok result =>
    rw [ha] at hr
    obtain ⟨s₁, hs₁, hd₁⟩ := Session.drive_act hp hr s (fuel + 3) n
    obtain ⟨s₂, hd₂, hs₂⟩ :=
      drive_announce (f := { f with routine := announce (Caller.keepReply number) result }) hp hc rfl s₁ fuel n
    have hconnection : s₁.site.connection = s.site.connection := by
      rw [hs₁]
      rfl
    refine ⟨s₂, _, _, hd₁.trans hd₂, ?_, hs₂⟩
    rw [hconnection, hs₁]
    cases hw : s.site.connection.writable with
    | true => exact .accepted ha hw
    | false =>
      have hlost : s.site.connection.send (.notification "initialized" (Json.object [])) = s.site.connection := by
        simp [Connection.send, Connection.enqueue, hw]
      rw [hlost]
      exact .unsaid ha hw

/-- A handshake that has asked waits at its turn until its answer is there, and then it comes to its end. -/
theorem drive_asked (hp : f.place = .here) (hc : f.callers = [])
    (hr : f.routine = .reply handle (accept (Caller.keepReply number))) (s : Session (Client β)) (fuel n : Nat) :
    (s.answer? handle = none ∧ s.drive (fuel + 5) n f = (s, .waits f)) ∨
      ∃ s' a r site, s.answer? handle = some a ∧ s.drive (fuel + 5) n f = (s', .ends (.ok .null)) ∧
        Returns a s.site r site ∧ s'.site = kept number r site := by
  cases ha : s.answer? handle with
  | none =>
    refine .inl ⟨rfl, ?_⟩
    rw [Session.drive, Session.node]
    simp only [hp, hr, ha]
  | some a =>
    have hd : s.drive (fuel + 5) n f = s.drive (fuel + 4) n { f with routine := accept (Caller.keepReply number) a } := by
      rw [Session.drive, Session.node]
      simp only [hp, hr, ha]
    obtain ⟨s', r, site, hd', hreturns, hs'⟩ :=
      drive_accept (f := { f with routine := accept (Caller.keepReply number) a }) hp hc rfl s fuel n
    exact .inr ⟨s', a, r, site, rfl, hd.trans hd', hreturns, hs'⟩

/-- At its first turn a handshake is refused, or asks. -/
theorem drive_handshake {params : Json} (hp : f.place = .here) (hc : f.callers = [])
    (hr : f.routine = handshake params (Caller.keepReply number)) (s : Session (Client β)) (fuel n : Nat) :
    (s.site.own.isInitialized = true ∧ ∃ s', s.drive (fuel + 7) n f = (s', .ends (.ok .null)) ∧
      s'.site = kept number (.error .alreadyInitialized) s.site) ∨
    s.site.own.isInitialized = false ∧ ∃ s₁ : Session (Client β), s₁.site = (s.site.request "initialize" params).2 ∧
      s.drive (fuel + 7) n f = s₁.drive (fuel + 5) n
        { f with routine := .reply (s.site.request "initialize" params).1 (accept (Caller.keepReply number)) } := by
  rw [handshake_eq] at hr
  obtain ⟨s₁, hs₁, hd₁⟩ := Session.drive_act hp hr s (fuel + 6) n
  rw [id_eq] at hs₁
  cases hi : s.site.own.isInitialized with
  | true =>
    simp only [hi, if_true] at hd₁
    obtain ⟨s₂, hd₂, hs₂⟩ :=
      drive_keepReply (f := { f with routine := Caller.keepReply number (.error .alreadyInitialized) }) hp hc rfl s₁ (fuel + 4) n
    rw [hs₁] at hs₂
    exact .inl ⟨rfl, s₂, hd₁.trans hd₂, hs₂⟩
  | false =>
    simp only [hi, Bool.false_eq_true, if_false] at hd₁
    obtain ⟨s₂, hs₂, hd₂⟩ := Session.drive_act
      (f := { f with routine := .call "initialize" params (accept (Caller.keepReply number)) }) hp rfl s₁ (fuel + 5) n
    rw [hs₁] at hs₂ hd₂
    exact .inr ⟨rfl, s₂, hs₂, hd₁.trans hd₂⟩

/-! ## The course of a handshake -/

open Session (Discreet Meanwhile Proceeds Underway)

/-- On the way from the beginning of a handshake to a later state its request has got an answer, and its call has ended. The site is
where the answer is found, or comes with the request itself; the other is what the end leaves behind. -/
def Concludes (params : Json) (first t : Session (Client β)) (a : PeerReply) (site behind : Site (Client β)) : Prop :=
  ∃ v u w, Meanwhile account first v ∧ Meanwhile account v u ∧ Proceeds account u w ∧ Meanwhile account w t ∧
    (site = u.site ∨ u = v ∧ site = (v.site.request "initialize" params).2) ∧
    (site.connection.outgoing.answer? (v.site.request "initialize" params).1).map Answer.toReply = some a ∧ w.site = behind

/-- How far a handshake has come that was begun as the call of a fiber, and whose reply is kept under a number. -/
inductive Course (params : Json) (number n : Nat) (first t : Session (Client β)) : Prop where
  /-- It waits for its first turn. -/
  | begun {f : Fiber (Client β)} (hf : t.fibers.find? n = some f)
      (hb : f.Alone (handshake params (Caller.keepReply number))) (hd : t.Discreet account (some n))
      (hv : account t.site.own = account first.site.own)
  /-- It waits for the answer to its request. -/
  | asked {v : Session (Client β)} {f : Fiber (Client β)} (hl : Meanwhile account first v) (hl' : Meanwhile account v t)
      (hi : first.site.own.isInitialized = false) (hf : t.fibers.find? n = some f)
      (hb : f.Alone (.reply (v.site.request "initialize" params).1 (accept (Caller.keepReply number))))
      (hd : t.Discreet account (some n)) (hv : account t.site.own = account first.site.own)
  /-- It was refused. -/
  | refused (hi : first.site.own.isInitialized = true) (hn : t.Discreet account none)
      (hv : account t.site.own =
        (first.site.own.serverCapabilities, first.site.own.replies ++ [(number, .error .alreadyInitialized)]))
  /-- It has ended behind the answer. -/
  | ended {a : PeerReply} {r : ClientReply} {site site' : Site (Client β)} (hi : first.site.own.isInitialized = false)
      (hc : Concludes params first t a site (kept number r site')) (hs : account site.own = account first.site.own)
      (hr : Returns a site r site') (hd : t.Discreet account none)
      (hv : account t.site.own = (site'.own.serverCapabilities, first.site.own.replies ++ [(number, r)]))

/-- A handshake keeps its reply and changes no other. -/
theorem Returns.replies {s s' : Site (Client β)} {r : ClientReply} (h : Returns a s r s') : s'.own.replies = s.own.replies := by
  cases h <;> rfl

variable {params : Json} {handlers : Registry (Handler (Client β))} {catalogue : Catalogue} {first t t' : Session (Client β)}

/-- The end of a handshake at the turn of its call. -/
theorem Course.of_ends {v u : Session (Client β)} {r : ClientReply} {site site' : Site (Client β)}
    (hl : Meanwhile account first v) (hl' : Meanwhile account v u) (hi : first.site.own.isInitialized = false)
    (hv : account u.site.own = account first.site.own) (hs : Proceeds account u t)
    (hsite : site = u.site ∨ u = v ∧ site = (v.site.request "initialize" params).2)
    (ha : (site.connection.outgoing.answer? (v.site.request "initialize" params).1).map Answer.toReply = some a)
    (hr : Returns a site r site') (hd : t.Discreet account none) (ht : t.site = kept number r site') :
    Course params number n first t := by
  have hown : account site.own = account first.site.own := by
    rcases hsite with rfl | ⟨rfl, rfl⟩ <;> exact hv
  have hreplies : site'.own.replies = first.site.own.replies := hr.replies.trans (congrArg Prod.snd hown)
  refine .ended hi ⟨v, u, t, hl, hl', hs, .refl, hsite, ha, ht⟩ hown hr hd ?_
  rw [ht, account, kept, hreplies]

/-- At its first turn a handshake is refused, or asks and then waits or comes to its end. -/
theorem Course.begun_turn {f : Fiber (Client β)} (hf : t.fibers.find? n = some f)
    (hb : f.Alone (handshake params (Caller.keepReply number))) (hd : t.Discreet account (some n))
    (hv : account t.site.own = account first.site.own) (hu : Underway handlers catalogue t) (hw : Meanwhile account first t)
    (hr : .fiber n ∈ t.ready) : Course params number n first ((t.taken (.fiber n)).driveFiber n f) := by
  have hs : Proceeds account t ((t.taken (.fiber n)).driveFiber n f) := .turn hr hf
  have hd' : Discreet account (some n) ((t.taken (.fiber n)).driveFiber n f) :=
    Discreet.driveFiber (s := t.taken (.fiber n)) ⟨hd.handlers, hd.calls⟩ hu.follows.handlers (hu.follows.fiber hf).1 hb.job
  have hinit : t.site.own.isInitialized = first.site.own.isInitialized := congrArg (fun v => v.1.isSome) hv
  rcases drive_handshake hb.place hb.callers hb.routine (t.taken (.fiber n)) 999993 n with
    ⟨hi, s', he, hsite⟩ | ⟨hi, s₁, hs₁, he⟩
  · have hends := Session.driveFiber_ends hb.guarded hb.job he
    rw [hends] at hd' ⊢
    refine .refused (hinit.symm.trans hi) (hd'.of_gone (Session.find?_without_self s' n)) ?_
    have hkept : (s'.without n).site = kept number (.error .alreadyInitialized) t.site := hsite
    have hreplies : t.site.own.replies = first.site.own.replies := congrArg Prod.snd hv
    have hcapabilities : t.site.own.serverCapabilities = first.site.own.serverCapabilities := congrArg Prod.fst hv
    simp only [hkept, account, kept, hreplies, hcapabilities]
  · -- The answer may be there as soon as the handshake has asked.
    have hi : first.site.own.isInitialized = false := hinit.symm.trans hi
    have hv₁ : account s₁.site.own = account first.site.own := by
      rw [hs₁]
      exact hv
    let asking : Fiber (Client β) :=
      { f with routine := .reply (t.site.request "initialize" params).1 (accept (Caller.keepReply number)) }
    rcases drive_asked (f := asking) hb.place hb.callers rfl s₁ 999993 n with
      ⟨-, he'⟩ | ⟨s', a, r, site, ha, he', hreturns, hsite⟩
    · have hwaits := Session.driveFiber_waits hb.guarded (he.trans he')
      rw [hwaits] at hs hd' ⊢
      exact .asked hw (.single hs) hi (Session.find?_store_self _ _ _) ⟨hb.job, hb.guarded, hb.place, rfl, hb.callers⟩ hd' hv₁
    · have hends := Session.driveFiber_ends hb.guarded hb.job (he.trans he')
      rw [hends] at hs hd' ⊢
      exact .of_ends hw .refl hi hv hs (.inr ⟨rfl, hs₁⟩) ha hreturns (hd'.of_gone (Session.find?_without_self s' n)) hsite

/-- A handshake that has asked waits at its turn, or comes to its end. -/
theorem Course.asked_turn {v : Session (Client β)} {f : Fiber (Client β)} (hl : Meanwhile account first v)
    (hl' : Meanwhile account v t) (hi : first.site.own.isInitialized = false) (hf : t.fibers.find? n = some f)
    (hb : f.Alone (.reply (v.site.request "initialize" params).1 (accept (Caller.keepReply number))))
    (hd : t.Discreet account (some n)) (hv : account t.site.own = account first.site.own)
    (hu : Underway handlers catalogue t) (hr : .fiber n ∈ t.ready) :
    Course params number n first ((t.taken (.fiber n)).driveFiber n f) := by
  have hs : Proceeds account t ((t.taken (.fiber n)).driveFiber n f) := .turn hr hf
  have hd' : Discreet account (some n) ((t.taken (.fiber n)).driveFiber n f) :=
    Discreet.driveFiber (s := t.taken (.fiber n)) ⟨hd.handlers, hd.calls⟩ hu.follows.handlers (hu.follows.fiber hf).1 hb.job
  rcases drive_asked hb.place hb.callers hb.routine (t.taken (.fiber n)) 999995 n with
    ⟨-, he⟩ | ⟨s', a, r, site, ha, he, hreturns, hsite⟩
  · have hwaits := Session.driveFiber_waits hb.guarded he
    rw [hwaits] at hs hd' ⊢
    exact .asked hl (hl'.tail hs) hi (Session.find?_store_self _ _ _) hb hd' hv
  · have hends := Session.driveFiber_ends hb.guarded hb.job he
    rw [hends] at hs hd' ⊢
    exact .of_ends hl hl' hi hv hs (.inl rfl) ha hreturns (hd'.of_gone (Session.find?_without_self s' n)) hsite

/-- At each step a handshake stays where it is or goes on. -/
theorem Course.step (h : Course params number n first t) (hu : Underway handlers catalogue t) (hw : Meanwhile account first t)
    (hs : Proceeds account t t') : Course params number n first t' := by
  cases h with
  | @begun f hf hb hd hv =>
    rcases hs.cases hu hd hf hb.place with ⟨hd', hv', f', hf', hb'⟩ | ⟨hr, rfl⟩
    · exact .begun hf' (hb.of_bare hb') hd' (hv'.trans hv)
    · exact .begun_turn hf hb hd hv hu hw hr
  | @asked v f hl hl' hi hf hb hd hv =>
    rcases hs.cases hu hd hf hb.place with ⟨hd', hv', f', hf', hb'⟩ | ⟨hr, rfl⟩
    · exact .asked hl (hl'.tail hs) hi hf' (hb.of_bare hb') hd' (hv'.trans hv)
    · exact .asked_turn hl hl' hi hf hb hd hv hu hr
  | refused hi hd hv =>
    obtain ⟨hd', hv'⟩ := Meanwhile.leaves (.single hs) hd
    exact .refused hi hd' (hv'.trans hv)
  | ended hi hc hown hr hd hv =>
    obtain ⟨hd', hv'⟩ := Meanwhile.leaves (.single hs) hd
    obtain ⟨v, u, w, hl, hl', hn, hlast, rest⟩ := hc
    exact .ended hi ⟨v, u, w, hl, hl', hn, hlast.tail hs, rest⟩ hown hr hd' (hv'.trans hv)

/-- So it is after any number of steps. -/
theorem Course.meanwhile (h : Course params number n first first) (hu : Underway handlers catalogue first)
    (hw : Meanwhile account first t) : Course params number n first t := by
  induction hw with
  | refl => exact h
  | tail hw hs ih => exact ih.step (hu.later (Meanwhile.later hw)) hw hs

/-- A handshake whose reply is kept is lawful. -/
theorem lawful_handshake_kept (params : Json) (number : Nat) :
    (handshake params (Caller.keepReply number) : Routine (Client β)).Lawful :=
  lawful_handshake fun _ => ⟨fun _ => .refl _, fun _ => trivial⟩

/-- A handshake that begins where all calls are discreet takes its course, whatever happens meanwhile. -/
theorem course_begin (hu : Underway handlers catalogue s) (hd : s.Discreet account none) (params : Json) (number : Nat)
    (hw : Meanwhile account (s.begin (handshake params (Caller.keepReply number))) t) :
    Course params number s.nextFiber (s.begin (handshake params (Caller.keepReply number))) t := by
  obtain ⟨f, hf, ha⟩ := Session.exists_fiber_begin s (handshake params (Caller.keepReply number))
  have hfirst : Course params number s.nextFiber _ (s.begin (handshake params (Caller.keepReply number))) :=
    .begun hf ha (hd.spawn _) rfl
  exact hfirst.meanwhile (hu.next (.aside (.begin s (lawful_handshake_kept params number)))) hw

/-- Whether a client is initialized is in its account. -/
theorem isInitialized_of_account {c c' : Client β} (h : account c = account c') : c.isInitialized = c'.isInitialized :=
  congrArg (fun v => v.1.isSome) h

/-- A handshake that has had an answer leaves the client initialized exactly if the answer was accepted, and it returns the result
exactly if the writer was there as well. -/
theorem Returns.isInitialized {site site' : Site (Client β)} {r : ClientReply} (h : Returns a site r site')
    (hi : site.own.isInitialized = false) :
    (site'.own.isInitialized = true ↔ (a.typed Schema.initializeResult).isOk = true) ∧
      (r.isOk = true ↔ site'.own.isInitialized = true ∧ site.connection.writable = true) := by
  cases h with
  | refused ha => simp [ha, hi, Except.isOk, Except.toBool]
  | accepted ha hw => simp [ha, hw, Except.isOk, Except.toBool, recordServer, Client.isInitialized]
  | unsaid ha hw => simp [ha, hw, Except.isOk, Except.toBool, recordServer, Client.isInitialized]

/-- The reply that is kept last under a number of its own is found there. -/
theorem lookup_of_account {c : Client β} {v : Option Json} {replies : List (Nat × ClientReply)} {r : ClientReply}
    (hn : replies.lookup number = none) (hv : account c = (v, replies ++ [(number, r)])) :
    c.replies.lookup number = some r := by
  rw [show c.replies = replies ++ [(number, r)] from congrArg Prod.snd hv, List.lookup_append, hn]
  simp

/-- When a handshake has its reply, it is done with: it was refused, or it has ended behind an answer. -/
theorem Course.of_reply {r : ClientReply} (h : Course params number n first t) (hn : first.site.own.replies.lookup number = none)
    (hr : t.site.own.replies.lookup number = some r) :
    t.Discreet account none ∧
      ((first.site.own.isInitialized = true ∧ r = .error .alreadyInitialized ∧
        t.site.own.serverCapabilities = first.site.own.serverCapabilities) ∨
      first.site.own.isInitialized = false ∧ ∃ a site site', Concludes params first t a site (kept number r site') ∧
        site.own.isInitialized = false ∧ Returns a site r site' ∧
        t.site.own.serverCapabilities = site'.own.serverCapabilities) := by
  have same (hv : account t.site.own = account first.site.own) : False := by
    rw [show t.site.own.replies = first.site.own.replies from congrArg Prod.snd hv, hn] at hr
    cases hr
  have last {c : Option Json} {r' : ClientReply} (hv : account t.site.own = (c, first.site.own.replies ++ [(number, r')])) :
      t.site.own.serverCapabilities = c ∧ r' = r :=
    ⟨congrArg Prod.fst hv, Option.some.inj ((lookup_of_account hn hv).symm.trans hr)⟩
  cases h with
  | begun _ _ _ hv => exact (same hv).elim
  | asked _ _ _ _ _ _ hv => exact (same hv).elim
  | refused hi hd hv =>
    obtain ⟨hc, rfl⟩ := last hv
    exact ⟨hd, .inl ⟨hi, rfl, hc⟩⟩
  | @ended a r' site site' hi hc hown hreturns hd hv =>
    obtain ⟨hcapabilities, rfl⟩ := last hv
    exact ⟨hd, .inr ⟨hi, a, site, site', hc, (isInitialized_of_account hown).trans hi, hreturns, hcapabilities⟩⟩

/-- As long as a handshake has no reply it is in progress, and the server has said nothing. -/
theorem Course.of_no_reply (h : Course params number n first t) (hn : first.site.own.replies.lookup number = none)
    (hr : t.site.own.replies.lookup number = none) :
    (∃ f, t.fibers.find? n = some f) ∧ t.site.own.serverCapabilities = first.site.own.serverCapabilities := by
  cases h with
  | begun hf _ _ hv => exact ⟨⟨_, hf⟩, congrArg Prod.fst hv⟩
  | asked _ _ _ hf _ _ hv => exact ⟨⟨_, hf⟩, congrArg Prod.fst hv⟩
  | refused _ _ hv => exact absurd ((lookup_of_account hn hv).symm.trans hr) (Option.some_ne_none _)
  | ended _ _ _ _ _ hv => exact absurd ((lookup_of_account hn hv).symm.trans hr) (Option.some_ne_none _)

/-- What a handshake comes to, in five parts. The handlers of the client have no part in what it keeps for its calls, and no other
call is in progress when the handshake begins; from then on anything may happen, in whatever order: the server answers or does
not, the connection is released, the writer goes.
1. As long as the handshake has no reply it is in progress, and whether the client is initialized is as before.
2. A client that is initialized refuses the handshake, and stays as it is.
3. Of a client that is not, a handshake that has its reply has asked and found an answer. If the answer is not accepted, the reply
   is why, and nothing is recorded. If it is, what the server can do is recorded; then the reply is the result, with `initialized`
   queued, as long as the writer is there, and else that the connection is closed. So behind the reply the client is initialized
   exactly if the answer was accepted, and the reply is the result exactly if the client is initialized and the writer was there.
4. The next handshake is refused because the client is initialized exactly if it is.
5. What the client does by itself is among what is spoken of. -/
theorem initialized_iff_accepted {handlers : Registry (Handler (Client β))} {catalogue : Catalogue} (hh : handlers.Lawful)
    {s : Session (Client β)} (h : Session.Reachable handlers catalogue s) (hd : s.Discreet account none) (params : Json)
    (number : Nat) (hn : s.site.own.replies.lookup number = none) :
    let first := s.begin (handshake params (Caller.keepReply number))
    (∀ t, Meanwhile account first t → t.site.own.replies.lookup number = none →
      (∃ f, t.fibers.find? s.nextFiber = some f) ∧ t.site.own.serverCapabilities = s.site.own.serverCapabilities) ∧
    (∀ t r, Meanwhile account first t → t.site.own.replies.lookup number = some r → s.site.own.isInitialized = true →
      r = .error .alreadyInitialized ∧ t.site.own.serverCapabilities = s.site.own.serverCapabilities) ∧
    (∀ t r, Meanwhile account first t → t.site.own.replies.lookup number = some r → s.site.own.isInitialized = false →
      ∃ a site site', Concludes params first t a site (kept number r site') ∧ Returns a site r site' ∧
        t.site.own.serverCapabilities = site'.own.serverCapabilities ∧
        (t.site.own.isInitialized = true ↔ (a.typed Schema.initializeResult).isOk = true) ∧
        (r.isOk = true ↔ t.site.own.isInitialized = true ∧ site.connection.writable = true)) ∧
    (∀ t r, Meanwhile account first t → t.site.own.replies.lookup number = some r →
      ∀ params' number' t' r', t.site.own.replies.lookup number' = none →
        Meanwhile account (t.begin (handshake params' (Caller.keepReply number'))) t' →
        t'.site.own.replies.lookup number' = some r' →
        (r' = .error .alreadyInitialized ↔ t.site.own.isInitialized = true)) ∧
    ∀ t, Meanwhile account first t → ∀ fuel, Meanwhile account first (t.run fuel) := by
  intro first
  have hu := h.underway hh
  have hsite : first.site = s.site := Session.site_begin s _
  have hn' : first.site.own.replies.lookup number = none := hsite ▸ hn
  -- All parts read off how far the handshake has come in a later state.
  have course (t : Session (Client β)) (hw : Meanwhile account first t) : Course params number s.nextFiber first t :=
    course_begin hu hd params number hw
  refine ⟨fun t hw hr => ?_, fun t r hw hr hi => ?_, fun t r hw hr hi => ?_,
    fun t r hw hr params' number' t' r' hnew hw' hr' => ?_, fun t hw fuel => hw.trans (Session.spansRun_meanwhile.run t fuel)⟩
  · rw [← hsite]
    exact (course t hw).of_no_reply hn' hr
  · rw [← hsite] at hi ⊢
    rcases ((course t hw).of_reply hn' hr).2 with ⟨-, hreply, hc⟩ | ⟨hi', -⟩
    · exact ⟨hreply, hc⟩
    · rw [hi] at hi'
      cases hi'
  · rw [← hsite] at hi
    rcases ((course t hw).of_reply hn' hr).2 with ⟨hi', -⟩ | ⟨-, a, site, site', hc, hnot, hreturns, hcapabilities⟩
    · rw [hi] at hi'
      cases hi'
    · obtain ⟨haccepted, hok⟩ := hreturns.isInitialized hnot
      have hinit : t.site.own.isInitialized = site'.own.isInitialized := congrArg Option.isSome hcapabilities
      rw [← hinit] at haccepted hok
      exact ⟨a, site, site', hc, hreturns, hcapabilities, haccepted, hok⟩
  · have hdone := ((course t hw).of_reply hn' hr).1
    have hfirst : Underway handlers catalogue first := hu.next (.aside (.begin s (lawful_handshake_kept params number)))
    have hcourse := course_begin (hfirst.later (Meanwhile.later hw)) hdone params' number' hw'
    have hsite' := Session.site_begin t (handshake params' (Caller.keepReply number'))
    rw [← hsite'] at hnew ⊢
    rcases (hcourse.of_reply hnew hr').2 with ⟨hi, hreply, -⟩ | ⟨hi, a, site, site', -, -, hreturns, -⟩
    · exact ⟨fun _ => hi, fun _ => hreply⟩
    · rw [hi]
      refine ⟨fun hreply => ?_, nofun⟩
      subst hreply
      cases hreturns

/-- A client begins where sessions begin. -/
theorem reachable_connect (handlers : Registry (Handler (Client β))) (own : β) (source : Source) (framed : Bool) :
    Session.Reachable handlers Catalogue.languageServer (connect handlers own source framed) :=
  ((Session.Reachable.make _ _).outfit framed _).start source

/-- When a client is connected no call is in progress. -/
theorem discreet_connect {handlers : Registry (Handler (Client β))} (hd : handlers.Discreet account) (own : β) (source : Source)
    (framed : Bool) : (connect handlers own source framed).Discreet account none := by
  have hs : Session.Discreet account none
      { Session.make handlers Catalogue.languageServer defaultWorkers { own } with
        framed, sink := some {}, intake := .reading, source } := ⟨hd, fun n f hf => by cases hf⟩
  exact hs.onward (Session.onward_enqueue _ _)

/-- A client without handlers. -/
def plainClient : Session (Client Unit) := connect {} () (.queue []) true

/-- The server can do nothing in particular. -/
def plainAnswer : Bytes := (Message.result (Connection.mintedId 0) (Json.object [("capabilities", Json.object [])])).encode

/-- The client has asked, the server has stopped reading, which the writer has noticed, and then the server has answered. -/
def acceptedTooLate : Session (Client Unit) :=
  let asked := (plainClient.begin (handshake .null (Caller.keepReply 0))).run 10
  (((asked.sever.act (Site.notify "note" .null)).2.run 10).feed plainAnswer).run 10

theorem meanwhile_acceptedTooLate :
    Meanwhile account (plainClient.begin (handshake .null (Caller.keepReply 0))) acceptedTooLate := by
  have hrun (s : Session (Client Unit)) : Meanwhile account s (s.run 10) := Session.spansRun_meanwhile.run s 10
  have hact (s : Session (Client Unit)) : Proceeds account s (s.act (Site.notify "note" .null)).2 :=
    Session.proceeds_act (Connection.actsTo_notify _ _ _) rfl
  have hlost (s : Session (Client Unit)) :
      Meanwhile account s ((((s.sever.act (Site.notify "note" .null)).2.run 10).feed plainAnswer).run 10) :=
    .head (Session.proceeds_sever s) (.head (hact s.sever) ((hrun _).trans (.head (Session.proceeds_feed _ _) (hrun _))))
  exact (hrun _).trans (hlost _)

/-- In `acceptedTooLate` the answer was accepted where the writer was gone. -/
theorem initialized_iff_accepted_acceptedTooLate :
    let first := plainClient.begin (handshake .null (Caller.keepReply 0))
    Session.Reachable {} Catalogue.languageServer plainClient ∧ plainClient.Discreet account none ∧
      Meanwhile account first acceptedTooLate ∧
      ∃ a site site', Concludes .null first acceptedTooLate a site (kept 0 (.error (.peer .closed)) site') ∧
        (a.typed Schema.initializeResult).isOk = true ∧ site.connection.writable = false := by
  intro first
  have hnone (origin : Origin) (name : String) (h : Handler (Client Unit)) : ({} : Registry _).find? origin name ≠ some h := by
    cases origin <;> nofun
  have hh : ({} : Registry (Handler (Client Unit))).Lawful := fun origin name h hf => absurd hf (hnone origin name h)
  have hr : Session.Reachable {} Catalogue.languageServer plainClient := reachable_connect {} () _ true
  have hd : plainClient.Discreet account none :=
    discreet_connect (fun origin name h hf => absurd hf (hnone origin name h)) () _ true
  obtain ⟨-, -, hends, -⟩ := initialized_iff_accepted hh hr hd .null 0 rfl
  obtain ⟨a, site, site', hc, -, -, haccepted, hok⟩ :=
    hends acceptedTooLate (.error (.peer .closed)) meanwhile_acceptedTooLate rfl rfl
  have hinit : acceptedTooLate.site.own.isInitialized = true := by decide +kernel
  refine ⟨hr, hd, meanwhile_acceptedTooLate, a, site, site', hc, haccepted.mp hinit, Bool.eq_false_iff.mpr fun hw => ?_⟩
  exact Bool.false_ne_true (hok.mpr ⟨hinit, hw⟩)

/-- A handshake that fails may leave the client initialized, and then the next one is refused: in `acceptedTooLate` the client was not
initialized before, and its handshake has failed because the connection is closed. -/
theorem initialized_by_failed_handshake :
    plainClient.site.own.isInitialized = false ∧
    Meanwhile account (plainClient.begin (handshake .null (Caller.keepReply 0))) acceptedTooLate ∧
    acceptedTooLate.site.own.replies.lookup 0 = some (.error (.peer .closed)) ∧
    acceptedTooLate.site.own.isInitialized = true ∧
    ((acceptedTooLate.begin (handshake .null (Caller.keepReply 1))).run 10).site.own.replies.lookup 1 =
      some (.error .alreadyInitialized) :=
  ⟨rfl, meanwhile_acceptedTooLate, rfl, by decide +kernel, rfl⟩

end Client

end Parley
