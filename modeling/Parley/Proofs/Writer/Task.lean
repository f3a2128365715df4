import Parley.Writer.Task

/-!
# Order and closure

Whatever happens around a writer, in whatever order: its calls of the sink are writes of what was queued, whole and in order, up to the
first request to close or the first write that fails, and then a single call that closes the sink (`Writer.Task.Faithful`). What is
accepted after a request to close, or after the failure, stays in the queue for good. The states that a writer can be in are listed by
`Writer.Task.Course`, which each event keeps (`Course.step`).
-/

namespace Parley

variable {β : Type}

/-- The frames that are queued before the first request to close. -/
def Outbound.due : List (Outbound β) → List β
  | [] | .close :: _ => []
  | .frame b :: rest => b :: due rest

theorem Outbound.due_frames_append (bs : List β) (rest : List (Outbound β)) :
    due (bs.map .frame ++ rest) = bs ++ due rest := by
  induction bs with
  | nil => rfl
  | cons b bs ih => simp [due, ih]

/-- What is queued behind a request to close is never due. -/
theorem Outbound.due_append_of_close_mem {queue : List (Outbound β)} (h : Outbound.close ∈ queue) (later : List (Outbound β)) :
    due (queue ++ later) = due queue := by
  induction queue with
  | nil => cases h
  | cons x queue ih =>
    cases x with
    | close => rfl
    | frame b =>
      have hm : Outbound.close ∈ queue := by simpa using h
      simp [due, ih hm]

/-- Only what was queued is due. -/
theorem Outbound.mem_of_mem_due {queue : List (Outbound β)} {b : β} (h : b ∈ due queue) : .frame b ∈ queue := by
  induction queue with
  | nil => cases h
  | cons x queue ih =>
    cases x with
    | close => cases h
    | frame b' =>
      rcases List.mem_cons.mp h with rfl | h
      · exact List.mem_cons_self
      · exact List.mem_cons_of_mem _ (ih h)

/-- Without such a request every frame is due. -/
theorem Outbound.mem_due {queue : List (Outbound β)} (h : Outbound.close ∉ queue) {b : β} (hb : .frame b ∈ queue) :
    b ∈ due queue := by
  induction queue with
  | nil => cases hb
  | cons x queue ih =>
    cases x with
    | close => exact absurd List.mem_cons_self h
    | frame b' =>
      rcases List.mem_cons.mp hb with he | hb
      · cases he
        exact List.mem_cons_self
      · exact List.mem_cons_of_mem _ (ih (fun hc => h (List.mem_cons_of_mem _ hc)) hb)

namespace Sink.Call

/-- The frame that was written. -/
def wrote? : Call β → Option β
  | .wrote b => some b
  | .failed _ | .closed _ => none

/-- The frame whose write failed. -/
def failed? : Call β → Option β
  | .failed b => some b
  | .wrote _ | .closed _ => none

/-- How closing went. -/
def closed? : Call β → Option Bool
  | .closed ok => some ok
  | .wrote _ | .failed _ => none

end Sink.Call

namespace Writer

/-- What an event is to queue. -/
def Event.outbound? : Event β → Option (Outbound β)
  | .send b => some (.frame b)
  | .close => some .close
  | .clone | .drop | .advance _ => none

/-- The writer goes on. -/
def Event.isAdvance : Event β → Bool
  | .advance _ => true
  | .send _ | .close | .clone | .drop => false

namespace Task

/-- The frames that were written, in the order of the writes. -/
def written (t : Task β) : List β := t.calls.filterMap Sink.Call.wrote?

/-- The frames that could not be written. -/
def failures (t : Task β) : List β := t.calls.filterMap Sink.Call.failed?

/-- How each call that closes the sink went. -/
def closings (t : Task β) : List Bool := t.calls.filterMap Sink.Call.closed?

/-- The frame that the sink is to write. -/
def inHand (t : Task β) : List β :=
  match t.phase with
  | .writing b => [b]
  | .receiving | .leaving | .closing | .finished => []

/-- What an event queues, if there is a sender and the queue is open. -/
def accepts (t : Task β) (e : Event β) : List (Outbound β) :=
  if t.senders ≠ 0 ∧ t.isOpen = true then e.outbound?.toList else []

/-- All that is queued by some events, one after another. -/
def accepted (t : Task β) : List (Event β) → List (Outbound β)
  | [] => []
  | e :: events => t.accepts e ++ (t.step e).accepted events

/-! ## The states of a writer -/

/-- Why a writer takes no more, when all this was queued and it has written so much of it; with the frame that it could not write. -/
inductive Stopped (queued : List (Outbound β)) (written : List β) (senders : Nat) : Option β → Prop
  /-- The next was a request to close. -/
  | asked (later : List (Outbound β)) : queued = written.map .frame ++ .close :: later → Stopped queued written senders none
  /-- The next could not be written. -/
  | failed (b : β) (later : List (Outbound β)) :
    queued = written.map .frame ++ .frame b :: later → Stopped queued written senders (some b)
  /-- There was nothing more, and nobody is left to queue anything. -/
  | abandoned : senders = 0 → queued = written.map .frame → Stopped queued written senders none

/-- The states in which a writer can be when all this was queued for it. -/
inductive Course (queued : List (Outbound β)) : Task β → Prop
  | receiving (senders : Nat) (written : List β) (queue : List (Outbound β)) :
    queued = written.map .frame ++ queue → Course queued ⟨senders, queue, .receiving, written.map .wrote⟩
  | writing (senders : Nat) (written : List β) (b : β) (queue : List (Outbound β)) :
    queued = written.map .frame ++ .frame b :: queue → Course queued ⟨senders, queue, .writing b, written.map .wrote⟩
  | leaving (senders : Nat) (written : List β) (failed : Option β) (queue : List (Outbound β)) :
    Stopped queued written senders failed →
    Course queued ⟨senders, queue, .leaving, written.map .wrote ++ failed.toList.map .failed⟩
  | closing (senders : Nat) (written : List β) (failed : Option β) :
    Stopped queued written senders failed →
    Course queued ⟨senders, [], .closing, written.map .wrote ++ failed.toList.map .failed⟩
  | finished (senders : Nat) (written : List β) (failed : Option β) (ok : Bool) :
    Stopped queued written senders failed →
    Course queued ⟨senders, [], .finished, written.map .wrote ++ failed.toList.map .failed ++ [.closed ok]⟩

variable {queued : List (Outbound β)} {t : Task β}

/-- What is queued later does not change why the writer stopped; a writer that was left alone stays so. -/
theorem Stopped.later {written : List β} {senders : Nat} {failed : Option β} (h : Stopped queued written senders failed)
    (more : List (Outbound β)) (hm : senders = 0 → more = []) : Stopped (queued ++ more) written senders failed := by
  cases h with
  | asked later hq => exact .asked (later ++ more) (by simp [hq])
  | failed b later hq => exact .failed b (later ++ more) (by simp [hq])
  | abandoned hs hq => exact .abandoned hs (by simp [hq, hm hs])

/-- The number of senders only matters where it is zero, and then it stays zero. -/
theorem Stopped.senders {written : List β} {senders senders' : Nat} {failed : Option β}
    (h : Stopped queued written senders failed) (hs : senders = 0 → senders' = 0) : Stopped queued written senders' failed := by
  cases h with
  | asked later hq => exact .asked later hq
  | failed b later hq => exact .failed b later hq
  | abandoned h0 hq => exact .abandoned (hs h0) hq

/-- How many senders there are does not say where the writer is. -/
theorem Course.withSenders (h : Course queued t) (senders : Nat) (hs : t.senders = 0 → senders = 0) :
    Course queued { t with senders } := by
  cases h with
  | receiving _ written queue hq => exact .receiving senders written queue hq
  | writing _ written b queue hq => exact .writing senders written b queue hq
  | leaving _ written failed queue hp => exact .leaving senders written failed queue (hp.senders hs)
  | closing _ written failed hp => exact .closing senders written failed (hp.senders hs)
  | finished _ written failed ok hp => exact .finished senders written failed ok (hp.senders hs)

/-- What is put into an open queue stands behind all that was queued. -/
theorem Course.enqueue (h : Course queued t) (hs : t.senders ≠ 0) (ho : t.isOpen = true) (items : List (Outbound β)) :
    Course (queued ++ items) { t with queue := t.queue ++ items } := by
  cases h with
  | receiving senders written queue hq => exact .receiving senders written (queue ++ items) (by simp [hq])
  | writing senders written b queue hq => exact .writing senders written b (queue ++ items) (by simp [hq])
  | leaving senders written failed queue hp =>
    exact .leaving senders written failed (queue ++ items) (hp.later items fun h0 => absurd h0 hs)
  | closing | finished => cases ho

/-- What is pushed is put into the queue if that is open. -/
theorem Course.push (h : Course queued t) (x : Outbound β) (hs : t.senders ≠ 0) :
    Course (queued ++ if t.isOpen then [x] else []) (t.push x).2 := by
  cases ho : t.isOpen with
  | true => simpa [Task.push, ho] using h.enqueue hs ho [x]
  | false => simpa [Task.push, ho] using h

/-- The writer goes on to the next of its states. -/
theorem Course.advance (h : Course queued t) (ok : Bool) : Course queued (t.advance ok) := by
  cases h with
  | receiving senders written queue hq =>
    cases queue with
    | nil =>
      by_cases hs : senders = 0
      · have hp : Stopped queued written senders none := .abandoned hs (by simpa using hq)
        simpa [Task.advance, hs] using Course.leaving senders written none [] hp
      · simpa [Task.advance, hs] using Course.receiving senders written [] hq
    | cons x queue =>
      cases x with
      | frame b => exact .writing senders written b queue hq
      | close => simpa [Task.advance] using Course.leaving senders written none queue (.asked queue hq)
  | writing senders written b queue hq =>
    cases ok with
    | true => simpa [Task.advance] using Course.receiving senders (written ++ [b]) queue (by simp [hq])
    | false => exact .leaving senders written (some b) queue (.failed b queue hq)
  | leaving senders written failed queue hp => exact .closing senders written failed hp
  | closing senders written failed hp => exact .finished senders written failed ok hp
  | finished senders written failed ok' hp => exact .finished senders written failed ok' hp

/-- Each event leads to one of the states, when what it queues is counted. -/
theorem Course.step (h : Course queued t) (e : Event β) : Course (queued ++ t.accepts e) (t.step e) := by
  by_cases hs : t.senders = 0
  · have ha : t.accepts e = [] := if_neg (by simp [hs])
    rw [ha, List.append_nil]
    cases e with
    | send b => simpa [Task.step, hs] using h
    | close => simpa [Task.step, hs] using h
    | clone => simpa [Task.step, hs] using h
    | drop => exact h.withSenders _ (by omega)
    | advance ok => exact h.advance ok
  · have ha : t.accepts e = if t.isOpen then e.outbound?.toList else [] := by simp [accepts, hs]
    rw [ha]
    cases e with
    | send b => simpa [Task.step, hs, Task.send, Event.outbound?] using h.push (.frame b) hs
    | close => simpa [Task.step, hs, Task.close, Event.outbound?] using h.push .close hs
    | clone => simpa [Task.step, hs, Event.outbound?] using h.withSenders (t.senders + 1) (by omega)
    | drop => simpa [Task.step, Event.outbound?] using h.withSenders (t.senders - 1) (by omega)
    | advance ok => simpa [Task.step, Event.outbound?] using h.advance ok

/-- Events keep a task on its course. -/
theorem Course.run (h : Course queued t) (events : List (Event β)) : Course (queued ++ t.accepted events) (t.run events) := by
  induction events generalizing queued t with
  | nil => simpa [accepted, Task.run] using h
  | cons e events ih =>
    have hn := ih (h.step e)
    rwa [List.append_assoc] at hn

/-- So each run of a new writer leads to one of them. -/
theorem course_run (events : List (Event β)) : Course (accepted {} events) (run {} events) :=
  Course.run (.receiving 1 [] [] rfl) events

/-! ## What the calls of the sink are -/

/-- The calls that a writer made of its sink are the right ones for what was queued. -/
structure Faithful (queued : List (Outbound β)) (t : Task β) : Prop where
  /-- There are writes, then perhaps one that fails, and then the sink is closed: nothing comes after a failure but that. -/
  calls : t.calls = t.written.map .wrote ++ t.failures.map .failed ++ t.closings.map .closed
  /-- What was written are the first of the frames that were queued before the first request to close. -/
  order : t.written <+: Outbound.due queued
  /-- While the writer takes what is queued, none of these frames is lost, and none has failed. -/
  taking : t.isTaking = true → t.failures = [] ∧ Outbound.due queued = t.written ++ t.inHand ++ Outbound.due t.queue
  /-- Once it takes no more and nothing has failed, all of them are written, and there was a request to close or nobody could queue
  any more. -/
  whole : t.isTaking = false → t.failures = [] →
    t.written = Outbound.due queued ∧ (Outbound.close ∈ queued ∨ t.senders = 0)
  /-- A failure is that of the frame that comes next; the writer takes no more. -/
  cut : ∀ b ∈ t.failures, t.failures = [b] ∧ t.written ++ [b] <+: Outbound.due queued ∧ t.isTaking = false
  /-- The sink was closed once when the writer has finished, and not at all before. -/
  closings : (t.phase = .finished → t.closings.length = 1) ∧ (t.phase ≠ .finished → t.closings = [])

/-- The calls of a writer, by their kinds. -/
theorem calls_by_kind {written : List β} {failed : Option β} {closed : List Bool}
    (h : t.calls = written.map .wrote ++ failed.toList.map .failed ++ closed.map .closed) :
    t.written = written ∧ t.failures = failed.toList ∧ t.closings = closed := by
  have others {γ δ : Type} (xs : List γ) : xs.filterMap (fun _ => (none : Option δ)) = [] := List.filterMap_eq_nil_iff.mpr (by simp)
  have own {γ : Type} (xs : List γ) : xs.filterMap (fun x => some x) = xs := List.filterMap_some
  refine ⟨?_, ?_, ?_⟩
  · simp [Task.written, h, Sink.Call.wrote?, Function.comp_def, others, own]
  · simp [failures, h, Sink.Call.failed?, Function.comp_def, others, own]
  · simp [closings, h, Sink.Call.closed?, Function.comp_def, others, own]

/-- A writer that has stopped wrote what was due, up to what it could not write. -/
theorem Stopped.due {written : List β} {senders : Nat} {failed : Option β} (h : Stopped queued written senders failed) :
    written ++ failed.toList <+: Outbound.due queued ∧
      (failed = none → written = Outbound.due queued ∧ (Outbound.close ∈ queued ∨ senders = 0)) := by
  cases h with
  | asked later hq =>
    have hd : Outbound.due queued = written := by simp [hq, Outbound.due_frames_append, Outbound.due]
    exact ⟨by simp [hd], fun _ => ⟨hd.symm, .inl (by simp [hq])⟩⟩
  | failed b later hq =>
    have hd : Outbound.due queued = written ++ [b] ++ Outbound.due later := by
      simp [hq, Outbound.due_frames_append, Outbound.due]
    exact ⟨hd ▸ List.prefix_append _ _, nofun⟩
  | abandoned hs hq =>
    have hd : Outbound.due queued = written := by simpa [hq, Outbound.due] using Outbound.due_frames_append written []
    exact ⟨by simp [hd], fun _ => ⟨hd.symm, .inr hs⟩⟩

/-- A writer that takes what is queued has made the right calls. -/
theorem faithful_of_taking {written : List β} (hc : t.calls = written.map .wrote) (ht : t.isTaking = true)
    (hq : Outbound.due queued = written ++ t.inHand ++ Outbound.due t.queue) : Faithful queued t := by
  have hc' : t.calls = written.map .wrote ++ (none : Option β).toList.map .failed ++ ([] : List Bool).map .closed := by
    simpa using hc
  obtain ⟨hw, hf, hcl⟩ := calls_by_kind hc'
  have hp : t.phase ≠ .finished := by
    intro hp
    simp [isTaking, hp] at ht
  exact {
    calls := by simp [hw, hf, hcl, hc]
    order := by rw [hw, hq, List.append_assoc]; exact List.prefix_append _ _
    taking := fun _ => ⟨hf, by rw [hw, hq]⟩
    whole := by simp [ht]
    cut := by simp [hf]
    closings := ⟨fun h => absurd h hp, fun _ => hcl⟩ }

/-- So has one that has stopped. -/
theorem faithful_of_stopped {written : List β} {failed : Option β} (closed : List Bool)
    (hc : t.calls = written.map .wrote ++ failed.toList.map .failed ++ closed.map .closed) (ht : t.isTaking = false)
    (hs : Stopped queued written t.senders failed)
    (hcl : (t.phase = .finished → closed.length = 1) ∧ (t.phase ≠ .finished → closed = [])) : Faithful queued t := by
  obtain ⟨hw, hf, hk⟩ := calls_by_kind hc
  obtain ⟨hp, hwhole⟩ := hs.due
  exact {
    calls := by rw [hw, hf, hk, hc]
    order := by rw [hw]; exact (List.prefix_append _ _).trans hp
    taking := by simp [ht]
    whole := fun _ => by simpa [hw, hf] using hwhole
    cut := fun b hb => by
      obtain rfl : failed = some b := by simpa [hf] using hb
      exact ⟨hf, by simpa [hw] using hp, ht⟩
    closings := by simpa [hk] using hcl }

/-- On its course a task is faithful. -/
theorem Course.faithful (h : Course queued t) : Faithful queued t := by
  cases h with
  | receiving senders written queue hq =>
    exact faithful_of_taking rfl rfl (by simp [hq, Outbound.due_frames_append, inHand])
  | writing senders written b queue hq =>
    exact faithful_of_taking rfl rfl (by simp [hq, Outbound.due_frames_append, Outbound.due, inHand])
  | leaving senders written failed queue hs => exact faithful_of_stopped [] (by simp) rfl hs (by simp)
  | closing senders written failed hs => exact faithful_of_stopped [] (by simp) rfl hs (by simp)
  | finished senders written failed ok hs => exact faithful_of_stopped [ok] (by simp) rfl hs (by simp)

/-! ## Lost frames -/

/-- A frame has been written, or will be if the writes go well. -/
def Reaches (t : Task β) (b : β) : Prop :=
  b ∈ t.written ∨ t.isTaking = true ∧ (b ∈ t.inHand ∨ b ∈ Outbound.due t.queue)

/-- These are the frames that were queued before the first request to close, and of them only those that are written once a write
has failed. -/
theorem Faithful.reaches_iff (h : Faithful queued t) (b : β) :
    t.Reaches b ↔ b ∈ Outbound.due queued ∧ (t.failures = [] ∨ b ∈ t.written) := by
  constructor
  · rintro (hw | ⟨ht, hq⟩)
    · exact ⟨h.order.subset hw, .inr hw⟩
    · obtain ⟨hf, hd⟩ := h.taking ht
      exact ⟨by rw [hd]; simpa [or_assoc] using Or.inr hq, .inl hf⟩
  · rintro ⟨hd, hf | hw⟩
    · cases ht : t.isTaking with
      | true =>
        rw [(h.taking ht).2, List.append_assoc, List.mem_append, List.mem_append] at hd
        exact hd.imp_right fun hq => ⟨ht, hq⟩
      | false => exact .inl ((h.whole ht hf).1 ▸ hd)
    · exact .inl hw

/-- The writer takes back no call of the sink. -/
theorem calls_advance (t : Task β) (ok : Bool) : t.calls <+: (t.advance ok).calls := by
  unfold Task.advance
  split
  · exact List.prefix_refl _
  · exact List.prefix_refl _
  · split <;> exact List.prefix_refl _
  · split <;> exact List.prefix_append _ _
  · exact List.prefix_refl _
  · exact List.prefix_append _ _
  · exact List.prefix_refl _

/-- Behind a failure nothing more is written. -/
theorem Faithful.written_of_failed {queued' : List (Outbound β)} {t' : Task β} (h : Faithful queued t) (h' : Faithful queued' t')
    (hc : t.calls <+: t'.calls) (hf : t.failures ≠ []) : t'.written = t.written := by
  obtain ⟨rest, hr⟩ := hc
  obtain ⟨b, hb⟩ := List.exists_mem_of_ne_nil _ hf
  have hw : t'.written = t.written ++ rest.filterMap Sink.Call.wrote? := by
    rw [Task.written, ← hr, List.filterMap_append]
    rfl
  have hs := h'.calls
  rw [← hr, h.calls, (h.cut b hb).1, hw, List.map_append, List.append_assoc, List.append_assoc, List.append_assoc, List.append_assoc,
    List.append_cancel_left_eq] at hs
  cases hx : rest.filterMap Sink.Call.wrote? with
  | nil => rw [hw, hx, List.append_nil]
  | cons x xs =>
    rw [hx] at hs
    cases hs

/-- A frame that was queued and is not to be written is lost for good. -/
theorem Faithful.lost {more : List (Outbound β)} {t' : Task β} (h : Faithful queued t) (h' : Faithful (queued ++ more) t')
    (hc : t.calls <+: t'.calls) {b : β} (hb : .frame b ∈ queued) (hn : ¬ t.Reaches b) : ¬ t'.Reaches b := by
  rw [h.reaches_iff] at hn
  rw [h'.reaches_iff]
  rintro ⟨hd, hw⟩
  have hd : b ∈ Outbound.due queued := by
    by_cases hq : Outbound.close ∈ queued
    · rwa [Outbound.due_append_of_close_mem hq] at hd
    · exact Outbound.mem_due hq hb
  have hf : t.failures ≠ [] := fun hf => hn ⟨hd, .inl hf⟩
  rw [h.written_of_failed h' hc hf] at hw
  rcases hw with hf' | hw
  · obtain ⟨x, hx⟩ := List.exists_mem_of_ne_nil _ hf
    exact List.ne_nil_of_mem ((hc.filterMap _).subset hx) hf'
  · exact hn ⟨hd, .inr hw⟩

/-! ## The queue stays closed -/

/-- A closed queue is never open again. -/
theorem isOpen_step (h : t.isOpen = false) (e : Event β) : (t.step e).isOpen = false := by
  have hp (x : Outbound β) : (t.push x).2 = t := by simp [Task.push, h]
  cases e with
  | send b => simp only [Task.step, Task.send, hp, h, ite_self]
  | close => simp only [Task.step, Task.close, hp, h, ite_self]
  | clone => by_cases hs : t.senders = 0 <;> simpa [Task.step, hs, isOpen] using h
  | drop => exact h
  | advance ok =>
    cases hph : t.phase with
    | receiving | writing | leaving => simp [isOpen, hph] at h
    | closing => simp [Task.step, Task.advance, hph, isOpen]
    | finished => simpa [Task.step, Task.advance, hph] using h

/-- A queue that is closed stays so. -/
theorem isOpen_run (h : t.isOpen = false) (events : List (Event β)) : (t.run events).isOpen = false := by
  induction events generalizing t with
  | nil => exact h
  | cons e events ih => exact ih (isOpen_step h e)

/-! ## A writer that is to end does so -/

/-- A writer is to end: it was asked to, or nobody can queue anything, or it takes no more. -/
def Ending (t : Task β) : Prop := t.isTaking = false ∨ Outbound.close ∈ t.queue ∨ t.senders = 0

/-- How many times such a writer goes on before it has finished, at most. -/
def remaining (t : Task β) : Nat :=
  match t.phase with
  | .receiving => 2 * (Outbound.due t.queue).length + 3
  | .writing _ => 2 * (Outbound.due t.queue).length + 4
  | .leaving => 2
  | .closing => 1
  | .finished => 0

/-- What is pushed does not keep such a writer from its end. -/
theorem ending_push (h : t.Ending) (hs : t.senders ≠ 0) (x : Outbound β) :
    (t.push x).2.Ending ∧ (t.push x).2.remaining = t.remaining := by
  unfold Task.push
  split
  · rcases h with h | h | h
    · refine ⟨.inl h, ?_⟩
      cases hp : t.phase <;> simp_all [isTaking, remaining]
    · refine ⟨.inr (.inl (List.mem_append_left _ h)), ?_⟩
      simp only [remaining, Outbound.due_append_of_close_mem h]
    · exact absurd h hs
  · exact ⟨h, rfl⟩

/-- Each time it goes on it comes nearer to its end. -/
theorem ending_advance (h : t.Ending) (ok : Bool) : (t.advance ok).Ending ∧ (t.advance ok).remaining ≤ t.remaining - 1 := by
  cases hp : t.phase with
  | receiving =>
    cases hq : t.queue with
    | nil =>
      have hs : t.senders = 0 := by simpa [Ending, isTaking, hp, hq] using h
      simp [Task.advance, hp, hq, hs, Ending, isTaking, remaining]
    | cons x queue =>
      cases x with
      | frame b =>
        refine ⟨?_, by simp [Task.advance, hp, hq, remaining, Outbound.due]; omega⟩
        simpa [Task.advance, hp, hq, Ending, isTaking] using h
      | close => simp [Task.advance, hp, hq, Ending, isTaking, remaining]
  | writing b =>
    cases ok with
    | true =>
      refine ⟨?_, by simp [Task.advance, hp, remaining]⟩
      simpa [Task.advance, hp, Ending, isTaking] using h
    | false => simp [Task.advance, hp, Ending, isTaking, remaining]
  | leaving => simp [Task.advance, hp, Ending, isTaking, remaining]
  | closing => simp [Task.advance, hp, Ending, isTaking, remaining]
  | finished => simpa [Task.advance, hp, remaining] using h

/-- A task that is ending goes on to end, and each of its steps brings it nearer. -/
theorem ending_step (h : t.Ending) (e : Event β) :
    (t.step e).Ending ∧ (t.step e).remaining ≤ t.remaining - if e.isAdvance then 1 else 0 := by
  have pushed (hs : t.senders ≠ 0) (x : Outbound β) : (t.push x).2.Ending ∧ (t.push x).2.remaining ≤ t.remaining :=
    (ending_push h hs x).imp_right Nat.le_of_eq
  cases e with
  | advance ok => exact ending_advance h ok
  | drop => exact ⟨h.imp_right (·.imp_right fun hs => by simp [Task.step, hs]), Nat.le_refl _⟩
  | send b =>
    by_cases hs : t.senders = 0
    · rw [Task.step, if_pos hs]
      exact ⟨h, Nat.le_refl _⟩
    · rw [Task.step, if_neg hs]
      exact pushed hs (.frame b)
  | close =>
    by_cases hs : t.senders = 0
    · rw [Task.step, if_pos hs]
      exact ⟨h, Nat.le_refl _⟩
    · rw [Task.step, if_neg hs]
      exact pushed hs .close
  | clone =>
    by_cases hs : t.senders = 0
    · rw [Task.step, if_pos hs]
      exact ⟨h, Nat.le_refl _⟩
    · rw [Task.step, if_neg hs]
      exact ⟨h.imp_right (·.imp_right fun h0 => absurd h0 hs), Nat.le_refl _⟩

/-- Whatever else happens, it has finished after so many steps of its own. -/
theorem finished_of_ending (h : t.Ending) {events : List (Event β)} (hn : t.remaining ≤ events.countP Event.isAdvance) :
    (t.run events).phase = .finished := by
  induction events generalizing t with
  | nil =>
    cases hp : t.phase with
    | finished => exact hp
    | _ => simp [remaining, hp] at hn
  | cons e events ih =>
    obtain ⟨he, hr⟩ := ending_step h e
    refine ih he ?_
    rw [List.countP_cons] at hn
    omega

/-- How far a task can be from its end. -/
theorem remaining_le (t : Task β) : t.remaining ≤ 2 * (Outbound.due t.queue).length + 4 := by
  cases hp : t.phase <;> simp [remaining, hp]

/-- A writer is to end once a request to close was queued, a write has failed, or nobody can queue anything. -/
theorem Course.ending (h : Course queued t) (he : Outbound.close ∈ queued ∨ t.failures ≠ [] ∨ t.senders = 0) : t.Ending := by
  cases ht : t.isTaking with
  | false => exact .inl ht
  | true =>
    rcases he with hc | hf | hs
    · refine .inr (.inl ?_)
      cases h with
      | receiving senders written queue hq => simpa [hq] using hc
      | writing senders written b queue hq => simpa [hq] using hc
      | leaving | closing | finished => cases ht
    · exact absurd (h.faithful.taking ht).1 hf
    · exact .inr (.inr hs)

end Task

/-! ## The writer that is run whole -/

/-- What is done with a writer that writes all that is queued whenever it is its turn. -/
inductive Use where
  | send (b : Bytes)
  | close
  /-- The sender is dropped. -/
  | drop
  | settle

/-- Such a writer, and whether its sender is still held. -/
def use : Writer × Bool → Use → Writer × Bool
  | (w, held), .settle => (w.settle, held)
  | (w, false), _ => (w, false)
  | (w, true), .send b => ((w.send b).2, true)
  | (w, true), .close => (w.close, true)
  | (w, true), .drop => (w.close, false)

/-- Such a writer stands where a writer at work does that waits for more, or that has finished. -/
structure Shows (w : Writer) (held : Bool) (t : Task Bytes) : Prop where
  written : w.sink.written = t.written
  closed : w.sink.closed.toList = t.closings
  senders : t.senders = if held then 1 else 0
  stands : t.phase = .receiving ∧ w.sink.closed = none ∧ w.queue = t.queue ++ (if held then [] else [.close]) ∨
    t.phase = .finished ∧ w.sink.closed.isSome = true

variable {w : Writer} {held : Bool} {t : Task Bytes}

/-- It takes what is sent as long as the other does. -/
theorem Shows.send_eq (h : w.Shows held t) (b : Bytes) : (w.send b).1 = (t.send b).1 := by
  rcases h.stands with ⟨hp, hc, -⟩ | ⟨hp, hc⟩
  · simp [Writer.send, isFinished, Sink.isClosed, hc, Task.send, Task.push, Task.isOpen, hp]
  · simp [Writer.send, isFinished, Sink.isClosed, hc, Task.send, Task.push, Task.isOpen, hp]

/-- To queue something has the same effect on both. -/
theorem Shows.push (h : w.Shows true t) (x : Outbound Bytes) :
    Shows (if w.isFinished then w else { w with queue := w.queue ++ [x] }) true (t.push x).2 := by
  obtain ⟨hw, hc, hs, ⟨hp, hn, hq⟩ | ⟨hp, hn⟩⟩ := h
  · have hf : w.isFinished = false := by simp [isFinished, Sink.isClosed, hn]
    have ho : t.isOpen = true := by simp [Task.isOpen, hp]
    simp only [hf, Task.push, ho, if_true]
    exact ⟨hw, hc, hs, .inl ⟨hp, hn, by simpa using hq⟩⟩
  · have ho : t.isOpen = false := by simp [Task.isOpen, hp]
    simpa [isFinished, Sink.isClosed, hn, Task.push, ho] using ⟨hw, hc, hs, .inr ⟨hp, hn⟩⟩

/-- That nobody can queue any more is to one what a request to close is to the other. -/
theorem Shows.drop (h : w.Shows true t) : w.close.Shows false (t.step .drop) := by
  obtain ⟨hw, hc, hs, ⟨hp, hn, hq⟩ | ⟨hp, hn⟩⟩ := h
  · have hf : w.isFinished = false := by simp [isFinished, Sink.isClosed, hn]
    simp only [close, hf]
    exact ⟨hw, hc, by simp [Task.step, hs], .inl ⟨hp, hn, by simpa [Task.step] using hq⟩⟩
  · have hf : w.isFinished = true := by simpa [isFinished, Sink.isClosed] using hn
    simp only [close, hf]
    exact ⟨hw, hc, by simp [Task.step, hs], .inr ⟨hp, hn⟩⟩

/-- One more call of the sink, by its kind. -/
theorem calls_snoc {t' : Task Bytes} {call : Sink.Call Bytes} (h : t'.calls = t.calls ++ [call]) :
    t'.written = t.written ++ call.wrote?.toList ∧ t'.closings = t.closings ++ call.closed?.toList := by
  cases call <;> simp [Task.written, Task.closings, h, List.filterMap_cons, Sink.Call.wrote?, Sink.Call.closed?]

/-- A writer that takes no more closes the sink. -/
theorem shows_closed {s : Sink} (hp : t.phase = .leaving) (hw : s.written = t.written) (hc : t.closings = [])
    (hs : t.senders = if held then 1 else 0) :
    Shows ⟨[], s.close⟩ held (t.run [.advance true, .advance !s.failClose]) := by
  have hrun : t.run [.advance true, .advance !s.failClose] =
      { t with queue := [], phase := .finished, calls := t.calls ++ [.closed !s.failClose] } := by
    simp [Task.run, Task.step, Task.advance, hp]
  obtain ⟨hw', hc'⟩ := calls_snoc (congrArg Task.calls hrun)
  exact ⟨by rw [hw', ← hw]; exact (List.append_nil _).symm, by rw [hc', hc]; rfl, by rw [hrun]; exact hs,
    .inr ⟨by rw [hrun], rfl⟩⟩

/-- A request to close that comes next, or the want of a sender that it stands for, has the writer take no more. -/
theorem Shows.advance_of_close {queue : List (Outbound Bytes)} {s : Sink} (h : Shows ⟨.close :: queue, s⟩ held t)
    (hp : t.phase = .receiving) : ∃ rest, t.advance true = { t with queue := rest, phase := .leaving } := by
  obtain ⟨-, -, hs, ⟨-, -, hq⟩ | ⟨hf, -⟩⟩ := h
  case inr => simp [hp] at hf
  cases hqt : t.queue with
  | nil =>
    rw [hqt] at hq
    have h0 : held = false := by
      cases held with
      | false => rfl
      | true => cases hq
    exact ⟨[], by simp [Task.advance, hp, hqt, hs, h0]⟩
  | cons x rest =>
    rw [hqt] at hq
    obtain ⟨rfl, -⟩ := List.cons.inj hq
    exact ⟨rest, by simp [Task.advance, hp, hqt]⟩

/-- A frame that comes next was sent. -/
theorem Shows.exists_queue {queue : List (Outbound Bytes)} {s : Sink} {b : Bytes} (h : Shows ⟨.frame b :: queue, s⟩ held t)
    (hp : t.phase = .receiving) : ∃ rest, t.queue = .frame b :: rest ∧ queue = rest ++ if held then [] else [.close] := by
  obtain ⟨-, -, -, ⟨-, -, hq⟩ | ⟨hf, -⟩⟩ := h
  case inr => simp [hp] at hf
  cases hqt : t.queue with
  | nil => cases held <;> simp [hqt] at hq
  | cons x rest =>
    rw [hqt] at hq
    obtain ⟨rfl, hr⟩ := List.cons.inj hq
    exact ⟨rest, rfl, hr⟩

/-- To drain a queue is to go on, with what the sink answers, until there is nothing more to do. -/
theorem shows_drain {queue : List (Outbound Bytes)} {s : Sink} (h : Shows ⟨queue, s⟩ held t) (hp : t.phase = .receiving) :
    ∃ oks : List Bool, Shows ⟨[], s.drain queue⟩ held (t.run (oks.map .advance)) := by
  induction queue generalizing s t with
  | nil => exact ⟨[], h⟩
  | cons x queue ih =>
    have hn : s.closed = none := by
      rcases h.stands with ⟨-, hn, -⟩ | ⟨hf, -⟩
      · exact hn
      · simp [hp] at hf
    have hc : t.closings = [] := h.closed.symm.trans (congrArg Option.toList hn)
    cases x with
    | close =>
      obtain ⟨rest, ha⟩ := h.advance_of_close hp
      have hcl := shows_closed (t := t.advance true) (s := s) (by rw [ha]) (by rw [ha]; exact h.written)
        (by rw [ha]; exact hc) (by rw [ha]; exact h.senders)
      exact ⟨[true, true, !s.failClose], hcl⟩
    | frame b =>
      obtain ⟨rest, hq, hrest⟩ := h.exists_queue hp
      -- A sink says beforehand at which frame it fails.
      by_cases hf : s.failAt = some s.written.length
      · have hd : s.drain (.frame b :: queue) = s.close := by simp [Sink.drain, Sink.write, hf]
        have ha : t.run [.advance true, .advance false] =
            { t with queue := rest, phase := .leaving, calls := t.calls ++ [.failed b] } := by
          simp [Task.run, Task.step, Task.advance, hp, hq]
        obtain ⟨hw', hc'⟩ := calls_snoc (congrArg Task.calls ha)
        have hcl := shows_closed (t := t.run [.advance true, .advance false]) (s := s) (by rw [ha])
          (by rw [hw', ← h.written]; exact (List.append_nil _).symm) (by rw [hc', hc]; rfl) (by rw [ha]; exact h.senders)
        exact ⟨[true, false, true, !s.failClose], hd ▸ hcl⟩
      · have hd : s.drain (.frame b :: queue) = { s with written := s.written ++ [b] }.drain queue := by
          simp [Sink.drain, Sink.write, hf]
        have ha : t.run [.advance true, .advance true] = { t with queue := rest, calls := t.calls ++ [.wrote b] } := by
          simp [Task.run, Task.step, Task.advance, hp, hq]
        obtain ⟨hw', hc'⟩ := calls_snoc (congrArg Task.calls ha)
        obtain ⟨oks, ho⟩ := ih (s := { s with written := s.written ++ [b] }) (t := t.run [.advance true, .advance true])
          ⟨by rw [hw', ← h.written]; rfl, by rw [hc', hc, hn]; rfl, by rw [ha]; exact h.senders,
            .inl ⟨by rw [ha]; exact hp, hn, by rw [ha]; exact hrest⟩⟩ (by rw [ha]; exact hp)
        exact ⟨true :: true :: oks, hd ▸ ho⟩

/-- To let the writer write is to go on. -/
theorem Shows.settle (h : w.Shows held t) : ∃ oks : List Bool, w.settle.Shows held (t.run (oks.map .advance)) := by
  rcases h.stands with ⟨hp, hn, -⟩ | ⟨-, hn⟩
  · have hf : w.isFinished = false := by simp [isFinished, Sink.isClosed, hn]
    simp only [Writer.settle, hf]
    exact shows_drain h hp
  · have hf : w.isFinished = true := by simpa [isFinished, Sink.isClosed] using hn
    simp only [Writer.settle, hf]
    exact ⟨[], h⟩

/-- Each use is what some events make of a writer at work. -/
theorem Shows.use (h : w.Shows held t) (u : Use) :
    ∃ events, (Writer.use (w, held) u).1.Shows (Writer.use (w, held) u).2 (t.run events) := by
  cases held with
  | false =>
    cases u with
    | settle =>
      obtain ⟨oks, ho⟩ := h.settle
      exact ⟨oks.map .advance, ho⟩
    | send | close | drop => exact ⟨[], h⟩
  | true =>
    have hs : t.senders ≠ 0 := by simp [h.senders]
    cases u with
    | settle =>
      obtain ⟨oks, ho⟩ := h.settle
      exact ⟨oks.map .advance, ho⟩
    | send b =>
      have he : t.run [.send b] = (t.push (.frame b)).2 := by simp [Task.run, Task.step, Task.send, hs]
      have hw : (w.send b).2 = if w.isFinished then w else { w with queue := w.queue ++ [.frame b] } := by
        rw [Writer.send]
        split <;> rfl
      exact ⟨[.send b], by rw [he, Writer.use, hw]; exact h.push (.frame b)⟩
    | close =>
      have he : t.run [.close] = (t.push .close).2 := by simp [Task.run, Task.step, Task.close, hs]
      exact ⟨[.close], by rw [he]; exact h.push .close⟩
    | drop => exact ⟨[.drop], h.drop⟩

/-- So whatever is done with such a writer, it stands where some run of a writer at work leads. -/
theorem exists_shows (failAt : Option Nat) (failClose : Bool) (uses : List Use) :
    ∃ events, (uses.foldl Writer.use ({ sink := { failAt, failClose } }, true)).1.Shows
      (uses.foldl Writer.use ({ sink := { failAt, failClose } }, true)).2 (Task.run {} events) := by
  have hrun : ∀ (uses : List Use) (w : Writer) (held : Bool) (t : Task Bytes), w.Shows held t →
      ∃ events, (uses.foldl Writer.use (w, held)).1.Shows (uses.foldl Writer.use (w, held)).2 (t.run events) := by
    intro uses
    induction uses with
    | nil => exact fun w held t h => ⟨[], h⟩
    | cons u uses ih =>
      intro w held t h
      obtain ⟨events, he⟩ := h.use u
      obtain ⟨events', hn⟩ := ih _ _ _ he
      refine ⟨events ++ events', ?_⟩
      rw [Task.run, List.foldl_append]
      exact hn
  exact hrun uses _ true {} ⟨rfl, rfl, rfl, .inl ⟨rfl, rfl, rfl⟩⟩

namespace Task

/-- Order and closure. (1) The calls of the sink are the right ones for what was queued, after any events. (2) Once the queue is
closed, nothing is queued any more. (3) A writer that was asked to end, that could not write a frame or that has lost its last sender
finishes, however closing the sink goes, after so many steps of its own among whatever else happens. (4) The writer that is run whole
stands after each use where a writer at work does, and answers a send in the same way. -/
theorem frames_in_order_then_closed_once (events later : List (Event Bytes)) :
    Faithful (accepted {} events) (run {} events) ∧
    ((run {} events).isOpen = false → ∀ b, ((run {} events).run later).send b = (false, (run {} events).run later)) ∧
    (Outbound.close ∈ accepted {} events ∨ (run {} events).failures ≠ [] ∨ (run {} events).senders = 0 →
      2 * (Outbound.due (run {} events).queue).length + 4 ≤ later.countP Event.isAdvance →
      ((run {} events).run later).phase = .finished) ∧
    ∀ (failAt : Option Nat) (failClose : Bool) (uses : List Use), ∃ t : Task Bytes, (∃ es, t = run {} es) ∧
      (uses.foldl use ({ sink := { failAt, failClose } }, true)).1.Shows
        (uses.foldl use ({ sink := { failAt, failClose } }, true)).2 t ∧
      ∀ b, ((uses.foldl use ({ sink := { failAt, failClose } }, true)).1.send b).1 = (t.send b).1 := by
  have hc := course_run events
  refine ⟨hc.faithful, fun ho b => ?_, fun he hn => ?_, fun failAt failClose uses => ?_⟩
  · simp [Task.send, Task.push, isOpen_run ho later]
  · exact finished_of_ending (hc.ending he) (Nat.le_trans (remaining_le _) hn)
  · obtain ⟨es, hs⟩ := exists_shows failAt failClose uses
    exact ⟨run {} es, ⟨es, rfl⟩, hs, hs.send_eq⟩

/-- Of two frames the second cannot be written; a third one was queued behind the request to close. Closing fails as well. -/
theorem frames_in_order_then_closed_once_brokenPipe :
    let events : List (Event Bytes) := [.send [1], .clone, .send [2], .close, .drop, .send [3], .advance true, .advance true,
      .advance true, .advance false, .advance true]
    let later : List (Event Bytes) := [.send [4], .advance false, .advance false, .advance false, .advance false]
    Faithful (accepted {} events) (run {} events) ∧
    accepted {} events = [.frame [1], .frame [2], .close, .frame [3]] ∧ (run {} events).calls = [.wrote [1], .failed [2]] ∧
    (∀ b, ((run {} events).run later).send b = (false, (run {} events).run later)) ∧
    ((run {} events).run later).phase = .finished ∧
    ((run {} events).run later).calls = [.wrote [1], .failed [2], .closed false] := by
  intro events later
  obtain ⟨hf, hs, he, -⟩ := frames_in_order_then_closed_once events later
  have ha : accepted {} events = [.frame [1], .frame [2], .close, .frame [3]] := by decide
  exact ⟨hf, ha, by decide, hs (by decide), he (.inl (by simp [ha])) (by decide), by decide⟩

end Task
end Writer
end Parley
