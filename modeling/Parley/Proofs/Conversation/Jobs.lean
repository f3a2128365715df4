import Parley.Proofs.Conversation.Basic

/-!
# Open jobs

Which jobs are open in a conversation, and what they are for. Until the connection is torn down, the requests being served are
those of the open jobs, in the order in which they began (`Tied`), so each of them has one job that will answer it. The job of a
request comes of the payload that made the request (`BegunBy`), and carries the token of that instance of the id.
-/

namespace Parley

/-- The request that a job answers, as the ledger knows it: its id, and the token of this instance of the id. -/
def Job.ticket? (j : Job) : Option (MessageId × Token) := j.duty.id?.map (·, j.token)

namespace Incoming

/-- The requests being served, in the order in which they began. -/
def tickets (l : Incoming) : List (MessageId × Token) := l.entries.entries.map fun e => (e.1, .request e.2)

/-- No id is served twice at a time. -/
theorem tickets_nodup (l : Incoming) : (l.tickets.map (·.1)).Nodup := by
  simpa [tickets, Function.comp_def] using l.entries.nodup

/-- The ids in use are those of the tickets. -/
theorem mem_tickets_iff {l : Incoming} {id : MessageId} {t : Token} :
    (id, t) ∈ l.tickets ↔ ∃ n, t = .request n ∧ l.entries.find? id = some n := by
  simp only [tickets, List.mem_map, Prod.exists, Prod.mk.injEq]
  constructor
  · rintro ⟨i, n, hm, rfl, rfl⟩
    exact ⟨n, rfl, Table.mem_entries_iff.mp hm⟩
  · rintro ⟨n, rfl, hf⟩
    exact ⟨id, n, Table.mem_entries_iff.mpr hf, rfl, rfl⟩

/-- A request that begins comes last. -/
theorem tickets_begin {l l' : Incoming} {id : MessageId} {n : Nat} (h : l.begin? id = some (n, l')) :
    l'.tickets = l.tickets ++ [(id, .request n)] := by
  obtain ⟨hc, rfl, rfl⟩ := begin?_eq_some h
  have hn : l.entries.find? id = none := by simpa [contains, Table.contains] using hc
  simp [tickets, Table.insert, Table.erase_of_find?_eq_none hn]

/-- A request that ends leaves the others. -/
theorem tickets_finish (l : Incoming) (id : MessageId) : (l.finish id).2.tickets = l.tickets.filter (·.1 ≠ id) := by
  simp [tickets, finish, Table.erase, List.filter_map, Function.comp_def]

@[simp] theorem tickets_cancel (l : Incoming) (id : MessageId) : (l.cancel id).2.tickets = l.tickets := by
  simp [tickets]

@[simp] theorem tickets_cancelAllExcept (l : Incoming) (id : MessageId) :
    (l.cancelAllExcept id).2.tickets = l.tickets := rfl

end Incoming

namespace Connection

/-- The outcome of a job ends the request that it answers, and no other. -/
theorem tickets_complete (c : Connection) (j : Job) (o : Outcome) :
    (c.complete j o).1.incoming.tickets = c.incoming.tickets.filter fun t => some t.1 ≠ j.duty.id? := by
  unfold complete
  cases j.duty with
  | request id => simp [finish_eq, Incoming.tickets_finish, Duty.id?]
  | shutdown id => simp [completeShutdown_eq, Incoming.tickets_finish, Duty.id?]
  | exit => simp [completeExit_eq, noteFailure_eq, Duty.id?, List.filter_eq_self.mpr]
  | builtin => simp [noteFailure_eq, Duty.id?, List.filter_eq_self.mpr]
  | notification => simp [noteFailure_eq, Duty.id?, List.filter_eq_self.mpr]

/-- The job that follows another answers no request. -/
theorem ticket?_complete (c : Connection) (j : Job) (o : Outcome) : ∀ j' ∈ (c.complete j o).2, j'.ticket? = none := by
  intro j' hj
  unfold complete at hj
  cases hd : j.duty with
  | builtin =>
    rw [hd] at hj
    obtain ⟨mode, -, rfl⟩ := Option.map_eq_some_iff.mp hj
    rfl
  | _ => simp [hd] at hj

/-- A payload adds the request whose job comes of it. -/
theorem Received.tickets {c : Connection} {d : Except DecodeFault Message} {s : Step} (h : Received c d s) :
    s.1.incoming.tickets = c.incoming.tickets ++ s.2.toList.filterMap Job.ticket? := by
  cases h with
  | faulty f => simp [refuse_eq]
  | refused h => simp [send_eq]
  | @begun id method params n incoming j ha hb ht hm hn =>
    have hi : j.ticket? = some (id, .request n) := by
      rcases ht with ⟨-, -, hd, -⟩ | ⟨-, -, hd⟩ <;> simp [Job.ticket?, hd, hn, Duty.id?]
    simp [hi, Incoming.tickets_begin hb]
  | @closed id params n incoming ha hb hs =>
    -- The id was free, so no ticket goes but the one just made.
    have hn : c.incoming.tickets.filter (fun t => t.1 ≠ id) = c.incoming.tickets := by
      refine List.filter_eq_self.mpr fun t ht => decide_eq_true ?_
      rintro rfl
      obtain ⟨n, -, hf⟩ := Incoming.mem_tickets_iff.mp ht
      have hc : c.incoming.contains t.1 = true := Incoming.contains_eq_true_iff.mpr ⟨n, hf⟩
      rw [(Incoming.begin?_eq_some hb).1] at hc
      cases hc
    simp only [completeShutdown_eq, Incoming.tickets_finish, Incoming.tickets_cancelAllExcept, Incoming.tickets_begin hb,
      List.filter_append, hn]
    simp
  | cancelled params h =>
    simp only [receiveCancel]
    split <;> simp
  | left params h hs => simp [completeExit_eq]
  | leaving h hs => simp [Job.ticket?, Duty.id?]
  | noted job hc he hl hd =>
    have hn : ∀ j ∈ job, j.ticket? = none := by
      intro j hj
      rcases hd j hj with hd | hd <;> simp [Job.ticket?, hd, Duty.id?]
    cases job with
    | none => simp
    | some j => simp [hn j rfl]
  | answered id v h => simp [receiveReply, resolve, forget]
  | failed id e h => simp [receiveReply, resolve, forget]
  | _ => simp

/-- A job that answers a request begins with the request, under an id that is free and with a new token. -/
theorem Received.begun_of_ticket {c : Connection} {d : Except DecodeFault Message} {s : Step} (h : Received c d s) {j : Job}
    (hj : s.2 = some j) {id : MessageId} (hd : j.duty.id? = some id) :
    (∃ params, d = .ok (.request id j.method params)) ∧ c.lifecycle = .active ∧ c.incoming.contains id = false ∧
      j.token = .request c.incoming.tokens := by
  cases h with
  | @begun i method params n incoming j' ha hb ht hm hn =>
    obtain rfl := Option.some.inj hj
    obtain ⟨hc, rfl, -⟩ := Incoming.begin?_eq_some hb
    have hi : j'.duty.id? = some i := by
      rcases ht with ⟨-, -, hd, -⟩ | ⟨-, -, hd⟩ <;> rw [hd] <;> rfl
    obtain rfl := Option.some.inj (hi.symm.trans hd)
    exact ⟨⟨params, by rw [hm]⟩, ha, hc, hn⟩
  | leaving h hs =>
    obtain rfl := Option.some.inj hj
    cases hd
  | noted job hc he hl hn =>
    rcases hn j hj with hn | hn <;> (rw [hn] at hd; cases hd)
  | _ => cases hj

/-- A request goes to a handler that there is. -/
theorem find?_of_route {c : Connection} {id : MessageId} {method name : String} {params params' : Json} {origin : Origin}
    {mode : Mode} (h : c.route id method params = .ok (origin, name, mode, params')) :
    c.routes.find? origin name = some mode := by
  unfold route at h
  split at h
  · split at h
    · cases h
    · split at h
      · cases h
      · rename_i hf
        cases h
        exact hf
  · split at h
    · cases h
    · rename_i hs
      cases h
      exact Registry.find?_of_serving? hs

/-- A job that answers a request is for a handler that there is, and uses up a token. -/
theorem Received.made_of_ticket {c : Connection} {d : Except DecodeFault Message} {s : Step} (h : Received c d s) {j : Job}
    (hj : s.2 = some j) {id : MessageId} (hd : j.duty.id? = some id) :
    c.routes.find? j.origin j.name = some j.mode ∧ s.1.incoming.tokens = c.incoming.tokens + 1 := by
  cases h with
  | begun j' ha hb ht hm hn =>
    obtain rfl := Option.some.inj hj
    obtain ⟨-, -, rfl⟩ := Incoming.begin?_eq_some hb
    refine ⟨?_, rfl⟩
    rcases ht with ⟨-, hs, -, hname, -⟩ | ⟨-, hr, -⟩
    · rw [hname]
      exact Registry.find?_of_serving? hs
    · exact find?_of_route hr
  | leaving h hs =>
    obtain rfl := Option.some.inj hj
    cases hd
  | noted job hc he hl hn =>
    rcases hn j hj with hn | hn <;> (rw [hn] at hd; cases hd)
  | _ => cases hj

/-- The outcome of a job makes no token. -/
theorem complete_tokens (c : Connection) (j : Job) (o : Outcome) : (c.complete j o).1.incoming.tokens = c.incoming.tokens := by
  unfold complete
  cases j.duty with
  | request id => simp [finish_eq, Incoming.finish]
  | shutdown id => simp [completeShutdown_eq, Incoming.finish, Incoming.cancelAllExcept]
  | exit => simp [completeExit_eq, noteFailure_eq]
  | builtin => simp [noteFailure_eq]
  | notification => simp [noteFailure_eq]

/-- A payload makes a token or none. -/
theorem Received.tokens_le {c : Connection} {d : Except DecodeFault Message} {s : Step} (h : Received c d s) :
    c.incoming.tokens ≤ s.1.incoming.tokens := by
  cases h with
  | faulty f => simp [refuse_eq]
  | refused h => simp [send_eq]
  | begun j ha hb ht hm hn =>
    obtain ⟨-, -, rfl⟩ := Incoming.begin?_eq_some hb
    exact Nat.le_succ _
  | closed ha hb hs =>
    obtain ⟨-, -, rfl⟩ := Incoming.begin?_eq_some hb
    simp [completeShutdown_eq, Incoming.finish, Incoming.cancelAllExcept]
  | cancelled params h =>
    simp only [receiveCancel]
    split <;> simp
  | left params h hs => simp [completeExit_eq]
  | answered id v h => simp [receiveReply, resolve, forget]
  | failed id e h => simp [receiveReply, resolve, forget]
  | _ => simp

end Connection

namespace Conversation

/-- The requests being served are those of the open jobs. -/
def Tied (v : Conversation) : Prop := v.jobs.filterMap Job.ticket? = v.connection.incoming.tickets

/-- A list without the element at a place, as what stands before and behind it. -/
theorem eraseIdx_split {α : Type} {l : List α} {n : Nat} {a : α} (h : l[n]? = some a) :
    ∃ before after, l = before ++ a :: after ∧ l.eraseIdx n = before ++ after := by
  obtain ⟨hn, rfl⟩ := List.getElem?_eq_some_iff.mp h
  exact ⟨l.take n, l.drop (n + 1), by simp, List.eraseIdx_eq_take_drop_succ l n⟩

/-- Before its first move a conversation has no jobs and serves nothing. -/
theorem Tied.start (routes : Registry Mode) (catalogue : Catalogue) : (start routes catalogue).Tied := rfl

/-- A move other than the teardown keeps the requests and the jobs together. -/
theorem Tied.step {v : Conversation} (h : v.Tied) {m : Move} (hm : m ≠ .teardown) : (v.step m).Tied := by
  rcases m.kinds with ho | ⟨payload, rfl⟩ | ⟨n, o, rfl⟩ | rfl
  · obtain ⟨hs, hj⟩ := step_of_isOurs ho v
    rw [Tied, hj, hs.incoming]
    exact h
  · have hr := (Connection.receive_received v.connection payload).tickets
    simp only [Tied, Conversation.step, absorb, List.filterMap_append, hr]
    rw [h]
    rfl
  · simp only [Conversation.step]
    cases hj : v.jobs[n]? with
    | none => exact h
    | some j =>
      obtain ⟨before, after, he, hi⟩ := eraseIdx_split hj
      have hn : (v.connection.complete j o).2.toList.filterMap Job.ticket? = [] := by
        simpa using Connection.ticket?_complete v.connection j o
      have hk := v.connection.incoming.tickets_nodup
      simp only [Tied, absorb, List.filterMap_append, hi, hn, Connection.tickets_complete]
      rw [Tied, he] at h
      rw [← h] at hk ⊢
      cases hd : j.duty.id? with
      | none => simp [Job.ticket?, hd, List.filter_eq_self.mpr]
      | some id =>
        simp only [List.filterMap_append, List.filterMap_cons, Job.ticket?, hd, Option.map_some] at hk ⊢
        have hf := Table.filter_key_split hk
        simpa using hf.symm
  · exact absurd rfl hm

/-- Until the teardown the requests and the jobs stay together. -/
theorem Tied.run {v : Conversation} (h : v.Tied) {ms : List Move} (hm : Move.teardown ∉ ms) : (v.run ms).Tied := by
  induction ms generalizing v with
  | nil => exact h
  | cons m ms ih =>
    rw [List.mem_cons, not_or] at hm
    exact ih (h.step (Ne.symm hm.1)) hm.2

/-- The request that an open job answers is being served, with the token of the job. -/
theorem Tied.find? {v : Conversation} (h : v.Tied) {j : Job} (hj : j ∈ v.jobs) {id : MessageId} (hd : j.duty.id? = some id) :
    ∃ n, j.token = .request n ∧ v.connection.incoming.entries.find? id = some n := by
  refine Incoming.mem_tickets_iff.mp (h ▸ List.mem_filterMap.mpr ⟨j, hj, ?_⟩)
  rw [Job.ticket?, hd]
  rfl

/-- A request that is being served has an open job that answers it. -/
theorem Tied.exists_job {v : Conversation} (h : v.Tied) {id : MessageId} (hc : v.connection.incoming.contains id = true) :
    ∃ j ∈ v.jobs, j.duty.id? = some id := by
  obtain ⟨n, hf⟩ := Incoming.contains_eq_true_iff.mp hc
  have hm : (id, Token.request n) ∈ v.connection.incoming.tickets := Incoming.mem_tickets_iff.mpr ⟨n, rfl, hf⟩
  rw [← h, List.mem_filterMap] at hm
  obtain ⟨j, hj, ht⟩ := hm
  obtain ⟨i, hi, he⟩ := Option.map_eq_some_iff.mp ht
  obtain ⟨rfl, -⟩ := Prod.mk.inj he
  exact ⟨j, hj, hi⟩

/-- No two open jobs answer the same id. -/
theorem Tied.nodup {v : Conversation} (h : v.Tied) : (v.jobs.filterMap (·.duty.id?)).Nodup := by
  have hk := v.connection.incoming.tickets_nodup
  rw [← h, List.map_filterMap] at hk
  simpa [Job.ticket?, Function.comp_def] using hk

/-! ## Where jobs come from -/

/-- The job that a move opens. -/
def begins (v : Conversation) : Move → Option Job
  | .receive payload => (v.connection.receive payload).2
  | .finish n o => v.jobs[n]?.bind fun j => (v.connection.complete j o).2
  | _ => none

/-- The job of a request comes of a payload of the run: the payload made the request while its id was free, and the token of
the job is the one that was made for it. -/
def BegunBy (v : Conversation) (ms : List Move) (id : MessageId) (j : Job) : Prop :=
  ∃ before payload params after, ms = before ++ .receive payload :: after ∧
    (v.run before).connection.reads payload = .ok (.request id j.method params) ∧
    (v.run before).connection.lifecycle = .active ∧
    (v.run before).connection.incoming.contains id = false ∧
    (v.run before).connection.receive payload =
      ((v.run (before ++ [.receive payload])).connection, some j) ∧
    j.token = .request (v.run before).connection.incoming.tokens

/-- An open job was open before the move, or the move opens it. -/
theorem mem_jobs_step {v : Conversation} {m : Move} {j : Job} (h : j ∈ (v.step m).jobs) : j ∈ v.jobs ∨ v.begins m = some j := by
  rcases m.kinds with ho | ⟨payload, rfl⟩ | ⟨n, o, rfl⟩ | rfl
  · rw [(step_of_isOurs ho v).2] at h
    exact .inl h
  · simpa [step, absorb, begins] using h
  · simp only [step, begins] at h ⊢
    cases hn : v.jobs[n]? with
    | none =>
      rw [hn] at h
      exact .inl h
    | some j' =>
      simp only [hn, absorb, List.mem_append, Option.mem_toList, Option.bind_some] at h ⊢
      exact h.imp_left List.mem_of_mem_eraseIdx
  · exact .inl h

/-- A job that is open after a run was open before it, or a move of the run opened it. -/
theorem mem_jobs_run {v : Conversation} {ms : List Move} {j : Job} (h : j ∈ (v.run ms).jobs) :
    j ∈ v.jobs ∨ ∃ before m after, ms = before ++ m :: after ∧ (v.run before).begins m = some j := by
  induction ms generalizing v with
  | nil => exact .inl h
  | cons m ms ih =>
    rcases ih h with h | ⟨before, m', after, rfl, hb⟩
    · exact (mem_jobs_step h).imp_right fun hb => ⟨[], m, ms, rfl, hb⟩
    · exact .inr ⟨m :: before, m', after, rfl, hb⟩

/-- The job of a request is opened by the payload that makes the request. -/
theorem begunBy_of_mem_jobs {routes : Registry Mode} {catalogue : Catalogue} {ms : List Move} {j : Job} {id : MessageId}
    (h : j ∈ ((start routes catalogue).run ms).jobs) (hd : j.duty.id? = some id) :
    (start routes catalogue).BegunBy ms id j := by
  rcases mem_jobs_run h with h | ⟨before, m, after, rfl, hb⟩
  · cases h
  · cases m with
    | receive payload =>
      have hr := Connection.receive_received ((start routes catalogue).run before).connection payload
      obtain ⟨⟨params, hp⟩, ha, hc, ht⟩ := hr.begun_of_ticket hb hd
      exact ⟨before, payload, params, after, rfl, hp, ha, hc, by rw [run_append]; exact Prod.ext rfl hb, ht⟩
    | finish n o =>
      obtain ⟨j', -, hj⟩ := Option.bind_eq_some_iff.mp hb
      have hn := Connection.ticket?_complete _ j' o j hj
      rw [Job.ticket?, hd] at hn
      cases hn
    | _ => cases hb

/-! ## How jobs end -/

/-- The open job that a move ends. -/
def closes (v : Conversation) : Move → Option Job
  | .finish n _ => v.jobs[n]?
  | _ => none

/-- The open jobs of a kind after a move are those before it, with the one that the move opens and without the one it ends. -/
theorem countP_jobs_step (v : Conversation) (m : Move) (p : Job → Bool) :
    (v.step m).jobs.countP p + (v.closes m).toList.countP p = v.jobs.countP p + (v.begins m).toList.countP p := by
  rcases m.kinds with ho | ⟨payload, rfl⟩ | ⟨n, o, rfl⟩ | rfl
  · rw [(step_of_isOurs ho v).2]
    cases m <;> first | rfl | cases ho
  · simp [step, absorb, closes, begins]
  · cases hj : v.jobs[n]? with
    | none => simp [step, closes, begins, hj]
    | some j =>
      obtain ⟨before, after, he, hi⟩ := eraseIdx_split hj
      simp only [step, absorb, closes, begins, hj, hi, Option.bind_some, List.countP_append, Option.toList_some]
      rw [he, List.countP_append, List.countP_cons, List.countP_cons, List.countP_nil]
      omega
  · rfl

/-- The open jobs of a kind after a run are those before it, with those that the run opens and without those it ends. -/
theorem countP_jobs_run (v : Conversation) (ms : List Move) (p : Job → Bool) :
    (v.run ms).jobs.countP p + (v.trace ms).countP (fun e => (e.1.closes e.2).any p) =
      v.jobs.countP p + (v.trace ms).countP fun e => (e.1.begins e.2).any p := by
  have hc (o : Option Job) : o.toList.countP p = if o.any p then 1 else 0 := by
    cases o <;> simp [List.countP_singleton]
  induction ms generalizing v with
  | nil => rfl
  | cons m ms ih =>
    have hs := countP_jobs_step v m p
    have hr := ih (v.step m)
    rw [hc, hc] at hs
    simp only [trace_cons, List.countP_cons, run_cons]
    omega

/-- Tokens are only made. -/
theorem tokens_le_step (v : Conversation) (m : Move) :
    v.connection.incoming.tokens ≤ (v.step m).connection.incoming.tokens := by
  rcases m.kinds with ho | ⟨payload, rfl⟩ | ⟨n, o, rfl⟩ | rfl
  · exact Nat.le_of_eq (by rw [(step_of_isOurs ho v).1.incoming])
  · exact (Connection.receive_received v.connection payload).tokens_le
  · simp only [step]
    split
    · rename_i j _
      exact Nat.le_of_eq (Connection.complete_tokens v.connection j o).symm
    · exact Nat.le_refl _
  · simp [step, Connection.teardown, Connection.enqueue_eq, Incoming.purge, Incoming.close]

/-- No row of moves takes a token back. -/
theorem tokens_le_run (v : Conversation) (ms : List Move) :
    v.connection.incoming.tokens ≤ (v.run ms).connection.incoming.tokens :=
  run_preserves (P := fun w => v.connection.incoming.tokens ≤ w.connection.incoming.tokens)
    (fun w m h => Nat.le_trans h (tokens_le_step w m)) ms v (Nat.le_refl _)

/-- A move that opens the job of a request makes the token of the job. -/
theorem token_of_begins {v : Conversation} {m : Move} {j : Job} (h : v.begins m = some j) {id : MessageId}
    (hd : j.duty.id? = some id) : j.token = .request v.connection.incoming.tokens := by
  cases m with
  | receive payload => exact ((Connection.receive_received v.connection payload).begun_of_ticket h hd).2.2.2
  | finish n o =>
    obtain ⟨j', -, hj⟩ := Option.bind_eq_some_iff.mp h
    have hn := Connection.ticket?_complete _ j' o j hj
    rw [Job.ticket?, hd] at hn
    cases hn
  | _ => cases h

/-- No later job has the ticket of a request whose token is made: what is open of it goes on until it is ended, once. -/
theorem countP_ticket_run (v : Conversation) (ms : List Move) (id : MessageId) {n : Nat}
    (hn : n < v.connection.incoming.tokens) :
    (v.run ms).jobs.countP (fun j => j.ticket? = some (id, .request n)) +
        (v.trace ms).countP (fun e => (e.1.closes e.2).any fun j => j.ticket? = some (id, .request n)) =
      v.jobs.countP fun j => j.ticket? = some (id, .request n) := by
  rw [countP_jobs_run, Nat.add_eq_left, List.countP_eq_zero]
  rintro ⟨w, m⟩ he hb
  obtain ⟨before, after, rfl, rfl⟩ := mem_trace_iff.mp he
  obtain ⟨j, hj, ht⟩ := (Option.any_eq_true _ _).mp hb
  obtain ⟨i, hi, ht⟩ := Option.map_eq_some_iff.mp (of_decide_eq_true ht)
  obtain ⟨-, ht⟩ := Prod.mk.inj ht
  have hk : (v.run before).connection.incoming.tokens = n := Token.request.inj ((token_of_begins hj hi).symm.trans ht)
  have hl := tokens_le_run v before
  omega

/-- The open job of a request is for a handler that there is, and its token was made. -/
theorem made_of_mem_jobs {routes : Registry Mode} {catalogue : Catalogue} {ms : List Move} {j : Job} {id : MessageId}
    (h : j ∈ ((start routes catalogue).run ms).jobs) (hd : j.duty.id? = some id) :
    routes.find? j.origin j.name = some j.mode ∧
      ∃ n, j.token = .request n ∧ n < ((start routes catalogue).run ms).connection.incoming.tokens := by
  obtain ⟨before, payload, params, after, rfl, -, -, -, hr, ht⟩ := begunBy_of_mem_jobs h hd
  have hm := (Connection.receive_received ((start routes catalogue).run before).connection payload).made_of_ticket
    (congrArg Prod.snd hr) hd
  rw [hr] at hm
  have hroutes : (((start routes catalogue).run before).connection.opened payload).routes = routes := routes_run _ before
  rw [hroutes] at hm
  refine ⟨hm.1, _, ht, ?_⟩
  have hle := tokens_le_run ((start routes catalogue).run (before ++ [.receive payload])) after
  rw [← run_append, List.append_assoc] at hle
  have hs : ((start routes catalogue).run (before ++ [.receive payload])).connection.incoming.tokens =
      ((start routes catalogue).run before).connection.incoming.tokens + 1 := hm.2
  rw [hs] at hle
  exact hle

end Conversation

end Parley
