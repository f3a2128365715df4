import Parley.Proofs.Conversation.Answers
import Parley.Proofs.Message.Written

/-!
# Cancelling requests of the peer

What the notification `$/cancelRequest` does for the id of a request that is being served. It fires the token of this request and
no other, provided that the catalogue lets the notification through (`Catalogue.admitsCancel`). The untyped catalogue always does.
The one of the language server protocol knows the ids of a cancellation as texts and 32-bit numbers, while the id of a request may
be any number of 64 bits: a request with a larger id cannot be cancelled.
-/

namespace Parley

/-- The fields of the notification that cancels the request of an id. -/
def Message.cancelFields (id : MessageId) : List (String × Json) :=
  [("jsonrpc", .str "2.0"), ("method", .str "$/cancelRequest"), ("params", .obj [("id", id.toJson)])]

/-- The notification that cancels the request of an id, as a side sends it. -/
def Message.cancellation (id : MessageId) : Message :=
  .notification Connection.cancelMethod (Json.object [("id", id.toJson)])

/-- The fields of the notification are read in the order in which they are written. -/
theorem Message.normalFields_cancellation (id : MessageId) :
    Json.normalFields [] (Message.cancellation id).fields = Message.cancelFields id := by
  cases id <;> rfl

/-- The notification that a side sends is read as these fields. -/
theorem Message.parse_cancellation {id : MessageId} (h : id.IsAccepted) :
    Json.parse (Message.cancellation id).encode = .ok (.obj (Message.cancelFields id)) := by
  have hf : (Message.cancellation id).fields.all (fun f => f.2.fits 126) = true := by
    simp [cancellation, fields, paramsField, Json.object, Json.sortFields, Json.insertField, Json.fits, h.fits]
  rw [parse_encode hf, normalFields_cancellation]

namespace Catalogue

/-- The catalogue lets the cancellation of the request of an id through. -/
def admitsCancel (c : Catalogue) (id : MessageId) : Bool :=
  match c.notification? Connection.cancelMethod with
  | some shape => shape.admits (.obj [("id", id.toJson)])
  | none => true

/-- The ids that a cancellation of the language server protocol may name: texts, and numbers of 32 bits. -/
def isNarrow : MessageId → Bool
  | .str _ => true
  | .num n => -Nat.pow 2 31 ≤ n ∧ n < Nat.pow 2 31

/-- A catalogue that does not know the notification lets it through. -/
theorem admitsCancel_of_unknown {c : Catalogue} (h : c.notification? Connection.cancelMethod = none) (id : MessageId) :
    c.admitsCancel id = true := by
  simp [admitsCancel, h]

/-- The catalogue of the language server protocol lets the cancellations of narrow ids through. -/
theorem admitsCancel_languageServer (id : MessageId) : languageServer.admitsCancel id = isNarrow id := by
  have hs : languageServer.notification? Connection.cancelMethod =
      some (Shape.struct "CancelParams" [Shape.req "id" Schema.numberOrString]) := rfl
  rw [admitsCancel, hs]
  cases id with
  | str s => rfl
  | num n =>
    have hr : Shape.readInt "i32" (-Nat.pow 2 31) (Nat.pow 2 31 - 1) (.num (.int n)) =
        if -Nat.pow 2 31 ≤ n ∧ n ≤ Nat.pow 2 31 - 1 then .ok (.num (.int n))
        else .error (.invalidValue (.num (.int n)) "i32") := rfl
    have hn : isNarrow (.num n) = decide (-Nat.pow 2 31 ≤ n ∧ n ≤ Nat.pow 2 31 - 1) := by
      simp only [isNarrow, decide_eq_decide]
      omega
    rw [hn]
    by_cases h : -Nat.pow 2 31 ≤ n ∧ n ≤ Nat.pow 2 31 - 1
    · rw [if_pos h] at hr
      simp only [MessageId.toJson, Json.int, Shape.admits, Shape.struct, Shape.req, Shape.read, Shape.collect, Shape.readNamed,
        Shape.fillMissing, Shape.readInlined, Shape.keep, Schema.numberOrString, Shape.i32, Shape.readFirst, hr, h]
      rfl
    · rw [if_neg h] at hr
      simp only [MessageId.toJson, Json.int, Shape.admits, Shape.struct, Shape.req, Shape.read, Shape.collect, Shape.readNamed,
        Shape.fillMissing, Shape.readInlined, Shape.keep, Schema.numberOrString, Shape.i32, Shape.readFirst, hr, h]
      rfl

end Catalogue

/-- What the catalogue lets through has the shape that it knows, if it knows one. -/
theorem Catalogue.check_cancel (c : Catalogue) (id : MessageId) :
    (Message.check (c.notification? Connection.cancelMethod) (.obj [("id", id.toJson)])).isOk = c.admitsCancel id := by
  rw [admitsCancel]
  cases c.notification? Connection.cancelMethod with
  | none => rfl
  | some shape =>
    simp only [Message.check, Shape.admits]
    cases shape.read (.obj [("id", id.toJson)]) <;> rfl

namespace Connection

/-- How the cancellation of the request of an id is read. -/
theorem reads_cancellation {c : Connection} {payload : Bytes} {id : MessageId}
    (hp : Json.parse payload = .ok (.obj (Message.cancelFields id))) :
    c.reads payload =
      match Message.check (c.catalogue.notification? cancelMethod) (.obj [("id", id.toJson)]) with
      | .ok () => .ok (.notification cancelMethod (.obj [("id", id.toJson)]))
      | .error m => .error (.invalidParams none cancelMethod m) := by
  rw [← Message.normalFields_cancellation] at hp
  have hn : (Json.object [("id", id.toJson)]).normal = .obj [("id", id.toJson)] := by
    simp [Json.object, Json.sortFields, Json.insertField, Json.normal, Json.normalFields]
  have hd := congrArg Prod.fst (Message.decode_notification (c := c.catalogue) hp c.expected)
  rw [hn] at hd
  exact hd

/-- A cancellation cancels the request that it names if the catalogue lets it through. It gives no job. -/
theorem receive_cancellation {c : Connection} {payload : Bytes} {id : MessageId} (hid : id.IsAccepted)
    (hp : Json.parse payload = .ok (.obj (Message.cancelFields id))) (hl : c.lifecycle ≠ .exited) :
    (c.receive payload).1.incoming = (if c.catalogue.admitsCancel id then (c.incoming.cancel id).2 else c.incoming) ∧
      (c.receive payload).2 = none := by
  have hr := reads_cancellation (c := c) hp
  rw [← Catalogue.check_cancel]
  cases hc : Message.check (c.catalogue.notification? cancelMethod) (.obj [("id", id.toJson)]) with
  | error m =>
    rw [hc] at hr
    rw [receive_of_error hr, refuse_eq]
    exact ⟨rfl, rfl⟩
  | ok u =>
    rw [hc] at hr
    have hf : ((Json.obj [("id", id.toJson)]).field? "id").bind MessageId.ofJson? = some id := hid
    rw [receive_of_ok hr, if_neg hl]
    simp only [receiveMessage, receiveNotification, if_true, receiveCancel, hf, and_true]
    rfl

/-- An id that is in use after a payload was in use before it, or the payload asks for an answer under it. -/
theorem Received.contains {c : Connection} {d : Except DecodeFault Message} {s : Step} (h : Received c d s) {i : MessageId}
    (hi : s.1.incoming.contains i = true) : c.incoming.contains i = true ∨ Message.asked d = some i := by
  cases h with
  | faulty f =>
    rw [refuse_eq] at hi
    exact .inl hi
  | refused h =>
    rw [send_eq] at hi
    exact .inl hi
  | @begun id method params n incoming j ha hb ht hm hn =>
    have hi : incoming.contains i = true := hi
    rw [Incoming.contains_begin hb, Bool.or_eq_true, decide_eq_true_eq] at hi
    exact hi.symm.imp_right fun h => by rw [h]; rfl
  | @closed id params n incoming ha hb hs =>
    simp only [completeShutdown_eq, Incoming.contains_finish, Incoming.contains_cancelAllExcept, Incoming.contains_begin hb,
      Bool.and_eq_true, Bool.or_eq_true, decide_eq_true_eq] at hi
    exact hi.2.symm.imp_right fun h => by rw [h]; rfl
  | cancelled params h =>
    simp only [receiveCancel] at hi
    split at hi
    · exact .inl (by simpa using hi)
    · exact .inl hi
  | left params h hs =>
    rw [completeExit_eq] at hi
    exact .inl hi
  | answered id v h => exact .inl hi
  | failed id e h => exact .inl hi
  | _ => exact .inl hi

/-- A token that has fired stays fired, whatever payload comes. -/
theorem Received.isFired {c : Connection} {d : Except DecodeFault Message} {s : Step} (h : Received c d s) {t : Token}
    (ht : c.isFired t = true) : s.1.isFired t = true := by
  rw [Connection.isFired] at ht ⊢
  cases h with
  | faulty f => rwa [refuse_eq]
  | refused h => rwa [send_eq]
  | begun j ha hb hm hn hr => exact (Incoming.isFired_begin hb t).trans ht
  | closed ha hb hs =>
    simp only [completeShutdown_eq, Incoming.isFired_finish, Incoming.isFired_cancelAllExcept]
    exact .inl ((Incoming.isFired_begin hb t).trans ht)
  | cancelled params h =>
    simp only [receiveCancel]
    split
    · exact (Incoming.isFired_cancel _ _ _).mpr (.inl ht)
    · exact ht
  | left params h hs => rwa [completeExit_eq]
  | answered id v h => exact ht
  | failed id e h => exact ht
  | _ => exact ht

/-- A token that has fired stays fired, whatever job ends. -/
theorem isFired_complete {c : Connection} {t : Token} (h : c.isFired t = true) (j : Job) (o : Outcome) :
    (c.complete j o).1.isFired t = true := by
  rw [Connection.isFired] at h ⊢
  unfold complete
  cases j.duty with
  | request id => simpa [finish_eq] using h
  | shutdown id =>
    simp only [completeShutdown_eq, Incoming.isFired_finish, Incoming.isFired_cancelAllExcept]
    exact .inl h
  | exit => simpa [completeExit_eq, noteFailure_eq] using h
  | builtin => simpa [noteFailure_eq] using h
  | notification => simpa [noteFailure_eq] using h

/-- An id that is in use after the outcome of a job was in use before it. -/
theorem contains_of_complete {c : Connection} {j : Job} {o : Outcome} {i : MessageId}
    (h : (c.complete j o).1.incoming.contains i = true) : c.incoming.contains i = true := by
  unfold complete at h
  cases hd : j.duty with
  | request id =>
    simp only [hd, finish_eq, Incoming.contains_finish, Bool.and_eq_true] at h
    exact h.2
  | shutdown id =>
    simp only [hd, completeShutdown_eq, Incoming.contains_finish, Bool.and_eq_true] at h
    exact h.2
  | exit => simpa [hd, completeExit_eq, noteFailure_eq] using h
  | builtin => simpa [hd, noteFailure_eq] using h
  | notification => simpa [hd, noteFailure_eq] using h

end Connection

/-- An id under which a payload asks for an answer is accepted. -/
theorem Message.isAccepted_of_asker? {payload : Bytes} {id : MessageId} (h : asker? payload = some id) : id.IsAccepted := by
  obtain ⟨fields, -, hf⟩ := Option.bind_eq_some_iff.mp h
  unfold askerOf at hf
  split at hf
  · obtain ⟨v, -, hv⟩ := Option.bind_eq_some_iff.mp hf
    exact MessageId.isAccepted_of_ofJson? hv
  · cases hf

namespace Conversation

/-- The ids in use are accepted ones. -/
def Accepts (v : Conversation) : Prop := ∀ id, v.connection.incoming.contains id = true → id.IsAccepted

/-- What may be cancelled later may be cancelled behind any move. -/
theorem Accepts.step {v : Conversation} (h : v.Accepts) (m : Move) : (v.step m).Accepts := by
  intro id hc
  rcases m.kinds with ho | ⟨payload, rfl⟩ | ⟨n, o, rfl⟩ | rfl
  · rw [(step_of_isOurs ho v).1.incoming] at hc
    exact h id hc
  · rcases (Connection.receive_received v.connection payload).contains hc with hc | ha
    · exact h id hc
    · rw [Connection.reads, Message.asked_decode] at ha
      exact Message.isAccepted_of_asker? ha
  · simp only [Conversation.step] at hc
    split at hc
    · exact h id (Connection.contains_of_complete hc)
    · exact h id hc
  · simp [Conversation.step, Connection.teardown, Connection.enqueue_eq, Incoming.purge, Incoming.close, Incoming.contains,
      Table.contains] at hc

/-- And behind any number of moves. -/
theorem Accepts.run {v : Conversation} (h : v.Accepts) (ms : List Move) : (v.run ms).Accepts :=
  run_preserves (fun _ m h => h.step m) ms v h

/-- A token that has fired stays fired. -/
theorem isFired_step {v : Conversation} {t : Token} (h : v.connection.isFired t = true) (m : Move) :
    (v.step m).connection.isFired t = true := by
  rcases m.kinds with ho | ⟨payload, rfl⟩ | ⟨n, o, rfl⟩ | rfl
  · rwa [Connection.isFired, (step_of_isOurs ho v).1.incoming]
  · exact (Connection.receive_received v.connection payload).isFired h
  · simp only [step]
    split
    · exact Connection.isFired_complete h _ o
    · exact h
  · exact Incoming.isFired_of_closed (by simp [step, Connection.teardown, Connection.enqueue_eq, Incoming.close]) t

/-- A token that has fired stays fired. -/
theorem isFired_run {v : Conversation} {t : Token} (h : v.connection.isFired t = true) (ms : List Move) :
    (v.run ms).connection.isFired t = true :=
  run_preserves (P := fun w => w.connection.isFired t = true) (fun _ m h => isFired_step h m) ms v h

/-- What a cancellation does at any point of any run before `exit`, for the id of a request that is being served, in four parts.
1. Of all tokens, it fires that of the request, and it does so exactly if the catalogue lets the notification through.
2. The requests being served and the open jobs stay.
3. A catalogue that does not know the notification lets it through, whatever the id; the catalogue of the language server
   protocol does so exactly if the id is a text or a number of 32 bits.
4. The notification is such a payload as a side sends it. -/
theorem cancellation_fires_iff_admitted (routes : Registry Mode) (catalogue : Catalogue) (ms : List Move) (id : MessageId)
    (n : Nat) (payload : Bytes) (hl : ((start routes catalogue).run ms).connection.lifecycle ≠ .exited)
    (hf : ((start routes catalogue).run ms).connection.incoming.entries.find? id = some n)
    (hp : Json.parse payload = .ok (.obj (Message.cancelFields id))) :
    let v := (start routes catalogue).run ms
    let w := v.step (.receive payload)
    (∀ t, w.connection.isFired t = true ↔
      v.connection.isFired t = true ∨ t = .request n ∧ catalogue.admitsCancel id = true) ∧
    (w.connection.incoming.entries = v.connection.incoming.entries ∧ w.jobs = v.jobs) ∧
    ((catalogue.notification? Connection.cancelMethod = none → catalogue.admitsCancel id = true) ∧
      Catalogue.languageServer.admitsCancel id = Catalogue.isNarrow id) ∧
    Json.parse (Message.cancellation id).encode = .ok (.obj (Message.cancelFields id)) := by
  intro v w
  have hid : id.IsAccepted := by
    have h0 : (start routes catalogue).Accepts := fun _ hc => by cases hc
    exact h0.run ms id (Incoming.contains_eq_true_iff.mpr ⟨n, hf⟩)
  have hc : v.connection.catalogue = catalogue := catalogue_run _ ms
  obtain ⟨hi, hj⟩ := Connection.receive_cancellation hid hp hl
  rw [hc] at hi
  have hw : w.connection.incoming =
      if catalogue.admitsCancel id then (v.connection.incoming.cancel id).2 else v.connection.incoming := hi
  refine ⟨fun t => ?_, ⟨?_, ?_⟩, ⟨fun h => Catalogue.admitsCancel_of_unknown h id, Catalogue.admitsCancel_languageServer id⟩,
    Message.parse_cancellation hid⟩
  · rw [Connection.isFired, hw]
    cases catalogue.admitsCancel id with
    | false => simp [Connection.isFired]
    | true =>
      rw [if_pos rfl, Incoming.isFired_cancel]
      simp [Connection.isFired, hf, v]
  · rw [hw]
    split
    · exact Incoming.cancel_entries _ _
    · rfl
  · have hj : (v.connection.receive payload).2 = none := hj
    simp [w, step, absorb, hj]

/-- A request whose id is a number beyond 32 bits is being served. -/
def wideRequest : List Move := [.receive (Message.request (.num 2147483648) "slow" .null).encode]

/-- With the catalogue of the language server protocol, the request of `wideRequest` cannot be cancelled. -/
theorem cancellation_misses_wideRequest :
    ((start slowRoutes .languageServer).run wideRequest).connection.lifecycle = .active ∧
    ((start slowRoutes .languageServer).run wideRequest).connection.incoming.entries.find? (.num 2147483648) = some 0 ∧
    Json.parse (Message.cancellation (.num 2147483648)).encode = .ok (.obj (Message.cancelFields (.num 2147483648))) ∧
    (((start slowRoutes .languageServer).run wideRequest).step
      (.receive (Message.cancellation (.num 2147483648)).encode)).connection.isFired (.request 0) = false :=
  ⟨by decide +kernel, by decide +kernel, Message.parse_cancellation rfl, by decide +kernel⟩

/-- With the untyped catalogue, it can. -/
theorem cancellation_fires_iff_admitted_wideRequest :
    ((start slowRoutes .untyped).run wideRequest).connection.lifecycle ≠ .exited ∧
    ((start slowRoutes .untyped).run wideRequest).connection.incoming.entries.find? (.num 2147483648) = some 0 ∧
    (((start slowRoutes .untyped).run wideRequest).step
      (.receive (Message.cancellation (.num 2147483648)).encode)).connection.isFired (.request 0) = true :=
  have hl : ((start slowRoutes .untyped).run wideRequest).connection.lifecycle ≠ .exited := by decide +kernel
  have hf : ((start slowRoutes .untyped).run wideRequest).connection.incoming.entries.find? (.num 2147483648) = some 0 := by
    decide +kernel
  have h := cancellation_fires_iff_admitted slowRoutes .untyped wideRequest (.num 2147483648) 0 _ hl hf
    (Message.parse_cancellation rfl)
  ⟨hl, hf, (h.1 (.request 0)).mpr (.inr ⟨rfl, h.2.2.1.1 rfl⟩)⟩

end Conversation

end Parley
