import Parley.Registry

/-!
# What the calls of a registry come to

Features and commands are registered by calls, in any order, and a call may fail. One that fails leaves every table as it was
(`register_of_error`), and what stands in the tables is told by the calls that were taken: under each name the handler of the one call that
was taken for it (`find?_build_iff`), and the options of that call (`options_build_iff`). Whether a call is taken depends on itself and
on its own table alone (`takes_iff`).
-/

namespace Parley.Registry

variable {β : Type}

/-- A call that registers something. -/
inductive Entry (β : Type) where
  | builtin (method : String) (h : β)
  | feature (method : String) (h : β)
  | featureWith (method : String) (options : Except PayloadFault Json) (h : β)
  | command (name : String) (h : β)

namespace Entry

/-- The table that the call is about. -/
def origin : Entry β → Origin
  | .builtin .. => .builtin
  | .feature .. | .featureWith .. => .user
  | .command .. => .command

def name : Entry β → String
  | .builtin name _ | .feature name _ | .featureWith name _ _ | .command name _ => name

def handler : Entry β → β
  | .builtin _ h | .feature _ h | .featureWith _ _ h | .command _ h => h

/-- The call is in order by itself: its name is not blank, where that matters, and its options can be written. -/
def InOrder : Entry β → Prop
  | .builtin .. => True
  | .feature name _ | .command name _ => Text.isBlankText name = false
  | .featureWith name options _ => Text.isBlankText name = false ∧ ∃ v, options = .ok v

end Entry

/-- Registers what a call says. -/
def add (r : Registry β) : Entry β → Except RegistrationFault (Registry β)
  | .builtin method h => r.addBuiltin method h
  | .feature method h => r.addFeature method h
  | .featureWith method options h => r.addFeatureWith method options h
  | .command name h => r.addCommand name h

/-- A call for a feature of the user. -/
def registerFeature (r : Registry β) (method : String) (h : β) : Except RegistrationFault Unit × Registry β :=
  if Text.isBlankText method then (.error .blankFeature, r)
  else if r.features.contains method then (.error (.featureTaken method), r)
  else (.ok (), { r with features := r.features.insert method h })

/-- What a call comes to, and the registry behind it. The tables are changed one after the other, and what was changed when a fault is
found stays so. -/
def register (r : Registry β) : Entry β → Except RegistrationFault Unit × Registry β
  | .builtin method h =>
    if r.builtins.contains method then (.error (.featureTaken method), r)
    else (.ok (), { r with builtins := r.builtins.insert method h })
  | .feature method h => r.registerFeature method h
  | .featureWith method options h =>
    match options with
    | .error f => (.error (.badOptions method f), r)
    | .ok v =>
      match r.registerFeature method h with
      | (.error f, r) => (.error f, r)
      | (.ok (), r) => (.ok (), { r with options := r.options.insert method v })
  | .command name h =>
    if Text.isBlankText name then (.error .blankCommand, r)
    else if r.commands.contains name then (.error (.commandTaken name), r)
    else (.ok (), { r with commands := r.commands.insert name h })

/-- The registry behind some calls, one after another. -/
def build (r : Registry β) (entries : List (Entry β)) : Registry β := entries.foldl (fun r e => (r.register e).2) r

/-- The call does not fail. -/
def Takes (r : Registry β) (e : Entry β) : Prop := (r.register e).1 = .ok ()

/-- Of some calls, one after another, those that do not fail. -/
def taken (r : Registry β) : List (Entry β) → List (Entry β)
  | [] => []
  | e :: entries =>
    match r.register e with
    | (.ok (), r) => e :: r.taken entries
    | (.error _, r) => r.taken entries

variable {r : Registry β} {e : Entry β} {entries : List (Entry β)} {origin : Origin} {name : String} {h : β} {v : Json}
  {f : RegistrationFault}

theorem build_cons (r : Registry β) (e : Entry β) (entries : List (Entry β)) :
    r.build (e :: entries) = (r.register e).2.build entries := rfl

/-! ## One call -/

/-- The registry with what a call says, whatever it held before. -/
def put (r : Registry β) : Entry β → Registry β
  | .builtin method h => { r with builtins := r.builtins.insert method h }
  | .feature method h | .featureWith method (.error _) h => { r with features := r.features.insert method h }
  | .featureWith method (.ok v) h =>
    { r with features := r.features.insert method h, options := r.options.insert method v }
  | .command name h => { r with commands := r.commands.insert name h }

/-- All that a call can come to. -/
inductive Registers (r : Registry β) (e : Entry β) : Except RegistrationFault Unit × Registry β → Prop
  | taken (ho : e.InOrder) (hf : r.find? e.origin e.name = none) : Registers r e (.ok (), r.put e)
  | refused (f : RegistrationFault) (h : e.InOrder → r.find? e.origin e.name ≠ none) : Registers r e (.error f, r)

/-- A name is free in a table exactly when nothing is found under it. -/
theorem not_contains_iff {t : Table String β} : ¬ t.contains name = true ↔ t.find? name = none := by
  rw [Table.contains, Bool.not_eq_true, Option.isSome_eq_false_iff, Option.isNone_iff_eq_none]

/-- What a call for a feature of the user comes to. -/
theorem registerFeature_cases (r : Registry β) (method : String) (h : β) :
    (Text.isBlankText method = false ∧ r.features.find? method = none ∧
      r.registerFeature method h = (.ok (), { r with features := r.features.insert method h })) ∨
      (Text.isBlankText method = false → r.features.find? method ≠ none) ∧ ∃ f, r.registerFeature method h = (.error f, r) := by
  unfold registerFeature
  split
  · rename_i hb
    exact .inr ⟨by simp [hb], _, rfl⟩
  · rename_i hb
    split
    · rename_i hc
      exact .inr ⟨fun _ hn => not_contains_iff.mpr hn hc, _, rfl⟩
    · rename_i hc
      exact .inl ⟨Bool.eq_false_iff.mpr hb, not_contains_iff.mp hc, rfl⟩

/-- A call does what it says, or fails and leaves the registry as it is. -/
theorem registers_register (r : Registry β) (e : Entry β) : Registers r e (r.register e) := by
  cases e with
  | builtin method h =>
    simp only [register]
    split
    · rename_i hc
      exact .refused _ fun _ hn => not_contains_iff.mpr hn hc
    · rename_i hc
      exact .taken trivial (not_contains_iff.mp hc)
  | feature method h =>
    rw [register]
    rcases registerFeature_cases r method h with ⟨hb, hf, he⟩ | ⟨hn, f, he⟩
    · rw [he]
      exact .taken hb hf
    · rw [he]
      exact .refused f hn
  | featureWith method options h =>
    -- Options that cannot be written down are found out before the method is looked at.
    cases options with
    | error f =>
      refine .refused _ ?_
      rintro ⟨-, v, hv⟩
      cases hv
    | ok v =>
      rw [register]
      rcases registerFeature_cases r method h with ⟨hb, hf, he⟩ | ⟨hn, f, he⟩
      · rw [he]
        exact .taken ⟨hb, v, rfl⟩ hf
      · rw [he]
        exact .refused f fun ho => hn ho.1
  | command name h =>
    simp only [register]
    split
    · rename_i hb
      exact .refused _ (by simp [Entry.InOrder, hb])
    · rename_i hb
      split
      · rename_i hc
        exact .refused _ fun _ hn => not_contains_iff.mpr hn hc
      · rename_i hc
        exact .taken (Bool.eq_false_iff.mpr hb) (not_contains_iff.mp hc)

/-- What a registration comes to is what the call comes to. -/
theorem add_eq_register (r : Registry β) (e : Entry β) : r.add e = (r.register e).1.map fun _ => (r.register e).2 := by
  have feature (method : String) (h : β) :
      r.addFeature method h = (r.registerFeature method h).1.map fun _ => (r.registerFeature method h).2 := by
    unfold addFeature registerFeature
    split
    · rfl
    · split <;> rfl
  cases e with
  | builtin method h =>
    simp only [add, addBuiltin, register]
    split <;> rfl
  | feature method h => exact feature method h
  | featureWith method options h =>
    cases options with
    | error f => rfl
    | ok v =>
      simp only [add, addFeatureWith, register, feature]
      rcases registerFeature_cases r method h with ⟨-, -, he⟩ | ⟨-, f, he⟩
      · rw [he]
        rfl
      · rw [he]
        rfl
  | command name h =>
    simp only [add, addCommand, register]
    split
    · rfl
    · split <;> rfl

/-- A call that fails leaves every table as it was. -/
theorem register_of_error (hf : (r.register e).1 = .error f) : (r.register e).2 = r := by
  cases hc : r.register e with
  | mk x r' =>
    have h := registers_register r e
    rw [hc] at h hf
    cases h with
    | taken => cases hf
    | refused => rfl

/-- A call is taken exactly when it is in order, and its name is free in its own table. -/
theorem takes_iff : r.Takes e ↔ e.InOrder ∧ r.find? e.origin e.name = none := by
  rw [Takes]
  have h := registers_register r e
  cases hc : r.register e with
  | mk x r' =>
    rw [hc] at h
    cases h with
    | taken ho hf => exact ⟨fun _ => ⟨ho, hf⟩, fun _ => rfl⟩
    | refused f hn => exact ⟨nofun, fun ⟨ho, hf⟩ => absurd hf (hn ho)⟩

/-- The registry behind a call that is taken. -/
theorem Takes.register (h : r.Takes e) : r.register e = (.ok (), r.put e) := by
  have hc := registers_register r e
  rw [Takes] at h
  cases he : r.register e with
  | mk x r' =>
    rw [he] at hc h
    cases hc with
    | taken => rfl
    | refused => cases h

/-- The registry behind a call that is not taken. -/
theorem register_of_not_takes (h : ¬ r.Takes e) : (r.register e).2 = r := by
  cases hc : (r.register e).1 with
  | ok u => exact absurd hc h
  | error f => exact register_of_error hc

/-- What is found where a call has put something. -/
theorem find?_put (ho : e.InOrder) : (r.put e).find? origin name =
    if e.origin = origin ∧ e.name = name then some e.handler else r.find? origin name := by
  cases e with
  | builtin method h => cases origin <;> simp [put, find?, Entry.origin, Entry.name, Entry.handler, Table.find?_insert, eq_comm]
  | feature method h => cases origin <;> simp [put, find?, Entry.origin, Entry.name, Entry.handler, Table.find?_insert, eq_comm]
  | featureWith method options h =>
    obtain ⟨-, v, rfl⟩ := ho
    cases origin <;> simp [put, find?, Entry.origin, Entry.name, Entry.handler, Table.find?_insert, eq_comm]
  | command name h => cases origin <;> simp [put, find?, Entry.origin, Entry.name, Entry.handler, Table.find?_insert, eq_comm]

/-- Options stand only beside the feature that was registered with them. -/
def Paired (r : Registry β) : Prop := ∀ method, r.features.find? method = none → r.options.find? method = none

/-- What is found behind a call was found before, or is what was registered. -/
theorem find?_register_iff : (r.register e).2.find? origin name = some h ↔
    r.find? origin name = some h ∨ r.Takes e ∧ e.origin = origin ∧ e.name = name ∧ e.handler = h := by
  by_cases ht : r.Takes e
  · obtain ⟨ho, hf⟩ := takes_iff.mp ht
    rw [ht.register, find?_put ho]
    split
    · rename_i hn
      obtain ⟨rfl, rfl⟩ := hn
      simp [ht, hf]
    · rename_i hn
      refine ⟨.inl, ?_⟩
      rintro (hf' | ⟨-, ho', hn', -⟩)
      · exact hf'
      · exact absurd ⟨ho', hn'⟩ hn
  · rw [register_of_not_takes ht]
    simp [ht]

/-- The options behind a call were there before, or are those that were registered. -/
theorem options_register_iff (hp : r.Paired) : (r.register e).2.options.find? name = some v ↔
    r.options.find? name = some v ∨ r.Takes e ∧ ∃ h, e = .featureWith name (.ok v) h := by
  by_cases ht : r.Takes e
  · obtain ⟨ho, hf⟩ := takes_iff.mp ht
    rw [ht.register]
    cases e with
    | featureWith method options h =>
      obtain ⟨-, w, rfl⟩ := ho
      simp only [put, Table.find?_insert]
      split
      · rename_i hn
        subst hn
        have hnone : r.options.find? name = none := hp name hf
        simp [hnone, ht]
      · rename_i hn
        simp [Ne.symm hn]
    | _ => simp [put]
  · rw [register_of_not_takes ht]
    simp [ht]

/-- A call keeps options with features. -/
theorem Paired.register (hp : r.Paired) (e : Entry β) : (r.register e).2.Paired := by
  intro method hnone
  refine Option.eq_none_iff_forall_ne_some.mpr fun v hv => ?_
  rcases (options_register_iff hp).mp hv with hv | ⟨ht, h, rfl⟩
  · cases hf : r.features.find? method with
    | none =>
      rw [hp method hf] at hv
      cases hv
    | some h =>
      have hf' : (r.register e).2.find? .user method = some h := find?_register_iff.mpr (.inl hf)
      rw [find?, hnone] at hf'
      cases hf'
  · have hf : (r.register (.featureWith method (.ok v) h)).2.find? .user method = some h :=
      find?_register_iff.mpr (.inr ⟨ht, rfl, rfl, rfl⟩)
    rw [find?, hnone] at hf
    cases hf

theorem paired_nil : ({} : Registry β).Paired := fun _ _ => rfl

/-! ## Rows of calls -/

/-- A call that is taken is among those taken. -/
theorem taken_of_takes (h : r.Takes e) (entries : List (Entry β)) : r.taken (e :: entries) = e :: (r.register e).2.taken entries := by
  rw [taken, h.register]

/-- A call that fails is not. -/
theorem taken_of_not_takes (h : ¬ r.Takes e) (entries : List (Entry β)) : r.taken (e :: entries) = r.taken entries := by
  cases hc : r.register e with
  | mk x r' =>
    have hr := register_of_not_takes h
    rw [Takes] at h
    rw [hc] at h hr
    obtain rfl : r' = r := hr
    cases x with
    | ok u => exact absurd rfl h
    | error f => rw [taken, hc]

/-- What is true of those that are taken of a longer row of calls. -/
theorem mem_taken_cons {e' : Entry β} : e' ∈ r.taken (e :: entries) ↔ r.Takes e ∧ e' = e ∨ e' ∈ (r.register e).2.taken entries := by
  by_cases ht : r.Takes e
  · simp [taken_of_takes ht, ht]
  · rw [taken_of_not_takes ht, register_of_not_takes ht]
    simp [ht]

theorem mem_of_mem_taken {e' : Entry β} (hm : e' ∈ r.taken entries) : e' ∈ entries := by
  induction entries generalizing r with
  | nil => exact hm
  | cons e entries ih =>
    rcases mem_taken_cons.mp hm with ⟨-, rfl⟩ | hm
    · exact List.mem_cons_self
    · exact List.mem_cons_of_mem _ (ih hm)

/-- The registry behind some calls is what the calls that were taken make of it. -/
theorem foldlM_taken (r : Registry β) (entries : List (Entry β)) : (r.taken entries).foldlM add r = .ok (r.build entries) := by
  induction entries generalizing r with
  | nil => rfl
  | cons e entries ih =>
    by_cases ht : r.Takes e
    · rw [taken_of_takes ht, List.foldlM_cons, add_eq_register, ht.register]
      have := ih (r.put e)
      rw [build_cons, ht.register]
      exact this
    · rw [taken_of_not_takes ht, build_cons, register_of_not_takes ht]
      exact ih r

/-- What is found behind some calls was found before, or is what one of those that were taken has registered. -/
theorem find?_build_iff : (r.build entries).find? origin name = some h ↔
    r.find? origin name = some h ∨ ∃ e ∈ r.taken entries, e.origin = origin ∧ e.name = name ∧ e.handler = h := by
  induction entries generalizing r with
  | nil => simp [build, taken]
  | cons e entries ih =>
    simp only [build_cons, ih, find?_register_iff, mem_taken_cons, or_assoc, or_and_right, exists_or, and_assoc, exists_and_left,
      exists_eq_left]

/-- What is found stays, whatever calls follow. -/
theorem find?_build_of_find? (hf : r.find? origin name = some h) (entries : List (Entry β)) :
    (r.build entries).find? origin name = some h := find?_build_iff.mpr (.inl hf)

/-- The options behind some calls were there before, or are those of one that was taken. -/
theorem options_build_iff (hp : r.Paired) : (r.build entries).options.find? name = some v ↔
    r.options.find? name = some v ∨ ∃ h, .featureWith name (.ok v) h ∈ r.taken entries := by
  induction entries generalizing r with
  | nil => simp [build, taken]
  | cons e entries ih =>
    simp only [build_cons, ih (hp.register e), options_register_iff hp, mem_taken_cons, or_assoc, exists_or, exists_and_left, eq_comm]

/-- So do any number of calls. -/
theorem Paired.build (hp : r.Paired) (entries : List (Entry β)) : (r.build entries).Paired := by
  induction entries generalizing r with
  | nil => exact hp
  | cons e entries ih => exact ih (hp.register e)

/-! ## Names in order -/

/-- Names in order, without those that stand there twice, are in strict order. -/
theorem pairwise_eraseDups : ∀ {names : List String}, names.Pairwise (· ≤ ·) → names.eraseDups.Pairwise (· < ·)
  | [], _ => .nil
  | name :: names, h => by
    obtain ⟨hle, h⟩ := List.pairwise_cons.mp h
    rw [List.eraseDups_cons, List.pairwise_cons]
    refine ⟨fun other hm => ?_, pairwise_eraseDups (h.filter _)⟩
    obtain ⟨hm, hne⟩ := List.mem_filter.mp (List.mem_eraseDups.mp hm)
    exact Std.lt_of_le_of_ne (hle other hm) fun he => by simp [he] at hne
termination_by names => names.length
decreasing_by exact Nat.lt_succ_of_le (List.length_filter_le _ _)

/-- Sorted names are in strict order. -/
theorem sortNames_pairwise (names : List String) : (sortNames names).Pairwise (· < ·) := by
  have htrans (a b c : String) (hab : decide (a ≤ b) = true) (hbc : decide (b ≤ c) = true) : decide (a ≤ c) = true :=
    decide_eq_true (String.le_trans (of_decide_eq_true hab) (of_decide_eq_true hbc))
  have htotal (a b : String) : (decide (a ≤ b) || decide (b ≤ a)) = true := by
    simpa only [Bool.or_eq_true, decide_eq_true_eq] using String.le_total a b
  exact pairwise_eraseDups ((List.pairwise_mergeSort htrans htotal names).imp of_decide_eq_true)

/-- No name is lost, and none is new. -/
theorem mem_sortNames {names : List String} : name ∈ sortNames names ↔ name ∈ names := by
  rw [sortNames, List.mem_eraseDups, List.mem_mergeSort]

/-- The keys of a table are the names under which it holds something. -/
theorem mem_keys_iff {t : Table String β} : name ∈ t.keys ↔ (t.find? name).isSome = true := by
  rw [Option.isSome_iff_exists]
  simp only [Table.keys, List.mem_map, Prod.exists, exists_and_right, exists_eq_right, Table.mem_entries_iff]

/-- The commands are those with a handler. -/
theorem mem_commandNames : name ∈ r.commandNames ↔ (r.find? .command name).isSome = true := by
  rw [commandNames, mem_sortNames, mem_keys_iff, find?]

/-- The methods are those with a handler of either kind. -/
theorem mem_methods :
    name ∈ r.methods ↔ (r.find? .builtin name).isSome = true ∨ (r.find? .user name).isSome = true := by
  rw [methods, mem_sortNames, List.mem_append, mem_keys_iff, mem_keys_iff, find?, find?]

/-- What serves a method is the builtin feature, or else the user's. -/
theorem lookup_eq_or (r : Registry β) (method : String) :
    r.lookup method = (r.find? .builtin method).or (r.find? .user method) := by
  rw [lookup, serving?]
  cases r.find? .builtin method with
  | some h => rfl
  | none => cases r.find? .user method <;> rfl

end Parley.Registry
