import Parley.Message.Decode
import Parley.Proofs.Json.Proper

/-!
# Error objects

An error is described by an object with its code and its message, and perhaps data, or by the list of the two or three
(`ResponseError.Describes`). That is what the decoder takes for an error, and it reads the error that is described
(`ResponseError.ofJson_eq_ok_iff`). An error that is written describes itself, but for data that is null
(`ResponseError.describes_written`).
-/

namespace Parley

namespace Json

/-- A field is found in the first part, or in the second. -/
theorem lookupField_append (name : String) (fields more : List (String × Json)) :
    lookupField name (fields ++ more) = (lookupField name fields).or (lookupField name more) := by
  simp only [lookupField, List.find?_append]
  cases fields.find? fun f => f.1 = name <;> rfl

/-- Of fields that are put in one by one the last of each name is found. -/
theorem lookupField_sortFields (name : String) (fields : List (String × Json)) :
    lookupField name (sortFields fields) = lookupField name fields.reverse := by
  have hfold (seen : List (String × Json)) : lookupField name (fields.foldl (fun acc f => insertField f.1 f.2 acc) seen) =
      (lookupField name fields.reverse).or (lookupField name seen) := by
    induction fields generalizing seen with
    | nil => rfl
    | cons f fields ih =>
      rw [List.foldl_cons, ih, lookupField_insertField, List.reverse_cons, lookupField_append]
      by_cases hf : name = f.1
      · simp [hf, lookupField_cons]
      · simp [hf, Ne.symm hf, lookupField_cons]
  rw [sortFields, hfold, lookupField_nil, Option.or_none]

/-- A field is not found just if none has the name. -/
theorem lookupField_eq_none_iff {name : String} {fields : List (String × Json)} :
    lookupField name fields = none ↔ ∀ f ∈ fields, f.1 ≠ name := by
  simp [lookupField]

end Json

namespace Shape

section Collect

variable {field : String → Json → Except Mismatch (List (String × Json))} {given own : List (String × Json)}

theorem collect_cons_eq_ok_iff {f : String × Json} :
    collect field (f :: given) = .ok own ↔
      ∃ part rest, field f.1 f.2 = .ok part ∧ collect field given = .ok rest ∧ part ++ rest = own := by
  obtain ⟨name, v⟩ := f
  rw [collect]
  cases field name v with
  | error m => simp [bind, Except.bind]
  | ok part => cases collect field given <;> simp [bind, Except.bind, pure, Except.pure]

/-- Fields are collected if none of them is refused. -/
theorem exists_collect_iff : (∃ own, collect field given = .ok own) ↔ ∀ f ∈ given, ∃ part, field f.1 f.2 = .ok part := by
  induction given with
  | nil => simp [collect]
  | cons f given ih =>
    rw [List.forall_mem_cons, ← ih]
    constructor
    · rintro ⟨own, h⟩
      obtain ⟨part, rest, hf, hg, -⟩ := collect_cons_eq_ok_iff.mp h
      exact ⟨⟨part, hf⟩, rest, hg⟩
    · rintro ⟨⟨part, hf⟩, rest, hg⟩
      exact ⟨part ++ rest, collect_cons_eq_ok_iff.mpr ⟨part, rest, hf, hg, rfl⟩⟩

/-- Where each field gives fields of its own name only, what is collected under a name is what the field of that name gives. -/
theorem lookupField_collect (hf : ∀ name v part, field name v = .ok part → ∀ f ∈ part, f.1 = name) (hg : Json.Ordered given)
    (h : collect field given = .ok own) (name : String) :
    Json.lookupField name own.reverse =
      (Json.lookupField name given).bind fun v =>
        (field name v).toOption.bind fun part => Json.lookupField name part.reverse := by
  induction given generalizing own with
  | nil =>
    cases h
    rfl
  | cons g given ih =>
    obtain ⟨known, v⟩ := g
    obtain ⟨hlt, hgiven⟩ := List.pairwise_cons.mp hg
    obtain ⟨part, rest, hpart, hrest, rfl⟩ := collect_cons_eq_ok_iff.mp h
    rw [List.reverse_append, Json.lookupField_append, ih hgiven hrest, Json.lookupField_cons]
    by_cases hn : known = name
    · subst hn
      have hnone : Json.lookupField known given = none := by
        refine Json.lookupField_eq_none_iff.mpr fun f hm he => ?_
        exact String.lt_irrefl known (by simpa [he] using hlt f hm)
      rw [hnone, Option.bind_none, Option.none_or, if_pos rfl]
      simp [hpart, Except.toOption]
    · have hnone : Json.lookupField name part.reverse = none := by
        refine Json.lookupField_eq_none_iff.mpr fun f hm he => ?_
        exact hn ((hf known v part hpart f (List.mem_reverse.mp hm)).symm.trans he)
      rw [hnone, Option.or_none, if_neg hn]

end Collect

/-- An item of a record given as a list is read as the field in its place. -/
theorem readListed_cons (expected : String) (f : Field) (rest : List Field) (v : Json) (items : List Json) (i : Nat) :
    readListed expected (f :: rest) (v :: items) i =
      (readNamed [f] f.1 v).bind fun own => (readListed expected rest items (i + 1)).bind fun r => .ok (own ++ r.1, r.2) := by
  obtain ⟨name, presence, s⟩ := f
  rw [readListed, readNamed, if_pos rfl]
  by_cases hn : (presence.admitsNull && v.isNull) = true
  · simp only [hn, if_true]
    rfl
  · simp only [hn, Bool.false_eq_true, if_false]
    cases s.read v <;> rfl

end Shape

namespace ResponseError

/-- A code is a number of 32 bits. -/
def IsCode (n : Int) : Prop := -Nat.pow 2 31 ≤ n ∧ n ≤ Nat.pow 2 31 - 1

/-- Data that is null is no data. -/
def given (data : Option Json) : Option Json := data.filter fun v => !v.isNull

/-- The error that a JSON value describes: by the names of its parts, or by their places. -/
inductive Describes : Json → ResponseError → Prop
  | object {fields code message} (hc : Json.lookupField "code" fields = some (.int code)) (hr : IsCode code)
      (hm : Json.lookupField "message" fields = some (.str message)) :
      Describes (.obj fields) ⟨code, message, given (Json.lookupField "data" fields)⟩
  | list {code message} {data : Option Json} (hr : IsCode code) :
      Describes (.arr (.int code :: .str message :: data.toList)) ⟨code, message, given data⟩

/-- The fields of an error. -/
def parts : List Shape.Field := [Shape.req "code" Shape.i32, Shape.req "message" .text, Shape.omissible "data" .any]

/-- What the decoder takes from a field of an error. -/
def part (name : String) (v : Json) : Except Mismatch (List (String × Json)) := Shape.readNamed parts name v

theorem part_code (v : Json) :
    part "code" v = (Shape.readInt "i32" (-Nat.pow 2 31) (Nat.pow 2 31 - 1) v).map fun v => [("code", v)] := rfl

theorem part_message (v : Json) : part "message" v = (Shape.text.read v).map fun v => [("message", v)] := rfl

theorem part_data (v : Json) : part "data" v = .ok (if v.isNull then [] else [("data", v)]) := by
  cases v <;> rfl

/-- Other fields are passed over. -/
theorem part_other {name : String} (hc : "code" ≠ name) (hm : "message" ≠ name) (hd : "data" ≠ name) (v : Json) :
    part name v = .ok [] := by
  simp [part, parts, Shape.readNamed, Shape.req, Shape.omissible, hc, hm, hd]

/-- A code is a whole number of 32 bits. -/
theorem part_code_eq_ok_iff {v : Json} {own : List (String × Json)} :
    part "code" v = .ok own ↔ ∃ code, v = .int code ∧ IsCode code ∧ own = [("code", v)] := by
  rw [part_code]
  constructor
  · intro h
    unfold Shape.readInt at h
    split at h
    · rename_i n
      split at h
      · rename_i hn
        cases h
        exact ⟨n, rfl, hn, rfl⟩
      · cases h
    · cases h
  · rintro ⟨code, rfl, hr, rfl⟩
    rw [IsCode] at hr
    rw [Json.int, Shape.readInt, if_pos hr]
    rfl

/-- A message is a text. -/
theorem part_message_eq_ok_iff {v : Json} {own : List (String × Json)} :
    part "message" v = .ok own ↔ ∃ message, v = .str message ∧ own = [("message", v)] := by
  rw [part_message]
  cases v <;> simp [Shape.read, Except.map, eq_comm]

/-- What is taken from a field stands under its name. -/
theorem name_of_part (name : String) (v : Json) (own : List (String × Json)) (h : part name v = .ok own) :
    ∀ f ∈ own, f.1 = name := by
  by_cases hc : "code" = name
  · subst hc
    obtain ⟨_, _, _, rfl⟩ := part_code_eq_ok_iff.mp h
    simp
  by_cases hm : "message" = name
  · subst hm
    obtain ⟨_, _, rfl⟩ := part_message_eq_ok_iff.mp h
    simp
  by_cases hd : "data" = name
  · subst hd
    rw [part_data] at h
    cases h
    split <;> simp
  · rw [part_other hc hm hd] at h
    cases h
    simp

/-- An object is read if every field of it is and both the code and the message are there. -/
theorem read_obj_eq_ok_iff {fields : List (String × Json)} {v : Json} :
    shape.read (.obj fields) = .ok v ↔
      ∃ own, Shape.collect part fields = .ok own ∧ "code" ∈ fields.map (·.1) ∧ "message" ∈ fields.map (·.1) ∧
        v = Json.object own := by
  let filled : Except Mismatch (List (String × Json)) :=
    if "code" ∈ fields.map (·.1) then if "message" ∈ fields.map (·.1) then .ok [] else .error (.missingField "message")
    else .error (.missingField "code")
  have hfill : Shape.fillMissing (fields.map (·.1)) parts = filled := by
    simp only [parts, Shape.fillMissing, Shape.req, Shape.omissible, List.contains_iff_mem, filled]
    repeat' split
    all_goals rfl
  have hread : shape.read (.obj fields) = (Shape.collect part fields).bind fun own : List (String × Json) =>
      filled.bind fun missing => Except.ok (Json.object (own ++ missing ++ [])) := by
    rw [← hfill]
    rfl
  rw [hread]
  cases hc : Shape.collect part fields with
  | error m => simp [Except.bind]
  | ok own =>
    by_cases hcode : "code" ∈ fields.map (·.1)
    · by_cases hmessage : "message" ∈ fields.map (·.1)
      · simp only [Except.bind, filled, hcode, hmessage, if_true, List.append_nil, Except.ok.injEq, true_and]
        exact ⟨fun h => ⟨own, rfl, h.symm⟩, fun ⟨_, he, hv⟩ => by rw [he, hv]⟩
      · simp [Except.bind, filled, hcode, hmessage]
    · simp [Except.bind, filled, hcode]

/-- An error is taken from what is read for it. -/
theorem ofJson_of_read {v : Json} {own : List (String × Json)} (h : shape.read v = .ok (Json.object own)) :
    ofJson v = .ok ⟨((Json.lookupField "code" own.reverse).bind Json.int?).getD 0,
      ((Json.lookupField "message" own.reverse).bind Json.str?).getD "", Json.lookupField "data" own.reverse⟩ := by
  simp only [ofJson, h, ← Json.lookupField_sortFields]
  rfl

/-- What is taken for an error is read for one. -/
theorem exists_read_of_ofJson {v : Json} {e : ResponseError} (h : ofJson v = .ok e) : ∃ w, shape.read v = .ok w := by
  cases hr : shape.read v with
  | error m =>
    rw [ofJson, hr] at h
    cases h
  | ok w => exact ⟨w, rfl⟩

/-! ## Errors given as objects -/

section Object

variable {fields own : List (String × Json)}

/-- A field that is read is read on its own. -/
theorem exists_part (hc : Shape.collect part fields = .ok own) {name : String} (hn : name ∈ fields.map (·.1)) :
    ∃ v given, Json.lookupField name fields = some v ∧ part name v = .ok given := by
  cases hv : Json.lookupField name fields with
  | none =>
    obtain ⟨f, hf, he⟩ := List.mem_map.mp hn
    exact absurd he (Json.lookupField_eq_none_iff.mp hv f hf)
  | some v =>
    obtain ⟨given, hp⟩ := Shape.exists_collect_iff.mp ⟨own, hc⟩ _ (Json.mem_of_lookupField hv)
    exact ⟨v, given, rfl, hp⟩

/-- The fields are read where the code and the message are what they have to be. -/
theorem exists_collect (h : Json.Ordered fields) {code : Int} {message : String}
    (hc : Json.lookupField "code" fields = some (.int code)) (hr : IsCode code)
    (hm : Json.lookupField "message" fields = some (.str message)) : ∃ own, Shape.collect part fields = .ok own := by
  refine Shape.exists_collect_iff.mpr fun f hf => ?_
  obtain ⟨name, v⟩ := f
  have hv : Json.lookupField name fields = some v := Json.lookupField_of_mem h hf
  by_cases hcode : "code" = name
  · subst hcode
    obtain rfl : v = .int code := Option.some.inj (hv.symm.trans hc)
    exact ⟨_, part_code_eq_ok_iff.mpr ⟨code, rfl, hr, rfl⟩⟩
  by_cases hmessage : "message" = name
  · subst hmessage
    obtain rfl : v = .str message := Option.some.inj (hv.symm.trans hm)
    exact ⟨_, part_message_eq_ok_iff.mpr ⟨message, rfl, rfl⟩⟩
  by_cases hdata : "data" = name
  · subst hdata
    exact ⟨_, part_data v⟩
  · exact ⟨_, part_other hcode hmessage hdata v⟩

/-- The parts of an object that is read are those of its fields. -/
theorem ofJson_obj (h : Json.Ordered fields) (ho : Shape.collect part fields = .ok own) {code : Int} {message : String}
    (hc : Json.lookupField "code" fields = some (.int code)) (hr : IsCode code)
    (hm : Json.lookupField "message" fields = some (.str message)) :
    ofJson (.obj fields) = .ok ⟨code, message, given (Json.lookupField "data" fields)⟩ := by
  have hmem {name : String} {v : Json} (hv : Json.lookupField name fields = some v) : name ∈ fields.map (·.1) :=
    List.mem_map.mpr ⟨_, Json.mem_of_lookupField hv, rfl⟩
  have hown := Shape.lookupField_collect name_of_part h ho
  have hcode : Json.lookupField "code" own.reverse = some (.int code) := by
    rw [hown, hc, Option.bind_some, part_code_eq_ok_iff.mpr ⟨code, rfl, hr, rfl⟩]
    rfl
  have hmessage : Json.lookupField "message" own.reverse = some (.str message) := by
    rw [hown, hm, Option.bind_some, part_message_eq_ok_iff.mpr ⟨message, rfl, rfl⟩]
    rfl
  have hdata : Json.lookupField "data" own.reverse = given (Json.lookupField "data" fields) := by
    rw [hown]
    cases Json.lookupField "data" fields with
    | none => rfl
    | some v =>
      rw [Option.bind_some, part_data]
      cases v <;> rfl
  rw [ofJson_of_read (read_obj_eq_ok_iff.mpr ⟨own, ho, hmem hc, hmem hm, rfl⟩), hcode, hmessage, hdata]
  rfl

/-- An object is taken for the error that it describes. -/
theorem ofJson_obj_eq_ok_iff (h : Json.Ordered fields) {e : ResponseError} :
    ofJson (.obj fields) = .ok e ↔ Describes (.obj fields) e := by
  constructor
  · intro he
    obtain ⟨w, hw⟩ := exists_read_of_ofJson he
    obtain ⟨own, ho, hcode, hmessage, -⟩ := read_obj_eq_ok_iff.mp hw
    obtain ⟨v, _, hc, hpc⟩ := exists_part ho hcode
    obtain ⟨code, rfl, hr, -⟩ := part_code_eq_ok_iff.mp hpc
    obtain ⟨v, _, hm, hpm⟩ := exists_part ho hmessage
    obtain ⟨message, rfl, -⟩ := part_message_eq_ok_iff.mp hpm
    obtain rfl := Except.ok.inj ((ofJson_obj h ho hc hr hm).symm.trans he)
    exact .object hc hr hm
  · rintro ⟨hc, hr, hm⟩
    obtain ⟨own, ho⟩ := exists_collect h hc hr hm
    exact ofJson_obj h ho hc hr hm

end Object

/-! ## Errors given as lists -/

/-- How the list of the parts is described. -/
def elements : String := Shape.elements "ResponseError" 3

theorem read_list (items : List Json) :
    shape.read (.arr items) = (Shape.readListed elements parts items 0).bind fun r =>
      if r.2.isEmpty then .ok (Json.object r.1) else .error (.invalidLength items.length "fewer elements in array") := rfl

/-- The item behind the code and the message is the data. -/
theorem readListed_data (v : Json) (more : List Json) :
    Shape.readListed elements [Shape.omissible "data" .any] (v :: more) 2 =
      .ok ((given (some v)).toList.map fun v => ("data", v), more) := by
  cases v <;> rfl

/-- A list is read by its first item, the code, and by what is behind it. -/
theorem read_arr_cons (a : Json) (more : List Json) :
    shape.read (.arr (a :: more)) =
      (part "code" a).bind fun code =>
        (Shape.readListed elements [Shape.req "message" .text, Shape.omissible "data" .any] more 1).bind fun r =>
          if r.2.isEmpty then .ok (Json.object (code ++ r.1))
          else .error (.invalidLength (more.length + 1) "fewer elements in array") := by
  have hcode : Shape.readNamed [Shape.req "code" Shape.i32] (Shape.req "code" Shape.i32).1 a = part "code" a := rfl
  rw [read_list, parts, Shape.readListed_cons, hcode]
  cases part "code" a with
  | error m => rfl
  | ok code => cases Shape.readListed elements [Shape.req "message" .text, Shape.omissible "data" .any] more 1 <;> rfl

/-- Behind the code a list is read by the message, and by what is behind both. -/
theorem read_arr (a b : Json) (more : List Json) :
    shape.read (.arr (a :: b :: more)) =
      (part "code" a).bind fun code => (part "message" b).bind fun message =>
        (Shape.readListed elements [Shape.omissible "data" .any] more 2).bind fun r =>
          if r.2.isEmpty then .ok (Json.object (code ++ (message ++ r.1)))
          else .error (.invalidLength (more.length + 2) "fewer elements in array") := by
  have hmessage : Shape.readNamed [Shape.req "message" .text] (Shape.req "message" .text).1 b = part "message" b := rfl
  rw [read_arr_cons, Shape.readListed_cons, hmessage]
  cases part "code" a with
  | error m => rfl
  | ok code =>
    cases part "message" b with
    | error m => rfl
    | ok message => cases Shape.readListed elements [Shape.omissible "data" .any] more 2 <;> rfl

/-- A list that is read has a code and a message and perhaps data. -/
theorem exists_of_read_arr {items : List Json} {w : Json} (h : shape.read (.arr items) = .ok w) :
    ∃ code message, ∃ data : Option Json, items = .int code :: .str message :: data.toList ∧ IsCode code := by
  match items with
  | [] => cases h
  | [a] =>
    rw [read_arr_cons] at h
    cases hc : part "code" a with
    | error m => simp [hc, Except.bind] at h
    | ok own =>
      rw [hc] at h
      cases h
  | a :: b :: more =>
    rw [read_arr] at h
    cases hc : part "code" a with
    | error m => simp [hc, Except.bind] at h
    | ok own =>
      obtain ⟨code, rfl, hr, -⟩ := part_code_eq_ok_iff.mp hc
      cases hm : part "message" b with
      | error m => simp [hc, hm, Except.bind] at h
      | ok own =>
        obtain ⟨message, rfl, -⟩ := part_message_eq_ok_iff.mp hm
        match more with
        | [] => exact ⟨code, message, none, rfl, hr⟩
        | [v] => exact ⟨code, message, some v, rfl, hr⟩
        | v :: w :: more => simp [hc, hm, readListed_data, Except.bind] at h

/-- The parts of a list are its items. -/
theorem ofJson_arr {code : Int} (hr : IsCode code) (message : String) (data : Option Json) :
    ofJson (.arr (.int code :: .str message :: data.toList)) = .ok ⟨code, message, given data⟩ := by
  have hread : shape.read (.arr (.int code :: .str message :: data.toList)) =
      .ok (Json.object (("code", .int code) :: ("message", .str message) :: (given data).toList.map fun v => ("data", v))) := by
    rw [read_arr, part_code_eq_ok_iff.mpr ⟨code, rfl, hr, rfl⟩, part_message_eq_ok_iff.mpr ⟨message, rfl, rfl⟩]
    cases data with
    | none => rfl
    | some v =>
      simp only [Option.toList_some, readListed_data]
      rfl
  rw [ofJson_of_read hread]
  cases given data <;> rfl

/-- A list is taken for the error that it describes. -/
theorem ofJson_arr_eq_ok_iff {items : List Json} {e : ResponseError} :
    ofJson (.arr items) = .ok e ↔ Describes (.arr items) e := by
  constructor
  · intro he
    obtain ⟨w, hw⟩ := exists_read_of_ofJson he
    obtain ⟨code, message, data, rfl, hr⟩ := exists_of_read_arr hw
    obtain rfl := Except.ok.inj ((ofJson_arr hr message data).symm.trans he)
    exact .list hr
  · intro hd
    cases hd with
    | list hr => exact ofJson_arr hr _ _

/-- What the decoder takes for an error is what describes it. -/
theorem ofJson_eq_ok_iff {depth : Nat} {v : Json} (h : v.Proper depth) {e : ResponseError} :
    ofJson v = .ok e ↔ Describes v e := by
  cases v with
  | obj fields =>
    cases depth with
    | zero => cases h
    | succ depth => exact ofJson_obj_eq_ok_iff h.1
  | arr items => exact ofJson_arr_eq_ok_iff
  | _ =>
    constructor
    · intro he
      cases he
    · intro hd
      cases hd

/-! ## What is described -/

/-- The code of an error that is described has 32 bits. -/
theorem Describes.isCode {v : Json} {e : ResponseError} (h : Describes v e) : IsCode e.code := by
  cases h with
  | object _ hr _ => exact hr
  | list hr => exact hr

/-- What is given is given once. -/
theorem given_given (data : Option Json) : given (given data) = given data := by
  simp [given]

/-- The data of an error that is described is data of the value, and not null. -/
theorem Describes.given_data {v : Json} {e : ResponseError} (h : Describes v e) : given e.data = e.data := by
  cases h with
  | object => exact given_given _
  | list => exact given_given _

theorem mem_of_mem_given {v : Json} {data : Option Json} (h : v ∈ given data) : v ∈ data :=
  (Option.filter_eq_some_iff.mp h).1

/-- The data of an error that is described stands in the value. -/
theorem Describes.proper {v : Json} {e : ResponseError} {depth : Nat} (h : Describes v e) (hv : v.Proper (depth + 1)) :
    ∀ w ∈ e.data, w.Proper depth := by
  intro w hw
  cases h with
  | object => exact hv.2 _ (Json.mem_of_lookupField (mem_of_mem_given hw))
  | list =>
    have hm := Option.mem_toList.mpr (mem_of_mem_given hw)
    exact hv w (List.mem_cons_of_mem _ (List.mem_cons_of_mem _ hm))

theorem IsCode.fits {n : Int} (h : IsCode n) (depth : Nat) : (Json.int n).fits depth = true := by
  refine Json.fits_of_sized ?_ depth
  have hm : (Json.maxSignificand : Int) = 2 ^ 64 - 1 := rfl
  have hp : ((Nat.pow 2 63 : Nat) : Int) = 2 ^ 63 := rfl
  have hq : ((Nat.pow 2 31 : Nat) : Int) = 2 ^ 31 := rfl
  rw [IsCode] at h
  simp only [JsonNumber.Sized]
  omega

/-- A written error describes the error without data that is null. -/
theorem describes_written {e : ResponseError} {depth : Nat} (hc : IsCode e.code) (hd : ∀ v ∈ e.data, v.Proper depth) :
    Describes (.obj (Json.normalFields [] e.fields)) { e with data := given e.data } := by
  have hcode : Json.lookupField "code" (Json.normalFields [] e.fields) = some (.int e.code) := by
    cases hdata : e.data <;> simp [fields, hdata, Json.normalFields, Json.lookupField_insertField, Json.normal, Json.int]
  have hmessage : Json.lookupField "message" (Json.normalFields [] e.fields) = some (.str e.message) := by
    cases hdata : e.data <;> simp [fields, hdata, Json.normalFields, Json.lookupField_insertField, Json.normal]
  have hdata : Json.lookupField "data" (Json.normalFields [] e.fields) = e.data := by
    cases hdata : e.data with
    | none => simp [fields, hdata, Json.normalFields, Json.lookupField_insertField]
    | some v => simp [fields, hdata, Json.normalFields, Json.lookupField_insertField, Json.normal_of_proper (hd v hdata)]
  rw [← hdata]
  exact .object hcode hc hmessage

end ResponseError

end Parley
