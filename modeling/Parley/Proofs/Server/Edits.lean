import Parley.Server.Builtins

/-!
# What an editor says of its documents

The notifications of an editor about its documents and its folders, as edits, and what a workspace holds after a history of them.
A document is held exactly if it was opened and has not been closed since; what is known of it is read off the history
(`Edit.Recalls`), without the table in which a workspace keeps it. The folders are read off the last edit that tells of them.
-/

namespace Parley

/-- What an editor says of its documents or its folders. -/
inductive Edit where
  | opened (d : Document)
  /-- A document has a new version, and had these texts one after the other. -/
  | changed (uri : String) (version : Int) (texts : List String)
  | closed (uri : String)
  /-- The folders of these URIs are gone, and these are new. -/
  | moved (removed : List String) (added : List Folder)

namespace Edit

/-- The methods of the notifications that are edits. -/
def methods : List String :=
  ["textDocument/didOpen", "textDocument/didChange", "textDocument/didClose", "workspace/didChangeWorkspaceFolders"]

/-- The edit that the params of a method describe. Of the changes of a document, those of a range only are left out. -/
def ofParams (params : Json) : String → Option Edit
  | "textDocument/didOpen" => some (.opened (Document.ofJson (params.valueField "textDocument")))
  | "textDocument/didChange" =>
    some (.changed ((params.valueField "textDocument").textField "uri") ((params.valueField "textDocument").intField "version")
      (((params.listField "contentChanges").filter fun c => (c.field? "range").isNone).map (·.textField "text")))
  | "textDocument/didClose" => some (.closed ((params.valueField "textDocument").textField "uri"))
  | "workspace/didChangeWorkspaceFolders" =>
    some (.moved (((params.valueField "event").listField "removed").map (·.textField "uri"))
      (((params.valueField "event").listField "added").map Folder.ofJson))
  | _ => none

/-- The edit that a notification with some params is, if they have the shape of the method. -/
def read? (method : String) (params : Json) : Option Edit :=
  match (Catalogue.paramsShape method).read params with
  | .ok v => ofParams v method
  | .error _ => none

/-! ## The history of a document -/

/-- The edit opens or closes a document. -/
def Renews (uri : String) : Edit → Prop
  | .opened d => d.uri = uri
  | .closed u => u = uri
  | _ => False

/-- The version that the edit tells of a document. -/
def version? (uri : String) : Edit → Option Int
  | .changed u version _ => if u = uri then some version else none
  | _ => none

/-- The texts that the edit tells of a document. -/
def texts (uri : String) : Edit → List String
  | .changed u _ texts => if u = uri then texts else []
  | _ => []

/-- What a history tells of a document that was opened before: its last version and its last text. -/
def latest (uri : String) (d : Document) (es : List Edit) : Document :=
  { d with
    version := (es.filterMap (version? uri)).getLast?.getD d.version
    text := (es.flatMap (texts uri)).getLast?.getD d.text }

/-- After a history a document is open: it was opened, and neither opened again nor closed since. Its language is that of its last
opening, its version that of its last opening or change, its text that of its last opening or the last text of a change. -/
inductive Recalls (es : List Edit) (uri : String) (d : Document) : Prop
  | intro {before after : List Edit} {first : Document} (split : es = before ++ .opened first :: after) (named : first.uri = uri)
    (since : ∀ e ∈ after, ¬ e.Renews uri) (same : d = latest uri first after)

/-- What one edit makes of what is known of a document. -/
def documentAfter (uri : String) (o : Option Document) : Edit → Option Document
  | .opened d => if d.uri = uri then some d else o
  | .changed u version texts =>
    if u = uri then o.map fun d => { d with version, text := texts.getLast?.getD d.text } else o
  | .closed u => if u = uri then none else o
  | .moved _ _ => o

variable {uri : String} {d first : Document} {e : Edit} {es : List Edit}

/-- An edit that neither opens nor closes a document tells its latest version and text. -/
theorem documentAfter_of_not_renews (h : ¬ e.Renews uri) (d : Document) :
    documentAfter uri (some d) e = some (latest uri d [e]) := by
  cases e with
  | opened d' => exact if_neg h
  | closed u => exact if_neg h
  | moved removed added => rfl
  | changed u version texts' =>
    unfold documentAfter latest
    by_cases hu : u = uri
    · simp [hu, version?, texts]
    · simp [hu, version?, texts]

/-- The latest text behind edits is that behind the first and then the others. -/
theorem latest_cons (uri : String) (d : Document) (e : Edit) (es : List Edit) :
    latest uri d (e :: es) = latest uri (latest uri d [e]) es := by
  have hlast {α : Type} (l m : List α) (a : α) : (l ++ m).getLast?.getD a = m.getLast?.getD (l.getLast?.getD a) := by
    rw [List.getLast?_append]
    cases m.getLast? <;> rfl
  simp only [latest, List.flatMap_cons, List.flatMap_nil, List.append_nil, hlast]
  congr 1
  cases hv : version? uri e with
  | none => simp [hv]
  | some v =>
    have hc := hlast [v] (es.filterMap (version? uri)) d.version
    simpa [hv] using hc

/-- While a document is neither opened nor closed, its latest version and text are known. -/
theorem foldl_documentAfter_of_not_renews (h : ∀ e ∈ es, ¬ e.Renews uri) (d : Document) :
    es.foldl (documentAfter uri) (some d) = some (latest uri d es) := by
  induction es generalizing d with
  | nil => rfl
  | cons e es ih =>
    rw [List.foldl_cons, documentAfter_of_not_renews (h e List.mem_cons_self), ih fun e' he => h e' (List.mem_cons_of_mem _ he),
      ← latest_cons uri d e es]

/-- What is known of a document after an edit was opened with it, or was known before and is up to date. -/
theorem documentAfter_eq_some {o : Option Document} (h : documentAfter uri o e = some d) :
    (e = .opened d ∧ d.uri = uri) ∨ ∃ first, o = some first ∧ ¬ e.Renews uri ∧ d = latest uri first [e] := by
  by_cases hr : e.Renews uri
  · left
    cases e with
    | opened d' =>
      simp only [documentAfter, if_pos (show d'.uri = uri from hr), Option.some.injEq] at h
      subst h
      exact ⟨rfl, hr⟩
    | closed u => simp [documentAfter, show u = uri from hr] at h
    | changed => exact hr.elim
    | moved => exact hr.elim
  · right
    cases o with
    | some first =>
      rw [documentAfter_of_not_renews hr] at h
      exact ⟨first, rfl, hr, (Option.some.inj h).symm⟩
    | none =>
      cases e with
      | opened d' => simp [documentAfter, if_neg (show d'.uri ≠ uri from hr)] at h
      | closed u => simp [documentAfter] at h
      | changed u version texts => simp [documentAfter] at h
      | moved => simp [documentAfter] at h

/-- What is known of a document was known before and is up to date, or the history recalls it. -/
theorem known_or_recalls (o : Option Document) (h : es.foldl (documentAfter uri) o = some d) :
    (∃ first, o = some first ∧ (∀ e ∈ es, ¬ e.Renews uri) ∧ d = latest uri first es) ∨ Recalls es uri d := by
  induction es generalizing o with
  | nil => exact .inl ⟨d, h, fun e he => (List.not_mem_nil he).elim, rfl⟩
  | cons e es ih =>
    rcases ih (documentAfter uri o e) h with ⟨first, ho, hsince, hd⟩ | ⟨hsplit, hnamed, hsince, hd⟩
    · rcases documentAfter_eq_some ho with ⟨rfl, hnamed⟩ | ⟨before, ho, hr, hfirst⟩
      · exact .inr ⟨(List.nil_append _).symm, hnamed, hsince, hd⟩
      · refine .inl ⟨before, ho, ?_, ?_⟩
        · intro e' he
          rcases List.mem_cons.mp he with rfl | he
          · exact hr
          · exact hsince e' he
        · rw [hd, latest_cons, hfirst]
    · exact .inr ⟨(congrArg (e :: ·) hsplit).trans (List.cons_append ..).symm, hnamed, hsince, hd⟩

/-- What is known of a document is what the history recalls. -/
theorem foldl_documentAfter_eq_some_iff : es.foldl (documentAfter uri) none = some d ↔ Recalls es uri d := by
  constructor
  · intro h
    rcases known_or_recalls none h with ⟨first, ho, -⟩ | hr
    · cases ho
    · exact hr
  · rintro ⟨rfl, hnamed, hsince, rfl⟩
    rw [List.foldl_append, List.foldl_cons, documentAfter, if_pos hnamed]
    exact foldl_documentAfter_of_not_renews hsince _

/-! ## Folders -/

/-- What one edit makes of the folder of a URI: those removed go first, and of those added the last one counts. -/
def folderAfter (uri : String) (o : Option Folder) : Edit → Option Folder
  | .moved removed added => (added.reverse.find? fun f => f.uri = uri).or (if uri ∈ removed then none else o)
  | _ => o

end Edit

namespace Workspace

/-- An edit is made. -/
def edit (w : Workspace) : Edit → Workspace
  | .opened d => w.putDocument d
  | .changed uri version texts => w.updateDocument uri version (texts.map (⟨false, ·⟩))
  | .closed uri => w.removeDocument uri
  | .moved removed added => added.foldl addFolder (removed.foldl removeFolder w)

/-- What stands under a URI is the document or the folder of this URI. -/
structure Keyed (w : Workspace) : Prop where
  documents : ∀ uri d, w.documents.find? uri = some d → d.uri = uri
  folders : ∀ uri f, w.folders.find? uri = some f → f.uri = uri

variable {w : Workspace}

/-- The last whole text counts. -/
theorem applyAll_eq (text : String) (changes : List Change) :
    Change.applyAll text changes = ((changes.filter fun c => !c.ofRange).map (·.text)).getLast?.getD text := by
  induction changes generalizing text with
  | nil => rfl
  | cons c changes ih =>
    rw [Change.applyAll, ih]
    cases hc : c.ofRange with
    | true => simp [hc]
    | false =>
      simp only [hc, Bool.false_eq_true, if_false, List.filter_cons, Bool.not_false, if_true, List.map_cons]
      cases h : ((changes.filter fun c => !c.ofRange).map (·.text)).getLast? with
      | none => simp [List.getLast?_eq_none_iff.mp h]
      | some t => simp [List.getLast?_cons, h]

/-- Of changes of the whole text the last counts. -/
theorem applyAll_whole (text : String) (texts : List String) :
    Change.applyAll text (texts.map (⟨false, ·⟩)) = texts.getLast?.getD text := by
  have hwhole : ((texts.map (⟨false, ·⟩)).filter fun c : Change => !c.ofRange) = texts.map (⟨false, ·⟩) :=
    List.filter_eq_self.mpr fun c hc => by
      obtain ⟨t, -, rfl⟩ := List.mem_map.mp hc
      rfl
  rw [applyAll_eq, hwhole, List.map_map]
  exact congrArg (fun ts : List String => ts.getLast?.getD text) (List.map_id' texts)

/-- To remove folders changes no document. -/
theorem documents_foldl_removeFolder (uris : List String) (w : Workspace) :
    (uris.foldl removeFolder w).documents = w.documents := by
  induction uris generalizing w with
  | nil => rfl
  | cons uri uris ih => exact ih _

/-- Nor does it to add some. -/
theorem documents_foldl_addFolder (fs : List Folder) (w : Workspace) : (fs.foldl addFolder w).documents = w.documents := by
  induction fs generalizing w with
  | nil => rfl
  | cons f fs ih => exact ih _

/-- What is found of a document after an edit. -/
theorem find?_documents_edit (w : Workspace) (e : Edit) (uri : String) :
    (w.edit e).documents.find? uri = e.documentAfter uri (w.documents.find? uri) := by
  cases e with
  | opened d =>
    simp only [edit, putDocument, Table.find?_insert, Edit.documentAfter, eq_comm]
  | closed u =>
    simp only [edit, removeDocument, Table.find?_erase, Edit.documentAfter, eq_comm]
  | moved removed added =>
    simp only [edit, documents_foldl_addFolder, documents_foldl_removeFolder, Edit.documentAfter]
  | changed u version texts =>
    simp only [edit, updateDocument, Edit.documentAfter]
    cases hf : w.documents.find? u with
    | none =>
      by_cases hu : u = uri
      · subst hu
        simp [hf]
      · simp [hu]
    | some d =>
      simp only [Table.find?_insert]
      by_cases hu : u = uri
      · subst hu
        simp [hf, applyAll_whole]
      · rw [if_neg (Ne.symm hu), if_neg hu]

/-- Folders that were removed are gone, and the others are there. -/
theorem find?_foldl_removeFolder (uris : List String) (w : Workspace) (uri : String) :
    (uris.foldl removeFolder w).folders.find? uri = if uri ∈ uris then none else w.folders.find? uri := by
  induction uris generalizing w with
  | nil => rfl
  | cons u uris ih =>
    rw [List.foldl_cons, ih]
    simp only [removeFolder, Table.find?_erase, List.mem_cons]
    by_cases hu : uri = u <;> by_cases hm : uri ∈ uris <;> simp [hu, hm]

/-- Of folders that were added the last with an address counts. -/
theorem find?_foldl_addFolder (fs : List Folder) (w : Workspace) (uri : String) :
    (fs.foldl addFolder w).folders.find? uri = (fs.reverse.find? fun f => f.uri = uri).or (w.folders.find? uri) := by
  induction fs generalizing w with
  | nil => rfl
  | cons f fs ih =>
    rw [List.foldl_cons, ih]
    simp only [addFolder, Table.find?_insert, List.reverse_cons, List.find?_append, Option.or_assoc]
    congr 1
    by_cases hf : f.uri = uri
    · simp [hf]
    · simp [hf, Ne.symm hf]

/-- What is found of a folder after an edit. -/
theorem find?_folders_edit (w : Workspace) (e : Edit) (uri : String) :
    (w.edit e).folders.find? uri = e.folderAfter uri (w.folders.find? uri) := by
  cases e with
  | opened d => rfl
  | closed u => rfl
  | moved removed added => simp only [edit, find?_foldl_addFolder, find?_foldl_removeFolder, Edit.folderAfter]
  | changed u version texts =>
    simp only [edit, updateDocument, Edit.folderAfter]
    split <;> rfl

/-- An edit puts documents and folders under their URIs. -/
theorem Keyed.edit (h : w.Keyed) (e : Edit) : (w.edit e).Keyed := by
  constructor
  · intro uri d hd
    rw [find?_documents_edit] at hd
    rcases Edit.documentAfter_eq_some hd with ⟨-, hnamed⟩ | ⟨first, hfirst, -, rfl⟩
    · exact hnamed
    · exact h.documents uri first hfirst
  · intro uri f hf
    rw [find?_folders_edit] at hf
    cases e with
    | moved removed added =>
      rcases Option.or_eq_some_iff.mp hf with hf | ⟨-, hf⟩
      · have hu := List.find?_some hf
        exact of_decide_eq_true hu
      · split at hf
        · cases hf
        · exact h.folders uri f hf
    | _ => exact h.folders uri f hf

/-- Edits keep each document under its address. -/
theorem Keyed.foldl_edit (h : w.Keyed) (es : List Edit) : (es.foldl Workspace.edit w).Keyed := by
  induction es generalizing w with
  | nil => exact h
  | cons e es ih => exact ih (h.edit e)

/-! ## After a history -/

/-- What edits make of a document does not depend on the others. -/
theorem find?_foldl_edit (es : List Edit) (w : Workspace) (uri : String) :
    (es.foldl edit w).documents.find? uri = es.foldl (Edit.documentAfter uri) (w.documents.find? uri) := by
  induction es generalizing w with
  | nil => rfl
  | cons e es ih => rw [List.foldl_cons, ih, find?_documents_edit, List.foldl_cons]

/-- The documents of a workspace, as the history that opens each of them. -/
def openings (w : Workspace) : List Edit := w.documents.values.map .opened

/-- To open each document of a workspace is to know the documents of the workspace. -/
theorem foldl_documentAfter_openings (h : w.Keyed) (uri : String) :
    w.openings.foldl (Edit.documentAfter uri) none = w.documents.find? uri := by
  have hkeys : ∀ e ∈ w.documents.entries, e.2.uri = e.1 := fun e he => h.documents _ _ (Table.mem_entries_iff.mp he)
  have hn := w.documents.nodup
  unfold openings Table.values Table.find?
  generalize w.documents.entries = entries at hkeys hn
  -- Whatever is known before, the document that stands under the URI is known then; there is one at most.
  have hall (o : Option Document) : ((entries.map (·.2)).map Edit.opened).foldl (Edit.documentAfter uri) o =
      ((entries.find? fun e => e.1 = uri).map (·.2)).or o := by
    induction entries generalizing o with
    | nil => rfl
    | cons e entries ih =>
      obtain ⟨hnot, hn⟩ := List.nodup_cons.mp hn
      have he := hkeys e List.mem_cons_self
      rw [List.map_cons, List.map_cons, List.foldl_cons, ih (fun e' he' => hkeys e' (List.mem_cons_of_mem _ he')) hn]
      simp only [Edit.documentAfter, he]
      by_cases hu : e.1 = uri
      · have hnone : (entries.find? fun e => e.1 = uri) = none := by
          refine List.find?_eq_none.mpr fun e' he' => ?_
          intro hk
          exact hnot (List.mem_map.mpr ⟨e', he', (of_decide_eq_true hk).trans hu.symm⟩)
        simp [hu, hnone]
      · simp [hu]
  rw [hall, Option.or_none]

/-- What a workspace holds after a history is what the history recalls, behind the documents that were open before. -/
theorem find?_foldl_edit_iff (h : w.Keyed) {es : List Edit} {uri : String} {d : Document} :
    (es.foldl edit w).documents.find? uri = some d ↔ Edit.Recalls (w.openings ++ es) uri d := by
  rw [find?_foldl_edit, ← foldl_documentAfter_openings h, ← List.foldl_append, Edit.foldl_documentAfter_eq_some_iff]

/-- The folders are listed in the order of their URIs, and no URI twice. -/
theorem Keyed.sortedFolders_pairwise (h : w.Keyed) : w.sortedFolders.Pairwise fun f g => f.uri < g.uri := by
  have htrans (a b c : Folder) (hab : decide (a.uri ≤ b.uri) = true) (hbc : decide (b.uri ≤ c.uri) = true) :
      decide (a.uri ≤ c.uri) = true := decide_eq_true (String.le_trans (of_decide_eq_true hab) (of_decide_eq_true hbc))
  have htotal (a b : Folder) : (decide (a.uri ≤ b.uri) || decide (b.uri ≤ a.uri)) = true := by
    simpa only [Bool.or_eq_true, decide_eq_true_eq] using String.le_total a.uri b.uri
  have hle : w.sortedFolders.Pairwise fun f g => decide (f.uri ≤ g.uri) = true :=
    List.pairwise_mergeSort htrans htotal w.folders.values
  have huris : (w.sortedFolders.map (·.uri)).Nodup := by
    have hperm : (w.sortedFolders.map (·.uri)).Perm (w.folders.values.map (·.uri)) := (List.mergeSort_perm _ _).map _
    have hkeys : w.folders.values.map (·.uri) = w.folders.entries.map (·.1) := by
      rw [Table.values, List.map_map]
      exact List.map_congr_left fun e he => h.folders _ _ (Table.mem_entries_iff.mp he)
    rw [hperm.nodup_iff, hkeys]
    exact w.folders.nodup
  have hne : w.sortedFolders.Pairwise fun f g => f.uri ≠ g.uri := List.pairwise_map.mp huris
  refine hle.imp₂ ?_ hne
  intro f g hfg hd
  exact Std.lt_of_le_of_ne (of_decide_eq_true hfg) hd

/-- The folders that are listed are those that stand under their URIs. -/
theorem Keyed.mem_sortedFolders (h : w.Keyed) (f : Folder) : f ∈ w.sortedFolders ↔ w.folders.find? f.uri = some f := by
  rw [sortedFolders, List.mem_mergeSort, Table.mem_values_iff]
  constructor
  · rintro ⟨uri, hf⟩
    rw [h.folders uri f hf]
    exact hf
  · intro hf
    exact ⟨f.uri, hf⟩

end Workspace

end Parley
