import PackLint.Workspace

/-!
# Histories

A workspace changes by operations only: documents are loaded and unloaded, and looked at alone or
together. A document that is taken out of a workspace, because it is unloaded or another one takes
its place, stays with whoever uses the workspace. It keeps what the last look at it has left, its
report included, and may be loaded back as it is. So a history goes through sessions, which are a
workspace and the documents that have been taken out of it. `Workspace.after` is the workspace that
a history of operations leads to, whether or not some of them ended in a fault.

All operations are made of four steps, so what these steps keep holds after every history.

Results:
* `Workspace.examineEach_induction`: what a look at a document keeps is kept by several ones.
* `Session.Stable.after`: a property that the four steps keep is kept by every history.
-/

namespace PackLint

namespace Workspace

/-- A document as it was read, bound to a kind of file or to nothing. -/
def unexamined (uri : String) (source : Source) (kind : Option FileKind) : Document :=
  { uri, source, binding := kind.map .kind }

/-- The workspace without the document with a uri. -/
def without (ws : Workspace) (uri : String) : Workspace :=
  { ws with documents := ws.documents.filter (·.uri ≠ uri) }

end Workspace

/-- What can be done with a workspace: loading a document that has never been looked at (`load`), or
one that was taken out before (`load` of what `unload` returned, or of a document that was
replaced), taking one out (`unload`), and looking at documents (`partial_process_all`,
`full_process_all`, `process`, and `partial_process` or `full_process` of one document). Loading a
document that is there already changes nothing. -/
inductive Operation where
  | load (uri : String) (source : Source) (kind : Option FileKind)
  /-- Loads the document back that stands at a place among those taken out, the latest at the first
  place. -/
  | loadBack (place : Nat)
  | unload (uri : String)
  | checkAll
  | examineAll
  | process (uri : String)
  | examine (depth : Depth) (uri : String)

/-- A workspace, and the documents that have been taken out of it, the latest first. -/
structure Session where
  workspace : Workspace
  released : List Document := []

namespace Session

variable (s : Session)

/-- The documents that are out of the workspace once the one with a uri has been taken out. -/
def release (uri : String) : List Document := (s.workspace.get? uri).toList ++ s.released

/-- Loads a document. The one that it takes the place of is taken out. -/
def load (doc : Document) : Session := ⟨s.workspace.load doc, s.release doc.uri⟩

/-- Loads a document back. -/
def loadBack (place : Nat) : Session :=
  match s.released[place]? with
  | none => s
  | some doc => load { s with released := s.released.eraseIdx place } doc

/-- The session that an operation leaves behind. -/
def run (s : Session) : Operation → Session
  | .load uri source kind => s.load (Workspace.unexamined uri source kind)
  | .loadBack place => s.loadBack place
  | .unload uri => ⟨(s.workspace.unload uri).1, s.release uri⟩
  | .checkAll => { s with workspace := s.workspace.checkAll.1 }
  | .examineAll => { s with workspace := s.workspace.examineAll.1 }
  | .process uri => { s with workspace := (s.workspace.process uri).1 }
  | .examine depth uri => { s with workspace := (s.workspace.examine depth uri).1 }

/-- The session that a history leads to. -/
def after (s : Session) (history : List Operation) : Session := history.foldl run s

@[simp] theorem after_concat (history : List Operation) (op : Operation) :
    s.after (history ++ [op]) = (s.after history).run op := by
  unfold after
  rw [List.foldl_append]
  rfl

end Session

namespace Workspace

/-- The workspace that a history leads to. -/
def after (ws : Workspace) (history : List Operation) : Workspace :=
  (Session.after { workspace := ws } history).workspace

/-- Looking at documents keeps the property. -/
structure Lasting (P : Workspace → Prop) : Prop where
  withoutReports {ws : Workspace} (h : P ws) : P ws.withoutReports
  examine {ws : Workspace} (h : P ws) (depth : Depth) (uri : String) : P (ws.examine depth uri).1

variable {ws : Workspace} {uri : String}

theorem get?_eq_none : ws.get? uri = none ↔ uri ∉ ws.uris := by
  unfold get? uris
  rw [List.find?_eq_none, List.mem_map]
  simp

/-- A document that is there is removed, and then all others are looked at alone. -/
theorem fst_unload (h : uri ∈ ws.uris) : (ws.unload uri).1 = (ws.without uri).checkAll.1 := by
  unfold unload get
  cases hget : ws.get? uri with
  | none => exact absurd h (get?_eq_none.mp hget)
  | some doc => rfl

/-- **What a look at a document keeps is kept by looks at several ones**, wherever they end. -/
theorem examineEach_induction {P : Workspace → Prop} {depth : Depth}
    (hstep : ∀ ws uri, P ws → P (examine ws depth uri).1) (uris : List String) {ws : Workspace}
    (h : P ws) : P (examineEach depth uris ws).1 := by
  induction uris generalizing ws with
  | nil => exact h
  | cons uri uris ih =>
    have hlook := hstep ws uri h
    unfold examineEach
    split
    · rename_i heq
      rwa [heq] at hlook
    · rename_i heq
      rw [heq] at hlook
      exact ih hlook

namespace Lasting

variable {P : Workspace → Prop} (hP : Lasting P)

include hP

theorem examineEach (h : P ws) (depth : Depth) (uris : List String) :
    P (Workspace.examineEach depth uris ws).1 :=
  examineEach_induction (P := P) (fun _ uri h => hP.examine h depth uri) uris h

theorem checkAll (h : P ws) : P ws.checkAll.1 :=
  hP.examineEach (hP.withoutReports h) .alone ws.uris

/-- A look at all documents keeps what the look at them alone has brought about. -/
theorem examineAll_of_checkAll (h : P ws.checkAll.1) : P ws.examineAll.1 := by
  unfold Workspace.examineAll
  split
  · rename_i heq
    rwa [heq] at h
  · rename_i heq
    rw [heq] at h
    exact hP.examineEach h .full _

theorem process_of_checkAll (h : P ws.checkAll.1) (hu : uri ∈ ws.uris) :
    P (ws.process uri).1 := by
  unfold Workspace.process Workspace.get
  cases hget : ws.get? uri with
  | none => exact absurd hu (get?_eq_none.mp hget)
  | some doc =>
    simp only
    split
    · rename_i heq
      rwa [heq] at h
    · rename_i heq
      rw [heq] at h
      exact hP.examine h .full uri

theorem examineAll (h : P ws) : P ws.examineAll.1 := hP.examineAll_of_checkAll (hP.checkAll h)

theorem process (h : P ws) (uri : String) : P (ws.process uri).1 := by
  by_cases hu : uri ∈ ws.uris
  · exact hP.process_of_checkAll (hP.checkAll h) hu
  · unfold Workspace.process Workspace.get
    rw [get?_eq_none.mpr hu]
    exact h

end Lasting

end Workspace

namespace Session

open Workspace

/-- The steps that operations are made of keep a property of workspaces and one of the documents in
them, which stay as they are when they are taken out. -/
structure Stable (P : Workspace → Prop) (Q : Document → Prop) : Prop extends Lasting P where
  unexamined (uri : String) (source : Source) (kind : Option FileKind) :
    Q (Workspace.unexamined uri source kind)
  documents {ws : Workspace} (h : P ws) : ∀ doc ∈ ws.documents, Q doc
  load {ws : Workspace} {doc : Document} (h : P ws) (hd : Q doc) : P (ws.load doc)
  without {ws : Workspace} (h : P ws) (uri : String) : P (ws.without uri)

namespace Stable

variable {P : Workspace → Prop} {Q : Document → Prop} (hP : Stable P Q) {s : Session}

include hP

theorem unload {ws : Workspace} (h : P ws) (uri : String) : P (ws.unload uri).1 := by
  by_cases hu : uri ∈ ws.uris
  · rw [fst_unload hu]
    exact hP.checkAll (hP.without h uri)
  · unfold Workspace.unload Workspace.get
    rw [get?_eq_none.mpr hu]
    exact h

theorem release (h : P s.workspace) (hr : ∀ doc ∈ s.released, Q doc) (uri : String) :
    ∀ doc ∈ s.release uri, Q doc := by
  intro doc hd
  rcases List.mem_append.mp hd with hd | hd
  · exact hP.documents h doc (List.mem_of_find?_eq_some (Option.mem_toList.mp hd))
  · exact hr doc hd

/-- Every operation keeps the properties. -/
theorem run (h : P s.workspace) (hr : ∀ doc ∈ s.released, Q doc) (op : Operation) :
    P (s.run op).workspace ∧ ∀ doc ∈ (s.run op).released, Q doc := by
  cases op with
  | load uri source kind => exact ⟨hP.load h (hP.unexamined ..), hP.release h hr uri⟩
  | loadBack place =>
    change P (s.loadBack place).workspace ∧ ∀ doc ∈ (s.loadBack place).released, Q doc
    unfold loadBack
    split
    · exact ⟨h, hr⟩
    · rename_i doc hplace
      have hrest : ∀ d ∈ s.released.eraseIdx place, Q d :=
        fun d hd => hr d (List.mem_of_mem_eraseIdx hd)
      refine ⟨hP.load h (hr doc (List.mem_of_getElem? hplace)), ?_⟩
      exact hP.release (s := { s with released := s.released.eraseIdx place }) h hrest doc.uri
  | unload uri => exact ⟨hP.unload h uri, hP.release h hr uri⟩
  | checkAll => exact ⟨hP.checkAll h, hr⟩
  | examineAll => exact ⟨hP.examineAll h, hr⟩
  | process uri => exact ⟨hP.process h uri, hr⟩
  | examine depth uri => exact ⟨hP.examine h depth uri, hr⟩

/-- **What the steps keep holds after every history.** -/
theorem after (h : P s.workspace) (hr : ∀ doc ∈ s.released, Q doc) (history : List Operation) :
    P (s.after history).workspace ∧ ∀ doc ∈ (s.after history).released, Q doc := by
  induction history generalizing s with
  | nil => exact ⟨h, hr⟩
  | cons op history ih => exact ih (hP.run h hr op).1 (hP.run h hr op).2

end Stable

end Session

end PackLint
