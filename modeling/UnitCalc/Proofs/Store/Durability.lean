import UnitCalc.Proofs.Store.Disk
import UnitCalc.Proofs.Store.Runs

/-!
# `Proofs.Store.Durability` — the document and the library agree

Whenever the document of a file store is opened again it gives the library that the store keeps, after
operations that succeed and after operations that fail (`durable`). An interruption in the middle of an
operation leaves a document that gives the library from before the operation or from after it.

What a document gives is decided by the entry at its path alone (`load_congr`), so that an operation that
leaves this entry alone keeps the agreement. An operation that replaces it writes the document of its new
library, which may be stored because it comes from one that may by a change; so it is read back.
-/

namespace UnitCalc

namespace FileStore

variable {path : String} {d d' : Disk} {l : Library} {s t : FileStore}

/-! ## Opening -/

theorem result_load (path : String) (d : Disk) : (load path d).result =
    match d.document with
    | none => .ok .empty
    | some (.file text) => (Library.ofDocument text).result
    | some _ => .error .io := by
  rw [load]
  rcases d.document with _ | text | _ | _
  · rfl
  · dsimp only
    cases read : (Library.ofDocument text).result with
    | error e => rw [Attempt.bind_of_error read]
    | ok l =>
      rw [Attempt.bind_of_ok read]
      rfl
  · rfl
  · rfl

/-- What is loaded depends on nothing but the document. -/
theorem load_congr (path : String) (same : d'.document = d.document) :
    (load path d').result = (load path d).result := by
  rw [result_load, result_load, same]

theorem load_of_document (path : String) (stored : l.Storable)
    (document : d.document = some (.file l.document)) : (load path d).result = .ok l := by
  rw [result_load, document]
  exact stored.reload

/-- Only what may be stored is loaded. -/
theorem storable_of_load (loaded : (load path d).result = .ok l) : l.Storable := by
  rw [result_load] at loaded
  split at loaded
  · cases loaded
    exact Library.storable_empty
  · exact (Library.result_ofDocument_eq_ok.1 loaded).2
  · cases loaded

theorem open?_of_load (loaded : (load path d).result = .ok l) :
    (open? path d).result = .ok ⟨path, l, d⟩ := by
  rw [open?, Attempt.bind_of_ok loaded]
  rfl

theorem load_of_open? (opened : (open? path d).result = .ok s) :
    s.path = path ∧ s.disk = d ∧ (load path d).result = .ok s.library := by
  obtain ⟨l, loaded, same⟩ := Attempt.exists_of_bind_eq_ok opened
  obtain rfl : ⟨path, l, d⟩ = s := Except.ok.inj same
  exact ⟨rfl, rfl, loaded⟩

/-! ## Operations -/

/-- **A mutation changes library and document together or not at all**, and during it the document is one
of the two. -/
theorem apply_document (s : FileStore) (m : Mutation) :
    ((∃ e, (Store.apply s m).2.result = .error e)
      ∧ (Store.apply s m).1.library = s.library
      ∧ (Store.apply s m).1.disk.document = s.disk.document
      ∧ ∀ d ∈ s.during m, d.document = s.disk.document) ∨
    ((Store.apply s m).2.result = .ok ()
      ∧ (∃ e, s.library.Change m e (Store.apply s m).1.library)
      ∧ (Store.apply s m).1.disk.document = some (.file (Store.apply s m).1.library.document)
      ∧ ∀ d ∈ s.during m, d.document = s.disk.document ∨
        d.document = some (.file (Store.apply s m).1.library.document)) := by
  rcases s.apply_cases m with
    ⟨e, rejected, eq⟩ | ⟨l, d, accepted, written, eq⟩ | ⟨l, d, accepted, unwritten, eq⟩
  · rw [eq, during, rejected]
    exact .inl ⟨⟨e, rfl⟩, rfl, rfl, by simp⟩
  · obtain ⟨new, states⟩ := Disk.document_of_done written
    rw [eq, during, accepted]
    exact .inr ⟨rfl, Library.result_apply_eq_ok.1 accepted, new, states⟩
  · obtain ⟨same, states⟩ := Disk.document_of_failed unwritten
    rw [eq, during, accepted]
    exact .inl ⟨⟨.io, rfl⟩, rfl, same, states⟩

theorem path_perform (s : FileStore) (o : Operation) : (Store.perform s o).1.path = s.path := by
  cases o with
  | ask q => rfl
  | change m =>
    rw [Store.perform_change]
    rcases s.apply_cases m with ⟨e, -, eq⟩ | ⟨l, d, -, -, eq⟩ | ⟨l, d, -, -, eq⟩ <;> rw [eq]

/-- An operation that fails leaves the library and the document as they were. -/
theorem unchanged_of_error {o : Operation} {e : StoreError}
    (failed : (Store.perform s o).2.result = .error e) :
    (Store.perform s o).1.library = s.library
      ∧ (Store.perform s o).1.disk.document = s.disk.document := by
  cases o with
  | ask q => exact ⟨rfl, rfl⟩
  | change m =>
    rw [Store.perform_change] at failed ⊢
    rcases s.apply_document m with ⟨-, library, document, -⟩ | ⟨done, -⟩
    · exact ⟨library, document⟩
    · rw [done] at failed
      cases failed

/-- The document gives the library at hand. -/
def Synced (s : FileStore) : Prop :=
  (load s.path s.disk).result = .ok s.library

/-- **An operation keeps the document and the library in agreement.** -/
theorem Synced.perform (synced : s.Synced) (o : Operation) : (Store.perform s o).1.Synced := by
  rw [Synced, path_perform]
  cases o with
  | ask q => exact synced
  | change m =>
    rw [Store.perform_change]
    rcases s.apply_document m with ⟨-, library, document, -⟩ | ⟨-, ⟨e, change⟩, document, -⟩
    · rw [load_congr s.path document, library]
      exact synced
    · -- the library that was at hand had been loaded, so it may be stored, and so may the new one
      exact load_of_document s.path (change.storable (storable_of_load synced)) document

theorem Synced.after (synced : s.Synced) (os : List Operation) :
    (Store.after s os).Synced ∧ (Store.after s os).path = s.path := by
  induction os generalizing s with
  | nil => exact ⟨synced, rfl⟩
  | cons o os ih =>
    obtain ⟨later, same⟩ := ih (synced.perform o)
    exact ⟨later, same.trans (path_perform s o)⟩

/-- **After an interruption** the document gives the library from before the mutation or from after it. -/
theorem Synced.during (synced : s.Synced) {m : Mutation} (h : d ∈ s.during m) :
    (load s.path d).result = .ok s.library
      ∨ (load s.path d).result = .ok (Store.apply s m).1.library := by
  rcases s.apply_document m with ⟨-, -, -, states⟩ | ⟨-, ⟨e, change⟩, -, states⟩
  · exact .inl ((load_congr s.path (states d h)).trans synced)
  · rcases states d h with same | new
    · exact .inl ((load_congr s.path same).trans synced)
    · exact .inr (load_of_document s.path (change.storable (storable_of_load synced)) new)

/-- **The document and the library never disagree.** Take a store that was opened, and any state of it
after a run. Opening its document again gives that state. The next operation, if it fails, leaves library
and document as they were. And wherever an interruption cuts the next mutation short, opening the document
gives the library from before it or the one from after it. -/
theorem durable (opened : (open? path d).result = .ok s) (run : Store.Reaches s t) :
    (open? path t.disk).result = .ok t ∧
      (∀ o e, (Store.perform t o).2.result = .error e →
        (Store.perform t o).1.library = t.library
          ∧ (Store.perform t o).1.disk.document = t.disk.document) ∧
      ∀ m, ∀ d' ∈ t.during m, ∃ l, (open? path d').result = .ok ⟨path, l, d'⟩
        ∧ (l = t.library ∨ l = (Store.perform t (.change m)).1.library) := by
  obtain ⟨rfl, rfl, loaded⟩ := load_of_open? opened
  obtain ⟨os, rfl⟩ := run.exists_eq_after
  obtain ⟨synced, same⟩ := Synced.after loaded os
  rw [← same]
  refine ⟨open?_of_load synced, fun o e failed => unchanged_of_error failed, fun m d' h => ?_⟩
  rw [Store.perform_change]
  rcases synced.during h with loaded | loaded
  · exact ⟨_, open?_of_load loaded, .inl rfl⟩
  · exact ⟨_, open?_of_load loaded, .inr rfl⟩

/-- The document of a store that is filled in part gives that part. -/
theorem durable_flaky :
    (open? "units.json" flaky.disk).result = .ok flaky
      ∧ (open? "units.json" (Store.seedIfEmpty flaky).1.disk).result
        = .ok (Store.seedIfEmpty flaky).1 := by
  have opened : (open? "units.json" flaky.disk).result = .ok flaky := rfl
  exact ⟨opened, (durable opened (.seed .start _)).1⟩

end FileStore

end UnitCalc
