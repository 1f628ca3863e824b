import UnitCalc.Proofs.Library.Runs
import UnitCalc.Proofs.Library.Validity
import UnitCalc.Store.File

/-!
# `Proofs.Store.Runs` — what stores keep over their runs

A store applies a mutation to its library, or leaves its library alone and fails; more is not needed of it
here (`LawfulStore`), and both stores are of this kind. Filling an empty store is no operation of its own:
it is some saves one after another (`exists_seedIfEmpty_eq_after`).

So a run of a store is a run of its library (`Store.Reaches.exists_library_eq`), and what every change keeps
holds of the library throughout: in particular all its units stay valid, so that its document can always be
loaded again.
-/

namespace UnitCalc

open Formula

/-! ## Single mutations -/

/-- A store changes its library as the mutation does, or fails and leaves it as it was. -/
class LawfulStore (σ : Type) [Store σ] : Prop where
  change_of_ok (s : σ) (m : Mutation) : (Store.apply s m).2.result = .ok () →
    ∃ e, (Store.library s).Change m e (Store.library (Store.apply s m).1)
  library_of_error (s : σ) (m : Mutation) (e : StoreError) : (Store.apply s m).2.result = .error e →
    Store.library (Store.apply s m).1 = Store.library s

namespace MemoryStore

/-- **What a mutation can come to** in memory: the library accepts it, or not. -/
theorem apply_cases (s : MemoryStore) (m : Mutation) :
    (∃ e, (s.library.apply m).result = .error e
      ∧ Store.apply s m = (s, ⟨(s.library.apply m).events, .error e⟩)) ∨
    ∃ l, (s.library.apply m).result = .ok l
      ∧ Store.apply s m = (⟨l⟩, ⟨(s.library.apply m).events, .ok ()⟩) := by
  show (∃ e, _ ∧ s.apply m = _) ∨ ∃ l, _ ∧ s.apply m = _
  rw [apply]
  cases (s.library.apply m).result with
  | error e => exact .inl ⟨e, rfl, rfl⟩
  | ok l => exact .inr ⟨l, rfl, rfl⟩

instance : LawfulStore MemoryStore where
  change_of_ok s m done := by
    rcases apply_cases s m with ⟨e, -, applied⟩ | ⟨l, accepted, applied⟩
    · rw [applied] at done
      cases done
    · rw [applied]
      exact Library.result_apply_eq_ok.1 accepted
  library_of_error s m e failed := by
    rcases apply_cases s m with ⟨e', -, applied⟩ | ⟨l, -, applied⟩
    · rw [applied]
    · rw [applied] at failed
      cases failed

end MemoryStore

namespace FileStore

/-- **What a mutation can come to** in a file: the library rejects it, or its document is written, or
is not. Only in the last two cases is the disk touched. -/
theorem apply_cases (s : FileStore) (m : Mutation) :
    (∃ e, (s.library.apply m).result = .error e
      ∧ Store.apply s m = (s, ⟨(s.library.apply m).events, .error e⟩)) ∨
    (∃ l d, (s.library.apply m).result = .ok l ∧ s.disk.replace l.document = (d, true)
      ∧ Store.apply s m = ({ s with library := l, disk := d },
        ⟨(s.library.apply m).events ++ [.wrote s.path], .ok ()⟩)) ∨
    ∃ l d, (s.library.apply m).result = .ok l ∧ s.disk.replace l.document = (d, false)
      ∧ Store.apply s m = ({ s with disk := d }, ⟨(s.library.apply m).events ++ [], .error .io⟩) := by
  show (∃ e, _ ∧ s.apply m = _) ∨ (∃ l d, _ ∧ _ ∧ s.apply m = _) ∨ ∃ l d, _ ∧ _ ∧ s.apply m = _
  rw [apply]
  cases (s.library.apply m).result with
  | error e => exact .inl ⟨e, rfl, rfl⟩
  | ok l =>
    dsimp only
    rw [commit]
    rcases replaced : s.disk.replace l.document with ⟨d, done⟩
    cases done with
    | true => exact .inr (.inl ⟨l, d, rfl, replaced, rfl⟩)
    | false => exact .inr (.inr ⟨l, d, rfl, replaced, rfl⟩)

instance : LawfulStore FileStore where
  change_of_ok s m done := by
    rcases apply_cases s m with ⟨e, -, applied⟩ | ⟨l, d, accepted, -, applied⟩ | ⟨l, d, -, -, applied⟩
    · rw [applied] at done
      cases done
    · rw [applied]
      exact Library.result_apply_eq_ok.1 accepted
    · rw [applied] at done
      cases done
  library_of_error s m e failed := by
    rcases apply_cases s m with ⟨e', -, applied⟩ | ⟨l, d, -, -, applied⟩ | ⟨l, d, -, -, applied⟩
    · rw [applied]
    · rw [applied] at failed
      cases failed
    · rw [applied]
      rfl

/-- An empty store on a disk that fails in its second replacement. -/
def flaky : FileStore :=
  ⟨"units.json", .empty, { faults := [none, some .renaming] }⟩

end FileStore

/-! ## Runs -/

namespace Store

variable {σ : Type} [Store σ]

theorem perform_change (s : σ) (m : Mutation) : perform s (.change m)
    = ((Store.apply s m).1,
      ⟨(Store.apply s m).2.events, (Store.apply s m).2.result.map fun _ => .done⟩) := by
  rw [perform]
  rcases Store.apply s m with ⟨t, events, result⟩
  cases result <;> rfl

theorem after_append (s : σ) (os os' : List Operation) : after s (os ++ os') = after (after s os) os' := by
  induction os generalizing s with
  | nil => rfl
  | cons o os ih => exact ih _

/-- Saving categories up to the first failure is saving the first ones of them. -/
theorem exists_saveAll_eq_after (s : σ) (cs : List Category) :
    ∃ k, (saveAll s cs).1 = after s ((cs.take k).map fun c => .change (.saveCategory c)) := by
  induction cs generalizing s with
  | nil => exact ⟨0, rfl⟩
  | cons c cs ih =>
    have first : (perform s (.change (.saveCategory c))).1 = (Store.apply s (.saveCategory c)).1 := by
      rw [perform_change]
    rcases saved : Store.apply s (.saveCategory c) with ⟨t, events, result⟩
    rw [saved] at first
    rw [saveAll, saved]
    cases result with
    | ok =>
      obtain ⟨k, later⟩ := ih t
      refine ⟨k + 1, ?_⟩
      rw [List.take_succ_cons, List.map_cons, after, first]
      exact later
    | error e =>
      -- the save that fails is the last one of the run
      exact ⟨1, first.symm⟩

/-- **Filling an empty store is a run of operations.** -/
theorem exists_seedIfEmpty_eq_after (s : σ) (id : Nat → Nat → Uuid) :
    ∃ os, (seedIfEmpty s id).1 = after s os := by
  obtain ⟨k, saved⟩ := exists_saveAll_eq_after s (BuiltIn.categories id)
  rw [seedIfEmpty]
  split
  · refine ⟨_, Eq.trans ?_ saved⟩
    rcases saveAll s (BuiltIn.categories id) with ⟨t, events, result⟩
    cases result <;> rfl
  · exact ⟨[], rfl⟩

/-- The store becomes the other one in a run of operations and of seedings. -/
inductive Reaches (s : σ) : σ → Prop
  | start : Reaches s s
  | perform {t : σ} (run : Reaches s t) (o : Operation) : Reaches s (perform t o).1
  | seed {t : σ} (run : Reaches s t) (id : Nat → Nat → Uuid) : Reaches s (seedIfEmpty t id).1

theorem Reaches.exists_eq_after {s t : σ} (run : Reaches s t) : ∃ os, t = after s os := by
  induction run with
  | start => exact ⟨[], rfl⟩
  | @perform t run o ih =>
    obtain ⟨os, rfl⟩ := ih
    exact ⟨os ++ [o], (after_append s os [o]).symm⟩
  | @seed t run id ih =>
    obtain ⟨os, rfl⟩ := ih
    obtain ⟨os', seeded⟩ := exists_seedIfEmpty_eq_after (after s os) id
    exact ⟨os ++ os', by rw [seeded, after_append]⟩

variable [LawfulStore σ] {P : Library → Prop}

/-- An operation on a store is a run of its library, of one mutation or of none. -/
theorem exists_library_perform (s : σ) (o : Operation) :
    ∃ ms, library (perform s o).1 = (library s).after ms := by
  cases o with
  | ask q => exact ⟨[], rfl⟩
  | change m =>
    rw [perform_change]
    cases result : (Store.apply s m).2.result with
    | ok =>
      obtain ⟨e, change⟩ := LawfulStore.change_of_ok s m result
      exact ⟨[m], (Library.next_of_ok (Library.result_apply_eq_ok.2 ⟨e, change⟩)).symm⟩
    | error e => exact ⟨[], LawfulStore.library_of_error s m e result⟩

theorem exists_library_after (s : σ) (os : List Operation) :
    ∃ ms, library (after s os) = (library s).after ms := by
  induction os generalizing s with
  | nil => exact ⟨[], rfl⟩
  | cons o os ih =>
    obtain ⟨ms, first⟩ := exists_library_perform s o
    obtain ⟨ms', later⟩ := ih (perform s o).1
    exact ⟨ms ++ ms', by rw [after, later, first, Library.after_append]⟩

/-- **A run of a store is a run of its library**, of the mutations that took effect. -/
theorem Reaches.exists_library_eq {s t : σ} (run : Reaches s t) :
    ∃ ms, library t = (library s).after ms := by
  obtain ⟨os, rfl⟩ := run.exists_eq_after
  exact exists_library_after s os

/-- **What every change keeps holds throughout every run.** -/
theorem Reaches.invariant (kept : ∀ {l m e l'}, Library.Change l m e l' → P l → P l') {s t : σ}
    (run : Reaches s t) (before : P (library s)) : P (library t) := by
  obtain ⟨ms, same⟩ := run.exists_library_eq
  exact same ▸ Library.invariant_after kept before ms

theorem Reaches.storable {s t : σ} (run : Reaches s t) (stored : (library s).Storable) :
    (library t).Storable :=
  run.invariant Library.Change.storable stored

/-- In a run from a library that may be stored, every unit of every category is valid. -/
theorem Reaches.valid {s t : σ} (run : Reaches s t) (stored : (library s).Storable) :
    ∀ c ∈ (library t).categories, ∀ u ∈ c.units, u.validate = .ok () := by
  intro c hc u hu
  exact (run.storable stored).valid u (Library.mem_units.2 ⟨c, hc, hu⟩)

theorem Reaches.parsed {s t : σ} (run : Reaches s t) (parsed : (library s).Parsed) : (library t).Parsed :=
  run.invariant Library.Change.parsed parsed

/-- **The units of a store stay valid.** In every run of a store whose library was empty at first or was
loaded from a document, all units of all categories are valid; and if it was empty at first, all formulas
parse. -/
theorem valid_of_reaches {l : Library}
    (start : l = .empty ∨ ∃ text, (Library.ofDocument text).result = .ok l) :
    (∀ t : MemoryStore, Reaches ⟨l⟩ t →
      (∀ c ∈ t.library.categories, ∀ u ∈ c.units, u.validate = .ok ()) ∧
        (l = .empty → ∀ f ∈ t.library.formulas, ∃ tree, parse f.source = .ok tree)) ∧
      ∀ path disk, ∀ t : FileStore, Reaches ⟨path, l, disk⟩ t →
        (∀ c ∈ t.library.categories, ∀ u ∈ c.units, u.validate = .ok ()) ∧
          (l = .empty → ∀ f ∈ t.library.formulas, ∃ tree, parse f.source = .ok tree) := by
  have stored : l.Storable := by
    rcases start with rfl | ⟨text, loaded⟩
    · exact Library.storable_empty
    · exact (Library.result_ofDocument_eq_ok.1 loaded).2
  have parsed : l = .empty → l.Parsed := by
    rintro rfl
    exact Library.parsed_empty
  constructor
  · intro t run
    exact ⟨run.valid stored, fun empty => run.parsed (parsed empty)⟩
  · intro path disk t run
    exact ⟨run.valid stored, fun empty => run.parsed (parsed empty)⟩

/-- Filling the store ends with its first category, whose units are valid. -/
theorem valid_of_reaches_flaky :
    (seedIfEmpty FileStore.flaky).1.library.categories.length = 1
      ∧ ∀ c ∈ (seedIfEmpty FileStore.flaky).1.library.categories, ∀ u ∈ c.units, u.validate = .ok () :=
  ⟨by decide +kernel, ((valid_of_reaches (.inl rfl)).2 _ _ _ (.seed .start _)).1⟩

end Store

end UnitCalc
