import UnitCalc.Proofs.Store.Seeding

/-!
# `Proofs.Store.Log` — what the log of a store says about its library

A library reports each of its changes with an event of its own, and a file store changes a copy of its library
before the document is written. So a change is announced also when the document cannot be written and the copy
is thrown away. What the log says after that is true again: an announcement took effect exactly if the line of a
written document comes next (`FileStore.log_spec`).

A mutation that the library rejects reports warnings only (`Library.warns_apply`). So one operation announces
nothing, or one change that takes effect, or one that does not (`FileStore.perform_log`), and the run follows by
induction on the operations. A store in memory has no document, and all its announcements are
true (`MemoryStore.told_announced`).
-/

namespace UnitCalc

/-! ## Announcements -/

/-- The event announces that something in the library was inserted, replaced or deleted. -/
def Event.announces : Event → Bool
  | insertedCategory _ _ _ | replacedCategory _ _ | deletedCategory _ _ => true
  | insertedUnit _ _ _ | replacedUnit _ _ | deletedUnit _ _ => true
  | insertedFormula _ _ | replacedFormula _ | deletedFormula _ => true
  | _ => false

/-- The announcements in a log. -/
def announced (log : List Event) : List Event :=
  log.filter Event.announces

/-- The next line of the log is that of a written document. -/
def writtenNext : List Event → Bool
  | .wrote _ :: _ => true
  | _ => false

/-- The announcements in a log that the line of a written document follows at once. -/
def confirmed : List Event → List Event
  | [] => []
  | e :: log => if e.announces && writtenNext log then e :: confirmed log else confirmed log

section Announcements

variable {e : Event} {log log' : List Event}

/-- A warning announces nothing. -/
theorem announces_of_warn (h : e.level = .warn) : e.announces = false := by
  cases e <;> first | rfl | cases h

theorem announced_append (log log' : List Event) : announced (log ++ log') = announced log ++ announced log' :=
  List.filter_append ..

theorem confirmed_sublist (log : List Event) : (confirmed log).Sublist (announced log) := by
  induction log with
  | nil => exact .refl []
  | cons e log ih =>
    rw [confirmed, announced, List.filter_cons]
    cases e.announces with
    | false => exact ih
    | true =>
      rw [Bool.true_and, if_pos rfl]
      split
      · exact ih.cons_cons e
      · exact ih.cons e

/-- Warnings make no difference. -/
theorem announced_of_warn (warnings : ∀ e ∈ log, e.level = .warn) :
    announced (log ++ log') = announced log' := by
  have none : announced log = [] :=
    List.filter_eq_nil_iff.2 fun e mem => Bool.eq_false_iff.1 (announces_of_warn (warnings e mem))
  rw [announced_append, none, List.nil_append]

theorem confirmed_of_warn (warnings : ∀ e ∈ log, e.level = .warn) :
    confirmed (log ++ log') = confirmed log' := by
  induction log with
  | nil => rfl
  | cons e log ih =>
    obtain ⟨first, others⟩ := List.forall_mem_cons.1 warnings
    rw [List.cons_append, confirmed, announces_of_warn first, Bool.false_and, if_neg (by simp), ih others]

theorem writtenNext_of_warn (warnings : ∀ e ∈ log, e.level = .warn) (next : writtenNext log' = false) :
    writtenNext (log ++ log') = false := by
  cases log with
  | nil => exact next
  | cons e log =>
    have first := warnings e List.mem_cons_self
    cases e <;> first | rfl | cases first

/-- An announcement at the head of a log. -/
theorem announced_cons (h : e.announces = true) : announced (e :: log) = e :: announced log := by
  rw [announced, List.filter_cons, if_pos h]
  rfl

theorem announced_cons_wrote (path : String) (h : e.announces = true) :
    announced (e :: .wrote path :: log) = e :: announced log :=
  announced_cons h

theorem confirmed_cons_wrote (path : String) (h : e.announces = true) :
    confirmed (e :: .wrote path :: log) = e :: confirmed log := by
  rw [confirmed, h, confirmed]
  rfl

theorem confirmed_cons (next : writtenNext log = false) : confirmed (e :: log) = confirmed log := by
  rw [confirmed, next, Bool.and_false, if_neg (by simp)]

/-- The last line of a seeding announces nothing. -/
theorem announced_seeded (log : List Event) (n : Nat) : announced (log ++ [.seeded n]) = announced log := by
  rw [announced_append]
  exact List.append_nil _

theorem confirmed_seeded (log : List Event) (n : Nat) : confirmed (log ++ [.seeded n]) = confirmed log := by
  induction log with
  | nil => rfl
  | cons e log ih =>
    have next : writtenNext (log ++ [.seeded n]) = writtenNext log := by
      cases log with
      | nil => rfl
      | cons f log => cases f <;> rfl
    rw [List.cons_append, confirmed, confirmed, ih, next]

theorem writtenNext_cons (h : e.announces = true) : writtenNext (e :: log) = false := by
  cases e <;> first | rfl | cases h

end Announcements

namespace Library

variable {l l' : Library} {m : Mutation} {e : Event} {err : StoreError}

/-- A change is reported with an announcement. -/
theorem Change.announces (h : Change l m e l') : e.announces = true := by
  cases h <;> rfl

/-- A check passes without a report, or it has warned of one unit. -/
def Checked (a : Attempt Unit) : Prop :=
  a = .ok () ∨ ∃ name cause, a = ⟨[.rejectedUnit name cause], .error (.invalidUnit name cause)⟩

theorem checked_checkUnit (u : UnitDef) : Checked (checkUnit u) := by
  rw [checkUnit]
  cases u.validate with
  | ok => exact .inl rfl
  | error cause => exact .inr ⟨u.name, cause, rfl⟩

theorem checked_checkUnits (us : List UnitDef) : Checked (checkUnits us) := by
  induction us with
  | nil => exact .inl rfl
  | cons u us ih =>
    rw [checkUnits]
    rcases checked_checkUnit u with valid | ⟨name, cause, rejected⟩
    · rw [valid]
      exact ih
    · rw [rejected]
      exact .inr ⟨name, cause, rfl⟩

/-- If the attempt fails, all it reports is warnings. -/
def Warns (a : Attempt Library) : Prop :=
  ∀ err, a.result = .error err → ∀ e ∈ a.events, e.level = .warn

theorem warns_fail (err : StoreError) : Warns (.fail err) :=
  fun _ _ _ mem => nomatch mem

theorem warns_refuse (name : String) : Warns (refuse name) := by
  rintro err - e mem
  obtain rfl := List.mem_singleton.1 mem
  rfl

theorem warns_ok {a : Attempt Library} (accepted : a.result = .ok l) : Warns a := by
  intro err failed
  rw [accepted] at failed
  cases failed

theorem warns_checked {check : Attempt Unit} {next : Unit → Attempt Library} (checked : Checked check)
    (h : Warns (next ())) : Warns (check >>= next) := by
  rcases checked with rfl | ⟨name, cause, rfl⟩
  · exact h
  · rintro err - e mem
    obtain rfl := List.mem_singleton.1 mem
    rfl

/-- **A mutation that is rejected reports warnings only.** -/
theorem warns_apply (l : Library) (m : Mutation) : Warns (l.apply m) := by
  cases m with
  | saveCategory c =>
    refine warns_checked (checked_checkUnits c.units) ?_
    split
    · split
      · exact warns_refuse _
      · exact warns_ok rfl
    · exact warns_ok rfl
  | deleteCategory id =>
    rw [apply, deleteCategory]
    split
    · exact warns_fail _
    · split
      · exact warns_refuse _
      · exact warns_ok rfl
  | saveUnit id u =>
    refine warns_checked (checked_checkUnit u) ?_
    split
    · exact warns_fail _
    · split
      · split
        · exact warns_refuse _
        · exact warns_ok rfl
      · exact warns_ok rfl
  | deleteUnit id unitId =>
    rw [apply, deleteUnit]
    split
    · exact warns_fail _
    · split
      · exact warns_fail _
      · split
        · exact warns_refuse _
        · exact warns_ok rfl
  | saveFormula f =>
    rw [apply, saveFormula]
    split
    · next cause _ =>
      rintro err - e mem
      obtain rfl : e = .rejectedFormula f.name cause := List.mem_singleton.1 mem
      rfl
    · split
      · exact warns_ok rfl
      · exact warns_ok rfl
  | deleteFormula id =>
    rw [apply, deleteFormula]
    split
    · exact warns_ok rfl
    · exact warns_fail _

end Library

/-! ## Logs and effects -/

/-- A mutation that took effect on a library. -/
structure Effect where
  before : Library
  mutation : Mutation
  after : Library
deriving DecidableEq, Repr

/-- The event is the announcement of the effect. -/
def Told (effect : Effect) (e : Event) : Prop :=
  effect.before.Change effect.mutation e effect.after

theorem Told.announces {effect : Effect} {e : Event} (h : Told effect e) : e.announces = true :=
  Library.Change.announces h

namespace Store

variable {σ : Type} [Store σ]

/-- The events of a run of operations. -/
def log (s : σ) : List Operation → List Event
  | [] => []
  | o :: os => (perform s o).2.events ++ log (perform s o).1 os

/-- What an operation changes in the library. -/
def effect (s : σ) : Operation → List Effect
  | .ask _ => []
  | .change m =>
    match (Store.apply s m).2.result with
    | .ok () => [⟨library s, m, library (Store.apply s m).1⟩]
    | .error _ => []

/-- The mutations of a run that took effect, in their order. -/
def effects (s : σ) : List Operation → List Effect
  | [] => []
  | o :: os => effect s o ++ effects (perform s o).1 os

theorem log_append (s : σ) (os os' : List Operation) : log s (os ++ os') = log s os ++ log (after s os) os' := by
  induction os generalizing s with
  | nil => rfl
  | cons o os ih => rw [List.cons_append, log, ih, log, List.append_assoc, after]

/-- The operations of a run up to the first one that fails. -/
def untilError (s : σ) : List Operation → List Operation
  | [] => []
  | o :: os =>
    match (perform s o).2.result with
    | .ok _ => o :: untilError (perform s o).1 os
    | .error _ => [o]

/-- The operations that filling the store comes to. -/
def seeding (s : σ) (id : Nat → Nat → Uuid) : List Operation :=
  if (library s).isEmpty then untilError s (saves (BuiltIn.categories id)) else []

theorem saveAll_eq (s : σ) (cs : List Category) :
    (saveAll s cs).1 = after s (untilError s (saves cs)) ∧
      (saveAll s cs).2.events = log s (untilError s (saves cs)) := by
  induction cs generalizing s with
  | nil => exact ⟨rfl, rfl⟩
  | cons c cs ih =>
    have first := perform_change s (.saveCategory c)
    rcases saved : Store.apply s (.saveCategory c) with ⟨t, events, result⟩
    rw [saved] at first
    rw [saves, List.map_cons, untilError, first, saveAll, saved]
    cases result with
    | ok =>
      obtain ⟨same, later⟩ := ih t
      refine ⟨?_, ?_⟩
      · show (saveAll t cs).1 = after s (_ :: untilError t (saves cs))
        rw [after, first, same]
      · show events ++ (saveAll t cs).2.events = log s (_ :: untilError t (saves cs))
        rw [log, first, later]
    | error e =>
      refine ⟨?_, ?_⟩
      · show t = after s [_]
        rw [after, first, after]
      · show events = log s [_]
        rw [log, first, log, List.append_nil]

/-- **Filling a store is saving its categories**, with the same lines in the log and one more at the end. -/
theorem seedIfEmpty_eq (s : σ) (id : Nat → Nat → Uuid) :
    (seedIfEmpty s id).1 = after s (seeding s id) ∧
      ((seedIfEmpty s id).2.events = log s (seeding s id) ∨
        ∃ n, (seedIfEmpty s id).2.events = log s (seeding s id) ++ [.seeded n]) := by
  rw [seedIfEmpty, seeding]
  split
  · obtain ⟨same, events⟩ := saveAll_eq s (BuiltIn.categories id)
    rw [← same, ← events]
    rcases saveAll s (BuiltIn.categories id) with ⟨t, events, result⟩
    cases result with
    | ok => exact ⟨rfl, .inr ⟨_, rfl⟩⟩
    | error e => exact ⟨rfl, .inl rfl⟩
  · exact ⟨rfl, .inl rfl⟩

end Store

/-! ## In memory -/

namespace MemoryStore

/-- **An operation in memory** announces nothing, or the change that it makes. -/
theorem perform_log (s : MemoryStore) (o : Operation) :
    ((∀ e ∈ (Store.perform s o).2.events, e.level = .warn) ∧ Store.effect s o = []) ∨
      ∃ e effect, (Store.perform s o).2.events = [e] ∧ Store.effect s o = [effect] ∧ Told effect e := by
  cases o with
  | ask q => exact .inl ⟨List.forall_mem_nil _, rfl⟩
  | change m =>
    rw [Store.perform_change, Store.effect]
    rcases s.apply_cases m with ⟨err, rejected, applied⟩ | ⟨l, accepted, applied⟩
    · rw [applied]
      exact .inl ⟨s.library.warns_apply m err rejected, rfl⟩
    · obtain ⟨e, change⟩ := Library.result_apply_eq_ok.1 accepted
      rw [applied, change.apply_eq]
      exact .inr ⟨e, _, rfl, rfl, change⟩

/-- **A store in memory announces exactly what takes effect**, whatever is done with it. -/
theorem told_announced (s : MemoryStore) (os : List Operation) :
    List.Forall₂ Told (Store.effects s os) (announced (Store.log s os)) := by
  induction os generalizing s with
  | nil => exact .nil
  | cons o os ih =>
    rw [Store.effects, Store.log]
    rcases perform_log s o with ⟨warnings, none⟩ | ⟨e, effect, events, one, told⟩
    · rw [announced_of_warn warnings, none]
      exact ih _
    · rw [events, one, List.singleton_append, List.singleton_append, announced_cons told.announces]
      exact .cons told (ih _)

end MemoryStore

/-! ## In a file -/

namespace FileStore

/-- **An operation in a file** announces nothing, or the change that it makes and then its document, or a change
whose document cannot be written. -/
theorem perform_log (s : FileStore) (o : Operation) :
    (s.writeFails o = false ∧ (∀ e ∈ (Store.perform s o).2.events, e.level = .warn) ∧ Store.effect s o = []) ∨
    (s.writeFails o = false ∧ ∃ e effect, (Store.perform s o).2.events = [e, .wrote s.path]
      ∧ Store.effect s o = [effect] ∧ Told effect e) ∨
    (s.writeFails o = true ∧ ∃ e, (Store.perform s o).2.events = [e]
      ∧ e.announces = true ∧ Store.effect s o = []) := by
  cases o with
  | ask q => exact .inl ⟨rfl, List.forall_mem_nil _, rfl⟩
  | change m =>
    rw [Store.perform_change, Store.effect, writeFails]
    rcases s.apply_cases m with
      ⟨err, rejected, applied⟩ | ⟨l, d, accepted, written, applied⟩ | ⟨l, d, accepted, unwritten, applied⟩
    · rw [applied, rejected]
      exact .inl ⟨rfl, s.library.warns_apply m err rejected, rfl⟩
    · obtain ⟨e, change⟩ := Library.result_apply_eq_ok.1 accepted
      rw [applied, change.apply_eq]
      dsimp only
      rw [written]
      exact .inr (.inl ⟨rfl, e, _, rfl, rfl, change⟩)
    · -- the library has announced the change to its copy by then
      obtain ⟨e, change⟩ := Library.result_apply_eq_ok.1 accepted
      rw [applied, change.apply_eq]
      dsimp only
      rw [unwritten]
      exact .inr (.inr ⟨rfl, e, rfl, change.announces, rfl⟩)

/-- The log of a run does not begin with a written document. -/
theorem writtenNext_log (s : FileStore) (os : List Operation) : writtenNext (Store.log s os) = false := by
  induction os generalizing s with
  | nil => rfl
  | cons o os ih =>
    rw [Store.log]
    rcases s.perform_log o with
      ⟨-, warnings, -⟩ | ⟨-, e, effect, events, -, told⟩ | ⟨-, e, events, announces, -⟩
    · exact writtenNext_of_warn warnings (ih _)
    · rw [events]
      exact writtenNext_cons told.announces
    · rw [events]
      exact writtenNext_cons announces

/-- The announcements that a written document follows are those of the effects. -/
theorem told_confirmed (s : FileStore) (os : List Operation) :
    List.Forall₂ Told (Store.effects s os) (confirmed (Store.log s os)) := by
  induction os generalizing s with
  | nil => exact .nil
  | cons o os ih =>
    rw [Store.effects, Store.log]
    rcases s.perform_log o with
      ⟨-, warnings, none⟩ | ⟨-, e, effect, events, one, told⟩ | ⟨-, e, events, -, none⟩
    · rw [confirmed_of_warn warnings, none]
      exact ih _
    · rw [events, one]
      simp only [List.cons_append, List.nil_append]
      rw [confirmed_cons_wrote _ told.announces]
      exact .cons told (ih _)
    · -- whatever comes next, it does not begin with a document
      rw [events, none, List.singleton_append, confirmed_cons (writtenNext_log _ _)]
      exact ih _

/-- Every change that is accepted is announced once. -/
theorem length_announced (s : FileStore) (os : List Operation) :
    (announced (Store.log s os)).length + (s.kept os).length = (Store.effects s os).length + os.length := by
  induction os generalizing s with
  | nil => rfl
  | cons o os ih =>
    have later := ih (Store.perform s o).1
    rw [Store.effects, Store.log, kept]
    rcases s.perform_log o with
      ⟨writes, warnings, none⟩ | ⟨writes, e, effect, events, one, told⟩ | ⟨fails, e, events, announces, none⟩
    · rw [writes, announced_of_warn warnings, none]
      simp only [Bool.false_eq_true, if_false, List.length_cons, List.nil_append]
      omega
    · rw [writes, events, one]
      simp only [List.cons_append, List.nil_append, announced_cons_wrote _ told.announces, Bool.false_eq_true,
        if_false, List.length_cons]
      omega
    · rw [fails, events, none, List.singleton_append, announced_cons announces]
      simp only [if_true, List.length_cons, List.nil_append]
      omega

theorem kept_sublist (s : FileStore) (os : List Operation) : (s.kept os).Sublist os := by
  induction os generalizing s with
  | nil => exact .refl []
  | cons o os ih =>
    rw [kept]
    split
    · exact (ih _).cons o
    · exact (ih _).cons_cons o

/-- **What the log of a file store says.** Take any store, any disk and any run. The announcements that the line
of a written document follows at once are those of the mutations that took effect, one for each and in their
order. All announcements together are more: there is one besides for each operation whose document could not be
written. So the announcements are those of the mutations that took effect if and only if every document could be
written. Filling the store is a run of saves, and its log announces and confirms the same as theirs. -/
theorem log_spec (s : FileStore) (os : List Operation) :
    let log := Store.log s os
    List.Forall₂ Told (Store.effects s os) (confirmed log) ∧
      (announced log).length + (s.kept os).length = (Store.effects s os).length + os.length ∧
      (List.Forall₂ Told (Store.effects s os) (announced log) ↔ s.kept os = os) ∧
      ∀ id, let seeded := Store.seedIfEmpty (Store.after s os) id
        let saved := os ++ Store.seeding (Store.after s os) id
        seeded.1 = Store.after s saved ∧
          announced (log ++ seeded.2.events) = announced (Store.log s saved) ∧
          confirmed (log ++ seeded.2.events) = confirmed (Store.log s saved) := by
  intro log
  have told : List.Forall₂ Told _ (confirmed log) := told_confirmed s os
  have lengths : (announced log).length + _ = _ := length_announced s os
  refine ⟨told, lengths, ⟨fun all => ?_, fun every => ?_⟩, fun id => ?_⟩
  · have same := all.length_eq
    exact (kept_sublist s os).eq_of_length (by omega)
  · have same := told.length_eq
    rw [every] at lengths
    have none_besides : confirmed log = announced log :=
      (confirmed_sublist log).eq_of_length (by omega)
    exact none_besides ▸ told
  · intro seeded saved
    obtain ⟨same, events⟩ := Store.seedIfEmpty_eq (Store.after s os) id
    refine ⟨same.trans (Store.after_append s os _).symm, ?_⟩
    show announced (log ++ seeded.2.events) = announced (Store.log s (os ++ _)) ∧
      confirmed (log ++ seeded.2.events) = confirmed (Store.log s (os ++ _))
    rw [Store.log_append]
    rcases events with events | ⟨n, events⟩
    · rw [events]
      exact ⟨rfl, rfl⟩
    · rw [events, ← List.append_assoc, announced_seeded, confirmed_seeded]
      exact ⟨rfl, rfl⟩

/-- A category is saved and then deleted, where the second document cannot be written. -/
def saveThenDelete : List Operation :=
  [.change (.saveCategory (.empty .nil)), .change (.deleteCategory .nil)]

/-- Both changes are announced, and the first one is confirmed. -/
theorem log_spec_flaky :
    (announced (Store.log flaky saveThenDelete)).length = 2
      ∧ (confirmed (Store.log flaky saveThenDelete)).length = 1
      ∧ ¬ List.Forall₂ Told (Store.effects flaky saveThenDelete) (announced (Store.log flaky saveThenDelete)) := by
  obtain ⟨told, lengths, all, -⟩ := log_spec flaky saveThenDelete
  have kept : (flaky.kept saveThenDelete).length = 1 := by decide +kernel
  have one : (confirmed (Store.log flaky saveThenDelete)).length = 1 := by decide +kernel
  have effects := told.length_eq
  have two : saveThenDelete.length = 2 := rfl
  refine ⟨by omega, one, fun every => ?_⟩
  rw [all.1 every] at kept
  cases kept

/-- **Not every announcement is true**: what a file store announces is not always what took effect. -/
theorem not_told_announced :
    ¬ ∀ (s : FileStore) (os : List Operation),
      List.Forall₂ Told (Store.effects s os) (announced (Store.log s os)) := by
  intro always
  have same := (always flaky saveThenDelete).length_eq
  have different : (Store.effects flaky saveThenDelete).length
      ≠ (announced (Store.log flaky saveThenDelete)).length := by decide +kernel
  exact different same

end FileStore

end UnitCalc
