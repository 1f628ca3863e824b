import UnitCalc.Proofs.Library.Change

/-!
# `Proofs.Library.Runs` — one mutation after another

Mutations are made one after another in two ways. In a run each of them may succeed or fail, and one that
fails leaves the library as it was (`after`). What is lost in a run is lost by one of the changes that it
makes (`exists_change_of_lost`), so that what every change keeps, every run keeps (`invariant_after`). In a
build all mutations succeed (`applyAll`): it is a run without failures.
-/

namespace UnitCalc.Library

/-- The library after a mutation, which is the same one if the mutation fails. -/
def next (l : Library) (m : Mutation) : Library :=
  match (l.apply m).result with
  | .ok l' => l'
  | .error _ => l

/-- The library after some mutations, one after another, whether they succeed or not. -/
def after (l : Library) : List Mutation → Library
  | [] => l
  | m :: ms => (l.next m).after ms

/-- The library after some mutations, all of which must succeed. -/
def applyAll (l : Library) : List Mutation → Except StoreError Library
  | [] => .ok l
  | m :: ms =>
    match (l.apply m).result with
    | .ok l' => l'.applyAll ms
    | .error e => .error e

variable {l l' : Library} {m : Mutation} {ms ms' : List Mutation}

/-! ## Runs -/

theorem next_of_ok (done : (l.apply m).result = .ok l') : l.next m = l' := by
  rw [next, done]

theorem next_of_error {e : StoreError} (failed : (l.apply m).result = .error e) : l.next m = l := by
  rw [next, failed]

/-- A mutation makes one of the changes or none. -/
theorem next_eq_or_change (l : Library) (m : Mutation) : l.next m = l ∨ ∃ e, Change l m e (l.next m) := by
  cases result : (l.apply m).result with
  | ok l' =>
    rw [next_of_ok result]
    exact .inr (result_apply_eq_ok.1 result)
  | error e => exact .inl (next_of_error result)

theorem after_append (l : Library) (ms ms' : List Mutation) :
    l.after (ms ++ ms') = (l.after ms).after ms' := by
  induction ms generalizing l with
  | nil => rfl
  | cons m ms ih => exact ih _

/-- **What a run loses, one of its changes loses.** -/
theorem exists_change_of_lost {P : Library → Prop} (start : P l) (lost : ¬ P (l.after ms)) :
    ∃ before m later e l', ms = before ++ m :: later ∧ P (l.after before)
      ∧ Change (l.after before) m e l' ∧ ¬ P l' := by
  induction ms generalizing l with
  | nil => exact absurd start lost
  | cons m ms ih =>
    by_cases kept : P (l.next m)
    · obtain ⟨before, m', later, e, l', rfl, held, change, gone⟩ := ih kept lost
      exact ⟨m :: before, m', later, e, l', rfl, held, change, gone⟩
    · -- the first mutation after which it is lost cannot have failed
      rcases l.next_eq_or_change m with same | ⟨e, change⟩
      · exact absurd (same.symm ▸ start) kept
      · exact ⟨[], m, ms, e, l.next m, rfl, start, change, kept⟩

/-- **What every change keeps holds after every run.** -/
theorem invariant_after {P : Library → Prop} (kept : ∀ {l m e l'}, Change l m e l' → P l → P l')
    (start : P l) (ms : List Mutation) : P (l.after ms) := by
  by_contra lost
  obtain ⟨_, _, _, _, _, _, held, change, gone⟩ := exists_change_of_lost start lost
  exact gone (kept change held)

/-! ## Builds -/

theorem applyAll_cons (done : (l.apply m).result = .ok l') : l.applyAll (m :: ms) = l'.applyAll ms := by
  rw [applyAll, done]

theorem applyAll_append (done : l.applyAll ms = .ok l') : l.applyAll (ms ++ ms') = l'.applyAll ms' := by
  induction ms generalizing l with
  | nil =>
    obtain rfl := Except.ok.inj done
    rfl
  | cons m ms ih =>
    rw [applyAll] at done
    split at done
    · next first =>
      rw [List.cons_append, applyAll_cons first]
      exact ih done
    · cases done

/-- If each of some items is accepted when those before it are there, all are accepted in their order. -/
theorem applyAll_map {α : Type} {save : α → Mutation} (holding : List α → Library) {as : List α}
    (accepted : ∀ before a later, as = before ++ a :: later →
      ((holding before).apply (save a)).result = .ok (holding (before ++ [a]))) :
    (holding []).applyAll (as.map save) = .ok (holding as) := by
  induction as using List.reverseRecOn with
  | nil => rfl
  | append_singleton as a ih =>
    have front : (holding []).applyAll (as.map save) = .ok (holding as) := by
      refine ih fun before b later split => accepted before b (later ++ [a]) ?_
      rw [split, List.append_assoc, List.cons_append]
    have last := accepted as a [] rfl
    rw [List.map_append, applyAll_append front, List.map_singleton, applyAll_cons last, applyAll]

/-- A build is a run. -/
theorem after_of_applyAll (done : l.applyAll ms = .ok l') : l.after ms = l' := by
  induction ms generalizing l with
  | nil => exact Except.ok.inj done
  | cons m ms ih =>
    rw [applyAll] at done
    split at done
    · next first =>
      rw [after, next_of_ok first]
      exact ih done
    · cases done

end UnitCalc.Library
