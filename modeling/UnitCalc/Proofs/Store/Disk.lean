import Mathlib.Data.List.Basic
import UnitCalc.Store.Disk

/-!
# `Proofs.Store.Disk` — a replacement happens completely or not at all

The document on a disk is the old one up to the last step of a replacement, whatever goes wrong before,
and the new one after it (`replace_cases`). For the renaming is the only step that touches the document,
and it comes when the new text stands completely in the temporary file.
-/

namespace UnitCalc

namespace Disk

variable {fault : Option Fault} {d d' e : Disk} {text : String}

/-! ## One step -/

theorem step_makeDirectory (fault : Option Fault) (d : Disk) : d.step fault .makeDirectory = (d, false) ∨
    d.step fault .makeDirectory = ({ d with parent := .directory }, true) := by
  rw [step]
  split
  · exact .inl rfl
  · exact .inr rfl

theorem step_writeTemporary (fault : Option Fault) (d : Disk) (text : String) :
    (∃ left, d.step fault (.writeTemporary text) = ({ d with temporary := left }, false)) ∨
      d.step fault (.writeTemporary text) = ({ d with temporary := some (.file text) }, true) := by
  unfold step
  dsimp only
  split
  · exact .inl ⟨d.temporary, rfl⟩
  · split
    · next left => exact .inl ⟨left, rfl⟩
    · exact .inr rfl

theorem step_rename (fault : Option Fault) (d : Disk) : d.step fault .rename = (d, false) ∨
    d.step fault .rename = ({ d with document := d.temporary, temporary := none }, true) := by
  rw [step]
  split
  · exact .inl rfl
  · exact .inr rfl

/-- Only the renaming touches the document. -/
theorem document_step {s : DiskStep} (other : s ≠ .rename) :
    (d.step fault s).1.document = d.document := by
  cases s with
  | makeDirectory => rcases d.step_makeDirectory fault with eq | eq <;> rw [eq]
  | writeTemporary text => rcases d.step_writeTemporary fault text with ⟨left, eq⟩ | eq <;> rw [eq]
  | rename => exact absurd rfl other

/-- The renaming happens at once, so that the document is the old one during every step. -/
theorem document_of_mem_duringStep {s : DiskStep} (h : e ∈ d.duringStep s) :
    e.document = d.document := by
  cases s with
  | makeDirectory => rw [List.mem_singleton.1 h]
  | writeTemporary text =>
    rw [duringStep] at h
    split at h
    · rw [List.mem_singleton.1 h]
    · rcases List.mem_cons.1 h with rfl | h
      · rfl
      · rcases List.mem_cons.1 h with rfl | h
        · rfl
        · obtain ⟨n, -, rfl⟩ := List.mem_map.1 h
          rfl
  | rename => rw [List.mem_singleton.1 h]

/-! ## Several steps -/

theorem steps_append (ss ts : List DiskStep) : d.steps fault (ss ++ ts) =
    match d.steps fault ss with
    | (d, true) => d.steps fault ts
    | (d, false) => (d, false) := by
  induction ss generalizing d with
  | nil => rfl
  | cons s ss ih =>
    rw [List.cons_append, steps, steps]
    rcases d.step fault s with ⟨next, done⟩
    cases done with
    | true => exact ih
    | false => rfl

theorem mem_duringSteps_append {ss ts : List DiskStep} (h : e ∈ d.duringSteps fault (ss ++ ts)) :
    e ∈ d.duringSteps fault ss ∨
      ((d.steps fault ss).2 = true ∧ e ∈ (d.steps fault ss).1.duringSteps fault ts) := by
  induction ss generalizing d with
  | nil => exact .inr ⟨rfl, h⟩
  | cons s ss ih =>
    rw [List.cons_append, duringSteps] at h
    rw [duringSteps, steps, List.mem_append, or_assoc]
    refine (List.mem_append.1 h).imp_right fun later => ?_
    rcases eq : d.step fault s with ⟨next, done⟩
    rw [eq] at later
    cases done with
    | true => exact ih later
    | false => exact .inl later

/-- Before the renaming the document stays. -/
theorem document_steps (fault : Option Fault) (d : Disk) {ss : List DiskStep} (quiet : .rename ∉ ss) :
    (d.steps fault ss).1.document = d.document
      ∧ ∀ e ∈ d.duringSteps fault ss, e.document = d.document := by
  induction ss generalizing d with
  | nil => exact ⟨rfl, fun e h => by rw [List.mem_singleton.1 h]⟩
  | cons s ss ih =>
    have same : (d.step fault s).1.document = d.document :=
      document_step fun eq => quiet (eq ▸ List.mem_cons_self)
    rw [steps, duringSteps]
    rcases eq : d.step fault s with ⟨next, done⟩
    rw [eq] at same
    cases done with
    | true =>
      obtain ⟨after, during⟩ := ih next fun mem => quiet (List.mem_cons_of_mem s mem)
      refine ⟨after.trans same, fun e h => ?_⟩
      rcases List.mem_append.1 h with h | h
      · exact document_of_mem_duringStep h
      · exact (during e h).trans same
    | false =>
      refine ⟨same, fun e h => ?_⟩
      rcases List.mem_append.1 h with h | h
      · exact document_of_mem_duringStep h
      · rwa [List.mem_singleton.1 h]

/-! ## Replacements -/

/-- What comes before the renaming puts the new text completely into the temporary file. -/
theorem temporary_prepared (h : d.steps fault [.makeDirectory, .writeTemporary text] = (d', true)) :
    d'.temporary = some (.file text) := by
  rw [steps] at h
  rcases d.step_makeDirectory fault with eq | eq
  · rw [eq] at h
    cases h
  · rw [eq] at h
    dsimp only at h
    rw [steps] at h
    rcases step_writeTemporary fault { d with parent := .directory } text with ⟨left, eq⟩ | eq
    · rw [eq] at h
      cases h
    · rw [eq] at h
      cases h
      rfl

/-- The renaming alone: it fails without a trace, or the temporary file has become the document. -/
theorem steps_rename (fault : Option Fault) (d : Disk) :
    (d.steps fault [.rename] = (d, false) ∧ ∀ e ∈ d.duringSteps fault [.rename], e = d) ∨
    (d.steps fault [.rename] = ({ d with document := d.temporary, temporary := none }, true)
      ∧ ∀ e ∈ d.duringSteps fault [.rename],
        e = d ∨ e = { d with document := d.temporary, temporary := none }) := by
  rw [steps, duringSteps, duringStep]
  · rcases d.step_rename fault with eq | eq
    · rw [eq]
      exact .inl ⟨rfl, by simp⟩
    · rw [eq]
      exact .inr ⟨rfl, by simp [duringSteps]⟩
  · exact nofun

/-- **A replacement happens completely or not at all.** If it fails, the document is the old one then and
during all of it; if it succeeds, the document is the new one then, and the one or the other during it. -/
theorem replace_cases (d : Disk) (text : String) :
    ((d.replace text).2 = false ∧ (d.replace text).1.document = d.document
      ∧ ∀ e ∈ d.during text, e.document = d.document) ∨
    ((d.replace text).2 = true ∧ (d.replace text).1.document = some (.file text)
      ∧ ∀ e ∈ d.during text, e.document = d.document ∨ e.document = some (.file text)) := by
  -- the last step is told apart from the ones that leave the document alone
  let preparation : List DiskStep := [.makeDirectory, .writeTemporary text]
  have quiet : .rename ∉ preparation := by simp [preparation]
  obtain ⟨prepared, before⟩ := document_steps d.nextFault d.begun quiet
  have whole : d.replace text = match d.begun.steps d.nextFault preparation with
      | (p, true) => p.steps d.nextFault [.rename]
      | (p, false) => (p, false) := steps_append preparation [.rename]
  have states : ∀ e ∈ d.during text, e.document = d.document ∨
      ((d.begun.steps d.nextFault preparation).2 = true
        ∧ e ∈ (d.begun.steps d.nextFault preparation).1.duringSteps d.nextFault [.rename]) :=
    fun e h => (mem_duringSteps_append h).imp_left (before e)
  rw [whole]
  rcases eq : d.begun.steps d.nextFault preparation with ⟨p, done⟩
  rw [eq] at prepared states
  cases done with
  | false =>
    exact .inl ⟨rfl, prepared, fun e h => (states e h).elim id fun ⟨failed, _⟩ => nomatch failed⟩
  | true =>
    have new : p.temporary = some (.file text) := temporary_prepared eq
    dsimp only
    rcases steps_rename d.nextFault p with ⟨renamed, last⟩ | ⟨renamed, last⟩
    · rw [renamed]
      refine .inl ⟨rfl, prepared, fun e h => ?_⟩
      rcases states e h with same | ⟨-, h⟩
      · exact same
      · rwa [last e h]
    · rw [renamed]
      refine .inr ⟨rfl, new, fun e h => ?_⟩
      rcases states e h with same | ⟨-, h⟩
      · exact .inl same
      · rcases last e h with rfl | rfl
        · exact .inl prepared
        · exact .inr new

theorem document_of_failed (h : d.replace text = (d', false)) :
    d'.document = d.document ∧ ∀ e ∈ d.during text, e.document = d.document := by
  have cases := d.replace_cases text
  rw [h] at cases
  rcases cases with ⟨-, same⟩ | ⟨done, -⟩
  · exact same
  · cases done

theorem document_of_done (h : d.replace text = (d', true)) : d'.document = some (.file text)
    ∧ ∀ e ∈ d.during text, e.document = d.document ∨ e.document = some (.file text) := by
  have cases := d.replace_cases text
  rw [h] at cases
  rcases cases with ⟨failed, -⟩ | ⟨-, new⟩
  · cases failed
  · exact new

end Disk

end UnitCalc
