import Mathlib.Data.List.Nodup
import UnitCalc.Json.Record

/-!
# `Proofs.Json.Record` — a written record reads back

A record is written as an object that has its fields in their order, without the ones it has not. The
fields are read back from that object (`fields?_written`) because their names differ: each name picks out
the one member that was written for it, or none.
-/

namespace UnitCalc.Json

/-! ## Fields -/

/-- The members of an object for some of the fields of a record. -/
def written : List String → List (Option Json) → List (Option String × Json)
  | name :: names, some value :: values => member name value :: written names values
  | _ :: names, none :: values => written names values
  | _, _ => []

theorem exists_name_of_mem_written {names : List String} {values : List (Option Json)}
    {m : Option String × Json} (h : m ∈ written names values) : ∃ name ∈ names, m.1 = some name := by
  fun_induction written names values with
  | case1 name names value values ih =>
    rcases List.mem_cons.1 h with rfl | h
    · exact ⟨name, List.mem_cons_self, rfl⟩
    · obtain ⟨other, mem, eq⟩ := ih h
      exact ⟨other, List.mem_cons_of_mem name mem, eq⟩
  | case2 name names values ih =>
    obtain ⟨other, mem, eq⟩ := ih h
    exact ⟨other, List.mem_cons_of_mem name mem, eq⟩
  | case3 => cases h

/-- No member is written under a name that is no field. -/
theorem filter_written_of_not_mem {names : List String} {values : List (Option Json)} {name : String}
    (h : name ∉ names) : (written names values).filter (fun m => m.1 = some name) = [] := by
  rw [List.filter_eq_nil_iff]
  intro m hm eq
  obtain ⟨other, mem, other_eq⟩ := exists_name_of_mem_written hm
  rw [other_eq, decide_eq_true_eq, Option.some.injEq] at eq
  exact h (eq ▸ mem)

theorem member?_of_not_mem {names : List String} {values : List (Option Json)} {name : String}
    (h : name ∉ names) : member? (written names values) name = some none := by
  rw [member?, filter_written_of_not_mem h]

theorem member?_cons_of_ne {ms : List (Option String × Json)} {name other : String} {value : Json}
    (h : other ≠ name) : member? (member name value :: ms) other = member? ms other := by
  rw [member?, member?, List.filter_cons_of_neg]
  simp [member, h.symm]

theorem member?_cons_self {names : List String} {values : List (Option Json)} {name : String}
    {value : Json} (h : name ∉ names) :
    member? (member name value :: written names values) name = some (some value) := by
  rw [member?, List.filter_cons_of_pos (by simp [member]), filter_written_of_not_mem h]
  rfl

/-- What other members stand in front does not matter to the names that they have not. -/
theorem mapM_member?_congr {ms ms' : List (Option String × Json)} {names : List String}
    (h : ∀ name ∈ names, member? ms name = member? ms' name) :
    names.mapM (member? ms) = names.mapM (member? ms') := by
  induction names with
  | nil => rfl
  | cons name names ih =>
    rw [List.mapM_cons, List.mapM_cons, h name List.mem_cons_self,
      ih fun other mem => h other (List.mem_cons_of_mem name mem)]

theorem mapM_member?_written {names : List String} {values : List (Option Json)} (different : names.Nodup)
    (length : names.length = values.length) :
    names.mapM (member? (written names values)) = some values := by
  induction names generalizing values with
  | nil =>
    cases values with
    | nil => rfl
    | cons => cases length
  | cons name names ih =>
    obtain ⟨new, different⟩ := List.nodup_cons.1 different
    cases values with
    | nil => cases length
    | cons value values =>
      have others := ih different (Nat.succ.inj length)
      cases value with
      | none =>
        rw [List.mapM_cons, written, member?_of_not_mem new, others]
        rfl
      | some value =>
        -- the member in front has another name than the fields that are still to be read
        have same : names.mapM (member? (member name value :: written names values)) = some values := by
          rw [← others]
          refine mapM_member?_congr fun other mem => member?_cons_of_ne ?_
          rintro rfl
          exact new mem
        rw [List.mapM_cons, written, member?_cons_self new, same]
        rfl

/-- **The fields of a written record are read back**, those that are left out as such. -/
theorem fields?_written {names : List String} {values : List (Option Json)} (different : names.Nodup)
    (length : names.length = values.length) :
    (obj (written names values)).fields? names = some values := by
  have texts : (written names values).all (fun m => m.1.isSome) = true := by
    rw [List.all_eq_true]
    intro m hm
    obtain ⟨name, -, eq⟩ := exists_name_of_mem_written hm
    rw [eq]
    rfl
  rw [fields?, if_pos texts, mapM_member?_written different length]

section

variable {α : Type} (value? : Json → Option α) (j : Json)

theorem required?_some : required? value? (some j) = value? j :=
  rfl

theorem optional?_some (default : α) : optional? value? default (some j) = value? j :=
  rfl

end

/-! ## Lists -/

theorem mapM_guard {α : Type} (keep : α → Bool) (as : List α) :
    as.mapM (fun a => if keep a then some a else none) = if as.all keep then some as else none := by
  induction as with
  | nil => rfl
  | cons a as ih =>
    rw [List.mapM_cons, List.all_cons, ih]
    cases keep a with
    | true =>
      cases as.all keep <;> rfl
    | false => rfl

section

variable {α : Type} {item : α → Json} {item? : Json → Option α}

/-- A list is read back if every item is. -/
theorem list?_map {keep : α → Bool} (each : ∀ a, item? (item a) = if keep a then some a else none)
    (as : List α) : (arr (as.map item)).list? item? = if as.all keep then some as else none := by
  have same : item? ∘ item = fun a => if keep a then some a else none := funext each
  rw [list?, List.mapM_map, same, mapM_guard]

theorem list?_map_of_forall (each : ∀ a, item? (item a) = some a) (as : List α) :
    (arr (as.map item)).list? item? = some as := by
  have same : item? ∘ item = pure := funext each
  rw [list?, List.mapM_map, same, List.mapM_pure]
  exact congrArg some (List.map_id as)

end

end UnitCalc.Json
