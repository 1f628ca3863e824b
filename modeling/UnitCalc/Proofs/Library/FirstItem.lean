import Mathlib.Data.List.Forall2
import Mathlib.Data.List.Nodup
import UnitCalc.Library.Mutation

/-!
# `Proofs.Library.FirstItem` — lists whose first fitting item is changed

A library changes its lists only at the first item that satisfies a test, by replacing or erasing it, and
asks for this item before. So the item that was found is the one that is changed: it divides the list, and
what stands before and behind it stays (`exists_append_of_find?`). That a list keeps some of its items then
follows from what is known of the item that was found.
-/

namespace UnitCalc

variable {α β : Type} {test p : α → Bool} {a b : α} {as : List α}

/-- An item of a list with one item changed is an item of the list or the changed one. -/
theorem mem_updateFirst {x : α} (h : x ∈ updateFirst test (fun _ => b) as) : x ∈ as ∨ x = b := by
  fun_induction updateFirst test (fun _ => b) as with
  | case1 => cases h
  | case2 a as hit =>
    rcases List.mem_cons.1 h with rfl | h
    · exact .inr rfl
    · exact .inl (List.mem_cons_of_mem a h)
  | case3 a as miss ih =>
    rcases List.mem_cons.1 h with rfl | h
    · exact .inl List.mem_cons_self
    · exact (ih h).imp_left (List.mem_cons_of_mem a)

/-- What is the same for the changed item and for every one that it may replace stays as it was. -/
theorem map_updateFirst {f : α → β} (same : ∀ x, test x = true → f b = f x) :
    (updateFirst test (fun _ => b) as).map f = as.map f := by
  fun_induction updateFirst test (fun _ => b) as with
  | case1 => rfl
  | case2 a as hit => rw [List.map_cons, List.map_cons, same a hit]
  | case3 a as miss ih => rw [List.map_cons, List.map_cons, ih]

/-- **The item that is found divides the list where the list is changed.** -/
theorem exists_append_of_find? (found : as.find? test = some a) :
    ∃ before later, as = before ++ a :: later ∧ as.eraseP test = before ++ later ∧
      ∀ change, updateFirst test change as = before ++ change a :: later := by
  induction as with
  | nil => cases found
  | cons x as ih =>
    cases hit : test x with
    | true =>
      rw [List.find?_cons_of_pos hit] at found
      obtain rfl := Option.some.inj found
      refine ⟨[], as, rfl, List.eraseP_cons_of_pos hit, fun change => ?_⟩
      rw [updateFirst, if_pos hit, List.nil_append]
    | false =>
      have miss : ¬ test x = true := Bool.eq_false_iff.1 hit
      rw [List.find?_cons_of_neg miss] at found
      obtain ⟨before, later, divided, erased, updated⟩ := ih found
      refine ⟨x :: before, later, by rw [divided, List.cons_append], ?_, fun change => ?_⟩
      · rw [List.eraseP_cons_of_neg miss, erased, List.cons_append]
      · rw [updateFirst, if_neg miss, updated, List.cons_append]

theorem mem_updateFirst_self (found : as.find? test = some a) :
    b ∈ updateFirst test (fun _ => b) as := by
  obtain ⟨before, later, -, -, updated⟩ := exists_append_of_find? found
  rw [updated]
  exact List.mem_append_right before List.mem_cons_self

theorem find?_updateFirst_self (found : as.find? test = some a) (fits : test b = true) :
    (updateFirst test (fun _ => b) as).find? test = some b := by
  induction as with
  | nil => cases found
  | cons x as ih =>
    rw [updateFirst]
    split
    · exact List.find?_cons_of_pos fits
    · next miss =>
      rw [List.find?_cons_of_neg miss] at found ⊢
      exact ih found

/-! ## Items that are spared -/

/-- If the item that was found is none of some items, replacing it keeps them and their order. -/
theorem filter_sublist_updateFirst (found : as.find? test = some a) (other : p a = false) :
    (as.filter p).Sublist (updateFirst test (fun _ => b) as) := by
  obtain ⟨before, later, rfl, -, updated⟩ := exists_append_of_find? found
  rw [updated, List.filter_append, List.filter_cons_of_neg (Bool.eq_false_iff.1 other)]
  exact List.filter_sublist.append (List.filter_sublist.cons b)

/-- If the item that was found is none of some items, erasing it keeps them and their order. -/
theorem filter_sublist_eraseP (found : as.find? test = some a) (other : p a = false) :
    (as.filter p).Sublist (as.eraseP test) := by
  obtain ⟨before, later, rfl, erased, -⟩ := exists_append_of_find? found
  rw [erased, List.filter_append, List.filter_cons_of_neg (Bool.eq_false_iff.1 other)]
  exact List.filter_sublist.append List.filter_sublist

/-! ## Items with keys of their own -/

section

variable {key : α → β} {before later : List α} {x : α}

theorem nodup_map_concat (distinct : (as.map key).Nodup) (new : ∀ x ∈ as, key x ≠ key b) :
    ((as ++ [b]).map key).Nodup := by
  rw [List.map_append, List.map_singleton, ← List.concat_eq_append]
  refine List.Nodup.concat (fun known => ?_) distinct
  obtain ⟨x, hx, same⟩ := List.exists_of_mem_map known
  exact new x hx same

theorem key_ne_of_mem_others (distinct : ((before ++ a :: later).map key).Nodup)
    (h : x ∈ before ++ later) : key x ≠ key a := by
  rw [List.map_append, List.map_cons, List.nodup_middle, ← List.map_append] at distinct
  exact fun same => (List.nodup_cons.1 distinct).1 (List.mem_map.2 ⟨x, h, same⟩)

/-- What has a key of its own is new to the items before it. -/
theorem key_ne_of_nodup_append (distinct : ((before ++ a :: later).map key).Nodup) :
    ∀ x ∈ before, key x ≠ key a := fun _ hx =>
  key_ne_of_mem_others distinct (List.mem_append_left later hx)

variable [DecidableEq β]

/-- If every key is given once, an item is the only one with its key. -/
theorem filter_key_eq (distinct : (as.map key).Nodup) (h : a ∈ as) :
    as.filter (fun x => key x = key a) = [a] := by
  obtain ⟨before, later, rfl⟩ := List.append_of_mem h
  have others : ∀ x ∈ before ++ later, ¬ decide (key x = key a) = true := fun x hx same =>
    key_ne_of_mem_others distinct hx (of_decide_eq_true same)
  obtain ⟨front, back⟩ := List.forall_mem_append.1 others
  rw [List.filter_append, List.filter_eq_nil_iff.2 front, List.nil_append,
    List.filter_cons_of_pos (by simp), List.filter_eq_nil_iff.2 back]

/-- If every key is given once, none is left of the one that is erased. -/
theorem key_ne_of_mem_eraseP {k : β} (distinct : (as.map key).Nodup)
    (found : as.find? (fun x => key x = k) = some a) (h : x ∈ as.eraseP fun x => key x = k) :
    key x ≠ k := by
  obtain rfl : key a = k := by simpa using List.find?_some found
  obtain ⟨before, later, rfl, erased, -⟩ := exists_append_of_find? found
  rw [erased] at h
  exact key_ne_of_mem_others distinct h

end

/-! ## Items that are related -/

variable {R : α → α → Prop}

/-- Replacing the item that was found by a related one gives a list that is related item by item. -/
theorem forall₂_updateFirst [Std.Refl R] (found : as.find? test = some a) (related : R a b) :
    List.Forall₂ R as (updateFirst test (fun _ => b) as) := by
  obtain ⟨before, later, rfl, -, updated⟩ := exists_append_of_find? found
  rw [updated]
  exact List.rel_append (List.forall₂_refl before) (.cons related (List.forall₂_refl later))

/-- Items that are related to some items in their order are so still when only these are counted. -/
theorem sublistForall₂_filter {bs : List α} (related : List.SublistForall₂ R as bs)
    (counted : ∀ a ∈ as, ∀ b, R a b → p b = true) : List.SublistForall₂ R as (bs.filter p) := by
  induction related with
  | nil => exact .nil
  | cons first _ ih =>
    obtain ⟨firstCounted, othersCounted⟩ := List.forall_mem_cons.1 counted
    rw [List.filter_cons_of_pos (firstCounted _ first)]
    exact .cons first (ih othersCounted)
  | @cons_right b as bs _ ih =>
    rw [List.filter_cons]
    split
    · exact .cons_right (ih counted)
    · exact ih counted

theorem exists_mem_of_sublistForall₂ {bs : List α} (related : List.SublistForall₂ R as bs) (h : a ∈ as) :
    ∃ b ∈ bs, R a b := by
  induction related with
  | nil => cases h
  | cons first _ ih =>
    rcases List.mem_cons.1 h with rfl | h
    · exact ⟨_, List.mem_cons_self, first⟩
    · obtain ⟨b, hb, related⟩ := ih h
      exact ⟨b, List.mem_cons_of_mem _ hb, related⟩
  | cons_right _ ih =>
    obtain ⟨b, hb, related⟩ := ih h
    exact ⟨b, List.mem_cons_of_mem _ hb, related⟩

/-! ## Looking up in a library -/

namespace Library

variable {l : Library} {id : Uuid} {c d : Category}

theorem id_of_category? (found : l.category? id = some c) : c.id = id := by
  simpa using List.find?_some found

theorem mem_of_category? (found : l.category? id = some c) : c ∈ l.categories :=
  List.mem_of_find?_eq_some found

theorem id_ne_of_category? (new : l.category? id = none) : ∀ c ∈ l.categories, c.id ≠ id := by
  simpa [category?] using new

theorem id_ne_of_unit? (new : c.unit? id = none) : ∀ u ∈ c.units, u.id ≠ id := by
  simpa [Category.unit?] using new

theorem category?_setCategory (found : l.category? d.id = some c) :
    (l.setCategory d).category? d.id = some d :=
  find?_updateFirst_self found (by simp)

end Library

end UnitCalc
