import Mathlib
import UnitCalc.Uuid

/-!
# `Proofs.Uuid` — identifiers read back

The written form of an identifier reads back (`ofText?_text`). It is longer than the bare digits, and it
begins with a digit, so that it is taken neither for them nor for one of the wrapped forms.
-/

namespace UnitCalc.Uuid

/-! ## Digits -/

theorem digitOfChar?_digitChar (d : Fin 16) : digitOfChar? (digitChar d) = some d := by
  revert d
  decide

/-- No digit is taken for a brace or for the beginning of a URN. -/
theorem digitChar_ne (d : Fin 16) : digitChar d ≠ '\x7b' ∧ digitChar d ≠ 'u' := by
  revert d
  decide

theorem ofDigits?_digits (id : Uuid) : ofDigits? (id.digits.toList.map digitChar) = some id := by
  have each : (digitOfChar? ∘ digitChar) = fun d => pure d := by
    funext d
    exact digitOfChar?_digitChar d
  have read : (id.digits.toList.map digitChar).mapM digitOfChar? = some id.digits.toList := by
    rw [List.mapM_map, each, List.mapM_pure, List.map_id']
    rfl
  obtain ⟨⟨⟨digits⟩, size⟩⟩ := id
  rw [ofDigits?, read]
  exact dif_pos size

/-! ## Groups -/

theorem ungroup?_group {sizes : List Nat} {cs : List Char} (h : sizes.sum ≤ cs.length) :
    ungroup? sizes (group sizes cs) = some cs := by
  induction sizes generalizing cs with
  | nil => rfl
  | cons n ns ih =>
    rw [List.sum_cons] at h
    have first : (cs.take n).length = n := by
      rw [List.length_take]
      omega
    have others : ns.sum ≤ (cs.drop n).length := by
      rw [List.length_drop]
      omega
    rw [group, ungroup?, List.drop_left' first, List.take_left' first]
    show Option.map _ (ungroup? ns (group ns (cs.drop n))) = some cs
    rw [ih others, Option.map_some, List.take_append_drop]

/-- Every group but the last one takes one more character. -/
theorem length_group {sizes : List Nat} {cs : List Char} (h : sizes.sum ≤ cs.length) :
    (group sizes cs).length = cs.length + sizes.length := by
  induction sizes generalizing cs with
  | nil => rfl
  | cons n ns ih =>
    rw [List.sum_cons] at h
    have others : ns.sum ≤ (cs.drop n).length := by
      rw [List.length_drop]
      omega
    rw [group, List.length_append, List.length_cons, ih others, List.length_take, List.length_drop,
      List.length_cons]
    omega

/-! ## The written form -/

theorem length_digits (id : Uuid) : (id.digits.toList.map digitChar).length = 32 := by
  simp

theorem exists_chars_eq (id : Uuid) : ∃ cs, id.chars = digitChar id.digits[0] :: cs := by
  obtain ⟨⟨⟨digits⟩, size⟩⟩ := id
  cases digits with
  | nil => cases size
  | cons d ds => exact ⟨_, rfl⟩

/-- The written form stands for itself. -/
theorem unwrap_chars (id : Uuid) : unwrap id.chars = id.chars := by
  obtain ⟨cs, head⟩ := exists_chars_eq id
  obtain ⟨brace, urn⟩ := digitChar_ne id.digits[0]
  rw [unwrap, head, if_neg (by simp [brace]), if_neg]
  intro h
  exact urn (List.cons_prefix_cons.1 (List.isPrefixOf_iff_prefix.1 h)).1.symm

/-- **The written form of an identifier reads back.** -/
theorem ofText?_text (id : Uuid) : ofText? id.text = some id := by
  have long : groupSizes.sum ≤ (id.digits.toList.map digitChar).length := by
    rw [length_digits]
    decide
  have length : id.chars.length = 36 := by
    rw [chars, length_group long, length_digits]
    rfl
  -- with its hyphens the form is longer than the bare digits
  rw [ofText?, text, String.toList_ofList, if_neg (by omega), unwrap_chars, ofGroups?, chars,
    ungroup?_group long, Option.bind_some, ofDigits?_digits]

end UnitCalc.Uuid
