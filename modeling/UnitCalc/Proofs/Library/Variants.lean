import UnitCalc.Proofs.Double.Range
import UnitCalc.Proofs.Library.Change
import UnitCalc.Proofs.Unit.Convertibility
import UnitCalc.Proofs.Unit.Family

/-!
# `Proofs.Library.Variants` — which variants can be kept

A prefix gives a unit a new name, a new symbol and a new factor. The name and the symbol begin with those of the
prefix, so that neither is blank, and there is no formula. All that can be wrong with a variant of a valid unit
is its factor, a product that is rounded to zero or to infinity when the factor of the unit lies near the ends
of the doubles (`validate_withPrefix`). The identifier that it is given does not matter.

Nothing prevents such a variant from being offered, and nothing needs to: it is refused when it is saved. Any
other variant is saved, and converted like its siblings (`validate_variant`).
-/

namespace UnitCalc

open Formula Double

/-! ## Names and symbols -/

theorem Text.isBlankText_append (s t : String) :
    isBlankText (s ++ t) = (isBlankText s && isBlankText t) := by
  rw [isBlankText, String.toList_append, List.all_append]
  rfl

/-- No prefix has a blank name or symbol. -/
theorem MetricPrefix.not_blank {p : MetricPrefix} (hp : p ∈ all) :
    Text.isBlankText p.name = false ∧ Text.isBlankText p.symbol = false := by
  have every : ∀ p ∈ all, Text.isBlankText p.name = false ∧ Text.isBlankText p.symbol = false := by decide
  exact every p hp

/-- However the name is split, the prefix is part of it. -/
theorem isBlankText_prefixedName {p : MetricPrefix} (hp : p ∈ MetricPrefix.all) (name : String) :
    Text.isBlankText (prefixedName p.name name) = false := by
  rw [prefixedName]
  simp [Text.isBlankText_append, (MetricPrefix.not_blank hp).1]

/-! ## Factors -/

theorem symbolPower_mem (symbol : String) : symbolPower symbol ∈ [1, 2, 3] := by
  rw [symbolPower]
  split <;> decide

/-- Every power of a prefix that a symbol asks for is a factor. -/
theorem isFactor_power {p : MetricPrefix} (hp : p ∈ MetricPrefix.all) (symbol : String) :
    Scalar.isFactor (powNat p.multiplier (symbolPower symbol)) = true := by
  have every : ∀ p ∈ MetricPrefix.all, ∀ n ∈ [1, 2, 3], Scalar.isFactor (powNat p.multiplier n) = true := by
    decide
  exact every p hp _ (symbolPower_mem symbol)

namespace UnitDef

/-- The factor that the unit with a prefix would have if it were not rounded. -/
def exactFactor (u : UnitDef) (p : MetricPrefix) : ℚ :=
  magnitude u.factor * magnitude (powNat p.multiplier (symbolPower u.symbol))

variable {u : UnitDef} {p : MetricPrefix} {id : Uuid}

theorem factor_withPrefix :
    (u.withPrefix p id).factor = u.factor * powNat p.multiplier (symbolPower u.symbol) :=
  rfl

/-- Whether a variant is valid does not depend on its identifier. -/
theorem validate_withPrefix_of_id {id' : Uuid} : (u.withPrefix p id).validate = (u.withPrefix p id').validate :=
  rfl

/-- All that can be wrong with a variant is its factor. -/
theorem validate_withPrefix (hp : p ∈ MetricPrefix.all) :
    (u.withPrefix p id).validate =
      if Scalar.isFactor (u.withPrefix p id).factor then .ok ()
      else .error (.invalidFactor (u.withPrefix p id).factor) := by
  have name : Text.isBlankText (u.withPrefix p id).name = false := isBlankText_prefixedName hp u.name
  have symbol : Text.isBlankText (u.withPrefix p id).symbol = false := by
    show Text.isBlankText (p.symbol ++ u.symbol) = false
    rw [Text.isBlankText_append, (MetricPrefix.not_blank hp).2, Bool.false_and]
  have formula : (u.withPrefix p id).formula = none := rfl
  rw [validate, name, symbol, formula]
  cases Scalar.isFactor (u.withPrefix p id).factor <;> rfl

theorem isFactor_of_valid (valid : u.validate = .ok ()) : Scalar.isFactor u.factor = true :=
  (validate_eq_ok.1 valid).2.2.1

/-- Between the ends of the doubles, the variant of a valid unit is valid. -/
theorem validate_withPrefix_between (valid : u.validate = .ok ()) (hp : p ∈ MetricPrefix.all)
    (low : underflow < u.exactFactor p) (high : u.exactFactor p < overflow) :
    (u.withPrefix p id).validate = .ok () := by
  rw [validate_withPrefix hp, factor_withPrefix]
  exact if_pos (isFactor_mul (isFactor_of_valid valid) (isFactor_power hp u.symbol) low high)

theorem validate_withPrefix_low (valid : u.validate = .ok ()) (hp : p ∈ MetricPrefix.all)
    (low : u.exactFactor p ≤ underflow) : (u.withPrefix p id).validate = .error (.invalidFactor 0) := by
  rw [validate_withPrefix hp, factor_withPrefix,
    mul_of_le_underflow (isFactor_of_valid valid) (isFactor_power hp u.symbol) low]
  rfl

theorem validate_withPrefix_high (valid : u.validate = .ok ()) (hp : p ∈ MetricPrefix.all)
    (high : overflow ≤ u.exactFactor p) :
    (u.withPrefix p id).validate = .error (.invalidFactor Double.infinity) := by
  rw [validate_withPrefix hp, factor_withPrefix,
    mul_of_overflow_le (isFactor_of_valid valid) (isFactor_power hp u.symbol) high]
  rfl

/-- **A variant of a valid unit is valid exactly if its factor is rounded to neither zero nor infinity.** -/
theorem validate_withPrefix_iff (valid : u.validate = .ok ()) (hp : p ∈ MetricPrefix.all) :
    (u.withPrefix p id).validate = .ok () ↔ underflow < u.exactFactor p ∧ u.exactFactor p < overflow := by
  constructor
  · intro valid'
    refine ⟨lt_of_not_ge fun low => ?_, lt_of_not_ge fun high => ?_⟩
    · rw [validate_withPrefix_low valid hp low] at valid'
      cases valid'
    · rw [validate_withPrefix_high valid hp high] at valid'
      cases valid'
  · rintro ⟨low, high⟩
    exact validate_withPrefix_between valid hp low high

/-- Valid units of one dimension, if it is not a temperature, are linked by their factors. -/
theorem linked_of_valid {w : UnitDef} (valid : u.validate = .ok ()) (valid' : w.validate = .ok ())
    (same : u.dimension.same w.dimension = true) (other : u.dimension.isTemperature = false) :
    u.measure.Linked w.measure := by
  have other' := (Dimension.isTemperature_of_same same).symm.trans other
  exact ⟨(Measure.usable_of_other other).2 (isFactor_of_valid valid),
    (Measure.usable_of_other other').2 (isFactor_of_valid valid'), .inr same⟩

end UnitDef

/-! ## Variants of a category of valid units -/

namespace Category

/-- **A variant of valid units can be kept unless its factor leaves the doubles**, whatever identifier it is
given. It is valid exactly if its factor is rounded to neither zero nor infinity, and otherwise it is refused
with that factor. If it is valid, every category to which its identifier is new takes it, and it is converted to
and from every valid unit of its dimension that has no formula, where that is not a temperature. -/
theorem validate_variant {c : Category} (valid : ∀ u ∈ c.units, u.validate = .ok ()) {ids : Nat → Uuid}
    {v : UnitDef} (hv : v ∈ c.prefixedVariants ids) :
    (∃ u ∈ c.units, ∃ p ∈ MetricPrefix.all, ∃ n, v = u.withPrefix p (ids n)
        ∧ (v.validate = .ok () ↔ underflow < u.exactFactor p ∧ u.exactFactor p < overflow)
        ∧ (u.exactFactor p ≤ underflow → v.validate = .error (.invalidFactor 0))
        ∧ (overflow ≤ u.exactFactor p → v.validate = .error (.invalidFactor Double.infinity)))
      ∧ (v.validate = .ok () →
        (∀ (l : Library) (id : Uuid) (d : Category), l.category? id = some d → d.unit? v.id = none →
          (l.apply (.saveUnit id v)).result = .ok (l.setCategory { d with units := d.units ++ [v] }))
        ∧ ∀ w : UnitDef, w.validate = .ok () → w.formula = none → v.dimension.same w.dimension = true →
          v.dimension.isTemperature = false → ∀ (settings : Settings) (x : Float),
            (∃ y, Measure.convert settings x v.measure w.measure = .ok y)
              ∧ ∃ y, Measure.convert settings x w.measure v.measure = .ok y) := by
  obtain ⟨u, p, n, first, rfl⟩ := exists_firstPrefixing hv
  obtain ⟨⟨hu, -⟩, hp⟩ := mem_prefixings.mp (List.mem_of_find?_eq_some first)
  refine ⟨⟨u, hu, p, hp, n, rfl, UnitDef.validate_withPrefix_iff (valid u hu) hp,
    UnitDef.validate_withPrefix_low (valid u hu) hp, UnitDef.validate_withPrefix_high (valid u hu) hp⟩,
    fun kept => ⟨fun l id d found new => ?saved, fun w valid' plain same other settings x => ?converted⟩⟩
  case saved =>
    rw [(Library.Change.insertUnit kept found new).apply_eq]
  case converted =>
    have linked := UnitDef.linked_of_valid kept valid' same other
    exact ⟨(Measure.exists_convertWith_iff rfl plain).2 linked,
      (Measure.exists_convertWith_iff plain rfl).2 linked.symm⟩

/-- A unit near the end of the doubles. -/
def distant : UnitDef :=
  { UnitDef.user .nil "Distant" "q" 1e297 with takesPrefixes := true, dimension := ⟨[.length], []⟩ }

def kelvin : UnitDef :=
  { UnitDef.user .nil "Kelvin" "K" 1 with takesPrefixes := true, dimension := ⟨[.temperature], []⟩ }

def extremes : Category :=
  { id := .nil, name := "Extremes", units := [distant, kelvin] }

def tera : MetricPrefix :=
  ⟨"Tera", "T", 1e12⟩

def giga : MetricPrefix :=
  ⟨"Giga", "G", 1e9⟩

theorem extremes_valid : ∀ u ∈ extremes.units, u.validate = .ok () := by
  decide +kernel

/-- Its billionfold is still a double. -/
theorem validate_variant_giga :
    ∃ v ∈ extremes.prefixedVariants, v.symbol = "Gq" ∧ v.validate = .ok ()
      ∧ (∃ y, Measure.convert {} 1 v.measure distant.measure = .ok y)
      ∧ ∃ y, Measure.convert {} 1 distant.measure v.measure = .ok y := by
  obtain ⟨n, mem⟩ := exists_mem_prefixedVariants (c := extremes) (u := distant) (p := giga) (fun _ => .max)
    (by decide) (by decide +kernel)
  have kept : (distant.withPrefix giga).validate = .ok () := by decide +kernel
  have spec := validate_variant extremes_valid mem
  exact ⟨_, mem, by decide, kept, (spec.2 kept).2 distant (extremes_valid distant List.mem_cons_self) rfl
    (Dimension.same_refl distant.dimension) rfl {} 1⟩

/-- Its trillionfold is rounded to infinity. A prefixed temperature is valid, but is not converted. No
identifiers prevent either. -/
theorem exists_invalid_variant :
    (∀ u ∈ extremes.units, u.validate = .ok ())
      ∧ ∀ ids, (∃ v ∈ extremes.prefixedVariants ids, v.validate = .error (.invalidFactor Double.infinity))
        ∧ ∃ v ∈ extremes.prefixedVariants ids, v.validate = .ok ()
          ∧ ∀ y, Measure.convert {} 1 v.measure kelvin.measure ≠ .ok y := by
  refine ⟨extremes_valid, fun ids => ⟨?infinite, ?refused⟩⟩
  case infinite =>
    obtain ⟨n, mem⟩ := exists_mem_prefixedVariants (c := extremes) (u := distant) (p := tera) ids
      (by decide) (by decide +kernel)
    have invalid : (distant.withPrefix tera).validate = .error (.invalidFactor Double.infinity) := by
      decide +kernel
    exact ⟨_, mem, UnitDef.validate_withPrefix_of_id.trans invalid⟩
  case refused =>
    obtain ⟨n, mem⟩ := exists_mem_prefixedVariants (c := extremes) (u := kelvin) (p := tera) ids
      (by decide) (by decide +kernel)
    have kept : (kelvin.withPrefix tera).validate = .ok () := by decide
    have unusable : ¬ (kelvin.withPrefix tera).measure.Usable := by decide
    refine ⟨_, mem, UnitDef.validate_withPrefix_of_id.trans kept, fun y converted => ?_⟩
    exact unusable ((Measure.exists_convertWith_iff rfl rfl).1 ⟨y, converted⟩).1

end Category

end UnitCalc
