import UnitCalc.Unit.Prefix

/-!
# `Proofs.Unit.Family` — the variants that prefixes add to a category

The prefixings of a category are its prefixable units with every prefix, unit by unit and each in the order of
the prefixes. A prefixing becomes a variant if its symbol is not taken by a unit and it is the first one with
that symbol, and for no other reason (`mem_withNewSymbols`). So symbols never clash, whatever symbols the
category had before, and still none of them is missing: a family is complete as soon as its variants are added
(`prefixedVariants_complete`). Identifiers play no part in this, whichever ones the variants are given: the
prefixing that a symbol comes from is found without them (`map_fst_firstDraw?`).
-/

namespace UnitCalc

/-- The unit stands for a family: it takes prefixes, and its values do not come from a formula. -/
def UnitDef.Prefixable (u : UnitDef) : Prop :=
  u.takesPrefixes = true ∧ u.formula = none

namespace Category

/-! ## New symbols -/

/-- A unit is kept exactly if its symbol is not taken and it is the first one with that symbol. -/
theorem mem_withNewSymbols {v : UnitDef} {us : List UnitDef} {taken : List String} :
    v ∈ withNewSymbols taken us
      ↔ v.symbol ∉ taken ∧ us.find? (fun u => u.symbol = v.symbol) = some v := by
  induction us generalizing taken with
  | nil => simp [withNewSymbols]
  | cons u us ih =>
    rw [withNewSymbols]
    by_cases same : u.symbol = v.symbol
    · have first : (u :: us).find? (fun w => w.symbol = v.symbol) = some u :=
        List.find?_cons_of_pos (by simpa using same)
      rw [first, same]
      by_cases h : v.symbol ∈ taken
      · simp [h, ih]
      · simp [h, ih, eq_comm]
    · have later : (u :: us).find? (fun w => w.symbol = v.symbol)
          = us.find? fun w => w.symbol = v.symbol :=
        List.find?_cons_of_neg (by simpa using same)
      have other : v ≠ u := fun h => same (h ▸ rfl)
      rw [later]
      by_cases h : u.symbol ∈ taken
      · simp [h, ih]
      · simp [h, ih, other, Ne.symm same]

/-- No symbol is kept twice. -/
theorem nodup_withNewSymbols (us : List UnitDef) (taken : List String) :
    ((withNewSymbols taken us).map (·.symbol)).Nodup := by
  induction us generalizing taken with
  | nil => exact List.nodup_nil
  | cons u us ih =>
    rw [withNewSymbols]
    split
    · exact ih taken
    · have new : u.symbol ∉ (withNewSymbols (u.symbol :: taken) us).map (·.symbol) := by
        intro mem
        obtain ⟨v, kept, same⟩ := List.mem_map.mp mem
        exact (mem_withNewSymbols.mp kept).1 (same ▸ List.mem_cons_self)
      exact List.nodup_cons.mpr ⟨new, ih _⟩

/-- No symbol is lost: the one that is not taken is kept with the first unit that has it. -/
theorem symbol_mem_withNewSymbols {u : UnitDef} {us : List UnitDef} (hu : u ∈ us) (taken : List String) :
    u.symbol ∈ taken ++ (withNewSymbols taken us).map (·.symbol) := by
  by_cases h : u.symbol ∈ taken
  · exact List.mem_append_left _ h
  · obtain ⟨v, first⟩ : ∃ v, us.find? (fun w => w.symbol = u.symbol) = some v :=
      Option.isSome_iff_exists.mp (List.find?_isSome.mpr ⟨u, hu, by simp⟩)
    have same : v.symbol = u.symbol := by simpa using List.find?_some first
    have kept : v ∈ withNewSymbols taken us := mem_withNewSymbols.mpr ⟨same ▸ h, same ▸ first⟩
    exact List.mem_append_right _ (List.mem_map.mpr ⟨v, kept, same⟩)

theorem withNewSymbols_eq_nil {us : List UnitDef} {taken : List String}
    (h : ∀ u ∈ us, u.symbol ∈ taken) : withNewSymbols taken us = [] := by
  refine List.eq_nil_iff_forall_not_mem.mpr fun v kept => ?_
  obtain ⟨new, first⟩ := mem_withNewSymbols.mp kept
  exact new (h v (List.mem_of_find?_eq_some first))

/-! ## Prefixings -/

variable {c : Category} {ids : Nat → Uuid}

theorem mem_prefixings {u : UnitDef} {p : MetricPrefix} :
    (u, p) ∈ c.prefixings ↔ (u ∈ c.units ∧ u.Prefixable) ∧ p ∈ MetricPrefix.all := by
  simp [prefixings, UnitDef.Prefixable]

/-- Units that take no prefixes add no prefixings. -/
theorem prefixings_append {vs : List UnitDef} (h : ∀ v ∈ vs, v.takesPrefixes = false) :
    ({ c with units := c.units ++ vs } : Category).prefixings = c.prefixings := by
  have none_left : (vs.filter fun u => u.takesPrefixes && u.formula.isNone) = [] :=
    List.filter_eq_nil_iff.mpr fun v hv => by simp [h v hv]
  rw [prefixings, List.filter_append, none_left, List.append_nil, prefixings]

/-- The prefixed units are the prefixings, the `n`-th one under the `n`-th identifier. -/
theorem mem_prefixedUnits {v : UnitDef} :
    v ∈ c.prefixedUnits ids
      ↔ ∃ (n : Nat) (u : UnitDef) (p : MetricPrefix),
          c.prefixings[n]? = some (u, p) ∧ u.withPrefix p (ids n) = v := by
  simp only [prefixedUnits, List.mem_iff_getElem?, List.getElem?_mapIdx, Option.map_eq_some_iff, Prod.exists]

/-- The first prefixing with a symbol. -/
def firstPrefixing? (c : Category) (symbol : String) : Option (UnitDef × MetricPrefix) :=
  c.prefixings.find? fun (u, p) => p.symbol ++ u.symbol = symbol

/-- The first prefixing with a symbol, and the number of its identifier. -/
def firstDraw? (c : Category) (symbol : String) : Option ((UnitDef × MetricPrefix) × Nat) :=
  c.prefixings.zipIdx.find? fun ((u, p), _) => p.symbol ++ u.symbol = symbol

theorem map_fst_firstDraw? (symbol : String) :
    (c.firstDraw? symbol).map Prod.fst = c.firstPrefixing? symbol := by
  rw [firstPrefixing?, ← List.zipIdx_map_fst 0 c.prefixings, List.find?_map]
  rfl

theorem find?_prefixedUnits (symbol : String) :
    (c.prefixedUnits ids).find? (fun u => u.symbol = symbol)
      = (c.firstDraw? symbol).map fun ((u, p), n) => u.withPrefix p (ids n) := by
  rw [prefixedUnits, List.mapIdx_eq_zipIdx_map, List.find?_map]
  rfl

/-! ## Variants -/

/-- A variant is the first prefixing with a symbol that no unit has, under the identifier of its number. -/
theorem mem_prefixedVariants {v : UnitDef} :
    v ∈ c.prefixedVariants ids
      ↔ v.symbol ∉ c.units.map (·.symbol)
        ∧ ∃ u p n, c.firstDraw? v.symbol = some ((u, p), n) ∧ u.withPrefix p (ids n) = v := by
  simp only [prefixedVariants, mem_withNewSymbols, find?_prefixedUnits, Option.map_eq_some_iff, Prod.exists]

/-- A variant is the first prefixing with its symbol, under one of the identifiers. -/
theorem exists_firstPrefixing {v : UnitDef} (h : v ∈ c.prefixedVariants ids) :
    ∃ u p n, c.firstPrefixing? v.symbol = some (u, p) ∧ v = u.withPrefix p (ids n) := by
  obtain ⟨-, u, p, n, drawn, rfl⟩ := mem_prefixedVariants.mp h
  exact ⟨u, p, n, by rw [← map_fst_firstDraw?, drawn]; rfl, rfl⟩

/-- A prefixing is a variant, under some identifier, if no unit has its symbol and it is the first one that
has. -/
theorem exists_mem_prefixedVariants (ids : Nat → Uuid) {u : UnitDef} {p : MetricPrefix}
    (new : p.symbol ++ u.symbol ∉ c.units.map (·.symbol))
    (first : c.firstPrefixing? (p.symbol ++ u.symbol) = some (u, p)) :
    ∃ n, u.withPrefix p (ids n) ∈ c.prefixedVariants ids := by
  rw [← map_fst_firstDraw?, Option.map_eq_some_iff] at first
  obtain ⟨⟨_, n⟩, drawn, rfl⟩ := first
  exact ⟨n, mem_prefixedVariants.mpr ⟨new, u, p, n, drawn, rfl⟩⟩

theorem takesPrefixes_of_mem_prefixedVariants {v : UnitDef} (h : v ∈ c.prefixedVariants ids) :
    v.takesPrefixes = false := by
  obtain ⟨u, p, n, -, rfl⟩ := exists_firstPrefixing h
  rfl

/-- A symbol that a prefix makes is always there, with a unit or with a variant. -/
theorem symbol_mem_of_prefixing {u : UnitDef} {p : MetricPrefix} (h : (u, p) ∈ c.prefixings) :
    p.symbol ++ u.symbol ∈ (c.units ++ c.prefixedVariants ids).map (·.symbol) := by
  obtain ⟨n, at_n⟩ := List.mem_iff_getElem?.mp h
  have made : u.withPrefix p (ids n) ∈ c.prefixedUnits ids := mem_prefixedUnits.mpr ⟨n, u, p, at_n, rfl⟩
  rw [List.map_append]
  exact symbol_mem_withNewSymbols made _

/-- Once its variants are among its units, a category has no further ones. -/
theorem prefixedVariants_append (c : Category) (ids later : Nat → Uuid) :
    ({ c with units := c.units ++ c.prefixedVariants ids } : Category).prefixedVariants later = [] := by
  refine withNewSymbols_eq_nil fun v made => ?_
  obtain ⟨n, u, p, prefixing, rfl⟩ := mem_prefixedUnits.mp made
  rw [prefixings_append fun v => takesPrefixes_of_mem_prefixedVariants] at prefixing
  exact symbol_mem_of_prefixing (List.mem_of_getElem? prefixing)

/-- **The variants complete a category and never clash**, whatever identifiers they are given. Their symbols
differ from each other and from those of the units. Each comes from the first prefixing with its symbol, and so
from a prefixable unit of the category, of which it keeps the dimension. Every prefixing has its symbol among
the units and the variants, and once the variants are among the units there are no further ones, under any
identifiers. -/
theorem prefixedVariants_complete (c : Category) (ids : Nat → Uuid) :
    ((c.prefixedVariants ids).map (·.symbol)).Nodup
      ∧ (∀ v ∈ c.prefixedVariants ids, ∀ u ∈ c.units, v.symbol ≠ u.symbol)
      ∧ (∀ v ∈ c.prefixedVariants ids, ∃ u ∈ c.units, ∃ p ∈ MetricPrefix.all, ∃ n, u.Prefixable
          ∧ v = u.withPrefix p (ids n) ∧ v.dimension = u.dimension
          ∧ c.firstPrefixing? v.symbol = some (u, p))
      ∧ (∀ u ∈ c.units, u.Prefixable → ∀ p ∈ MetricPrefix.all,
          p.symbol ++ u.symbol ∈ (c.units ++ c.prefixedVariants ids).map (·.symbol))
      ∧ ∀ later : Nat → Uuid,
          ({ c with units := c.units ++ c.prefixedVariants ids } : Category).prefixedVariants later = [] := by
  refine ⟨nodup_withNewSymbols _ _, ?apart, ?origin, ?complete, prefixedVariants_append c ids⟩
  case apart =>
    intro v hv u hu same
    exact (mem_prefixedVariants.mp hv).1 (List.mem_map.mpr ⟨u, hu, same.symm⟩)
  case origin =>
    intro v hv
    obtain ⟨u, p, n, first, rfl⟩ := exists_firstPrefixing hv
    obtain ⟨⟨hu, prefixable⟩, hp⟩ := mem_prefixings.mp (List.mem_of_find?_eq_some first)
    exact ⟨u, hu, p, hp, n, prefixable, rfl, rfl, first⟩
  case complete =>
    intro u hu prefixable p hp
    exact symbol_mem_of_prefixing (mem_prefixings.mpr ⟨⟨hu, prefixable⟩, hp⟩)

end Category

end UnitCalc
