import UnitCalc.Proofs.Library.Identity
import UnitCalc.Proofs.Library.Validity

/-!
# `Proofs.Library.Building` — libraries that saving can build

Some libraries can be built of the empty one by saves that all succeed. Their formulas parse, no two of
their categories and no two of their formulas share an identifier, and their units are valid, since changes
keep all of this. Conversely, a library with these properties is built by saving its categories and then
its formulas in their order, for each of them is new when it is saved (`applyAll_saves`).

A library that is loaded from a document has valid units, so that it can be built if and only if the other
properties hold of it (`loaded_buildable_iff`). There are documents for which they do not
(`not_buildable_broken`).
-/

namespace UnitCalc

open Formula

/-- The mutation saves something. -/
def Mutation.isSave : Mutation → Bool
  | .saveCategory _ | .saveUnit _ _ | .saveFormula _ => true
  | _ => false

namespace Library

variable {l l' : Library} {ms : List Mutation}

/-- The library is built of the empty one by saves that all succeed. -/
def Buildable (l : Library) : Prop :=
  ∃ ms, (∀ m ∈ ms, m.isSave = true) ∧ empty.applyAll ms = .ok l

/-- Saving all categories of a library in their order, and then all formulas. -/
def saves (l : Library) : List Mutation :=
  l.categories.map .saveCategory ++ l.formulas.map .saveFormula

theorem isSave_of_mem_saves {m : Mutation} (h : m ∈ l.saves) : m.isSave = true := by
  rcases List.mem_append.1 h with h | h
  · obtain ⟨c, -, rfl⟩ := List.mem_map.1 h
    rfl
  · obtain ⟨f, -, rfl⟩ := List.mem_map.1 h
    rfl

/-! ## What is built -/

theorem Buildable.distinct (h : l.Buildable) : l.Distinct := by
  obtain ⟨ms, -, built⟩ := h
  exact after_of_applyAll built ▸ distinct_empty.after ms

theorem Buildable.parsed (h : l.Buildable) : l.Parsed := by
  obtain ⟨ms, -, built⟩ := h
  exact after_of_applyAll built ▸ invariant_after Change.parsed parsed_empty ms

/-! ## Building -/

theorem applyAll_saveCategories {cs : List Category}
    (valid : ∀ c ∈ cs, ∀ u ∈ c.units, u.validate = .ok ()) (distinct : (cs.map (·.id)).Nodup) :
    empty.applyAll (cs.map .saveCategory) = .ok { categories := cs } := by
  refine applyAll_map (fun cs => { categories := cs }) fun before c later split => ?_
  subst split
  have validUnits := valid c (List.mem_append_right before List.mem_cons_self)
  have new : category? { categories := before } c.id = none := by
    simpa [category?] using key_ne_of_nodup_append distinct
  exact result_apply_eq_ok.2 ⟨_, .insertCategory validUnits new⟩

theorem applyAll_saveFormulas {cs : List Category} {fs : List Named}
    (parsed : ∀ f ∈ fs, ∃ tree, parse f.source = .ok tree) (distinct : (fs.map (·.id)).Nodup) :
    applyAll { categories := cs } (fs.map .saveFormula) = .ok { categories := cs, formulas := fs } := by
  refine applyAll_map (fun fs => { categories := cs, formulas := fs }) fun before f later split => ?_
  subst split
  obtain ⟨tree, source⟩ := parsed f (List.mem_append_right before List.mem_cons_self)
  have new : before.any (fun g => g.id = f.id) = false := by
    simpa using key_ne_of_nodup_append distinct
  exact result_apply_eq_ok.2 ⟨_, .insertFormula source new⟩

/-- **A library is built by saving what it holds**, if its units are valid, its formulas parse and its
identifiers are given once. -/
theorem applyAll_saves (valid : ∀ u ∈ l.units, u.validate = .ok ()) (distinct : l.Distinct)
    (parsed : l.Parsed) : empty.applyAll l.saves = .ok { l with version := libraryVersion } := by
  have validUnits : ∀ c ∈ l.categories, ∀ u ∈ c.units, u.validate = .ok () :=
    fun c hc u hu => valid u (mem_units.2 ⟨c, hc, hu⟩)
  rw [saves, applyAll_append (applyAll_saveCategories validUnits distinct.categories)]
  exact applyAll_saveFormulas parsed distinct.formulas

/-- **What is loaded can be built by saving** if its formulas parse and no two categories and no two formulas
share an identifier, and only then; the version of the document apart. Its units are valid in any case. -/
theorem loaded_buildable_iff {text : String} (loaded : (ofDocument text).result = .ok l) :
    (∀ c ∈ l.categories, (checkUnits c.units).result = .ok ()) ∧
      (Buildable { l with version := libraryVersion } ↔ l.Distinct ∧ l.Parsed) := by
  have valid := (result_ofDocument_eq_ok.1 loaded).2.valid
  refine ⟨fun c hc => ?_, fun built => ?_, fun ⟨distinct, parsed⟩ => ?_⟩
  · exact result_checkUnits_eq_ok.2 fun u hu => valid u (mem_units.2 ⟨c, hc, hu⟩)
  · exact ⟨⟨built.distinct.categories, built.distinct.formulas⟩, built.parsed⟩
  · exact ⟨l.saves, fun m => isSave_of_mem_saves, applyAll_saves valid distinct parsed⟩

/-- A library of an old version, with a category and a formula. -/
def plain : Library :=
  { version := 0
    categories := [{ id := .nil, name := "Plain" }]
    formulas := [⟨.nil, "Double", "d", "x * 2"⟩] }

/-- A document of the library, with arrays in the place of records. -/
def plainText : String :=
  "[0,[[\"00000000-0000-0000-0000-000000000000\",\"Plain\"]]," ++
    "[[\"00000000-0000-0000-0000-000000000000\",\"Double\",\"d\",\"x * 2\"]]]"

theorem loaded_buildable_plain :
    (ofDocument plainText).result = .ok plain ∧ Buildable { plain with version := libraryVersion } := by
  have read : Document.readLibrary? plainText = some plain := by decide +kernel
  have loaded := result_ofDocument_eq_ok.2 ⟨read, by decide, nofun⟩
  have distinct : plain.Distinct := ⟨by decide +kernel, by decide +kernel⟩
  have parsed : plain.Parsed := by
    intro f hf
    obtain rfl := List.mem_singleton.1 hf
    have accepted : (parse "x * 2").isOk = true := by decide +kernel
    cases parsed : parse "x * 2" with
    | ok tree => exact ⟨tree, rfl⟩
    | error e =>
      rw [parsed] at accepted
      cases accepted
  exact ⟨loaded, (loaded_buildable_iff loaded).2.2 ⟨distinct, parsed⟩⟩

/-- A library with a formula that does not parse. -/
def broken : Library :=
  { formulas := [⟨.nil, "Broken", "b", "x +"⟩] }

/-- A document of the library, with arrays in the place of records. -/
def brokenText : String :=
  "[1,[],[[\"00000000-0000-0000-0000-000000000000\",\"Broken\",\"b\",\"x +\"]]]"

/-- **Loading admits what saving refuses**: it is not so that every library that is loaded from some document
can be built by saving. -/
theorem not_buildable_broken :
    ¬ ∀ text l, (ofDocument text).result = .ok l → Buildable { l with version := libraryVersion } := by
  intro always
  have read : Document.readLibrary? brokenText = some broken := by decide +kernel
  have loaded := result_ofDocument_eq_ok.2 ⟨read, by decide, nofun⟩
  obtain ⟨tree, parsed⟩ := (always brokenText broken loaded).parsed _ (List.mem_singleton_self _)
  have refused : (parse "x +").isOk = false := by decide +kernel
  rw [parsed] at refused
  cases refused

end Library

end UnitCalc
