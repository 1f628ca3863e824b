import UnitCalc.Library.Mutation
import UnitCalc.Unit.BuiltIn

/-!
# `UnitCalc.Store.Basic` — stores

A store keeps a library, answers questions about it, and applies mutations to it. Whatever a store
does beside that, a mutation that fails leaves its library as it was.

## Contents
- **Stores.** `Store`.
- **Operations.** `Query`, `Operation`, `Store.perform`, and `Store.after` for one operation after
  another.
- **In memory.** `MemoryStore`.
- **Filling an empty store.** `Store.saveAll`, `Store.seedIfEmpty`.
-/

namespace UnitCalc

open Formula

/-- What keeps a library. -/
class Store (σ : Type) where
  library : σ → Library
  /-- The store after a mutation, and what the mutation came to. -/
  apply : σ → Mutation → σ × Attempt Unit

/-! ## Operations -/

/-- What can be asked of a store. -/
inductive Query where
  | categories
  | category (id : Uuid)
  | formulas
  | isEmpty
deriving DecidableEq, Repr

/-- What a store gives back. -/
inductive Answer where
  | categories (cs : List Category)
  | category (c : Category)
  | formulas (fs : List Named)
  | isEmpty (b : Bool)
  /-- A mutation is done. -/
  | done
deriving DecidableEq, Repr

/-- The answer that a library gives. -/
def Library.answer (l : Library) : Query → Except StoreError Answer
  | .categories => .ok (.categories l.categories)
  | .category id =>
    match l.category id with
    | .ok c => .ok (.category c)
    | .error e => .error e
  | .formulas => .ok (.formulas l.formulas)
  | .isEmpty => .ok (.isEmpty l.isEmpty)

/-- What a store can do. -/
inductive Operation where
  | ask (q : Query)
  | change (m : Mutation)
deriving DecidableEq, Repr

namespace Store

variable {σ : Type} [Store σ]

/-- The store after an operation, and what the operation came to. -/
def perform (s : σ) : Operation → σ × Attempt Answer
  | .ask q => (s, ⟨[], (Store.library s).answer q⟩)
  | .change m =>
    let (s, a) := Store.apply s m
    match a.result with
    | .ok () => (s, ⟨a.events, .ok .done⟩)
    | .error e => (s, ⟨a.events, .error e⟩)

/-- The store after some operations, one after another, whether they succeed or not. -/
def after (s : σ) : List Operation → σ
  | [] => s
  | o :: os => after (perform s o).1 os

end Store

/-! ## In memory -/

/-- A store that is nothing but its library. -/
structure MemoryStore where
  library : Library := {}
deriving DecidableEq, Repr

namespace MemoryStore

/-- Applies a mutation to the library. -/
def apply (s : MemoryStore) (m : Mutation) : MemoryStore × Attempt Unit :=
  let a := s.library.apply m
  match a.result with
  | .ok l => (⟨l⟩, ⟨a.events, .ok ()⟩)
  | .error e => (s, ⟨a.events, .error e⟩)

instance : Store MemoryStore where
  library := MemoryStore.library
  apply := apply

end MemoryStore

/-! ## Filling an empty store -/

namespace Store

variable {σ : Type} [Store σ]

/-- Saves categories one after another, up to the first failure. -/
def saveAll (s : σ) : List Category → σ × Attempt Unit
  | [] => (s, .ok ())
  | c :: cs =>
    let (s, first) := Store.apply s (.saveCategory c)
    match first.result with
    | .ok () =>
      let (s, later) := saveAll s cs
      (s, ⟨first.events ++ later.events, later.result⟩)
    | .error e => (s, ⟨first.events, .error e⟩)

/-- Saves the built-in categories, under given identifiers, into a store that has no category yet, and
    says whether it did. -/
def seedIfEmpty (s : σ) (id : Nat → Nat → Uuid := BuiltIn.id) : σ × Attempt Bool :=
  if (Store.library s).isEmpty then
    let (s, a) := saveAll s (BuiltIn.categories id)
    match a.result with
    | .ok () => (s, ⟨a.events ++ [.seeded (BuiltIn.categories id).length], .ok true⟩)
    | .error e => (s, ⟨a.events, .error e⟩)
  else (s, .ok false)

end Store

end UnitCalc
