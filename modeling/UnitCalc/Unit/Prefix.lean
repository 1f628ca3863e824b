import UnitCalc.Double.Arithmetic
import UnitCalc.Text.Casing
import UnitCalc.Unit.Category

/-!
# `UnitCalc.Unit.Prefix` — metric prefixes

A unit that takes prefixes stands for a family: metre, kilometre, millimetre and so on. Squares and
cubes take the prefix to the second and third power, so that one km² is a million m².

A variant has a new identifier, which nothing about the unit determines. So identifiers are given from
outside, one for a variant and one after another for a family. They may be left out where nothing depends
on them.

## Contents
- **Prefixes.** `MetricPrefix`, `MetricPrefix.all`.
- **Variants.** `UnitDef.withPrefix`.
- **Families.** `Category.prefixings`: every unit that takes prefixes with every prefix.
  `Category.prefixedVariants`: all variants whose symbols are still free.
-/

namespace UnitCalc

/-- A metric prefix. -/
structure MetricPrefix where
  name : String
  symbol : String
  multiplier : Float
deriving DecidableEq, Repr

namespace MetricPrefix

/-- The prefixes from the largest to the smallest. -/
def all : List MetricPrefix :=
  [⟨"Tera", "T", 1e12⟩, ⟨"Giga", "G", 1e9⟩, ⟨"Mega", "M", 1e6⟩, ⟨"Kilo", "k", 1e3⟩,
   ⟨"Hecto", "h", 1e2⟩, ⟨"Deca", "da", 1e1⟩, ⟨"Deci", "d", 1e-1⟩, ⟨"Centi", "c", 1e-2⟩,
   ⟨"Milli", "m", 1e-3⟩, ⟨"Micro", "µ", 1e-6⟩, ⟨"Nano", "n", 1e-9⟩, ⟨"Pico", "p", 1e-12⟩]

def ofSymbol? (s : String) : Option MetricPrefix :=
  all.find? fun p => p.symbol = s

end MetricPrefix

/-! ## Variants -/

/-- The power of the prefix in a symbol: the one its last character says, otherwise one. -/
def symbolPower (symbol : String) : Nat :=
  match symbol.toList.getLast? with
  | some '²' => 2
  | some '³' => 3
  | _ => 1

/-- The text up to and with its last space, and the last word. -/
def splitLastWord (cs : List Char) : List Char × List Char :=
  let word := (cs.reverse.takeWhile (· ≠ ' ')).reverse
  (cs.take (cs.length - word.length), word)

/-- Puts a prefix on the last word of a name, which loses its capitals. -/
def prefixedName (pre name : String) : String :=
  let (head, word) := splitLastWord name.toList
  String.ofList head ++ pre ++ Text.lower (String.ofList word)

/-- The unit with a prefix, under an identifier of its own. It takes no further prefix. -/
def UnitDef.withPrefix (u : UnitDef) (p : MetricPrefix) (id : Uuid := .max) : UnitDef :=
  { u with
    id := id
    name := prefixedName p.name u.name
    symbol := p.symbol ++ u.symbol
    takesPrefixes := false
    factor := u.factor * Double.powNat p.multiplier (symbolPower u.symbol)
    formula := none }

/-! ## Families -/

namespace Category

/-- Every unit that takes prefixes with every prefix, in the order of the units and then of the
    prefixes. A unit with a formula takes none. -/
def prefixings (c : Category) : List (UnitDef × MetricPrefix) :=
  (c.units.filter fun u => u.takesPrefixes && u.formula.isNone).flatMap fun u =>
    MetricPrefix.all.map (u, ·)

/-- The units with their prefixes. The `n`-th one takes the `n`-th identifier, whether or not its
    symbol turns out to be free. -/
def prefixedUnits (c : Category) (ids : Nat → Uuid) : List UnitDef :=
  c.prefixings.mapIdx fun n (u, p) => u.withPrefix p (ids n)

/-- The units whose symbols are neither taken already nor those of an earlier unit. -/
def withNewSymbols (taken : List String) : List UnitDef → List UnitDef
  | [] => []
  | u :: us =>
    if u.symbol ∈ taken then withNewSymbols taken us
    else u :: withNewSymbols (u.symbol :: taken) us

/-- The prefixed units that the category does not define itself, under given identifiers. -/
def prefixedVariants (c : Category) (ids : Nat → Uuid := fun _ => .max) : List UnitDef :=
  withNewSymbols (c.units.map (·.symbol)) (c.prefixedUnits ids)

end Category

end UnitCalc
