import UnitCalc.Proofs.Formula.Extremes
import UnitCalc.Proofs.Formula.Rounding

/-!
# `Proofs.Formula.Domains` — where a function gives no number

An argument outside the domain of a function is an error, and each guard is compared here with the domain. What
core computes itself gives numbers for numbers: roots, magnitudes, whole numbers, decimal places and extremes. What
the mathematics library of the platform computes has no definition, only the promise of its standard that there is
a number for certain arguments (`Func.Promised`), and the guards let no others through (`apply_number`).

There is one gap. Sine, cosine and tangent are promised for finite angles alone, and nothing refuses the others:
at an infinity their value is not a number, without an error (`apply_angular`).
-/

namespace UnitCalc.Formula

open Double

variable {policy : DivisionByZero} {f : Func} {xs : List Float} {x : Float}

/-- The periodic functions of an angle. -/
def Func.Angular (f : Func) : Prop :=
  f = .sin ∨ f = .cos ∨ f = .tan

/-- The angle of a periodic function is an infinity. -/
def Func.InfiniteAngle (f : Func) (xs : List Float) : Prop :=
  f.Angular ∧ ∃ x, xs = [x] ∧ x.isInf = true

/-- Arguments, numbers all of them, for which the standard promises that the library has a number. -/
inductive Func.Promised : Func → List Float → Prop
  | everywhere {f : Func} {x : Float} (which : f = .cbrt ∨ f = .exp ∨ f = .atan) : Promised f [x]
  | direction {y x : Float} : Promised .atan2 [y, x]
  | positive {f : Func} {x : Float} (which : f = .log ∨ f = .log10) (above : 0 < x) : Promised f [x]
  | onUnit {f : Func} {x : Float} (which : f = .asin ∨ f = .acos) (low : -1 ≤ x) (high : x ≤ 1) :
      Promised f [x]
  | finiteAngle {f : Func} {x : Float} (which : f.Angular) (finite : x.isFinite = true) : Promised f [x]
  | power {x y : Float} (regular : x < 0 → y.isFinite = true → Double.isWhole y = true) :
      Promised .pow [x, y]

/-- **At an infinite angle there is no number, and no error either.** -/
theorem apply_angular (angular : f.Angular) (infinite : x.isInf = true) :
    f.apply policy [x] = .ok notANumber := by
  have none : ∀ g : Float → Float, periodic g x = notANumber := fun g => if_pos infinite
  obtain rfl | rfl | rfl := angular <;> exact congrArg Except.ok (none _)

/-- A number that is no infinity is finite. -/
theorem isFinite_of_number (number : x.isNaN = false) (bounded : ¬ x.isInf = true) : x.isFinite = true := by
  rw [isNaN_eq] at number
  replace bounded : ¬ x.toModel.unpack.isInf = true := bounded
  rw [isFinite_eq]
  cases eq : x.toModel.unpack with
  | zero s | finite s => rfl
  | infinity s =>
    rw [eq] at bounded
    exact absurd rfl bounded
  | notANumber =>
    rw [eq] at number
    cases number

/-- **What passes the guards has a number**, unless it is an infinite angle: a number that core computes, or one
that the library is promised to have. -/
theorem result_number (numbers : ∀ x ∈ xs, x.isNaN = false) (passed : ∀ err, ¬ CallFails policy f xs err) :
    (f.result xs).isNaN = false ∨ f.Promised xs ∨ f.InfiniteAngle xs := by
  have accepted : f.arity.accepts xs.length = true := by
    by_contra refused
    exact passed _ (.argumentCount (by simpa using refused))
  cases f with
  | max => exact .inl (isNaN_maximum xs)
  | min => exact .inl (isNaN_minimum xs)
  | round =>
    left
    match xs, accepted, numbers with
    | [], accepted, _ => cases accepted
    | [x], _, numbers =>
      rw [Func.result]
      exact isNaN_toWhole _ (numbers x List.mem_cons_self)
    | [x, places], _, numbers =>
      rw [Func.result]
      exact isNaN_rounded (numbers x List.mem_cons_self)
    | _ :: _ :: _ :: _, accepted, _ => simp [Func.arity, Arity.accepts] at accepted
  | pow =>
    obtain ⟨x, y, rfl⟩ := List.length_eq_two.1 (by simpa [Func.arity, Arity.accepts] using accepted)
    refine .inr (.inl (.power fun negative finite => ?_))
    by_contra fractional
    exact passed _ (.power (.fractionalPower negative finite (by simpa using fractional)))
  | atan2 =>
    obtain ⟨y, x, rfl⟩ := List.length_eq_two.1 (by simpa [Func.arity, Arity.accepts] using accepted)
    exact .inr (.inl .direction)
  | sqrt =>
    obtain ⟨x, rfl⟩ := List.length_eq_one_iff.1 (by simpa [Func.arity, Arity.accepts] using accepted)
    left
    rw [Func.result]
    exact isNaN_sqrt (numbers x List.mem_cons_self) fun negative => passed _ (.negativeRoot negative)
  | abs =>
    obtain ⟨x, rfl⟩ := List.length_eq_one_iff.1 (by simpa [Func.arity, Arity.accepts] using accepted)
    left
    rw [Func.result, isNaN_abs]
    exact numbers x List.mem_cons_self
  | floor | ceil =>
    obtain ⟨x, rfl⟩ := List.length_eq_one_iff.1 (by simpa [Func.arity, Arity.accepts] using accepted)
    left
    rw [Func.result]
    exact isNaN_toWhole _ (numbers x List.mem_cons_self)
  | cbrt | exp | atan =>
    obtain ⟨x, rfl⟩ := List.length_eq_one_iff.1 (by simpa [Func.arity, Arity.accepts] using accepted)
    exact .inr (.inl (.everywhere (by simp)))
  | log | log10 =>
    obtain ⟨x, rfl⟩ := List.length_eq_one_iff.1 (by simpa [Func.arity, Arity.accepts] using accepted)
    have above : ¬ x ≤ 0 := fun low => passed _ (.nonPositiveLog (by simp) low)
    exact .inr (.inl (.positive (by simp) ((not_le_iff (numbers x List.mem_cons_self) rfl).1 above)))
  | asin | acos =>
    obtain ⟨x, rfl⟩ := List.length_eq_one_iff.1 (by simpa [Func.arity, Arity.accepts] using accepted)
    have inside : -1 ≤ x ∧ x ≤ 1 := by
      by_contra outside
      exact passed _ (.outsideUnit (by simp) outside)
    exact .inr (.inl (.onUnit (by simp) inside.1 inside.2))
  | sin | cos | tan =>
    obtain ⟨x, rfl⟩ := List.length_eq_one_iff.1 (by simpa [Func.arity, Arity.accepts] using accepted)
    right
    by_cases infinite : x.isInf = true
    · exact .inr ⟨by simp [Func.Angular], x, rfl, infinite⟩
    · have finite := isFinite_of_number (numbers x List.mem_cons_self) infinite
      exact .inl (.finiteAngle (by simp [Func.Angular]) finite)

/-- **Numbers give an error or a number, but for infinite angles.** The number is one that core computes, or one
that the library is promised to have. An infinite angle gives no number, and no error. -/
theorem apply_number (policy : DivisionByZero) (numbers : ∀ x ∈ xs, x.isNaN = false) :
    (f.InfiniteAngle xs → f.apply policy xs = .ok notANumber)
      ∧ (¬ f.InfiniteAngle xs → (∃ err, f.apply policy xs = .error err)
        ∨ ∃ r, f.apply policy xs = .ok r ∧ (r.isNaN = false ∨ f.Promised xs ∧ r = f.result xs)) := by
  constructor
  · rintro ⟨angular, x, rfl, infinite⟩
    exact apply_angular angular infinite
  · intro regular
    by_cases fails : ∃ err, CallFails policy f xs err
    · obtain ⟨err, fails⟩ := fails
      exact .inl ⟨err, fails.apply⟩
    · have passed : ∀ err, ¬ CallFails policy f xs err := fun err fail => fails ⟨err, fail⟩
      refine .inr ⟨f.result xs, Func.apply_of_not_fails passed, ?_⟩
      obtain number | promised | infinite := result_number numbers passed
      · exact .inl number
      · exact .inr ⟨promised, rfl⟩
      · exact absurd infinite regular

/-- An infinity is a number, and its tangent is none. -/
theorem apply_number_tangent :
    (∀ x ∈ [infinity], x.isNaN = false) ∧ Func.tan.InfiniteAngle [infinity]
      ∧ Func.tan.apply .error [infinity] = .ok notANumber := by
  have numbers : ∀ x ∈ [infinity], x.isNaN = false := by decide
  have angle : Func.tan.InfiniteAngle [infinity] := ⟨.inr (.inr rfl), infinity, rfl, by decide⟩
  exact ⟨numbers, angle, (apply_number .error numbers).1 angle⟩

/-- The sine of an infinity is neither an error nor a number. -/
theorem not_apply_number_sine :
    ¬ ∀ policy (f : Func) (xs : List Float), f.arity.accepts xs.length = true →
      (∀ x ∈ xs, x.isNaN = false) →
      (∃ err, f.apply policy xs = .error err) ∨ ∃ r, f.apply policy xs = .ok r ∧ r.isNaN = false := by
  intro always
  have silent : Func.sin.apply .error [infinity] = .ok notANumber := apply_angular (.inl rfl) (by decide)
  rcases always .error .sin [infinity] rfl (by decide) with ⟨err, refused⟩ | ⟨r, value, number⟩
  · cases silent.symm.trans refused
  · obtain rfl : notANumber = r := Except.ok.inj (silent.symm.trans value)
    exact absurd number (by decide)

end UnitCalc.Formula
