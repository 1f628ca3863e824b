import UnitCalc.Formula.Parser

/-!
# `Proofs.Formula.Steps` — what the small steps of a parser read

Two judgements about a parser, both from the tokens `ts` at the level `n`. `Ensures` looks at all runs
that give a value: whatever is read satisfies the postcondition. `Reads` says that there is such a run,
and what it gives. Neither speaks of byte offsets or of the highest level shown, which no successful run
depends on, and both say that a parser comes back to the level at which it started.

Each small step has one rule for each judgement. The rules of the grammar are put together from these
alone, and no proof about them looks at a session again.
-/

namespace UnitCalc.Formula

/-- The session stands before the tokens `ts`, at the level `n`. -/
def Session.At (s : Session) (n : Nat) (ts : List Token) : Prop :=
  s.rest.map Located.token = ts ∧ s.nesting.level = n

namespace Session.At

variable {s : Session} {n : Nat} {ts : List Token}

theorem current (h : s.At n ts) : s.current = ts.headD .stop := by
  rw [← h.1, Session.current]
  cases s.rest <;> rfl

theorem length (h : s.At n ts) : s.rest.length = ts.length := by
  rw [← h.1, List.length_map]

theorem advance (h : s.At n ts) : s.advance.At n ts.tail :=
  ⟨by rw [← h.1, Session.advance, List.map_tail], h.2⟩

end Session.At

/-- The current token is the first of the tokens that are left, unless the text ends there. -/
theorem exists_tail {ts : List Token} {t : Token} (h : ts.headD .stop = t) (go_on : t ≠ .stop) :
    ∃ us, ts = t :: us := by
  cases ts with
  | nil => exact absurd h.symm go_on
  | cons u us => exact ⟨us, congrArg (· :: us) h⟩

namespace Parser

variable {α β : Type} {limit n : Nat} {ts us vs : List Token}

/-! ## What is read -/

/-- Every value that `p` reads satisfies `Q`, together with the tokens that are left. -/
def Ensures (p : Parser α) (n : Nat) (ts : List Token) (Q : α → List Token → Prop) : Prop :=
  ∀ s a s', s.At n ts → p s = (.ok a, s') → ∃ us, s'.At n us ∧ Q a us

section Ensures

variable {Q : β → List Token → Prop}

theorem ensures_mono {p : Parser β} {R : β → List Token → Prop} (hp : Ensures p n ts R)
    (h : ∀ b us, R b us → Q b us) : Ensures p n ts Q := by
  intro s b s' start run
  obtain ⟨us, there, read⟩ := hp s b s' start run
  exact ⟨us, there, h b us read⟩

theorem ensures_bind {p : Parser α} {f : α → Parser β} {R : α → List Token → Prop}
    (hp : Ensures p n ts R) (hf : ∀ a us, R a us → Ensures (f a) n us Q) :
    Ensures (p >>= f) n ts Q := by
  intro s b s' start run
  replace run : andThen p f s = (.ok b, s') := run
  rw [andThen] at run
  split at run
  · next a t first =>
    obtain ⟨us, there, read⟩ := hp s a t start first
    exact hf a us read t b s' there run
  · cases run

theorem ensures_current {f : Token → Parser β} (h : Ensures (f (ts.headD .stop)) n ts Q) :
    Ensures (current >>= f) n ts Q := by
  intro s b s' start run
  exact h s b s' start (by rw [← start.current]; exact run)

theorem ensures_remaining {f : Nat → Parser β} (h : Ensures (f ts.length) n ts Q) :
    Ensures (remaining >>= f) n ts Q := by
  intro s b s' start run
  exact h s b s' start (by rw [← start.length]; exact run)

theorem ensures_position {f : Nat → Parser β} (h : ∀ start, Ensures (f start) n ts Q) :
    Ensures (position >>= f) n ts Q :=
  fun s b s' start run => h s.position s b s' start run

theorem ensures_advance {f : Unit → Parser β} (h : Ensures (f ()) n ts.tail Q) :
    Ensures (advance >>= f) n ts Q :=
  fun s b s' start run => h s.advance b s' start.advance run

theorem ensures_done {b : β} (h : Q b ts) : Ensures (done b) n ts Q := by
  intro s b' s' start run
  obtain ⟨rfl, rfl⟩ : b = b' ∧ s = s' := by simpa [done] using run
  exact ⟨ts, start, h⟩

theorem ensures_failAt {fault : ParseFault} {position : Nat} :
    Ensures (failAt fault position) n ts Q := by
  intro s b s' _ run
  cases run

theorem ensures_fail {fault : ParseFault} : Ensures (fail fault) n ts Q := by
  intro s b s' _ run
  cases run

theorem ensures_exhausted : Ensures exhausted n ts Q := by
  intro s b s' _ run
  cases run

/-- A level further in has been allowed. -/
theorem ensures_nested {p : Parser β} (h : n + 1 ≤ limit → Ensures p (n + 1) ts Q) :
    Ensures (nested limit p) n ts Q := by
  intro s b s' start run
  simp only [nested] at run
  split at run
  · cases run
  · next allowed =>
    -- `enter` and `leave` also record the highest level, which `At` does not look at
    have level := start.2
    have inside : ({ s with nesting := s.nesting.enter } : Session).At (n + 1) ts :=
      ⟨start.1, by simp [Gauge.enter, Gauge.set, level]⟩
    have within : n + 1 ≤ limit := by
      simp only [Gauge.enter, Gauge.set] at allowed
      omega
    generalize eq : p { s with nesting := s.nesting.enter } = outcome at run
    obtain ⟨result, t⟩ := outcome
    obtain ⟨rfl, rfl⟩ : result = .ok b ∧ { t with nesting := t.nesting.leave } = s' := by
      simpa using run
    obtain ⟨us, there, read⟩ := h within _ _ _ inside eq
    exact ⟨us, ⟨there.1, by simp [Gauge.leave, Gauge.set, there.2]⟩, read⟩

/-- A tree of allowed depth has been built. -/
theorem ensures_node {Q : Expr → List Token → Prop} {e : Expr} (h : e.depth ≤ limit → Q e ts) :
    Ensures (node limit e) n ts Q := by
  rw [node]
  split
  · exact ensures_fail
  · next depth => exact ensures_done (h (Nat.le_of_not_lt depth))

theorem ensures_node_bind {e : Expr} {f : Expr → Parser β}
    (h : e.depth ≤ limit → Ensures (f e) n ts Q) : Ensures (node limit e >>= f) n ts Q := by
  refine ensures_bind (R := fun e' us => e' = e ∧ us = ts ∧ e.depth ≤ limit)
    (ensures_node fun depth => ⟨rfl, rfl, depth⟩) ?_
  rintro _ _ ⟨rfl, rfl, depth⟩
  exact h depth

/-- A closing parenthesis has been passed. -/
theorem ensures_closeParen {f : Unit → Parser β}
    (h : ∀ us, ts = .closeParen :: us → Ensures (f ()) n us Q) : Ensures (closeParen >>= f) n ts Q := by
  refine ensures_bind (R := fun _ us => ts = .closeParen :: us) (ensures_current ?_) fun _ us => h us
  split
  · next close =>
    obtain ⟨us, rfl⟩ := exists_tail close (by simp)
    intro s a s' start run
    obtain rfl : s.advance = s' := (Prod.mk.inj run).2
    exact ⟨us, start.advance, rfl⟩
  · exact ensures_fail
  · exact ensures_fail

end Ensures

/-! ## What can be read -/

/-- `p` reads `a` and leaves the tokens `us`. -/
def Reads (p : Parser α) (n : Nat) (ts : List Token) (a : α) (us : List Token) : Prop :=
  ∀ s, s.At n ts → ∃ s', p s = (.ok a, s') ∧ s'.At n us

section Reads

variable {b : β}

theorem reads_bind {p : Parser α} {f : α → Parser β} {a : α} (hp : Reads p n ts a us)
    (hf : Reads (f a) n us b vs) : Reads (p >>= f) n ts b vs := by
  intro s start
  obtain ⟨t, first, there⟩ := hp s start
  obtain ⟨s', second, stop⟩ := hf t there
  refine ⟨s', ?_, stop⟩
  show andThen p f s = _
  rw [andThen, first]
  exact second

theorem reads_current {f : Token → Parser β} (h : Reads (f (ts.headD .stop)) n ts b us) :
    Reads (current >>= f) n ts b us := by
  intro s start
  obtain ⟨s', run, stop⟩ := h s start
  exact ⟨s', by rw [← start.current] at run; exact run, stop⟩

theorem reads_remaining {f : Nat → Parser β} (h : Reads (f ts.length) n ts b us) :
    Reads (remaining >>= f) n ts b us := by
  intro s start
  obtain ⟨s', run, stop⟩ := h s start
  exact ⟨s', by rw [← start.length] at run; exact run, stop⟩

theorem reads_position {f : Nat → Parser β} (h : ∀ start, Reads (f start) n ts b us) :
    Reads (position >>= f) n ts b us :=
  fun s start => h s.position s start

theorem reads_advance {f : Unit → Parser β} {t : Token} (h : Reads (f ()) n ts b us) :
    Reads (advance >>= f) n (t :: ts) b us :=
  fun s start => h s.advance start.advance

theorem reads_done : Reads (done b) n ts b ts :=
  fun s start => ⟨s, rfl, start⟩

theorem reads_nested {p : Parser β} (within : n + 1 ≤ limit) (h : Reads p (n + 1) ts b us) :
    Reads (nested limit p) n ts b us := by
  intro s start
  have level := start.2
  have inside : ({ s with nesting := s.nesting.enter } : Session).At (n + 1) ts :=
    ⟨start.1, by simp [Gauge.enter, Gauge.set, level]⟩
  obtain ⟨t, run, there⟩ := h _ inside
  refine ⟨{ t with nesting := t.nesting.leave }, ?_, there.1, ?_⟩
  · simp only [nested]
    rw [if_neg (by simp only [Gauge.enter, Gauge.set]; omega), run]
  · simp [Gauge.leave, Gauge.set, there.2]

theorem reads_node {e : Expr} (h : e.depth ≤ limit) : Reads (node limit e) n ts e ts := by
  rw [node, if_neg (Nat.not_lt.2 h)]
  exact reads_done

theorem reads_closeParen : Reads closeParen n (.closeParen :: ts) () ts :=
  reads_current fun s start => ⟨s.advance, rfl, start.advance⟩

end Reads

end Parser

end UnitCalc.Formula
