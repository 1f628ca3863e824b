import UnitCalc.Proofs.Formula.Words

/-!
# `Proofs.Formula.Offsets` — where tokens begin

The offsets of the tokens of a text increase from each token to the next, and that of the end of the text
is larger than all of them (`pairwise_stream`). So an offset belongs to one token only, and the tokens
before a token are those with smaller offsets.
-/

namespace UnitCalc.Formula

theorem byteLength_append (cs ds : List Char) : byteLength (cs ++ ds) = byteLength cs + byteLength ds := by
  induction cs with
  | nil => exact (Nat.zero_add _).symm
  | cons c cs ih =>
    show c.utf8Size + byteLength (cs ++ ds) = c.utf8Size + byteLength cs + byteLength ds
    rw [ih, Nat.add_assoc]

theorem byteLength_pos {cs : List Char} (h : cs ≠ []) : 0 < byteLength cs := by
  obtain ⟨c, cs, rfl⟩ := List.exists_cons_of_ne_nil h
  exact Nat.add_pos_left c.utf8Size_pos _

/-- A lexeme and what follows it are as long as the text. -/
theorem byteLength_lexeme (c : Char) (cs : List Char) :
    byteLength (lexeme c cs).1 + byteLength (lexeme c cs).2 = byteLength (c :: cs) := by
  rw [← byteLength_append, lexeme_append]

/-- Every token begins inside the text. -/
theorem start_mem_scan {start : Nat} {cs : List Char} {t : Located} (h : t ∈ scan start cs) :
    start ≤ t.start ∧ t.start < start + byteLength cs := by
  induction start, cs using scan.induct with
  | case1 start =>
    rw [scan_nil] at h
    cases h
  | case2 start c cs blank ih =>
    rw [scan_cons, if_pos blank] at h
    have inside := ih h
    have whole : byteLength (c :: cs) = c.utf8Size + byteLength cs := rfl
    omega
  | case3 start c cs blank ih =>
    rw [scan_cons, if_neg blank] at h
    have whole := byteLength_lexeme c cs
    have some_byte := byteLength_pos (lexeme_ne_nil c cs)
    rcases List.mem_cons.1 h with rfl | h
    · dsimp only
      omega
    · have inside := ih h
      omega

/-- Every token begins behind the token before it. -/
theorem pairwise_scan (start : Nat) (cs : List Char) :
    (scan start cs).Pairwise fun t u => t.start < u.start := by
  induction start, cs using scan.induct with
  | case1 start =>
    rw [scan_nil]
    exact .nil
  | case2 start c cs blank ih =>
    rw [scan_cons, if_pos blank]
    exact ih
  | case3 start c cs blank ih =>
    rw [scan_cons, if_neg blank]
    refine .cons ?_ ih
    intro u hu
    have behind := (start_mem_scan hu).1
    have some_byte := byteLength_pos (lexeme_ne_nil c cs)
    dsimp only
    omega

/-- **The tokens of a text and its end stand in the order of their offsets.** -/
theorem pairwise_stream (s : String) : (stream s).Pairwise fun t u => t.start < u.start := by
  rw [stream, List.pairwise_append]
  refine ⟨pairwise_scan 0 s.toList, List.pairwise_singleton _ _, ?_⟩
  intro t ht u hu
  have inside := (start_mem_scan ht).2
  rw [List.mem_singleton.1 hu]
  dsimp only
  omega

end UnitCalc.Formula
