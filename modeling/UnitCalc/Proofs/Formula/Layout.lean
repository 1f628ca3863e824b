import UnitCalc.Proofs.Formula.Offsets
import UnitCalc.Proofs.Formula.Recasing
import UnitCalc.Proofs.Formula.Relocation

/-!
# `Proofs.Formula.Layout` — the layout of a formula does not matter

White space before, between and behind the tokens of a text and the case of its letters change neither the
tree of the text nor its error, but for the offset of the error, which moves with its token
(`parseUpTo_relaid`).

`Relaid` walks along both texts at once. From one token to the next it keeps count of the bytes that have been
inserted, and the tokens of the new text are those of the old one, each moved by its count (`ended_relaid`).
That the parser follows is the law of `Relocation`.
-/

namespace UnitCalc.Formula

open Text (isBlank)

/-- The text `ds` is the text `cs` with white space inserted between words and with words respelled, where
    `n` bytes have been inserted in front. The last list has, for every word of `cs` and for its end, how many
    bytes have been inserted before it. -/
inductive Relaid : Nat → List Char → List Char → List Nat → Prop
  | done {n : Nat} : Relaid n [] [] [n]
  | insert {n : Nat} {b : Char} {cs ds : List Char} {moved : List Nat} (blank : isBlank b = true)
      (rest : Relaid (n + b.utf8Size) cs ds moved) : Relaid n cs (b :: ds) moved
  | keep {n : Nat} {b : Char} {cs ds : List Char} {moved : List Nat} (blank : isBlank b = true)
      (rest : Relaid n cs ds moved) : Relaid n (b :: cs) (b :: ds) moved
  | word {n : Nat} {c : Char} {cs w ds : List Char} {moved : List Nat} (visible : isBlank c = false)
      (respelled : Respelled (lexeme c cs).1 w) (rest : Relaid n (lexeme c cs).2 ds moved) :
      Relaid n (c :: cs) (w ++ ds) (n :: moved)

variable {n : Nat} {cs ds : List Char} {moved : List Nat}

/-- Up to the next white space nothing new can be seen. -/
theorem Relaid.alike (h : Relaid n cs ds moved) : Alike cs ds := by
  induction h with
  | done => exact .stop nofun
  | insert blank _ _ | keep blank _ _ =>
    refine .stop fun c hc => ?_
    rw [← Option.some.inj hc]
    exact blank
  | @word n c cs w ds moved _ respelled _ ih =>
    rw [← lexeme_append c cs]
    exact .append respelled ih

/-- The tokens of a text that begins at an offset, and its end. -/
def ended (start : Nat) (cs : List Char) : List Located :=
  scan start cs ++ [⟨.stop, start + byteLength cs⟩]

theorem stream_eq (s : String) : stream s = ended 0 s.toList := by
  rw [ended, Nat.zero_add]
  rfl

theorem ended_nil (start : Nat) : ended start [] = [⟨.stop, start⟩] := by
  rw [ended, scan_nil]
  rfl

theorem ended_blank {b : Char} (blank : isBlank b = true) (start : Nat) (cs : List Char) :
    ended start (b :: cs) = ended (start + b.utf8Size) cs := by
  have bytes : byteLength (b :: cs) = b.utf8Size + byteLength cs := rfl
  rw [ended, ended, scan_cons, if_pos blank, bytes, Nat.add_assoc]

theorem ended_lexeme {c : Char} (visible : isBlank c = false) (start : Nat) (cs : List Char) :
    ended start (c :: cs) = ⟨Token.ofLexeme c (lexeme c cs).1, start⟩
      :: ended (start + byteLength (lexeme c cs).1) (lexeme c cs).2 := by
  rw [ended, ended, scan_cons, if_neg (by simp [visible]), ← byteLength_lexeme, Nat.add_assoc]
  rfl

/-- **The tokens of the new text are those of the old one**, each moved by what has been inserted before
    it. -/
theorem ended_relaid (h : Relaid n cs ds moved) (start : Nat) :
    ended (start + n) ds = ((ended start cs).zip moved).map fun p => p.1.relocate (· + p.2) := by
  induction h generalizing start with
  | done =>
    rw [ended_nil, ended_nil]
    rfl
  | @insert n b cs ds moved blank _ ih =>
    rw [ended_blank blank, Nat.add_assoc]
    exact ih start
  | @keep n b cs ds moved blank _ ih =>
    rw [ended_blank blank, ended_blank blank, Nat.add_right_comm]
    exact ih _
  | @word n c cs w ds moved visible respelled rest ih =>
    cases w with
    | nil => exact absurd (List.forall₂_nil_right_iff.1 respelled) (lexeme_ne_nil c cs)
    | cons d w =>
      obtain ⟨recased, cut⟩ := lexeme_respelled respelled rest.alike
      have visible' : isBlank d = false := by rw [← caseBlind_isBlank recased, visible]
      have token := ofLexeme_respelled recased respelled
      have bytes := byteLength_respelled respelled
      rw [List.cons_append, ended_lexeme visible', cut, token, bytes, ended_lexeme visible,
        Nat.add_right_comm]
      exact congrArg (_ :: ·) (ih _)

theorem length_relaid (h : Relaid n cs ds moved) (start : Nat) : moved.length = (ended start cs).length := by
  induction h generalizing start with
  | done => rw [ended_nil, List.length_singleton, List.length_singleton]
  | insert _ _ ih => exact ih start
  | keep blank _ ih =>
    rw [ended_blank blank]
    exact ih _
  | word visible _ _ ih =>
    rw [ended_lexeme visible, List.length_cons, List.length_cons, ih]

/-- Distinct offsets can be moved one by one. -/
theorem exists_relocation {ts : List Located} (ns : List Nat)
    (order : ts.Pairwise fun t u => t.start < u.start) :
    ∃ g : Nat → Nat, ∀ p ∈ ts.zip ns, g p.1.start = p.1.start + p.2 := by
  induction ts generalizing ns with
  | nil => exact ⟨id, nofun⟩
  | cons t ts ih =>
    cases ns with
    | nil => exact ⟨id, by simp⟩
    | cons k ns =>
      obtain ⟨first, later⟩ := List.pairwise_cons.1 order
      obtain ⟨g, moves⟩ := ih ns later
      refine ⟨fun m => if m = t.start then m + k else g m, ?_⟩
      intro p hp
      rcases List.mem_cons.1 hp with rfl | hp
      · exact if_pos rfl
      · have behind := first p.1 (List.of_mem_zip hp).1
        exact (if_neg (Nat.ne_of_gt behind)).trans (moves p hp)

/-- Every token of the stream is moved by some number of bytes. -/
theorem exists_moved {s s' : String} (h : Relaid 0 s.toList s'.toList moved) {t : Located}
    (ht : t ∈ stream s) : ∃ k, (t, k) ∈ (stream s).zip moved := by
  have same := length_relaid h 0
  rw [← stream_eq] at same
  obtain ⟨i, hi, rfl⟩ := List.getElem_of_mem ht
  refine ⟨moved[i], List.mem_iff_getElem.2 ⟨i, ?_, List.getElem_zip⟩⟩
  rw [List.length_zip, same, Nat.min_self]
  exact hi

/-- A relaid text is read from a session in which the positions are moved. -/
theorem exists_relocate {s s' : String} (h : Relaid 0 s.toList s'.toList moved) :
    ∃ g : Nat → Nat, Session.ofText s' = (Session.ofText s).relocate g
      ∧ ∀ p ∈ (stream s).zip moved, g p.1.start = p.1.start + p.2 := by
  obtain ⟨g, moves⟩ := exists_relocation moved (pairwise_stream s)
  refine ⟨g, ?_, moves⟩
  have same := length_relaid h 0
  have all : stream s' = (stream s).map (Located.relocate g) := by
    calc stream s' = ((stream s).zip moved).map fun p => p.1.relocate (· + p.2) := by
          rw [stream_eq, stream_eq]
          exact ended_relaid h 0
      _ = ((stream s).zip moved).map fun p => p.1.relocate g := by
          refine List.map_congr_left fun p hp => ?_
          exact congrArg (Located.mk p.1.token) (moves p hp).symm
      _ = (((stream s).zip moved).map Prod.fst).map (Located.relocate g) := by
          rw [List.map_map]
          rfl
      _ = (stream s).map (Located.relocate g) := by
          rw [List.map_fst_zip (by rw [same, stream_eq])]
  rw [stream, stream, List.map_append] at all
  obtain ⟨tokens_moved, end_moved⟩ := List.append_inj' all rfl
  have end_start : byteLength s'.toList = g (byteLength s.toList) :=
    congrArg Located.start (List.cons.inj end_moved).1
  rw [Session.ofText, Session.ofText, tokens_moved, end_start]
  rfl

/-- **A formula's layout does not matter.** With white space inserted and letters in another case, a text has
    the same tree, or the same error at the same token, whose offset has moved by the bytes inserted before
    it. -/
theorem parseUpTo_relaid {s s' : String} (h : Relaid 0 s.toList s'.toList moved) (limit : Nat) :
    (∃ tree, parseUpTo limit s = .ok tree ∧ parseUpTo limit s' = .ok tree) ∨
      ∃ fault t k, (t, k) ∈ (stream s).zip moved ∧ parseUpTo limit s = .error ⟨fault, t.start⟩
        ∧ parseUpTo limit s' = .error ⟨fault, t.start + k⟩ := by
  obtain ⟨g, session, moves⟩ := exists_relocate h
  have run : parseUpTo limit s' = (parseUpTo limit s).mapError (ParseError.relocate g) := by
    rw [parseUpTo, session]
    exact Session.parse_relocate limit _ g
  cases parsed : parseUpTo limit s with
  | ok tree => exact .inl ⟨tree, rfl, by rw [run, parsed]; rfl⟩
  | error e =>
    obtain ⟨t, ht, here⟩ : ∃ t ∈ stream s, e.position = t.start := by
      rw [stream]
      rcases Session.exists_start_of_parse parsed with stop | ⟨t, ht, here⟩
      · exact ⟨_, List.mem_append_right _ (List.mem_singleton_self _), stop⟩
      · exact ⟨t, List.mem_append_left _ ht, here⟩
    obtain ⟨k, hk⟩ := exists_moved h ht
    refine .inr ⟨e.fault, t, k, hk, ?_, ?_⟩
    · rw [← here]
    · rw [run, parsed, ← moves _ hk, ← here]
      rfl

/-- A space before a name that is now written in lower case, and one behind the operator. -/
theorem parseUpTo_relaid_spaces :
    Relaid 0 "X+;".toList " x+ ;".toList [1, 1, 2, 2]
      ∧ ((∃ tree, parseUpTo 64 "X+;" = .ok tree ∧ parseUpTo 64 " x+ ;" = .ok tree) ∨
        ∃ fault t k, (t, k) ∈ (stream "X+;").zip [1, 1, 2, 2] ∧ parseUpTo 64 "X+;" = .error ⟨fault, t.start⟩
          ∧ parseUpTo 64 " x+ ;" = .error ⟨fault, t.start + k⟩) := by
  have relaid : Relaid 0 "X+;".toList " x+ ;".toList [1, 1, 2, 2] := by
    have name : Respelled (lexeme 'X' ['+', ';']).1 ['x'] := .cons (by decide) .nil
    have plus : Respelled (lexeme '+' [';']).1 ['+'] := .refl _
    have strange : Respelled (lexeme ';' []).1 [';'] := .refl _
    exact .insert (by decide) (.word (by decide) name (.word (by decide) plus
      (.insert (by decide) (.word (by decide) strange .done))))
  exact ⟨relaid, parseUpTo_relaid relaid 64⟩

end UnitCalc.Formula
