import UnitCalc.Proofs.Formula.Lexemes
import UnitCalc.Proofs.Formula.Offsets

/-!
# `Proofs.Formula.Cursor` — a text token by token

A text falls into words with nothing but white space before, between and behind them, and each word is the longest
one of its kind (`Cut`). The tokens of the text are those of its words, each at the byte offset of its word, and a
cursor gives them one after another, and then the end of the text for ever (`cut_tokens`).
-/

namespace UnitCalc.Formula

open Text (isBlank)

variable {start : Nat} {cs : List Char} {ts : List Located}

/-! ## Texts cut into words -/

/-- The text, which begins at a byte offset, falls into white space and the words of the tokens. -/
inductive Cut : Nat → List Char → List Located → Prop
  | done {start : Nat} {gap : List Char} (blank : ∀ c ∈ gap, isBlank c = true) : Cut start gap []
  | word {start : Nat} {gap word behind : List Char} {t : Token} {ts : List Located}
      (blank : ∀ c ∈ gap, isBlank c = true) (some_char : word ≠ []) (visible : ∀ c ∈ word, isBlank c = false)
      (munched : Munched (word ++ behind) word t)
      (later : Cut (start + byteLength (gap ++ word)) behind ts) :
      Cut start (gap ++ word ++ behind) (⟨t, start + byteLength gap⟩ :: ts)

/-- White space before a text belongs to the gap before its first word. -/
theorem Cut.after_blank {c : Char} (h : Cut (start + c.utf8Size) cs ts) (blank : isBlank c = true) :
    Cut start (c :: cs) ts := by
  have bytes : ∀ ds : List Char, start + byteLength (c :: ds) = start + c.utf8Size + byteLength ds := by
    intro ds
    rw [Nat.add_assoc]
    rfl
  cases h with
  | done blanks => exact .done (List.forall_mem_cons.2 ⟨blank, blanks⟩)
  | @word _ gap word behind t ts blanks some_char visible munched later =>
    have here := bytes gap
    rw [← here]
    refine @Cut.word _ (c :: gap) _ _ _ _ (List.forall_mem_cons.2 ⟨blank, blanks⟩) some_char visible munched ?_
    rw [List.cons_append, bytes]
    exact later

/-- There is a character for every token. -/
theorem Cut.length_le (h : Cut start cs ts) : ts.length ≤ cs.length := by
  induction h with
  | done _ => exact Nat.zero_le _
  | word _ some_char _ _ _ ih =>
    have positive := List.length_pos_iff.2 some_char
    simp only [List.length_cons, List.length_append]
    omega

/-- Every token begins between two characters. -/
theorem Cut.exists_before (h : Cut start cs ts) {t : Located} (ht : t ∈ ts) :
    ∃ before behind, cs = before ++ behind ∧ t.start = start + byteLength before := by
  induction h with
  | done _ => cases ht
  | @word start gap word behind _ _ _ _ _ _ _ ih =>
    rcases List.mem_cons.1 ht with rfl | ht
    · exact ⟨gap, word ++ behind, List.append_assoc _ _ _, rfl⟩
    · obtain ⟨before, behind, rfl, here⟩ := ih ht
      refine ⟨gap ++ word ++ before, behind, (List.append_assoc _ _ _).symm, ?_⟩
      rw [here, byteLength_append (gap ++ word), Nat.add_assoc]

/-! ## Words of the scan -/

theorem isBlank_of_mem_numberSpan {c : Char} (h : c ∈ (numberSpan cs).1) : isBlank c = false := by
  obtain ⟨m, e, eq, mantissa, exponent⟩ := (longest_numberSpan cs).fits
  rw [eq] at h
  rcases List.mem_append.1 h with h | h
  · rcases mantissa.mem h with digit | rfl
    · exact isBlank_of_isDigit digit
    · decide
  · cases exponent with
    | none => cases h
    | mark mark optional _ digits =>
      rcases List.mem_append.1 h with h | h
      · rcases List.mem_cons.1 h with rfl | h
        · exact isBlank_of_isExponentMark mark
        · cases optional with
          | none => cases h
          | sign sign =>
            rw [List.mem_singleton.1 h]
            exact isBlank_of_isSign sign
      · exact isBlank_of_isDigit (digits _ h)

/-- No lexeme holds white space. -/
theorem isBlank_of_mem_lexeme {c d : Char} (visible : isBlank c = false) (h : d ∈ (lexeme c cs).1) :
    isBlank d = false := by
  rw [lexeme] at h
  split at h
  · exact isBlank_of_mem_numberSpan h
  · split at h
    · rcases List.mem_cons.1 h with rfl | h
      · exact visible
      · exact isBlank_of_isNamePart (List.all_eq_true.1 List.all_takeWhile d h)
    · rw [List.mem_singleton.1 h]
      exact visible

/-- The tokens of a text are those of the words into which it falls. -/
theorem cut_scan (start : Nat) (cs : List Char) : Cut start cs (scan start cs) := by
  induction start, cs using scan.induct with
  | case1 start =>
    rw [scan_nil]
    exact .done (List.forall_mem_nil _)
  | case2 start c cs blank ih =>
    rw [scan_cons, if_pos blank]
    exact ih.after_blank blank
  | case3 start c cs blank ih =>
    rw [scan_cons, if_neg blank]
    have munched := munched_lexeme c cs
    have visible : isBlank c = false := by simpa using blank
    have whole : [] ++ (lexeme c cs).1 ++ (lexeme c cs).2 = c :: cs := lexeme_append c cs
    rw [← lexeme_append c cs] at munched
    have cut := @Cut.word start [] _ _ _ _ (List.forall_mem_nil _) (lexeme_ne_nil c cs)
      (fun _ => isBlank_of_mem_lexeme visible) munched ih
    rw [whole] at cut
    exact cut

/-! ## Bytes -/

theorem utf8ByteSize_ofList (cs : List Char) : (String.ofList cs).utf8ByteSize = byteLength cs := by
  induction cs with
  | nil => rfl
  | cons c cs ih =>
    rw [String.ofList_cons, String.utf8ByteSize_append, String.utf8ByteSize_singleton, ih]
    rfl

/-- The offset of every token is a place between two characters of the text. -/
theorem isValid_of_mem_tokens {s : String} {t : Located} (ht : t ∈ tokens s) :
    (String.Pos.Raw.mk t.start).IsValid s := by
  obtain ⟨before, behind, whole, here⟩ := (cut_scan 0 s.toList).exists_before ht
  refine String.Pos.Raw.isValid_iff_exists_append.2 ⟨.ofList before, .ofList behind, ?_, ?_⟩
  · rw [← String.ofList_append, ← whole, String.ofList_toList]
  · apply String.Pos.Raw.ext
    rw [String.byteIdx_rawEndPos, utf8ByteSize_ofList, here, Nat.zero_add]

/-! ## Calls -/

namespace Cursor

/-- What the cursor gives when it is asked for the next token once more after `n` times. -/
def call : (n : Nat) → Cursor → Located
  | 0, cursor => cursor.next.1
  | n + 1, cursor => call n cursor.next.2

/-- The next token is the first one of the scan, and the scan goes on at the place behind it. Where there is none
    left, the end of the text is the next token and nothing lies behind it. -/
theorem nextFrom_scan (start : Nat) (cs : List Char) :
    (scan start cs = [] ∧ nextFrom start cs = (⟨.stop, start + byteLength cs⟩, ⟨[], start + byteLength cs⟩)) ∨
      ∃ t cursor, nextFrom start cs = (t, cursor) ∧ scan start cs = t :: scan cursor.start cursor.rest
        ∧ cursor.start + byteLength cursor.rest = start + byteLength cs := by
  induction cs generalizing start with
  | nil => exact .inl ⟨scan_nil start, rfl⟩
  | cons c cs ih =>
    rw [scan_cons, nextFrom]
    by_cases blank : isBlank c = true
    · have bytes : start + byteLength (c :: cs) = start + c.utf8Size + byteLength cs := by
        rw [Nat.add_assoc]
        rfl
      rw [if_pos blank, if_pos blank, bytes]
      exact ih _
    · rw [if_neg blank, if_neg blank]
      refine .inr ⟨_, _, rfl, rfl, ?_⟩
      rw [Nat.add_assoc, byteLength_lexeme]

theorem call_eq (n : Nat) (cursor : Cursor) : cursor.call n
    = (scan cursor.start cursor.rest)[n]?.getD ⟨.stop, cursor.start + byteLength cursor.rest⟩ := by
  induction n generalizing cursor with
  | zero =>
    rw [call, next]
    rcases nextFrom_scan cursor.start cursor.rest with ⟨none, eq⟩ | ⟨t, behind, eq, first, -⟩
    · rw [eq, none]
      rfl
    · rw [eq, first]
      rfl
  | succ n ih =>
    rw [call, next, ih]
    rcases nextFrom_scan cursor.start cursor.rest with ⟨none, eq⟩ | ⟨t, behind, eq, first, bytes⟩
    · rw [eq, none, scan_nil]
      rfl
    · rw [eq, first, List.getElem?_cons_succ]
      rw [bytes]

end Cursor

/-- **Cutting a text into tokens loses nothing and always takes the longest word.** The text falls into the words
of its tokens, which are not empty, and white space around them. The offsets of the words increase and lie between
characters. A cursor gives the tokens in this order, of which there are no more than characters, and from then on
the end of the text, at its length in bytes. -/
theorem cut_tokens (s : String) :
    Cut 0 s.toList (tokens s)
      ∧ (tokens s).length ≤ s.length
      ∧ ((tokens s).Pairwise fun t u => t.start < u.start)
      ∧ (∀ t ∈ tokens s, (String.Pos.Raw.mk t.start).IsValid s ∧ t.token ≠ .stop)
      ∧ ∀ n, (Cursor.ofText s).call n = (tokens s)[n]?.getD ⟨.stop, s.utf8ByteSize⟩ := by
  have cut := cut_scan 0 s.toList
  refine ⟨cut, cut.length_le.trans_eq ?_, pairwise_scan 0 s.toList, fun t ht => ⟨isValid_of_mem_tokens ht, ?_⟩,
    fun n => ?_⟩
  · exact String.length_toList
  · intro stop
    exact stop_not_mem_words s (List.mem_map.2 ⟨t, ht, stop⟩)
  · have bytes := utf8ByteSize_ofList s.toList
    rw [String.ofList_toList] at bytes
    rw [Cursor.call_eq, bytes, ← Nat.zero_add (byteLength s.toList)]
    rfl

end UnitCalc.Formula
