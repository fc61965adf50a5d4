import TableSchema.Ddl.Slice
import TableSchema.Proofs.Ddl.LexerSteps

/-!
# Tokens cover their text

The tokens of a text lose nothing of it: their spellings stand in the text where their offsets say,
none overlaps another, and all that lies between them is blank. So the spellings and the gaps
between them, taken in turn, are the text.

The proof follows the lexer: `Covers` says what a list of tokens is to what is left of a text, with
one case for the end and one for a token in front, and every fact about a whole text is an
induction over it.
-/

namespace TableSchema.Ddl

open Lexeme LexicalGrammar Text Lexer

/-! ## Covered texts -/

/-- The byte after the spelling of a token. -/
def Token.stop (t : Token) : Nat := t.position.offset + byteLength t.literal.toList

/-- Tokens spell what follows some text, up to blanks, and are placed by what is ahead of them. -/
inductive Covers : List Char → List Char → List Token → Prop where
  | finish {before gap : List Char} {t : Token} :
    AreBlank gap → t.kind = .endOfInput → t.literal = "" →
      t.position.offset = byteLength (before ++ gap) → Covers before gap [t]
  | token {before gap front rest : List Char} {t : Token} {ts : List Token} :
    AreBlank gap → IsLexeme front t.kind → t.literal = String.ofList front →
      t.position.offset = byteLength (before ++ gap) →
      Covers (before ++ gap ++ front) rest ts → Covers before (gap ++ front ++ rest) (t :: ts)

/-- The tokens of a lexer cover what is left of its text. -/
theorem covers_tokens {consumed text : List Char} {l : Lexer} (h : StandsAfter consumed text l)
    {ts : List Token} (hts : l.tokens = .ok ts) : Covers consumed l.rest ts := by
  -- along the calls of `tokens`: a fault, the end, a fault later on, a token and what follows it
  induction l using Lexer.tokens.induct generalizing consumed ts with
  | case1 l e l' hnext =>
    rw [tokens_of_error hnext] at hts
    cases hts
  | case2 l t l' hnext hend =>
    rw [tokens_of_ok hnext, if_pos hend] at hts
    cases hts
    obtain ⟨gap, rest, hgap, hrest, hoffset, ⟨rfl, hkind, hliteral⟩ | ⟨front, hlexeme, -⟩⟩ :=
      h.next_cases hnext
    · rw [hrest, List.append_nil]
      exact .finish hgap hkind hliteral hoffset
    · exact absurd (beq_iff_eq.mp hend) (ne_endOfInput_of_isLexeme hlexeme)
  | case3 l t l' hnext hend e htail =>
    rw [tokens_of_ok hnext, if_neg hend, htail] at hts
    cases hts
  | case4 l t l' hnext hend ts' htail ih =>
    rw [tokens_of_ok hnext, if_neg hend, htail] at hts
    cases hts
    obtain ⟨gap, rest, hgap, hrest, hoffset, ⟨-, hkind, -⟩ |
      ⟨front, hlexeme, hliteral, hfront, h'⟩⟩ := h.next_cases hnext
    · exact absurd (beq_iff_eq.mpr hkind) hend
    · rw [hrest, hfront, ← List.append_assoc]
      exact .token hgap hlexeme hliteral hoffset (ih h' htail)

theorem covers_of_tokenize {text : String} {tokens : List Token}
    (h : tokenize text = .ok tokens) : Covers [] text.toList tokens :=
  covers_tokens (standsAfter_start text.toList) h

/-! ## What covering gives -/

section Covers

variable {before rest : List Char} {ts : List Token}

theorem stop_eq {before gap front : List Char} {t : Token}
    (hliteral : t.literal = String.ofList front)
    (hoffset : t.position.offset = byteLength (before ++ gap)) :
    t.stop = byteLength (before ++ gap ++ front) := by
  rw [Token.stop, hoffset, hliteral, String.toList_ofList, ← byteLength_append]

/-- The spelling of a token in front stands where its offset says. -/
theorem slice?_token {before gap front : List Char} {t : Token}
    (hliteral : t.literal = String.ofList front)
    (hoffset : t.position.offset = byteLength (before ++ gap)) (rest : List Char) :
    slice? (before ++ (gap ++ front ++ rest)) t.position.offset t.stop =
      some t.literal.toList := by
  have htext : before ++ (gap ++ front ++ rest) = before ++ gap ++ front ++ rest := by
    simp only [List.append_assoc]
  rw [stop_eq hliteral hoffset, hoffset, htext, slice?_append, hliteral, String.toList_ofList]

/-- Covering tokens are closed by the end of the text, which is none of the others. -/
theorem Covers.exists_close (h : Covers before rest ts) :
    ∃ words close, ts = words ++ [close] ∧ close.kind = .endOfInput ∧ close.literal = "" ∧
      close.position.offset = byteLength (before ++ rest) ∧
      ∀ t ∈ words, t.kind ≠ .endOfInput ∧ t.literal ≠ "" ∧
        slice? (before ++ rest) t.position.offset t.stop = some t.literal.toList := by
  induction h with
  | finish hgap hkind hliteral hoffset =>
    exact ⟨[], _, rfl, hkind, hliteral, hoffset, fun _ ht => absurd ht List.not_mem_nil⟩
  | @token before gap front rest t ts hgap hlexeme hliteral hoffset htail ih =>
    obtain ⟨words, close, rfl, hclose, hempty, hend, hwords⟩ := ih
    have htext : before ++ gap ++ front ++ rest = before ++ (gap ++ front ++ rest) := by
      simp only [List.append_assoc]
    rw [htext] at hend hwords
    refine ⟨t :: words, close, rfl, hclose, hempty, hend, List.forall_mem_cons.mpr ⟨?_, hwords⟩⟩
    refine ⟨ne_endOfInput_of_isLexeme hlexeme, fun hnil => ?_, slice?_token hliteral hoffset rest⟩
    obtain rfl : front = [] := String.ofList_injective (hliteral.symm.trans hnil)
    exact not_isLexeme_nil _ hlexeme

/-- Every covering token but the end spells a lexeme of its kind. -/
theorem Covers.exists_lexeme (h : Covers before rest ts) {t : Token} (ht : t ∈ ts)
    (hend : t.isEnd = false) : ∃ front, IsLexeme front t.kind := by
  induction h with
  | finish hgap hkind hliteral hoffset =>
    obtain rfl := List.mem_singleton.mp ht
    exact absurd hkind (beq_eq_false_iff_ne.mp hend)
  | token hgap hlexeme hliteral hoffset htail ih =>
    obtain rfl | ht := List.mem_cons.mp ht
    · exact ⟨_, hlexeme⟩
    · exact ih ht

theorem Covers.le_offset (h : Covers before rest ts) :
    ∀ t ∈ ts, byteLength before ≤ t.position.offset := by
  induction h with
  | finish hgap hkind hliteral hoffset =>
    refine List.forall_mem_singleton.mpr ?_
    rw [hoffset, byteLength_append]
    exact Nat.le_add_right _ _
  | @token before gap front rest t ts hgap hlexeme hliteral hoffset htail ih =>
    refine List.forall_mem_cons.mpr ⟨?_, fun t' ht' => ?_⟩
    · rw [hoffset, byteLength_append]
      exact Nat.le_add_right _ _
    · refine Nat.le_trans ?_ (ih t' ht')
      rw [byteLength_append, byteLength_append, Nat.add_assoc]
      exact Nat.le_add_right _ _

/-- No covering token starts before another one ahead of it stops. -/
theorem Covers.pairwise (h : Covers before rest ts) :
    ts.Pairwise fun t t' => t.stop ≤ t'.position.offset := by
  induction h with
  | finish => exact List.pairwise_singleton _ _
  | token hgap hlexeme hliteral hoffset htail ih =>
    refine List.pairwise_cons.mpr ⟨fun t' ht' => ?_, ih⟩
    rw [stop_eq hliteral hoffset]
    exact htail.le_offset t' ht'

/-- What stands in a text from some byte on to the first token, and from each token to the next. -/
def gaps (text : List Char) : Nat → List Token → List (Option (List Char))
  | _, [] => []
  | first, t :: ts => slice? text first t.position.offset :: gaps text t.stop ts

/-- The spellings of tokens, each behind a gap. -/
def interleave (blanks : List (List Char)) (ts : List Token) : List Char :=
  (List.zipWith (fun gap t => gap ++ t.literal.toList) blanks ts).flatten

/-- The gaps between covering tokens are blank, and together with the tokens they are the text. -/
theorem Covers.exists_gaps (h : Covers before rest ts) :
    ∃ blanks, gaps (before ++ rest) (byteLength before) ts = blanks.map some ∧
      (∀ gap ∈ blanks, AreBlank gap) ∧ interleave blanks ts = rest := by
  induction h with
  | @finish before gap t hgap hkind hliteral hoffset =>
    refine ⟨[gap], ?_, List.forall_mem_singleton.mpr hgap, ?_⟩
    · have hslice := slice?_append before gap []
      rw [List.append_nil] at hslice
      rw [gaps, hoffset, hslice]
      rfl
    · simp [interleave, hliteral]
  | @token before gap front rest t ts hgap hlexeme hliteral hoffset htail ih =>
    obtain ⟨blanks, hgaps, hblanks, htext⟩ := ih
    have hsplit : before ++ (gap ++ front ++ rest) = before ++ gap ++ front ++ rest := by
      simp only [List.append_assoc]
    refine ⟨gap :: blanks, ?_, List.forall_mem_cons.mpr ⟨hgap, hblanks⟩, ?_⟩
    · rw [gaps, stop_eq hliteral hoffset, hsplit, hgaps, hoffset, List.append_assoc (before ++ gap),
        slice?_append]
      rfl
    · rw [← htext]
      simp [interleave, hliteral]

end Covers

/-- **Tokenization loses nothing.** The tokens of a text are closed by the only end of the text
among them, placed after its last byte; each of the others has a spelling, which stands in the text
at its offset; none starts before the one ahead of it stops; and the gaps before each are blank and
give back the text when they are put between the spellings. -/
theorem tokenize_loses_nothing {text : String} {tokens : List Token}
    (h : tokenize text = .ok tokens) :
    (∃ words close, tokens = words ++ [close] ∧ close.kind = .endOfInput ∧ close.literal = "" ∧
      close.position.offset = byteLength text.toList ∧
      ∀ t ∈ words, t.kind ≠ .endOfInput ∧ t.literal ≠ "" ∧
        slice? text.toList t.position.offset t.stop = some t.literal.toList) ∧
    tokens.Pairwise (fun t t' => t.stop ≤ t'.position.offset) ∧
    ∃ blanks, gaps text.toList 0 tokens = blanks.map some ∧ (∀ gap ∈ blanks, AreBlank gap) ∧
      interleave blanks tokens = text.toList := by
  have hcovers : Covers [] text.toList tokens := covers_tokens (standsAfter_start text.toList) h
  exact ⟨hcovers.exists_close, hcovers.pairwise, hcovers.exists_gaps⟩

/-- The offsets are in bytes, of which the accented letter takes two. -/
theorem tokenize_loses_nothing_accented :
    tokenize " \"é\"" =
        .ok [⟨.identifier "é", "\"é\"", ⟨1, 1, 2⟩⟩, ⟨.endOfInput, "", ⟨5, 1, 5⟩⟩] ∧
      ∃ blanks, interleave blanks
        [⟨.identifier "é", "\"é\"", ⟨1, 1, 2⟩⟩, ⟨.endOfInput, "", ⟨5, 1, 5⟩⟩] =
          " \"é\"".toList := by
  have hname : (start " \"é\"".toList).next =
      (.ok ⟨.identifier "é", "\"é\"", ⟨1, 1, 2⟩⟩, ⟨[], ⟨5, 1, 5⟩, ⟨5, 1, 5⟩⟩) := rfl
  have hend : (⟨[], ⟨5, 1, 5⟩, ⟨5, 1, 5⟩⟩ : Lexer).next =
      (.ok ⟨.endOfInput, "", ⟨5, 1, 5⟩⟩, ⟨[], ⟨5, 1, 5⟩, ⟨5, 1, 5⟩⟩) := rfl
  have htokens : tokenize " \"é\"" =
      .ok [⟨.identifier "é", "\"é\"", ⟨1, 1, 2⟩⟩, ⟨.endOfInput, "", ⟨5, 1, 5⟩⟩] := by
    rw [tokenize, tokens_of_ok hname, tokens_of_ok hend]
    rfl
  obtain ⟨-, -, blanks, -, -, htext⟩ := tokenize_loses_nothing htokens
  exact ⟨htokens, blanks, htext⟩

end TableSchema.Ddl
