import TableSchema.Proofs.Ddl.Places

/-!
# Texts joined by blanks

Blanks between two texts keep them apart: the tokens of the whole are those of the first text and
then those of the second, and an error of the second is an error of the whole.

* *Ahead of the blanks* every lexeme is recognised as it is where the text ends, since no lexeme
  holds a blank unless it stands between quotes, and then it is closed in its own text.
* *Behind the blanks* a lexer reads as it does at the start of a text. It differs only in the places
  that it counts, and what is ahead moves all of them in the same way (`Position.moved`).
-/

namespace TableSchema.Ddl

open Lexeme LexicalGrammar Text Lexer

/-! ## Places behind another text -/

namespace Position

/-- A place of a text as a place of the same text behind another one. Only the columns of its first
line are moved. -/
def moved (ahead : List Char) (p : Position) : Position where
  offset := p.offset + byteLength ahead
  line := p.line + ahead.count '\n'
  column := if p.line = 1 then p.column + (lastLine ahead).length else p.column

theorem moved_past (ahead : List Char) (p : Position) (c : Char) :
    (p.past c).moved ahead = (p.moved ahead).past c := by
  by_cases hline : p.line = 1
  · simp only [moved, past, hline, if_true, mk.injEq, true_and]
    omega
  · simp only [moved, past, hline, if_false, mk.injEq, and_true]
    omega

/-- A line feed leaves the first line for good, so what follows it keeps its column. -/
theorem moved_next (ahead : List Char) {p : Position} (hp : 1 ≤ p.line) (c : Char) :
    (p.next c).moved ahead = (p.moved ahead).next c := by
  by_cases hc : c = '\n'
  · have hline : p.line + 1 ≠ 1 := by omega
    simp only [next, hc, if_true, moved, hline, if_false, mk.injEq, and_true]
    omega
  · simp only [next, hc, if_false]
    exact moved_past ahead p c

/-- Where a character stands that has two texts ahead of it. -/
theorem behind_append (ahead cs : List Char) : behind (ahead ++ cs) = (behind cs).moved ahead := by
  induction cs using List.reverseRecOn with
  | nil =>
    rw [List.append_nil]
    simp [behind, moved, lastLine, Nat.add_comm]
  | append_singleton cs c ih =>
    have hline : 1 ≤ (behind cs).line := Nat.le_add_right 1 _
    rw [← List.append_assoc, behind_concat, behind_concat, ih, moved_next ahead hline]

/-- Where the end of a text is reported that has another text ahead of it. Nothing can be said of an
empty text, whose end is on the last line of what is ahead. -/
theorem endOf_append (ahead : List Char) {cs : List Char} (hcs : cs ≠ []) :
    endOf (ahead ++ cs) = (endOf cs).moved ahead := by
  obtain ⟨init, c, rfl⟩ := (List.eq_nil_or_concat cs).resolve_left hcs
  rw [List.concat_eq_append, ← List.append_assoc, endOf_concat, endOf_concat, behind_append,
    moved_past]

end Position

/-- A token of a text as a token of the same text behind another one. -/
def Token.moved (ahead : List Char) (t : Token) : Token :=
  { t with position := t.position.moved ahead }

/-- An error of a text as an error of the same text behind another one. -/
def LexicalError.moved (ahead : List Char) (e : LexicalError) : LexicalError :=
  { e with offset := e.offset + byteLength ahead }

/-! ## Behind another text -/

/-- The tokens of a text behind another one, or its error there. -/
def movedTokens (ahead : List Char) :
    Except LexicalError (List Token) → Except LexicalError (List Token)
  | .ok ts => .ok (ts.map (·.moved ahead))
  | .error e => .error (e.moved ahead)

theorem movedTokens_map_cons (ahead : List Char) (t : Token)
    (found : Except LexicalError (List Token)) :
    movedTokens ahead (found.map (t :: ·)) =
      (movedTokens ahead found).map (t.moved ahead :: ·) := by
  cases found <;> rfl

/-- A lexer behind another text finds the same tokens or the same error, moved. -/
theorem tokens_between_append (ahead consumed rest : List Char) (hne : consumed ++ rest ≠ []) :
    (between (ahead ++ consumed) rest).tokens =
      movedTokens ahead (between consumed rest).tokens := by
  induction consumed, rest using lexeme_induction with
  | nothing consumed gap hgap =>
    rw [← List.append_nil gap, tokens_between_blanks hgap, tokens_between_blanks hgap,
      tokens_between_end, tokens_between_end, List.append_assoc, Position.endOf_append ahead hne]
    rfl
  | fault consumed gap c cs hgap hc hr =>
    obtain ⟨_, _, -, hnext⟩ := next_between_fault hc hr (consumed ++ gap)
    obtain ⟨_, _, -, hnext'⟩ := next_between_fault hc hr (ahead ++ consumed ++ gap)
    rw [tokens_between_blanks hgap, tokens_between_blanks hgap, tokens_of_error hnext,
      tokens_of_error hnext']
    simp only [movedTokens, LexicalError.moved, byteLength_append]
    congr 2
    omega
  | lexeme consumed gap front rest k hgap hfront hr ih =>
    have hne' : consumed ++ gap ++ front ++ rest ≠ [] := by simpa using hne
    have htail := ih hne'
    rw [← List.append_assoc, ← List.append_assoc] at htail
    rw [tokens_between_blanks hgap, tokens_between_blanks hgap, tokens_between_lexeme hfront hr,
      tokens_between_lexeme hfront hr, htail, movedTokens_map_cons, List.append_assoc ahead,
      Position.behind_append]
    rfl

/-! ## Ahead of blanks -/

/-- The tokens of a text but its end are the first tokens of the text with blanks behind it,
whatever follows the blanks. -/
theorem exists_words_of_tokens {consumed rest : List Char} {ts : List Token}
    (h : (between consumed rest).tokens = .ok ts) :
    ∃ words, ts = words ++ [⟨.endOfInput, "", .endOf (consumed ++ rest)⟩] ∧
      (∀ t ∈ words, t.isEnd = false) ∧
      ∀ tail, StartsBlank tail →
        (between consumed (rest ++ tail)).tokens =
          (between (consumed ++ rest) tail).tokens.map (words ++ ·) := by
  induction consumed, rest using lexeme_induction generalizing ts with
  | nothing consumed gap hgap =>
    rw [← List.append_nil gap, tokens_between_blanks hgap, tokens_between_end] at h
    cases h
    refine ⟨[], rfl, by simp, fun tail _ => ?_⟩
    rw [tokens_between_blanks hgap]
    cases (between (consumed ++ gap) tail).tokens <;> rfl
  | fault consumed gap c cs hgap hc hr =>
    obtain ⟨_, _, -, hnext⟩ := next_between_fault hc hr (consumed ++ gap)
    rw [tokens_between_blanks hgap, tokens_of_error hnext] at h
    cases h
  | lexeme consumed gap front rest k hgap hfront hr ih =>
    rw [tokens_between_blanks hgap, tokens_between_lexeme hfront hr] at h
    cases htokens : (between (consumed ++ gap ++ front) rest).tokens with
    | error e =>
      rw [htokens] at h
      cases h
    | ok ts' =>
      rw [htokens] at h
      obtain rfl := Except.ok.inj h
      obtain ⟨words, rfl, hwords, hahead⟩ := ih htokens
      have hword : (⟨k, String.ofList front, .behind (consumed ++ gap)⟩ : Token).isEnd = false :=
        beq_eq_false_iff_ne.mpr (ne_endOfInput_of_isLexeme hfront)
      refine ⟨⟨k, String.ofList front, .behind (consumed ++ gap)⟩ :: words, by simp,
        List.forall_mem_cons.mpr ⟨hword, hwords⟩, fun tail htail => ?_⟩
      have hr' := recognise_append_of_startsBlank hfront hr htail
      rw [List.append_assoc, List.append_assoc, tokens_between_blanks hgap,
        tokens_between_lexeme hfront hr', hahead tail htail]
      simp only [List.append_assoc]
      cases (between (consumed ++ (gap ++ (front ++ rest))) tail).tokens <;> rfl

/-- **Blanks keep texts apart**: the tokens of a text, blanks and a second text are those of the
first text but its end, and then those of the second, moved by all that is ahead of it; an error of
the second text is an error of the whole, moved likewise. -/
theorem texts_join_at_blanks {a gap b : String} {as : List Token} (ha : tokenize a = .ok as)
    (hgap : AreBlank gap.toList) (hgapne : gap ≠ "") (hb : b ≠ "") :
    ∃ words close, as = words ++ [close] ∧ close.kind = .endOfInput ∧
      (∀ t ∈ words, t.kind ≠ .endOfInput) ∧
      (∀ bs, tokenize b = .ok bs →
        tokenize (a ++ gap ++ b) = .ok (words ++ bs.map (·.moved (a ++ gap).toList))) ∧
      ∀ e, tokenize b = .error e →
        tokenize (a ++ gap ++ b) = .error (e.moved (a ++ gap).toList) := by
  have ha' : (between [] a.toList).tokens = .ok as := ha
  obtain ⟨words, has, hwords, hahead⟩ := exists_words_of_tokens ha'
  have hne : gap.toList ≠ [] := fun h => hgapne (String.toList_inj.mp h)
  have htail : StartsBlank (gap.toList ++ b.toList) := by
    intro c hc
    rw [List.head?_append_of_ne_nil _ hne] at hc
    exact hgap c (List.mem_of_mem_head? hc)
  have hbne : [] ++ b.toList ≠ [] := fun h => hb (String.toList_inj.mp h)
  have hjoin : tokenize (a ++ gap ++ b) =
      (movedTokens (a ++ gap).toList (tokenize b)).map (words ++ ·) := by
    calc tokenize (a ++ gap ++ b)
        = (between [] (a.toList ++ (gap.toList ++ b.toList))).tokens := by
          rw [tokenize, String.toList_append, String.toList_append, List.append_assoc,
            start_eq_between]
      _ = (between (a.toList ++ gap.toList) b.toList).tokens.map (words ++ ·) := by
          rw [hahead _ htail, tokens_between_blanks hgap, List.nil_append]
      _ = _ := by
          have hbehind := tokens_between_append (a ++ gap).toList [] b.toList hbne
          rw [List.append_nil, String.toList_append] at hbehind
          rw [hbehind, String.toList_append]
          rfl
  refine ⟨words, _, has, rfl, fun t ht => beq_eq_false_iff_ne.mp (hwords t ht),
    fun bs hbs => ?_, fun e he => ?_⟩
  · rw [hjoin, hbs]
    rfl
  · rw [hjoin, he]
    rfl

/-- A text that ends where a number could go on, and a text that could go on with it: a line feed
and an ideographic space keep them apart. -/
theorem halves_of_a_number_join :
    tokenize ("x\n1e" ++ "\n\u3000" ++ "5'é\n' y") =
        .ok [⟨.identifier "x", "x", ⟨0, 1, 1⟩⟩, ⟨.number "1", "1", ⟨2, 2, 1⟩⟩,
          ⟨.identifier "e", "e", ⟨3, 2, 2⟩⟩, ⟨.number "5", "5", ⟨8, 3, 2⟩⟩,
          ⟨.string "é\n", "'é\n'", ⟨9, 3, 3⟩⟩, ⟨.identifier "y", "y", ⟨15, 4, 3⟩⟩,
          ⟨.endOfInput, "", ⟨16, 4, 4⟩⟩] ∧
      tokenize ("x\n1e" ++ "\n\u3000" ++ "+é") = .error ⟨.unexpected 'é', 9⟩ := by
  have ha : tokenize "x\n1e" = .ok ([⟨.identifier "x", "x", ⟨0, 1, 1⟩⟩,
      ⟨.number "1", "1", ⟨2, 2, 1⟩⟩, ⟨.identifier "e", "e", ⟨3, 2, 2⟩⟩] ++
      [⟨.endOfInput, "", ⟨4, 2, 3⟩⟩]) := by decide +kernel
  have hb : tokenize "5'é\n' y" = .ok [⟨.number "5", "5", ⟨0, 1, 1⟩⟩,
      ⟨.string "é\n", "'é\n'", ⟨1, 1, 2⟩⟩, ⟨.identifier "y", "y", ⟨7, 2, 3⟩⟩,
      ⟨.endOfInput, "", ⟨8, 2, 4⟩⟩] := by decide +kernel
  have hb' : tokenize "+é" = .error ⟨.unexpected 'é', 1⟩ := by decide +kernel
  have hgap : AreBlank "\n\u3000".toList := by simp [AreBlank, isBlank]
  obtain ⟨words, close, has, -, -, hok, -⟩ :=
    texts_join_at_blanks ha hgap (by decide) (by decide : "5'é\n' y" ≠ "")
  obtain ⟨_, _, -, -, -, -, herror⟩ :=
    texts_join_at_blanks ha hgap (by decide) (by decide : "+é" ≠ "")
  obtain ⟨rfl, -⟩ := List.append_inj' has rfl
  refine ⟨(hok _ hb).trans ?_, (herror _ hb').trans ?_⟩ <;> decide +kernel

end TableSchema.Ddl
