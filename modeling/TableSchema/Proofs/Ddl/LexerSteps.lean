import TableSchema.Ddl.Lexer
import TableSchema.Proofs.Ddl.LongestMatch
import TableSchema.Text.Utf8

/-!
# The steps of the lexer

Where a lexer stands in a text is told by what it has consumed: the rest of the text is left, and
the two places it keeps count the bytes before it. Every way of moving keeps this up, so it holds of
each lexer that asking for tokens leads to, and a request for the next token

* skips blanks;
* takes the longest lexeme that follows, if there is one;
* reports the end of the text where nothing is left, and the character at fault otherwise.
-/

namespace TableSchema.Ddl

open Lexeme LexicalGrammar Text

/-- A text without ink. -/
def AreBlank (cs : List Char) : Prop := ∀ c ∈ cs, isBlank c = true

namespace Lexer

/-! ## Places -/

/-- The lexer stands in the text after what it has consumed. -/
structure StandsAfter (consumed text : List Char) (l : Lexer) : Prop where
  /-- the rest of the text is left -/
  split : consumed ++ l.rest = text
  /-- the next character is placed by the bytes before it -/
  offset_here : l.here.offset = byteLength consumed
  /-- the end would be placed by the bytes before it -/
  offset_finish : l.finish.offset = byteLength consumed

theorem standsAfter_start (text : List Char) : StandsAfter [] text (start text) :=
  ⟨rfl, rfl, rfl⟩

namespace StandsAfter

variable {consumed text : List Char} {l : Lexer}

theorem offset_position (h : StandsAfter consumed text l) :
    l.position.offset = byteLength consumed := by
  unfold position
  split
  · exact h.offset_finish
  · exact h.offset_here

theorem advance (h : StandsAfter consumed text l) {c : Char} {cs : List Char}
    (hrest : l.rest = c :: cs) : StandsAfter (consumed ++ [c]) text l.advance := by
  have hnext : (l.here.next c).offset = l.here.offset + c.utf8Size := by
    unfold Position.next
    split <;> rfl
  simp only [Lexer.advance, hrest]
  refine ⟨?_, ?_, ?_⟩
  · rw [← h.split, hrest, List.append_assoc]
    rfl
  · rw [hnext, h.offset_here, byteLength_append]
    rfl
  · rw [Position.past, h.offset_here, byteLength_append]
    rfl

theorem advanceBy (h : StandsAfter consumed text l) {front rest : List Char}
    (hrest : l.rest = front ++ rest) :
    StandsAfter (consumed ++ front) text (l.advanceBy front.length) := by
  induction front generalizing consumed l with
  | nil => exact (List.append_nil consumed).symm ▸ h
  | cons c cs ih =>
    have hstep := ih (h.advance hrest) (by rw [rest_advance, hrest]; rfl)
    rw [List.append_assoc, List.singleton_append] at hstep
    exact hstep

theorem skipBlanks (h : StandsAfter consumed text l) :
    StandsAfter (consumed ++ l.rest.takeWhile isBlank) text l.skipBlanks :=
  h.advanceBy List.takeWhile_append_dropWhile.symm

end StandsAfter

theorem rest_skipBlanks (l : Lexer) : l.skipBlanks.rest = l.rest.dropWhile isBlank := by
  rw [skipBlanks, rest_advanceBy, drop_length_takeWhile]

/-! ## One token -/

section Next

variable {consumed text : List Char} {l : Lexer}

/-- A lexeme that is recognised is the next token, and the lexer moves past it. -/
theorem StandsAfter.next_ok (h : StandsAfter consumed text l) {front rest : List Char}
    {kind : TokenKind} (hrest : l.rest.dropWhile isBlank = front ++ rest)
    (hfront : recognise (front ++ rest) = .ok (kind, front.length)) :
    ∃ place l', l.next = (.ok ⟨kind, String.ofList front, place⟩, l') ∧
      place.offset = byteLength (consumed ++ l.rest.takeWhile isBlank) ∧ l'.rest = rest ∧
      StandsAfter (consumed ++ l.rest.takeWhile isBlank ++ front) text l' := by
  have hskip := h.skipBlanks
  have hrest' : l.skipBlanks.rest = front ++ rest := (rest_skipBlanks l).trans hrest
  refine ⟨l.skipBlanks.position, l.skipBlanks.advanceBy front.length, ?_, hskip.offset_position, ?_,
    hskip.advanceBy hrest'⟩
  · simp only [next, hrest', hfront, List.take_left]
  · rw [rest_advanceBy, hrest', List.drop_left]

/-- A fault is placed at the character it is about. -/
theorem StandsAfter.next_error (h : StandsAfter consumed text l) {fault : Fault}
    (hfault : recognise (l.rest.dropWhile isBlank) = .error fault) :
    ∃ consumed' l',
      l.next = (.error ⟨fault, byteLength (consumed ++ l.rest.takeWhile isBlank)⟩, l') ∧
        StandsAfter consumed' text l' := by
  have hskip := h.skipBlanks
  rw [← rest_skipBlanks] at hfault
  have hend := hskip.advanceBy (List.append_nil l.skipBlanks.rest).symm
  cases fault with
  | unexpected c => exact ⟨_, _, by simp only [next, hfault, hskip.offset_here], hskip⟩
  | openString => exact ⟨_, _, by simp only [next, hfault, hskip.offset_here], hend⟩
  | openIdentifier => exact ⟨_, _, by simp only [next, hfault, hskip.offset_here], hend⟩

/-- Where only blanks are left, the next token is the end of the text. -/
theorem StandsAfter.next_end (h : StandsAfter consumed text l)
    (hrest : l.rest.dropWhile isBlank = []) :
    ∃ place l', l.next = (.ok ⟨.endOfInput, "", place⟩, l') ∧
      place.offset = byteLength (consumed ++ l.rest.takeWhile isBlank) ∧ l'.rest = [] := by
  have hend : recognise ([] ++ []) = .ok (.endOfInput, ([] : List Char).length) := rfl
  obtain ⟨place, l', hnext, hoffset, hrest', -⟩ := h.next_ok (hrest : _ = [] ++ []) hend
  exact ⟨place, l', hnext, hoffset, hrest'⟩

/-- What a token says of the text: it is the end, after blanks, or it spells a lexeme of its kind
after blanks. -/
theorem StandsAfter.next_cases (h : StandsAfter consumed text l) {t : Token} {l' : Lexer}
    (hnext : l.next = (.ok t, l')) :
    ∃ gap rest, AreBlank gap ∧ l.rest = gap ++ rest ∧
      t.position.offset = byteLength (consumed ++ gap) ∧
      (rest = [] ∧ t.kind = .endOfInput ∧ t.literal = "" ∨
        ∃ front, IsLexeme front t.kind ∧ t.literal = String.ofList front ∧
          rest = front ++ l'.rest ∧ StandsAfter (consumed ++ gap ++ front) text l') := by
  refine ⟨_, _, fun _ hc => mem_takeWhile hc, List.takeWhile_append_dropWhile.symm, ?_⟩
  by_cases hrest : l.rest.dropWhile isBlank = []
  · obtain ⟨place, _, hnext', hoffset, -⟩ := h.next_end hrest
    rw [hnext] at hnext'
    cases hnext'
    exact ⟨hoffset, .inl ⟨hrest, rfl, rfl⟩⟩
  · cases hr : recognise (l.rest.dropWhile isBlank) with
    | error fault =>
      obtain ⟨_, _, hnext', -⟩ := h.next_error hr
      rw [hnext] at hnext'
      cases hnext'
    | ok found =>
      obtain ⟨kind, n⟩ := found
      obtain ⟨hle, hlexeme⟩ := isLexeme_of_recognise hrest hr
      have hsplit := (List.take_append_drop n (l.rest.dropWhile isBlank)).symm
      obtain ⟨place, _, hnext', hoffset, hrest', h'⟩ :=
        h.next_ok hsplit (by rw [← hsplit, List.length_take_of_le hle, hr])
      rw [hnext] at hnext'
      cases hnext'
      exact ⟨hoffset, .inr ⟨_, hlexeme, rfl, hrest' ▸ hsplit, h'⟩⟩

end Next

/-! ## Whole texts -/

section Tokens

variable {l l' : Lexer} {t : Token}

theorem tokens_of_error {e : LexicalError} (h : l.next = (.error e, l')) : l.tokens = .error e := by
  rw [tokens]
  split
  · next hnext =>
    rw [h] at hnext
    cases hnext
    rfl
  · next hnext =>
    rw [h] at hnext
    cases hnext

/-- The list of the tokens is the token at hand and the list of those behind it. -/
theorem tokens_of_ok (h : l.next = (.ok t, l')) :
    l.tokens = if t.isEnd then .ok [t] else l'.tokens.map (t :: ·) := by
  rw [tokens]
  split
  · next hnext =>
    rw [h] at hnext
    cases hnext
  · next hnext =>
    rw [h] at hnext
    cases hnext
    cases l'.tokens <;> rfl

end Tokens

/-! ## Every reachable lexer -/

/-- The lexers of a text that asking for tokens leads to, whatever the answers were. -/
inductive ReachableFrom (text : List Char) : Lexer → Prop where
  | start : ReachableFrom text (start text)
  | next {l : Lexer} : ReachableFrom text l → ReachableFrom text l.next.2

/-- Asking for a token, with or without success, moves the lexer over some characters of its text.
-/
theorem exists_standsAfter_next {consumed text : List Char} {l : Lexer}
    (h : StandsAfter consumed text l) : ∃ consumed', StandsAfter consumed' text l.next.2 := by
  -- a fault may move the lexer too: an open quote takes the rest of the text
  cases hr : recognise (l.rest.dropWhile isBlank) with
  | error fault =>
    obtain ⟨consumed', l', hnext, h'⟩ := h.next_error hr
    exact ⟨consumed', by rw [hnext]; exact h'⟩
  | ok found =>
    obtain ⟨kind, n⟩ := found
    have hlength := List.length_take_of_le (length_le_of_recognise hr)
    have hsplit := (List.take_append_drop n (l.rest.dropWhile isBlank)).symm
    obtain ⟨place, l', hnext, -, -, h'⟩ := h.next_ok hsplit (by rw [← hsplit, hlength, hr])
    exact ⟨_, by rw [hnext]; exact h'⟩

theorem ReachableFrom.exists_standsAfter {text : List Char} {l : Lexer} (h : ReachableFrom text l) :
    ∃ consumed, StandsAfter consumed text l := by
  induction h with
  | start => exact ⟨[], standsAfter_start text⟩
  | next _ ih =>
    obtain ⟨consumed, h⟩ := ih
    exact exists_standsAfter_next h

/-- **Longest match.** In every lexer that a text leads to, let `rest` be what is left after the
blanks in front, with `before` ahead of it.

* Where nothing is left, the next token is the end of the text.
* Where a lexeme is in front, there is one longest lexeme of one kind, and the next token is that
  lexeme, placed after `before`; what follows it is left.
* Otherwise the first character is at fault: as an open string or quoted name if it is a quote, and
  as unexpected if it is none. -/
theorem next_takes_longest_lexeme {text : List Char} {l : Lexer} (hl : ReachableFrom text l) :
    ∃ before rest, text = before ++ rest ∧ rest = l.rest.dropWhile isBlank ∧
      (rest = [] → ∃ place l', l.next = (.ok ⟨.endOfInput, "", place⟩, l') ∧
        place.offset = byteLength before ∧ l'.rest = []) ∧
      ((∃ front kind, IsLexeme front kind ∧ front <+: rest) →
        ∃ front kind place l', IsLongest rest front kind ∧
          (∀ front' kind', IsLongest rest front' kind' → front' = front ∧ kind' = kind) ∧
          l.next = (.ok ⟨kind, String.ofList front, place⟩, l') ∧
          place.offset = byteLength before ∧ rest = front ++ l'.rest) ∧
      (∀ c cs, rest = c :: cs → (∀ front kind, IsLexeme front kind → ¬front <+: rest) →
        l.next.1 = .error ⟨faultAt c, byteLength before⟩) := by
  obtain ⟨consumed, h⟩ := hl.exists_standsAfter
  refine ⟨consumed ++ l.rest.takeWhile isBlank, _, ?_, rfl, h.next_end, ?_, ?_⟩
  · rw [List.append_assoc, List.takeWhile_append_dropWhile, h.split]
  · rintro ⟨front, kind, hlexeme, hstarts⟩
    obtain ⟨front, kind, hlongest⟩ := exists_isLongest hlexeme hstarts
    obtain ⟨-, ⟨rest, hrest⟩, hrecognise⟩ := isLongest_iff.mp hlongest
    obtain ⟨place, l', hnext, hoffset, hrest', -⟩ := h.next_ok hrest.symm (hrest ▸ hrecognise)
    exact ⟨front, kind, place, l', hlongest, fun _ _ => isLongest_unique hlongest, hnext, hoffset,
      hrest' ▸ hrest.symm⟩
  · intro c cs hrest hnone
    rw [hrest] at hnone
    obtain ⟨consumed', l', hnext, -⟩ :=
      h.next_error (hrest ▸ recognise_of_not_isLexeme hnone)
    rw [hnext]

/-- The lexer before ` -.5e+)` takes the longest lexeme of `-.5e+)`, one byte in. -/
theorem next_takes_longest_lexeme_number :
    ∃ front kind place l', IsLongest ['-', '.', '5', 'e', '+', ')'] front kind ∧
      (start [' ', '-', '.', '5', 'e', '+', ')']).next =
        (.ok ⟨kind, String.ofList front, place⟩, l') ∧
      place.offset = 1 := by
  obtain ⟨before, rest, htext, rfl, -, hlexeme, -⟩ :=
    next_takes_longest_lexeme (.start : ReachableFrom [' ', '-', '.', '5', 'e', '+', ')'] _)
  have hrest : (start [' ', '-', '.', '5', 'e', '+', ')']).rest.dropWhile isBlank =
      ['-', '.', '5', 'e', '+', ')'] := by decide
  have hnumber : IsNumber ['-', '.', '5'] :=
    ⟨['-'], [], ['.'], ['5'], [], .inr (.inr rfl), by simp [AreDigits], .inr rfl,
      by simp [AreDigits], by simp, .inl rfl, rfl⟩
  rw [hrest] at htext hlexeme
  obtain rfl : [' '] = before := List.append_cancel_right htext
  obtain ⟨front, kind, place, l', hlongest, -, hnext, hoffset, -⟩ :=
    hlexeme ⟨_, _, .number hnumber, ⟨['e', '+', ')'], rfl⟩⟩
  exact ⟨front, kind, place, l', hlongest, hnext, hoffset⟩

end Lexer

end TableSchema.Ddl
