import Mathlib.Data.Stream.Init
import TableSchema.Proofs.Ddl.Places

/-!
# A lexer asked again and again

A lexer can be asked for a token forever, also behind an error and behind the end of its text. Each
answer but the last new one is paid for with characters, so the answers settle: they are some words
and then the end, an unexpected character, or an open quote and then the end, again and again
(`Ending`). These ways to go exclude each other (`Course.answers_injective`), and which of them a text
goes says what the tokens of the whole text are.
-/

namespace TableSchema.Ddl

open Lexeme LexicalGrammar Text Lexer

/-! ## Answers -/

namespace Lexer

/-- The answers to asking a lexer for a token again and again. -/
def answers (l : Lexer) : Stream' (Except LexicalError Token) :=
  Stream'.corec (fun l => l.next.1) (fun l => l.next.2) l

theorem answers_of_next {l l' : Lexer} {answer : Except LexicalError Token}
    (h : l.next = (answer, l')) : l.answers = Stream'.cons answer l'.answers := by
  have heq : l.answers = Stream'.cons l.next.1 l.next.2.answers := Stream'.corec_eq _ _ l
  rw [heq, h]

/-- A lexer that an answer leaves as it was gives that answer forever. -/
theorem answers_of_fixed {l : Lexer} {answer : Except LexicalError Token}
    (h : l.next = (answer, l)) : l.answers = Stream'.const answer := by
  refine Stream'.ext fun n => ?_
  induction n with
  | zero =>
    rw [answers_of_next h]
    rfl
  | succ n ih =>
    rw [answers_of_next h]
    exact ih

theorem answers_between_blanks {gap : List Char} (hgap : AreBlank gap)
    (consumed rest : List Char) :
    (between consumed (gap ++ rest)).answers = (between (consumed ++ gap) rest).answers :=
  (answers_of_next (next_between_blanks hgap consumed rest)).trans (answers_of_next rfl).symm

theorem answers_between_end (consumed : List Char) :
    (between consumed []).answers =
      Stream'.const (.ok ⟨.endOfInput, "", .endOf consumed⟩) :=
  answers_of_fixed (next_between_end consumed)

end Lexer

/-! ## How the answers settle -/

/-- The end of a text, as a token. -/
def Token.endAt (place : Position) : Token := ⟨.endOfInput, "", place⟩

/-- How the answers of a lexer end. -/
inductive Ending where
  /-- at the end of the text -/
  | finished (place : Position)
  /-- at a character that starts no lexeme -/
  | unexpected (c : Char) (offset : Nat)
  /-- at a quote that is not closed, and then at the end of the text -/
  | unclosed (fault : Fault) (isOpen : fault = .openString ∨ fault = .openIdentifier)
    (offset : Nat) (place : Position)

namespace Ending

/-- The answers from here on. -/
def answers : Ending → Stream' (Except LexicalError Token)
  | finished place => Stream'.const (.ok (.endAt place))
  | unexpected c offset => Stream'.const (.error ⟨.unexpected c, offset⟩)
  | unclosed fault _ offset place =>
    Stream'.cons (.error ⟨fault, offset⟩) (Stream'.const (.ok (.endAt place)))

/-- Where the end of the text is reported, if it is. -/
def place? : Ending → Option Position
  | finished place => some place
  | unexpected _ _ => none
  | unclosed _ _ _ place => some place

/-- The tokens of a text with some words ahead of this. -/
def tokens (words : List Token) : Ending → Except LexicalError (List Token)
  | finished place => .ok (words ++ [.endAt place])
  | unexpected c offset => .error ⟨.unexpected c, offset⟩
  | unclosed fault _ offset _ => .error ⟨fault, offset⟩

theorem tokens_cons (t : Token) (words : List Token) (ending : Ending) :
    ending.tokens (t :: words) = (ending.tokens words).map (t :: ·) := by
  cases ending <;> rfl

/-- No word is the first answer at an ending. -/
theorem kind_of_head_answers {ending : Ending} {t : Token}
    (h : ending.answers.head = .ok t) : t.kind = .endOfInput := by
  cases ending <;> cases h
  rfl

theorem answers_injective : Function.Injective answers := by
  intro ending ending' h
  have hfirst := congrArg Stream'.head h
  have hsecond := congrArg (fun s => s.tail.head) h
  cases ending <;> cases ending' <;> cases hfirst
  case finished => rfl
  case unexpected => rfl
  case unclosed.unclosed =>
    cases hsecond
    rfl
  case unexpected.unclosed hopen => simp at hopen
  case unclosed.unexpected hopen => simp at hopen

end Ending

/-- Some words, and how the answers end behind them. -/
structure Course where
  /-- the tokens ahead of the ending -/
  words : List Token
  /-- none of them is the end of the text -/
  noEnd : ∀ t ∈ words, t.kind ≠ .endOfInput
  /-- the ending -/
  ending : Ending

namespace Course

/-- The words, and what is answered behind them. -/
def answers (course : Course) : Stream' (Except LexicalError Token) :=
  course.words.map .ok ++ₛ course.ending.answers

/-- The answers tell where the words end and how they do. -/
theorem answers_injective : Function.Injective answers := by
  rintro ⟨words, hwords, ending⟩ ⟨words', hwords', ending'⟩ h
  simp only [answers] at h
  induction words generalizing words' with
  | nil =>
    cases words' with
    | nil =>
      obtain rfl := Ending.answers_injective h
      rfl
    | cons t ts =>
      exact absurd (Ending.kind_of_head_answers (congrArg Stream'.head h))
        (hwords' t List.mem_cons_self)
  | cons t ts ih =>
    cases words' with
    | nil =>
      exact absurd (Ending.kind_of_head_answers (congrArg Stream'.head h.symm))
        (hwords t List.mem_cons_self)
    | cons u us =>
      obtain ⟨hhead, htail⟩ := Stream'.cons_injective2 h
      obtain rfl := Except.ok.inj hhead
      have heq := ih (fun t ht => hwords t (List.mem_cons_of_mem _ ht))
        us (fun t ht => hwords' t (List.mem_cons_of_mem _ ht)) htail
      cases heq
      rfl

/-- A course with one more word ahead. -/
def cons (t : Token) (ht : t.kind ≠ .endOfInput) (course : Course) : Course :=
  ⟨t :: course.words, List.forall_mem_cons.mpr ⟨ht, course.noEnd⟩, course.ending⟩

end Course

/-! ## The course of a text -/

/-- How a lexer of a text goes on when it has something left of the text. -/
structure GoesOn (text : List Char) (l : Lexer) (course : Course) : Prop where
  /-- the answers are those of the course -/
  answers : l.answers = course.answers
  /-- every word is paid for with a character -/
  length_words_le : course.words.length ≤ l.rest.length
  /-- the end is reported behind all bytes of the text -/
  offset_end : ∀ place ∈ course.ending.place?, place.offset = byteLength text
  /-- the tokens, or the error, are those of the course -/
  tokens : l.tokens = course.ending.tokens course.words

/-- A course from an ending on, without any words. -/
theorem exists_goesOn_of_ending {text : List Char} {l : Lexer} (ending : Ending)
    (hanswers : l.answers = ending.answers)
    (hoffset : ∀ place ∈ ending.place?, place.offset = byteLength text)
    (htokens : l.tokens = ending.tokens []) :
    ∃ course, GoesOn text l course :=
  ⟨⟨[], by simp, ending⟩, hanswers, Nat.zero_le _, hoffset, htokens⟩

/-- The end is found where nothing is left, and found again. -/
theorem exists_goesOn_end (consumed : List Char) :
    ∃ course, GoesOn consumed (between consumed []) course := by
  refine exists_goesOn_of_ending (.finished (.endOf consumed)) (answers_between_end consumed) ?_
    (tokens_between_end consumed)
  rintro place ⟨⟩
  exact Position.offset_endOf consumed

/-- An unexpected character is found again, since it stays in front; an open quote is not, since
nothing is left behind it. -/
theorem exists_goesOn_fault {c : Char} (hc : isBlank c = false) {cs : List Char} {fault : Fault}
    (hr : recognise (c :: cs) = .error fault) (consumed : List Char) :
    ∃ course, GoesOn (consumed ++ c :: cs) (between consumed (c :: cs)) course := by
  have unclosed (hfault : fault = .openString ∨ fault = .openIdentifier) :
      ∃ course, GoesOn (consumed ++ c :: cs) (between consumed (c :: cs)) course := by
    have hnext := next_between_open hc hfault hr consumed
    refine exists_goesOn_of_ending
      (.unclosed fault hfault (byteLength consumed) (.endOf (consumed ++ c :: cs))) ?_ ?_
      (tokens_of_error hnext)
    · rw [answers_of_next hnext, answers_between_end]
      rfl
    · rintro place ⟨⟩
      exact Position.offset_endOf _
  cases fault with
  | unexpected d =>
    have hnext := next_between_unexpected hc hr consumed
    refine exists_goesOn_of_ending (.unexpected d (byteLength consumed)) (answers_of_fixed hnext) ?_
      (tokens_of_error hnext)
    rintro place ⟨⟩
  | openString => exact unclosed (.inl rfl)
  | openIdentifier => exact unclosed (.inr rfl)

/-- A lexer goes on as it does behind the blanks in front. -/
theorem GoesOn.of_blanks {text gap : List Char} (hgap : AreBlank gap) {consumed rest : List Char}
    {course : Course} (h : GoesOn text (between (consumed ++ gap) rest) course) :
    GoesOn text (between consumed (gap ++ rest)) course where
  answers := (answers_between_blanks hgap consumed rest).trans h.answers
  length_words_le := by
    have hle := h.length_words_le
    simp only [rest_between, List.length_append] at hle ⊢
    omega
  offset_end := h.offset_end
  tokens := (tokens_between_blanks hgap consumed rest).trans h.tokens

/-- A lexeme in front is one more word. -/
theorem GoesOn.of_lexeme {text front rest : List Char} {k : TokenKind} (hfront : IsLexeme front k)
    (hr : recognise (front ++ rest) = .ok (k, front.length)) {consumed : List Char}
    {course : Course} (h : GoesOn text (between (consumed ++ front) rest) course) :
    GoesOn text (between consumed (front ++ rest))
      (course.cons ⟨k, String.ofList front, .behind consumed⟩
        (ne_endOfInput_of_isLexeme hfront)) where
  answers := by
    rw [answers_of_next (next_between_lexeme hfront hr consumed), h.answers]
    rfl
  length_words_le := by
    have hle := h.length_words_le
    obtain ⟨c, cs, rfl, -⟩ := head_isLexeme hfront
    simp only [Course.cons, rest_between, List.length_append, List.length_cons] at hle ⊢
    omega
  offset_end := h.offset_end
  tokens := by
    rw [tokens_between_lexeme hfront hr, h.tokens]
    exact (Ending.tokens_cons _ _ _).symm

/-- However a text is divided, the lexer there goes some course. -/
theorem exists_goesOn (consumed rest : List Char) :
    ∃ course, GoesOn (consumed ++ rest) (between consumed rest) course := by
  induction consumed, rest using lexeme_induction with
  | nothing consumed gap hgap =>
    obtain ⟨course, hcourse⟩ := exists_goesOn_end (consumed ++ gap)
    have hblanks := hcourse.of_blanks hgap
    rw [List.append_nil] at hblanks
    exact ⟨course, hblanks⟩
  | fault consumed gap c cs hgap hc hr =>
    obtain ⟨course, hcourse⟩ := exists_goesOn_fault hc hr (consumed ++ gap)
    rw [← List.append_assoc]
    exact ⟨course, hcourse.of_blanks hgap⟩
  | lexeme consumed gap front rest k hgap hfront hr ih =>
    obtain ⟨course, hcourse⟩ := ih
    rw [← List.append_assoc, ← List.append_assoc]
    exact ⟨_, (hcourse.of_lexeme hfront hr).of_blanks hgap⟩

/-- **The answers of a lexer settle**: asked again and again, the lexer of a text answers with
words, no more than the text has characters, and then with the end of the text forever, with an
unexpected character forever, or with an open quote and then with the end of the text forever. It
goes one such course only, and the tokens of the text, or the error of the text, are read off it. -/
theorem answers_settle (text : String) :
    ∃ course : Course,
      (∀ other : Course, (start text.toList).answers = other.answers ↔ other = course) ∧
      course.words.length ≤ text.toList.length ∧
      (∀ place ∈ course.ending.place?, place.offset = byteLength text.toList) ∧
      tokenize text = course.ending.tokens course.words := by
  obtain ⟨course, hcourse⟩ := exists_goesOn [] text.toList
  refine ⟨course, fun other => ⟨fun h => ?_, fun h => ?_⟩, hcourse.length_words_le,
    hcourse.offset_end, hcourse.tokens⟩
  · exact Course.answers_injective (h.symm.trans hcourse.answers)
  · rw [h]
    exact hcourse.answers

/-- An open quote is found once, and an unexpected character again and again. -/
example :
    (start "é".toList).answers.take 4 = List.replicate 4 (.error ⟨.unexpected 'é', 0⟩) ∧
    (start "'é".toList).answers.take 3 =
      [.error ⟨.openString, 0⟩, .ok (.endAt ⟨3, 1, 3⟩), .ok (.endAt ⟨3, 1, 3⟩)] := by
  decide +kernel

end TableSchema.Ddl
