import Mathlib.Data.List.DropRight
import Mathlib.Data.List.Infix
import Mathlib.Logic.Basic
import TableSchema.Schema.IdTemplate

/-!
# What templates stand for

A template that can be expanded has a layout: text with placeholders in it, each of which holds a
known field between blanks. The texts are told from the placeholders by the braces alone, so a
layout says what the template expands to whatever the name is, and what is put in is never looked
at. A template without a layout has a fault behind the part of it that has one: a placeholder with
another field, or one that is not closed.
-/

namespace TableSchema.Schema.IdTemplate

open Text

/-! ## Texts up to a pair -/

/-- Text that goes up to a pair of marks: no pair is in it, and none starts with its last
character. -/
structure UpToPair (mark : Char) (cs : List Char) : Prop where
  no_pair : ¬ [mark, mark] <:+: cs
  no_mark : cs.getLast? ≠ some mark

theorem upToPair_nil (mark : Char) : UpToPair mark [] := ⟨by simp, by simp⟩

theorem upToPair_of_not_mem {mark : Char} {cs : List Char} (h : mark ∉ cs) : UpToPair mark cs where
  no_pair hpair := h (hpair.subset List.mem_cons_self)
  no_mark hlast := h (List.mem_of_getLast? hlast)

theorem not_pair_singleton (mark a : Char) : ¬ [mark, mark] <:+: [a] := by
  simp [List.infix_cons_iff]

theorem pair_cons_cons_iff {mark a b : Char} {cs : List Char} :
    [mark, mark] <:+: a :: b :: cs ↔ a = mark ∧ b = mark ∨ [mark, mark] <:+: b :: cs := by
  rw [List.infix_cons_iff]
  simp [eq_comm]

/-- What comes first may only be a mark if what comes next is none. -/
theorem upToPair_cons_iff {mark a : Char} {cs : List Char} :
    UpToPair mark (a :: cs) ↔ UpToPair mark cs ∧ ¬ (a = mark ∧ cs.headD mark = mark) := by
  cases cs with
  | nil =>
    refine ⟨fun h => ⟨upToPair_nil mark, fun ha => h.no_mark (by simp [ha.1])⟩, fun h => ?_⟩
    exact ⟨not_pair_singleton mark a, fun ha => h.2 (by simpa using ha)⟩
  | cons b cs =>
    have hlast : (a :: b :: cs).getLast? = (b :: cs).getLast? := by simp [List.getLast?_cons]
    refine ⟨fun h => ⟨⟨fun hb => ?_, hlast ▸ h.no_mark⟩, fun hab => ?_⟩,
      fun h => ⟨fun hab => ?_, hlast ▸ h.1.no_mark⟩⟩
    · exact h.no_pair (pair_cons_cons_iff.mpr (.inr hb))
    · exact h.no_pair (pair_cons_cons_iff.mpr (.inl hab))
    · rcases pair_cons_cons_iff.mp hab with hab | hb
      · exact h.2 hab
      · exact h.1.no_pair hb

/-- In front of a pair stands the head of what is before it, or else the mark itself. -/
theorem headD_eq_of_cons_eq {mark b : Char} {cs before after : List Char}
    (h : b :: cs = before ++ mark :: mark :: after) : before.headD mark = b := by
  cases before <;> exact (List.cons.inj h).1.symm

/-- Where no pair is found there is none. -/
theorem splitAtPair_eq_none_iff {mark : Char} {cs : List Char} :
    splitAtPair mark cs = none ↔ ¬ [mark, mark] <:+: cs := by
  fun_induction splitAtPair mark cs with
  | case1 a b cs hab =>
    obtain ⟨rfl, rfl⟩ : a = mark ∧ b = mark := by simpa using hab
    simp [pair_cons_cons_iff]
  | case2 a b cs hab ih =>
    have hne : ¬ (a = mark ∧ b = mark) := by simpa using hab
    rw [Option.map_eq_none_iff, ih, pair_cons_cons_iff, or_iff_right hne]
  | case3 cs hshort =>
    rcases cs with _ | ⟨a, _ | ⟨b, cs⟩⟩
    · simp
    · simp [not_pair_singleton]
    · exact absurd rfl (hshort a b cs)

/-- The pair that is found is the leftmost. -/
theorem splitAtPair_eq_some_iff {mark : Char} {cs before after : List Char} :
    splitAtPair mark cs = some (before, after) ↔
      cs = before ++ mark :: mark :: after ∧ UpToPair mark before := by
  fun_induction splitAtPair mark cs generalizing before with
  | case1 a b cs hab =>
    obtain ⟨rfl, rfl⟩ : a = mark ∧ b = mark := by simpa using hab
    refine ⟨?_, ?_⟩
    · rintro ⟨⟩
      exact ⟨rfl, upToPair_nil _⟩
    · rintro ⟨hsplit, hbefore⟩
      rcases before with _ | ⟨c, rest⟩
      · cases hsplit
        rfl
      · obtain ⟨rfl, hrest⟩ := List.cons.inj hsplit
        exact absurd ⟨rfl, headD_eq_of_cons_eq hrest⟩ (upToPair_cons_iff.mp hbefore).2
  | case2 a b cs hab ih =>
    have hne : ¬ (a = mark ∧ b = mark) := by simpa using hab
    rw [Option.map_eq_some_iff]
    refine ⟨?_, ?_⟩
    · rintro ⟨⟨rest, after'⟩, hrest, hcons⟩
      obtain ⟨rfl, rfl⟩ := Prod.mk.inj hcons
      obtain ⟨hsplit, hup⟩ := ih.mp hrest
      refine ⟨by rw [hsplit]; rfl, upToPair_cons_iff.mpr ⟨hup, ?_⟩⟩
      rwa [headD_eq_of_cons_eq hsplit]
    · rintro ⟨hsplit, hbefore⟩
      rcases before with _ | ⟨c, rest⟩
      · cases hsplit
        exact absurd ⟨rfl, rfl⟩ hne
      · obtain ⟨rfl, hrest⟩ := List.cons.inj hsplit
        exact ⟨(rest, after), ih.mpr ⟨hrest, (upToPair_cons_iff.mp hbefore).1⟩, rfl⟩
  | case3 cs hshort =>
    refine ⟨fun h => (Option.some_ne_none _ h.symm).elim, ?_⟩
    rintro ⟨hsplit, -⟩
    rcases before with _ | ⟨a, _ | ⟨b, before⟩⟩
    all_goals exact (hshort _ _ _ hsplit).elim

/-! ## Fields between blanks -/

/-- A text is a field with blanks around it, and neither end of the field is a blank. -/
structure TrimsTo (cs field : List Char) : Prop where
  split : ∃ front back, cs = front ++ field ++ back ∧ (∀ c ∈ front, isBlank c) ∧
    ∀ c ∈ back, isBlank c
  head : ∀ c ∈ field.head?, isBlank c = false
  last : ∀ c ∈ field.getLast?, isBlank c = false

/-- Blanks are dropped up to what does not start with one. -/
theorem dropWhile_blanks_append {front cs : List Char} (hfront : ∀ c ∈ front, isBlank c)
    (hcs : ∀ c ∈ cs.head?, isBlank c = false) : (front ++ cs).dropWhile isBlank = cs := by
  rw [List.dropWhile_append_of_pos hfront]
  cases cs with
  | nil => rfl
  | cons c cs => simp [hcs c rfl]

theorem TrimsTo.trim_eq {cs field : List Char} (h : TrimsTo cs field) : trim cs = field := by
  obtain ⟨⟨front, back, rfl, hfront, hback⟩, hhead, hlast⟩ := h
  have hend : ((field ++ back).reverse.dropWhile isBlank).reverse = field := by
    rw [List.reverse_append, dropWhile_blanks_append (by simpa using hback)
      (by simpa [List.head?_reverse] using hlast), List.reverse_reverse]
  cases field with
  | nil =>
    have hblank : (front ++ back).dropWhile isBlank = [] := by
      simpa [List.dropWhile_eq_nil_iff, or_imp, forall_and] using ⟨hfront, hback⟩
    rw [trim, List.append_nil, hblank]
    rfl
  | cons c field =>
    rw [trim, List.append_assoc, dropWhile_blanks_append hfront (by simpa using hhead), hend]

/-- What trimming leaves is a field with blanks around it. -/
theorem trimsTo_trim (cs : List Char) : TrimsTo cs (trim cs) := by
  have htrim : trim cs = (cs.dropWhile isBlank).rdropWhile isBlank := rfl
  refine ⟨⟨cs.takeWhile isBlank, (cs.dropWhile isBlank).rtakeWhile isBlank, ?_, ?_, ?_⟩, ?_, ?_⟩
  · rw [htrim, List.append_assoc, List.rdropWhile_append_rtakeWhile,
      List.takeWhile_append_dropWhile]
  · exact fun c hc => List.mem_takeWhile_imp hc
  · exact fun c hc => List.mem_rtakeWhile_imp hc
  · -- the head of the field is the head of what is left when the blanks in front are gone
    intro c hc
    obtain ⟨rest, hrest⟩ := List.rdropWhile_prefix isBlank (cs.dropWhile isBlank)
    have hhead : (cs.dropWhile isBlank).head? = some c := by
      rw [← hrest, List.head?_append, ← htrim, hc]
      rfl
    have hnot := List.head?_dropWhile_not isBlank cs
    rw [hhead] at hnot
    simpa using hnot
  · intro c hc
    obtain ⟨hne, rfl⟩ := List.mem_getLast?_eq_getLast hc
    exact Bool.eq_false_iff.mpr (List.rdropWhile_last_not isBlank _ hne)

/-! ## Layouts -/

/-- The pair that opens a placeholder. -/
def opening : List Char := ['\x7b', '\x7b']

/-- The pair that closes a placeholder. -/
def closing : List Char := ['\x7d', '\x7d']

/-- A field that can be expanded. -/
inductive KnownField where
  | name
  | format
  deriving DecidableEq, Repr

namespace KnownField

/-- How a field is written. -/
def spelling : KnownField → List Char
  | name => ".Name".toList
  | format => ".Format".toList

/-- What a field stands for in the identifier of a document. -/
def value (documentName : String) (outputFormat : Format) : KnownField → List Char
  | name => documentName.toList
  | format => outputFormat.text.toList

/-- The part of a template that a field is. -/
def piece : KnownField → Piece
  | name => .name
  | format => .format

end KnownField

/-- Literal text and the placeholder behind it. -/
structure Segment where
  /-- the text in front of the placeholder -/
  literal : List Char
  /-- the blanks before the field -/
  front : List Char
  /-- the field -/
  field : KnownField
  /-- the blanks after the field -/
  back : List Char
  upToPair_literal : UpToPair '\x7b' literal
  blank_front : ∀ c ∈ front, isBlank c
  blank_back : ∀ c ∈ back, isBlank c

namespace Segment

/-- What stands between the braces. -/
def body (s : Segment) : List Char := s.front ++ s.field.spelling ++ s.back

/-- A segment as it is written. -/
def text (s : Segment) : List Char := s.literal ++ opening ++ s.body ++ closing

/-- A segment with the value of its field in the place of the placeholder. -/
def expand (documentName : String) (outputFormat : Format) (s : Segment) : List Char :=
  s.literal ++ s.field.value documentName outputFormat

theorem trimsTo_body (s : Segment) : TrimsTo s.body s.field.spelling where
  split := ⟨s.front, s.back, rfl, s.blank_front, s.blank_back⟩
  head := by
    have hhead : s.field.spelling.head? = some '.' := by cases s.field <;> rfl
    simp [hhead, isBlank]
  last := by
    have hlast : s.field.spelling.getLast? = some 'e' ∨ s.field.spelling.getLast? = some 't' := by
      cases s.field
      · exact .inl rfl
      · exact .inr rfl
    rcases hlast with hlast | hlast <;> simp [hlast, isBlank]

/-- No brace is in a field or among blanks. -/
theorem upToPair_body (s : Segment) : UpToPair '\x7d' s.body := by
  have hblank : ∀ cs : List Char, (∀ c ∈ cs, isBlank c) → '\x7d' ∉ cs :=
    fun cs hcs hmem => absurd (hcs _ hmem) (by decide)
  have hfield : '\x7d' ∉ s.field.spelling := by cases s.field <;> decide
  refine upToPair_of_not_mem ?_
  simp [body, hblank _ s.blank_front, hfield, hblank _ s.blank_back]

end Segment

/-- Segments as they are written, one after the other. -/
def textOf (segments : List Segment) : List Char := segments.flatMap Segment.text

/-- A template that can be expanded: segments, and then text in which no placeholder starts. -/
structure Layout where
  /-- the texts with the placeholders behind them -/
  segments : List Segment
  /-- the text behind the last placeholder -/
  ending : List Char
  no_opening : ¬ opening <:+: ending

/-- A template as it is written. -/
def Layout.text (l : Layout) : List Char := textOf l.segments ++ l.ending

/-- A template with the values of the fields in the places of the placeholders. -/
def Layout.expand (documentName : String) (outputFormat : Format) (l : Layout) : List Char :=
  l.segments.flatMap (Segment.expand documentName outputFormat) ++ l.ending

/-- What is wrong with a template, behind the segments that it starts with: a placeholder has a
field that is not known, or it is not closed. -/
inductive HasFault (template : String) : TemplateError → Prop
  | unknownField (segments : List Segment) (literal body field rest : List Char)
      (split : template.toList =
        textOf segments ++ (literal ++ opening ++ (body ++ closing ++ rest)))
      (upToPair_literal : UpToPair '\x7b' literal) (upToPair_body : UpToPair '\x7d' body)
      (trimsTo_body : TrimsTo body field) (unknown : ∀ known : KnownField, field ≠ known.spelling) :
      HasFault template (.unknownField (String.ofList field) template)
  | unterminated (segments : List Segment) (literal rest : List Char)
      (split : template.toList = textOf segments ++ (literal ++ opening ++ rest))
      (upToPair_literal : UpToPair '\x7b' literal) (not_closed : ¬ closing <:+: rest) :
      HasFault template (.unterminated (byteLength (textOf segments ++ literal)) template)

/-! ## Parts -/

theorem placeholder_of_known {body : List Char} {known : KnownField}
    (h : TrimsTo body known.spelling) : placeholder body = .ok known.piece := by
  rw [placeholder, h.trim_eq]
  cases known <;> rfl

theorem placeholder_of_unknown {body field : List Char} (h : TrimsTo body field)
    (hunknown : ∀ known : KnownField, field ≠ known.spelling) :
    placeholder body = .error (.unknownField field) := by
  rw [placeholder, h.trim_eq]
  exact (if_neg (hunknown .name)).trans (if_neg (hunknown .format))

section Pieces

variable {cs literal body rest : List Char}

theorem pieces_of_text (offset : Nat) (h : ¬ opening <:+: cs) :
    pieces offset cs = .ok [.literal cs] := by
  have hopen := splitAtPair_eq_none_iff.mpr h
  rw [pieces]
  split
  next => rfl
  next _ _ hsome => cases hopen.symm.trans hsome

theorem pieces_of_unterminated (offset : Nat) (hliteral : UpToPair '\x7b' literal)
    (hrest : ¬ closing <:+: rest) :
    pieces offset (literal ++ opening ++ rest) =
      .error (.unterminated (offset + byteLength literal)) := by
  have hopen : splitAtPair '\x7b' (literal ++ opening ++ rest) = some (literal, rest) :=
    splitAtPair_eq_some_iff.mpr ⟨by simp [opening], hliteral⟩
  have hclose := splitAtPair_eq_none_iff.mpr hrest
  rw [pieces]
  split
  next hnone => cases hopen.symm.trans hnone
  next _ _ hsome =>
    cases hopen.symm.trans hsome
    split
    next => rfl
    next _ _ hsome => cases hclose.symm.trans hsome

theorem pieces_of_placeholder (offset : Nat) (hliteral : UpToPair '\x7b' literal)
    (hbody : UpToPair '\x7d' body) :
    pieces offset (literal ++ opening ++ (body ++ closing ++ rest)) =
      (placeholder body).bind fun field =>
        (pieces (offset + byteLength (literal ++ opening ++ body ++ closing)) rest).map
          fun more => .literal literal :: field :: more := by
  have hopen : splitAtPair '\x7b' (literal ++ opening ++ (body ++ closing ++ rest)) =
      some (literal, body ++ closing ++ rest) :=
    splitAtPair_eq_some_iff.mpr ⟨by simp [opening], hliteral⟩
  have hclose : splitAtPair '\x7d' (body ++ closing ++ rest) = some (body, rest) :=
    splitAtPair_eq_some_iff.mpr ⟨by simp [closing], hbody⟩
  have hlength : byteLength (literal ++ opening ++ body ++ closing) =
      byteLength literal + byteLength body + 4 := by
    have hpairs : byteLength opening = 2 ∧ byteLength closing = 2 := by decide
    simp only [byteLength_append, hpairs]
    omega
  rw [pieces, hlength]
  split
  next hnone => cases hopen.symm.trans hnone
  next _ _ hsome =>
    cases hopen.symm.trans hsome
    split
    next hnone => cases hclose.symm.trans hnone
    next _ _ hsome =>
      cases hclose.symm.trans hsome
      rw [← Nat.add_assoc, ← Nat.add_assoc]
      cases placeholder body with
      | error fault => rfl
      | ok field =>
        cases pieces (offset + byteLength literal + byteLength body + 4) rest <;> rfl

end Pieces

/-- The parts of a segment. -/
def Segment.pieces (s : Segment) : List Piece := [.literal s.literal, s.field.piece]

theorem Segment.flatMap_expand_pieces (s : Segment) (name : String) (format : Format) :
    s.pieces.flatMap (Piece.expand name format) = s.expand name format := by
  cases hfield : s.field <;> simp [pieces, expand, hfield, KnownField.piece, KnownField.value,
    Piece.expand]

theorem pieces_segment (s : Segment) (offset : Nat) (rest : List Char) :
    pieces offset (s.text ++ rest) =
      (pieces (offset + byteLength s.text) rest).map fun more => s.pieces ++ more := by
  have hsplit : s.text ++ rest = s.literal ++ opening ++ (s.body ++ closing ++ rest) := by
    simp [Segment.text]
  rw [hsplit, pieces_of_placeholder offset s.upToPair_literal s.upToPair_body,
    placeholder_of_known s.trimsTo_body]
  rfl

/-- What stands behind segments is read as if it stood alone, but for the offset. -/
theorem pieces_textOf (segments : List Segment) (offset : Nat) (rest : List Char) :
    pieces offset (textOf segments ++ rest) =
      (pieces (offset + byteLength (textOf segments)) rest).map fun more =>
        segments.flatMap Segment.pieces ++ more := by
  induction segments generalizing offset with
  | nil =>
    cases hrest : pieces offset rest <;> simp [textOf, hrest, Except.map]
  | cons s segments ih =>
    have hsplit : textOf (s :: segments) ++ rest = s.text ++ (textOf segments ++ rest) := by
      simp [textOf]
    have hlength : byteLength (textOf (s :: segments)) =
        byteLength s.text + byteLength (textOf segments) := by
      simp [textOf]
    rw [hsplit, pieces_segment, ih, hlength, Nat.add_assoc]
    cases pieces (offset + (byteLength s.text + byteLength (textOf segments))) rest <;>
      simp [Except.map]

/-! ## Templates -/

/-- A template with a layout is expanded as the layout says. -/
theorem expandTemplate_layout (l : Layout) (name : String) (format : Format) :
    expandTemplate (String.ofList l.text) name format =
      .ok (String.ofList (l.expand name format)) := by
  have hpieces : pieces 0 l.text =
      .ok (l.segments.flatMap Segment.pieces ++ [.literal l.ending]) := by
    rw [Layout.text, pieces_textOf, pieces_of_text _ l.no_opening]
    rfl
  have hexpand : (l.segments.flatMap Segment.pieces).flatMap (Piece.expand name format) =
      l.segments.flatMap (Segment.expand name format) := by
    rw [List.flatMap_assoc]
    exact congrArg (l.segments.flatMap ·) (funext fun s => s.flatMap_expand_pieces name format)
  rw [expandTemplate, String.toList_ofList, hpieces]
  simp [hexpand, Layout.expand, Piece.expand]

/-- A template with a fault fails for it, whatever the name. -/
theorem HasFault.expandTemplate_eq {template : String} {e : TemplateError}
    (h : HasFault template e) (name : String) (format : Format) :
    expandTemplate template name format = .error e := by
  cases h with
  | unknownField segments literal body field rest split hliteral hbody htrim hunknown =>
    rw [expandTemplate, split, pieces_textOf, pieces_of_placeholder _ hliteral hbody,
      placeholder_of_unknown htrim hunknown]
    rfl
  | unterminated segments literal rest split hliteral hrest =>
    rw [expandTemplate, split, pieces_textOf, pieces_of_unterminated _ hliteral hrest,
      byteLength_append, Nat.zero_add]
    rfl

/-- Behind the segments that a template starts with, it goes on with one more, or it ends in text
or in a fault. -/
theorem exists_layout_or_fault_behind (template : String) (segments : List Segment)
    (cs : List Char) (h : template.toList = textOf segments ++ cs) :
    (∃ l : Layout, template.toList = l.text) ∨ ∃ e, HasFault template e := by
  -- on the length of what is behind the segments
  induction hn : cs.length using Nat.strong_induction_on generalizing segments cs with
  | _ n ih =>
    cases hopen : splitAtPair '\x7b' cs with
    | none => exact .inl ⟨⟨segments, cs, splitAtPair_eq_none_iff.mp hopen⟩, h⟩
    | some split =>
      obtain ⟨literal, inside⟩ := split
      obtain ⟨rfl, hliteral⟩ := splitAtPair_eq_some_iff.mp hopen
      cases hclose : splitAtPair '\x7d' inside with
      | none =>
        exact .inr ⟨_, .unterminated segments literal inside (by simp [h, opening]) hliteral
          (splitAtPair_eq_none_iff.mp hclose)⟩
      | some split =>
        obtain ⟨body, rest⟩ := split
        obtain ⟨rfl, hbody⟩ := splitAtPair_eq_some_iff.mp hclose
        by_cases hknown : ∃ known : KnownField, trim body = known.spelling
        · obtain ⟨known, htrim⟩ := hknown
          obtain ⟨front, back, hsplit, hfront, hback⟩ := (trimsTo_trim body).split
          let s : Segment := ⟨literal, front, known, back, hliteral, hfront, hback⟩
          have hbody : s.body = body := by rw [hsplit, htrim]; rfl
          refine ih rest.length ?_ (segments ++ [s]) rest ?_ rfl
          · simp only [← hn, List.length_append, List.length_cons]
            omega
          · simp [h, textOf, Segment.text, hbody, s, opening, closing]
        · exact .inr ⟨_, .unknownField segments literal body (trim body) rest
            (by simp [h, opening, closing]) hliteral hbody (trimsTo_trim body)
            fun known hfield => hknown ⟨known, hfield⟩⟩

/-- **The language of templates.** Either a template has a layout, and is expanded to the texts of
the layout with the values of its fields between them, whatever the name is and whatever it holds;
or it has a fault, which is a placeholder with an unknown field or one that is not closed behind
placeholders with known fields, and fails for it whatever the name. Every layout is that of a
template. -/
theorem template_language (template : String) (format : Format) :
    Xor
      (∃ l : Layout, template.toList = l.text ∧ ∀ name,
        expandTemplate template name format = .ok (String.ofList (l.expand name format)))
      (∃ e, HasFault template e ∧ ∀ name, expandTemplate template name format = .error e) ∧
    ∀ (l : Layout) (name : String), expandTemplate (String.ofList l.text) name format =
      .ok (String.ofList (l.expand name format)) := by
  refine ⟨?_, fun l name => expandTemplate_layout l name format⟩
  rcases exists_layout_or_fault_behind template [] template.toList rfl with ⟨l, hl⟩ | ⟨e, he⟩
  · have hexpand : ∀ name, expandTemplate template name format =
        .ok (String.ofList (l.expand name format)) := by
      intro name
      rw [← expandTemplate_layout, ← hl, String.ofList_toList]
    refine .inl ⟨⟨l, hl, hexpand⟩, ?_⟩
    rintro ⟨e, -, he⟩
    cases (hexpand "").symm.trans (he "")
  · refine .inr ⟨⟨e, he, fun name => he.expandTemplate_eq name format⟩, ?_⟩
    rintro ⟨l, -, hl⟩
    cases (he.expandTemplate_eq "" format).symm.trans (hl "")

/-- Of three opening braces the first two count, of three closing braces too, and a placeholder in
the name is left as it is. -/
example :
    expandTemplate "\x7b\x7b\x7b .Name \x7d\x7d" "t" .json =
        .error (.unknownField "\x7b .Name" "\x7b\x7b\x7b .Name \x7d\x7d") ∧
      expandTemplate "\x7b\x7b\t.Name\x7d\x7d\x7d/\x7b" "\x7b\x7b.Format\x7d\x7d" .json =
        .ok "\x7b\x7b.Format\x7d\x7d\x7d/\x7b" := by
  decide +kernel

end TableSchema.Schema.IdTemplate
