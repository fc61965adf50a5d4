import Mathlib.Data.Option.Basic
import TableSchema.Document.Json.Reading
import TableSchema.Document.Json.Text

/-!
# JSON is read back

The reader takes a text apart as the writer puts it together, one step for each mark: the text of
every document is read as the value that the document stands for, whatever follows it. Nothing has
to be known about what follows, since documents hold no numbers, which alone could go on.

A string comes back because each character does, for itself: its escape is read as one piece, and
the piece is joined as that character whatever pieces come after it.
-/

namespace TableSchema.Document.Json

/-! ## Characters -/

/-- A piece of a string that is joined as one character, whatever follows it. -/
def StandsFor (p : Piece) (c : Char) : Prop := ∀ ps, join? (p :: ps) = (join? ps).map (c :: ·)

/-- A character that stands for itself is joined with nothing. -/
theorem standsFor_char (c : Char) : StandsFor (.char c) c := fun ps => by rw [join?]

/-- A unit below the surrogates does not wait for a second one. -/
theorem standsFor_unit {n : Nat} (h : n < 0xD800) : StandsFor (.unit n) (Char.ofNat n) := by
  have hleading : isLeading n = false := by simp [isLeading]; omega
  have htrailing : isTrailing n = false := by simp [isTrailing]; omega
  intro ps
  rcases ps with _ | ⟨_ | m, ps⟩ <;> simp [join?, hleading, htrailing]

/-- Whether the escape of a character is read as one piece that stands for the character. -/
def ReadsBack (c : Char) : Prop :=
  ∃ p, StandsFor p c ∧
    ∀ rest, readPieces (escape c ++ rest) = (readPieces rest).map fun r => (p :: r.1, r.2)

/-- A character with a short escape is read back. -/
theorem readsBack_of_short {c e : Char} (hescape : escape c = ['\\', e]) (hunit : e ≠ 'u')
    (hshort : shortEscape? e = some c) : ReadsBack c := by
  refine ⟨.char c, standsFor_char c, fun rest => ?_⟩
  rw [hescape, List.cons_append, List.cons_append, List.nil_append, readPieces]
  · rw [hshort]
    cases readPieces rest <;> rfl
  · intro a b c d r h
    exact absurd h hunit

/-- The digits that an escape is written with are read as the numbers that they stand for. -/
theorem hexadecimalDigit?_digitChar :
    ∀ n, n < 16 → Text.hexadecimalDigit? n.digitChar = some n := by decide

/-- The four digits that a control character is written with give its number. -/
theorem unit?_escape {n : Nat} (h : n < 0x20) :
    unit? '0' '0' (n / 16).digitChar (n % 16).digitChar = some n := by
  have hhigh := hexadecimalDigit?_digitChar (n / 16) (by omega)
  have hlow := hexadecimalDigit?_digitChar (n % 16) (by omega)
  have hzero : Text.hexadecimalDigit? '0' = some 0 := by decide
  simp only [unit?, hzero, hhigh, hlow, Option.bind_eq_bind, Option.bind_some, Option.pure_def]
  congr 1
  omega

/-- A character that needs no escape is a piece. -/
theorem readPieces_cons {c : Char} (hquote : c ≠ '"') (hslash : c ≠ '\\')
    (hcontrol : ¬c.toNat < 0x20) (rest : List Char) :
    readPieces (c :: rest) = (readPieces rest).map fun r => (.char c :: r.1, r.2) := by
  rw [readPieces]
  · have hordinary : (decide (c ≠ '\\') && decide (0x20 ≤ c.toNat)) = true := by
      simp [hslash, Nat.le_of_not_lt hcontrol]
    have hguard : (guard ((decide (c ≠ '\\') && decide (0x20 ≤ c.toNat)) = true) : Option Unit) =
        some () := if_pos hordinary
    rw [hguard]
    cases readPieces rest <;> rfl
  all_goals simp_all

/-- Every character is read back, however it is written. -/
theorem readsBack (c : Char) : ReadsBack c := by
  unfold ReadsBack
  fun_cases escape c with
  | case8 c _ _ _ _ _ _ _ hcontrol =>
    -- a control without a short escape is given by its number
    refine ⟨.unit c.toNat, ?_, fun rest => ?_⟩
    · have hunit := standsFor_unit (show c.toNat < 0xD800 by omega)
      rwa [Char.ofNat_toNat] at hunit
    · simp only [List.cons_append, List.nil_append]
      rw [readPieces, unit?_escape hcontrol]
      cases readPieces rest <;> rfl
  | case9 c hquote hslash _ _ _ _ _ hcontrol =>
    exact ⟨.char c, standsFor_char c, readPieces_cons hquote hslash hcontrol⟩
  | _ => exact readsBack_of_short rfl (by decide) rfl

/-! ## Strings -/

/-- The characters of a string are read back from their escapes, up to the closing quote. -/
theorem exists_readPieces (cs rest : List Char) :
    ∃ ps, join? ps = some cs ∧
      readPieces (cs.flatMap escape ++ '"' :: rest) = some (ps, rest) := by
  induction cs with
  | nil => exact ⟨[], rfl, by rw [List.flatMap_nil, List.nil_append, readPieces]⟩
  | cons c cs ih =>
    obtain ⟨ps, hjoin, hread⟩ := ih
    obtain ⟨p, hp, hescape⟩ := readsBack c
    refine ⟨p :: ps, by rw [hp, hjoin, Option.map_some], ?_⟩
    rw [List.flatMap_cons, List.append_assoc, hescape, hread, Option.map_some]

/-- The opening quote is the caller's to take. -/
theorem quote_append (s : String) (rest : List Char) :
    ∃ inside, quote s ++ rest = '"' :: inside ∧ readString inside = some (some s, rest) := by
  obtain ⟨ps, hjoin, hread⟩ := exists_readPieces s.toList rest
  refine ⟨s.toList.flatMap escape ++ '"' :: rest, by simp [quote], ?_⟩
  simp [readString, hread, hjoin]

/-! ## Gaps -/

/-- Blanks alone. -/
def IsGap (cs : List Char) : Prop := ∀ c ∈ cs, isBlank c = true

/-- The line breaks and the indentation of a document are blanks. -/
theorem isGap_newline (depth : Nat) : IsGap (newline depth) := by
  simp [IsGap, newline, List.mem_replicate, isBlank]

theorem isGap_space : IsGap [' '] := by simp [IsGap, isBlank]

/-- Blanks in front are skipped. -/
theorem skipBlanks_append {gap : List Char} (h : IsGap gap) (cs : List Char) :
    skipBlanks (gap ++ cs) = skipBlanks cs :=
  List.dropWhile_append_of_pos h

/-- Nothing is skipped in front of another character. -/
theorem skipBlanks_cons {c : Char} (h : isBlank c = false) (cs : List Char) :
    skipBlanks (c :: cs) = c :: cs := by
  rw [skipBlanks, List.dropWhile_cons_of_neg (by simp [h])]

/-- A quoted text starts with no blank. -/
theorem skipBlanks_quote (s : String) (rest : List Char) :
    skipBlanks (quote s ++ rest) = quote s ++ rest :=
  skipBlanks_cons (by decide) _

/-- Blanks in front of a value do not matter. -/
theorem readValue_append {gap : List Char} (h : IsGap gap) (fuel : Nat) (cs : List Char) :
    readValue fuel (gap ++ cs) = readValue fuel cs := by
  cases fuel with
  | zero => rw [readValue, readValue]
  | succ fuel => rw [readValue, readValue, skipBlanks_append h]

/-! ## One step of the reader -/

section Steps

variable {fuel : Nat} {gap cs after rest : List Char}

/-- A key is read back up to the colon behind it. -/
theorem readKey_quote (key : String) (after : List Char) :
    readKey (quote key ++ ':' :: after) = some (some key, after) := by
  obtain ⟨inside, hquote, hread⟩ := quote_append key (':' :: after)
  rw [readKey, skipBlanks_quote, hquote]
  simp only [hread, Option.bind_eq_bind, Option.bind_some]
  rw [skipBlanks_cons (by decide)]
  rfl

/-- Blanks in front of a key do not matter. -/
theorem readKey_append (hgap : IsGap gap) (cs : List Char) : readKey (gap ++ cs) = readKey cs := by
  rw [readKey, readKey, skipBlanks_append hgap]

/-- A quoted text is read back as a string. -/
theorem readValue_quote (fuel : Nat) (s : String) (rest : List Char) :
    readValue (fuel + 1) (quote s ++ rest) = some (.string (some s), rest) := by
  obtain ⟨inside, hquote, hread⟩ := quote_append s rest
  rw [readValue, skipBlanks_quote, hquote]
  simp only [hread, Option.map_some]

/-- Behind its bracket, a list is read item by item. -/
theorem readValue_bracket (hgap : IsGap gap)
    (hcs : ∃ c cs', cs = c :: cs' ∧ isBlank c = false ∧ c ≠ ']') {item : Value}
    (hitem : readValue fuel cs = some (item, after)) {items : List Value}
    (hitems : readItems fuel after = some (items, rest)) :
    readValue (fuel + 1) ('[' :: (gap ++ cs)) = some (.list (item :: items), rest) := by
  obtain ⟨c, cs', rfl, hc, hmark⟩ := hcs
  rw [readValue, skipBlanks_cons (by decide)]
  simp only [skipBlanks_append hgap, skipBlanks_cons hc]
  simp [hmark, hitem, hitems]

/-- The bracket ends a list, with blanks in front of it. -/
theorem readItems_close (hgap : IsGap gap) (fuel : Nat) (rest : List Char) :
    readItems (fuel + 1) (gap ++ ']' :: rest) = some ([], rest) := by
  rw [readItems, skipBlanks_append hgap, skipBlanks_cons (by decide)]
  rfl

/-- A comma goes on to one more item. -/
theorem readItems_comma {item : Value} (hitem : readValue fuel cs = some (item, after))
    {items : List Value} (hitems : readItems fuel after = some (items, rest)) :
    readItems (fuel + 1) (',' :: cs) = some (item :: items, rest) := by
  rw [readItems, skipBlanks_cons (by decide)]
  simp [hitem, hitems]

section Members

variable {value : Value} {after' : List Char} {members : List (Option String × Value)}
  (hgap : IsGap gap) (key : String) (hvalue : readValue fuel after = some (value, after'))
  (hmembers : readMembers fuel after' = some (members, rest))

include hgap hvalue hmembers

/-- Behind its brace, a map is read member by member. -/
theorem readValue_brace :
    readValue (fuel + 1) ('\x7b' :: (gap ++ (quote key ++ ':' :: after))) =
      some (.map ((some key, value) :: members), rest) := by
  have hkey := readKey_quote key after
  obtain ⟨inside, hquote, -⟩ := quote_append key (':' :: after)
  rw [readValue, skipBlanks_cons (by decide)]
  simp only [skipBlanks_append hgap, skipBlanks_quote]
  rw [hquote] at hkey ⊢
  simp [hkey, hvalue, hmembers]

/-- A comma goes on to one more member. -/
theorem readMembers_comma :
    readMembers (fuel + 1) (',' :: (gap ++ (quote key ++ ':' :: after))) =
      some ((some key, value) :: members, rest) := by
  rw [readMembers, skipBlanks_cons (by decide)]
  simp [readKey_append hgap, readKey_quote, hvalue, hmembers]

end Members

/-- The brace ends a map, with blanks in front of it. -/
theorem readMembers_close (hgap : IsGap gap) (fuel : Nat) (rest : List Char) :
    readMembers (fuel + 1) (gap ++ '\x7d' :: rest) = some ([], rest) := by
  rw [readMembers, skipBlanks_append hgap, skipBlanks_cons (by decide)]
  rfl

end Steps

/-! ## Documents -/

mutual

/-- The value that a document stands for. -/
def Value.ofNode : Node → Value
  | .null => .null
  | .text s => .string (some s)
  | .list items => .list (Value.ofItems items)
  | .map entries => .map (Value.ofEntries entries)

/-- The values that items stand for. -/
def Value.ofItems : List Node → List Value
  | [] => []
  | item :: items => Value.ofNode item :: Value.ofItems items

/-- The members that entries stand for. -/
def Value.ofEntries : List (String × Node) → List (Option String × Value)
  | [] => []
  | (key, value) :: entries => (some key, Value.ofNode value) :: Value.ofEntries entries

end

/-- A document starts with ink, and not with a closing mark. -/
theorem exists_cons_write (depth : Nat) (n : Node) :
    ∃ c cs, write depth n = c :: cs ∧ isBlank c = false ∧ c ≠ ']' := by
  match n with
  | .null => exact ⟨_, _, rfl, by decide, by decide⟩
  | .text s => exact ⟨_, _, rfl, by decide, by decide⟩
  | .list [] => exact ⟨_, _, rfl, by decide, by decide⟩
  | .list (item :: items) => exact ⟨_, _, rfl, by decide, by decide⟩
  | .map [] => exact ⟨_, _, rfl, by decide, by decide⟩
  | .map (entry :: entries) => exact ⟨_, _, rfl, by decide, by decide⟩

mutual

/-- A document is read back whatever follows it. The reader goes down one level for each item and
each entry, and every one of them takes a character or more, so the length of the text is fuel
enough. -/
theorem readValue_write (depth : Nat) (n : Node) (fuel : Nat) (rest : List Char)
    (hfuel : (write depth n).length ≤ fuel) :
    readValue fuel (write depth n ++ rest) = some (Value.ofNode n, rest) := by
  obtain _ | fuel := fuel
  · obtain ⟨c, cs, hwrite, -⟩ := exists_cons_write depth n
    simp [hwrite] at hfuel
  match n with
  | .null => rfl
  | .text s => exact readValue_quote fuel s rest
  | .list [] => rfl
  | .list (item :: items) =>
    simp only [write, List.length_cons, List.length_append, List.length_nil] at hfuel
    have hitem := readValue_write (depth + 1) item fuel
      (writeItems (depth + 1) items ++ (newline depth ++ ']' :: rest)) (by omega)
    have hitems := readItems_writeItems (depth + 1) items fuel depth rest (by omega)
    obtain ⟨c, cs, hwrite, hblank, hmark⟩ := exists_cons_write (depth + 1) item
    have hread := readValue_bracket (isGap_newline (depth + 1))
      ⟨c, _, by rw [hwrite, List.cons_append], hblank, hmark⟩ hitem hitems
    simpa [write, Value.ofNode, Value.ofItems] using hread
  | .map [] => rfl
  | .map ((key, value) :: entries) =>
    simp only [write, List.length_cons, List.length_append, List.length_nil] at hfuel
    have hvalue := readValue_write (depth + 1) value fuel
      (writeEntries (depth + 1) entries ++ (newline depth ++ '\x7d' :: rest)) (by omega)
    have hmembers := readMembers_writeEntries (depth + 1) entries fuel depth rest (by omega)
    have hread := readValue_brace (isGap_newline (depth + 1)) key
      ((readValue_append isGap_space fuel _).trans hvalue) hmembers
    simpa [write, Value.ofNode, Value.ofEntries] using hread

/-- The items of a list are read back up to the closing bracket. -/
theorem readItems_writeItems (depth : Nat) (items : List Node) (fuel outer : Nat)
    (rest : List Char) (hfuel : (writeItems depth items).length + 1 ≤ fuel) :
    readItems fuel (writeItems depth items ++ (newline outer ++ ']' :: rest)) =
      some (Value.ofItems items, rest) := by
  obtain _ | fuel := fuel
  · omega
  match items with
  | [] => exact readItems_close (isGap_newline outer) fuel rest
  | item :: items =>
    simp only [writeItems, List.length_cons, List.length_append] at hfuel
    have hitem := readValue_write depth item fuel
      (writeItems depth items ++ (newline outer ++ ']' :: rest)) (by omega)
    have hitems := readItems_writeItems depth items fuel outer rest (by omega)
    have hread := readItems_comma ((readValue_append (isGap_newline depth) fuel _).trans hitem)
      hitems
    simpa [writeItems, Value.ofItems] using hread

/-- The entries of a map are read back up to the closing brace. -/
theorem readMembers_writeEntries (depth : Nat) (entries : List (String × Node)) (fuel outer : Nat)
    (rest : List Char) (hfuel : (writeEntries depth entries).length + 1 ≤ fuel) :
    readMembers fuel (writeEntries depth entries ++ (newline outer ++ '\x7d' :: rest)) =
      some (Value.ofEntries entries, rest) := by
  obtain _ | fuel := fuel
  · omega
  match entries with
  | [] => exact readMembers_close (isGap_newline outer) fuel rest
  | (key, value) :: entries =>
    simp only [writeEntries, List.length_cons, List.length_append] at hfuel
    have hvalue := readValue_write depth value fuel
      (writeEntries depth entries ++ (newline outer ++ '\x7d' :: rest)) (by omega)
    have hmembers := readMembers_writeEntries depth entries fuel outer rest (by omega)
    have hread := readMembers_comma (isGap_newline depth) key
      ((readValue_append isGap_space fuel _).trans hvalue) hmembers
    simpa [writeEntries, Value.ofEntries] using hread

end

/-- The text of a document has the value of the document. -/
theorem ofText?_render (n : Node) : Value.ofText? (render n) = some (Value.ofNode n) := by
  have hread := readValue_write 0 n ((write 0 n ++ ['\n']).length + 1) ['\n'] (by simp; omega)
  rw [Value.ofText?, render]
  simp only [String.toList_ofList, hread]
  rfl

theorem ofItems_eq_map (items : List Node) : Value.ofItems items = items.map Value.ofNode := by
  induction items with
  | nil => rfl
  | cons item items ih => rw [Value.ofItems, ih, List.map_cons]

theorem ofEntries_eq_map (entries : List (String × Node)) :
    Value.ofEntries entries = entries.map fun e => (some e.1, Value.ofNode e.2) := by
  induction entries with
  | nil => rfl
  | cons entry entries ih => rw [Value.ofEntries, ih, List.map_cons]

end TableSchema.Document.Json
