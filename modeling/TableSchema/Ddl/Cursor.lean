import TableSchema.Ddl.Token
import TableSchema.Text.Utf8

/-!
# The token cursor

A cursor stands on a token of a list that ends with the end of input. The last token is kept apart
from those ahead of it, so that it can never be consumed: a cursor that has reached it stays there,
and no operation can run past the end.

Parsers read from a cursor and leave it where they stopped, also when they fail.
-/

namespace TableSchema.Ddl

/-- A place in a list of tokens. -/
structure Cursor where
  /-- the tokens not consumed yet, the last one of the list excepted -/
  ahead : List Token
  /-- the last token of the list -/
  last : Token
  /-- the list is closed by the end of input -/
  isEnd_last : last.isEnd = true
  deriving DecidableEq, Repr

/-- The end of input just past a token. -/
def Token.endAfter (t : Token) : Token where
  kind := .endOfInput
  literal := ""
  position :=
    ⟨t.position.offset + Text.byteLength t.literal.toList, t.position.line,
      t.position.column + t.literal.length⟩

/-- The end of input of a list without tokens. -/
def Token.soleEnd : Token := ⟨.endOfInput, "", .start⟩

namespace Cursor

/-- The cursor on the first token of a list. Where the list is not closed by the end of input, it
is closed just past its last token. -/
def ofTokens (tokens : List Token) : Cursor :=
  match tokens.getLast? with
  | none => ⟨[], .soleEnd, rfl⟩
  | some t =>
    if ht : t.isEnd then ⟨tokens.dropLast, t, ht⟩ else ⟨tokens, t.endAfter, rfl⟩

/-- The tokens from the cursor on. -/
def toList (c : Cursor) : List Token := c.ahead ++ [c.last]

/-- The token under the cursor. -/
def current (c : Cursor) : Token := c.ahead.headD c.last

/-- The token after the current one, if there is one. -/
def peek? (c : Cursor) : Option Token := c.toList[1]?

/-- The cursor one token on; it stays on the last one. -/
def advance (c : Cursor) : Cursor := { c with ahead := c.ahead.tail }

/-- Whether the current token is acceptable where a kind is wanted. -/
def currentIs (c : Cursor) (wanted : TokenKind) : Bool := c.current.kind.accepts wanted

/-- The cursor before some tokens that were consumed. -/
def putBack (c : Cursor) (front : List Token) : Cursor := { c with ahead := front ++ c.ahead }

@[simp] theorem putBack_nil (c : Cursor) : c.putBack [] = c := rfl

theorem putBack_append (c : Cursor) (front back : List Token) :
    c.putBack (front ++ back) = (c.putBack back).putBack front := by
  simp [putBack]

@[simp] theorem ahead_putBack (c : Cursor) (front : List Token) :
    (c.putBack front).ahead = front ++ c.ahead := rfl

@[simp] theorem toList_putBack (c : Cursor) (front : List Token) :
    (c.putBack front).toList = front ++ c.toList := by
  simp [toList, putBack]

@[simp] theorem current_putBack_cons (c : Cursor) (t : Token) (front : List Token) :
    (c.putBack (t :: front)).current = t := rfl

@[simp] theorem advance_putBack_cons (c : Cursor) (t : Token) (front : List Token) :
    (c.putBack (t :: front)).advance = c.putBack front := rfl

theorem kind_current_putBack (c : Cursor) (front : List Token) :
    (c.putBack front).current.kind = (front.map Token.kind).headD c.current.kind := by
  cases front <;> rfl

/-- Only the last token can be the current one without being ahead. -/
theorem eq_putBack_advance {c : Cursor} (h : c.current.isEnd = false) :
    c = c.advance.putBack [c.current] := by
  obtain ⟨ahead, last, hlast⟩ := c
  cases ahead with
  | nil => exact absurd hlast (by simpa [current] using h)
  | cons t ts => rfl

end Cursor

/-! ## Errors -/

/-- Why a list of tokens is no statement. -/
inductive ParseError where
  /-- the token found is of none of the kinds that could go on here -/
  | expected (kinds : List TokenKind) (found : Token)
  /-- a clause that comes after one that it has to precede -/
  | misplaced (found : Token)
  deriving DecidableEq, Repr

namespace ParseError

/-- The token that a parser stopped at. -/
def found : ParseError → Token
  | expected _ t => t
  | misplaced t => t

/-- Alternatives in words. -/
def alternatives (kinds : List TokenKind) : String :=
  match kinds.reverse.map TokenKind.describe with
  | [] => "nothing"
  | [only] => only
  | final :: others => String.intercalate ", " others.reverse ++ " or " ++ final

/-- The error in words. -/
def message : ParseError → String
  | expected kinds t => s!"Expected {alternatives kinds}, found {t.describe}"
  | misplaced t => s!"Unexpected {t.describe}"

end ParseError

/-! ## Parsers -/

/-- A computation that reads tokens. It leaves the cursor where it stopped, and fails with an
error about the token there. -/
abbrev Parser (α : Type) : Type := ExceptT ParseError (StateM Cursor) α

namespace Parser

/-- Runs a parser from a cursor. -/
def runFrom {α : Type} (p : Parser α) (c : Cursor) : Except ParseError α × Cursor := p c

/-- The current token. -/
def current : Parser Token := return (← get).current

/-- The token after the current one, if there is one. -/
def peek? : Parser (Option Token) := return (← get).peek?

/-- Whether the current token is acceptable where a kind is wanted. -/
def currentIs (wanted : TokenKind) : Parser Bool := return (← get).currentIs wanted

/-- Consumes the current token. -/
def next : Parser Token := do
  let c ← get
  set c.advance
  return c.current

/-- Fails because the current token is of none of the kinds that could go on here. -/
def failExpecting {α : Type} (kinds : List TokenKind) : Parser α := do
  throw (.expected kinds (← current))

/-- Consumes the current token if it is of a kind, and says whether it did. -/
def consumeIf (wanted : TokenKind) : Parser Bool := do
  if ← currentIs wanted then
    let _ ← next
    return true
  else
    return false

/-- Consumes the current token, which has to be of a kind. -/
def expect (wanted : TokenKind) : Parser Token := do
  if ← currentIs wanted then next else failExpecting [wanted]

/-- Consumes a reserved word. -/
def keyword (word : Keyword) : Parser Unit := do
  let _ ← expect (.keyword word)

/-- Consumes an operator or a punctuation mark. -/
def symbol (mark : Symbol) : Parser Unit := do
  let _ ← expect (.symbol mark)

/-- Consumes a name. -/
def identifier : Parser String := do
  match (← current).kind with
  | .identifier name =>
    let _ ← next
    return name
  | _ => failExpecting [.identifier ""]

/-- Consumes a number and gives its spelling. -/
def number : Parser String := do
  match (← current).kind with
  | .number text =>
    let _ ← next
    return text
  | _ => failExpecting [.number ""]

/-- Accepts the end of input only. -/
def atEnd : Parser Unit := do
  let _ ← expect .endOfInput

/-! ### Runs -/

section Runs

variable {α β : Type}

@[simp] theorem runFrom_pure (a : α) (c : Cursor) :
    (pure a : Parser α).runFrom c = (.ok a, c) := rfl

@[simp] theorem runFrom_throw (e : ParseError) (c : Cursor) :
    (throw e : Parser α).runFrom c = (.error e, c) := rfl

@[simp] theorem runFrom_current (c : Cursor) : current.runFrom c = (.ok c.current, c) := rfl

@[simp] theorem runFrom_currentIs (wanted : TokenKind) (c : Cursor) :
    (currentIs wanted).runFrom c = (.ok (c.currentIs wanted), c) := rfl

@[simp] theorem runFrom_next (c : Cursor) : next.runFrom c = (.ok c.current, c.advance) := rfl

@[simp] theorem runFrom_failExpecting (kinds : List TokenKind) (c : Cursor) :
    (failExpecting kinds : Parser α).runFrom c = (.error (.expected kinds c.current), c) := rfl

theorem runFrom_bind (p : Parser α) (q : α → Parser β) (c : Cursor) :
    (p >>= q).runFrom c =
      match p.runFrom c with
      | (.ok a, c') => (q a).runFrom c'
      | (.error e, c') => (.error e, c') := by
  change (p >>= q) c = _
  simp only [bind, ExceptT.bind, ExceptT.mk, StateT.bind, ExceptT.bindCont, runFrom]
  rcases p c with ⟨_ | a, c'⟩ <;> rfl

/-- Where the first part of a sequence succeeds, the run goes on with the second. -/
theorem runFrom_bind_of_ok {p : Parser α} {q : α → Parser β} {c c' : Cursor} {a : α}
    (h : p.runFrom c = (.ok a, c')) : (p >>= q).runFrom c = (q a).runFrom c' := by
  rw [runFrom_bind, h]

/-- A sequence succeeds only through both of its parts. -/
theorem runFrom_bind_eq_ok {p : Parser α} {q : α → Parser β} {c c'' : Cursor} {b : β}
    (h : (p >>= q).runFrom c = (.ok b, c'')) :
    ∃ a c', p.runFrom c = (.ok a, c') ∧ (q a).runFrom c' = (.ok b, c'') := by
  rw [runFrom_bind] at h
  rcases hp : p.runFrom c with ⟨_ | a, c'⟩
  · rw [hp] at h
    cases h
  · rw [hp] at h
    exact ⟨a, c', rfl, h⟩

end Runs

/-! ## Repetition -/

/-- Repeats a step until it declines, and collects what the steps give. Each step is handed what
the one before it passed on. A step that consumes nothing is the last. -/
def collect {σ α : Type} (step : σ → Parser (Option (α × σ))) (s : σ) : Parser (List α) := fun c =>
  match step s c with
  | (.error e, c') => (.error e, c')
  | (.ok none, c') => (.ok [], c')
  | (.ok (some (a, s')), c') =>
    if c'.ahead.length < c.ahead.length then
      match collect step s' c' with
      | (.error e, c'') => (.error e, c'')
      | (.ok more, c'') => (.ok (a :: more), c'')
    else (.ok [a], c')
termination_by c => c.ahead.length

/-- One item or more, separated by commas. -/
def commaSeparated {α : Type} (item : Parser α) : Parser (List α) := do
  let first ← item
  let others ← collect
    (fun _ : Unit => do
      if ← consumeIf (.symbol .comma) then
        return some (← item, ())
      else
        return none) ()
  return first :: others

/-- Something between parentheses. -/
def parenthesized {α : Type} (p : Parser α) : Parser α := do
  symbol .leftParen
  let a ← p
  symbol .rightParen
  return a

end Parser

end TableSchema.Ddl
