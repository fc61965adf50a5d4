import TableSchema.Proofs.Ddl.ViablePrefix

/-!
# Operations on a cursor

A cursor is moved by single tokens and by whole rules of the grammar, in any order. Whatever is asked
of it, it loses no token and repeats none: what an operation drops is the beginning of what was ahead
(`Operation.Orderly`). So a run of operations drops the tokens of the list in their order, up to the
current one. The last token is never dropped, and an error is about the token where the operation
stopped.
-/

namespace TableSchema.Ddl

open Ddl.Parser

/-! ## Operations -/

/-- What can be asked of a cursor. -/
inductive Operation where
  | next
  | peek
  | currentIs (wanted : TokenKind)
  | consumeIf (wanted : TokenKind)
  | expect (wanted : TokenKind)
  | identifier
  | number
  | atEnd
  | createTable
  | statement

namespace Operation

/-- What an operation gives. -/
def Result : Operation → Type
  | next | expect _ => Token
  | peek => Option Token
  | currentIs _ | consumeIf _ => Bool
  | identifier | number => String
  | atEnd => Unit
  | createTable | statement => Statement

/-- The parser that performs an operation. -/
def parser : (o : Operation) → Parser o.Result
  | next => Parser.next
  | peek => Parser.peek?
  | currentIs wanted => Parser.currentIs wanted
  | consumeIf wanted => Parser.consumeIf wanted
  | expect wanted => Parser.expect wanted
  | identifier => Parser.identifier
  | number => Parser.number
  | atEnd => Parser.atEnd
  | createTable => Parser.createTable
  | statement => Parser.statement

/-- Whether an operation is no rule of the grammar: it moves the cursor by one token or not at all.
-/
def isSingle : Operation → Bool
  | createTable | statement => false
  | _ => true

/-- Whether an operation that is no rule has consumed the current token, by its answer. -/
def hasConsumed : (o : Operation) → Except ParseError o.Result → Bool
  | next, .ok _ | expect _, .ok _ | identifier, .ok _ | number, .ok _ | atEnd, .ok _ => true
  | consumeIf _, .ok consumed => consumed
  | _, _ => false

/-- What an operation answers. -/
def answer (o : Operation) (c : Cursor) : Except ParseError o.Result := (o.parser.runFrom c).1

/-- Where an operation leaves the cursor. -/
def moves (o : Operation) (c : Cursor) : Cursor := (o.parser.runFrom c).2

/-- The tokens that an operation passes. -/
def dropped (o : Operation) (c : Cursor) : List Token :=
  c.toList.take (c.toList.length - (o.moves c).toList.length)

/-- Where operations leave the cursor, one after the other. -/
def movesAll (ops : List Operation) (c : Cursor) : Cursor := ops.foldl (fun c o => o.moves c) c

/-- The tokens that operations pass, one after the other. -/
def droppedAll : List Operation → Cursor → List Token
  | [], _ => []
  | o :: ops, c => o.dropped c ++ droppedAll ops (o.moves c)

end Operation

/-! ## Single tokens -/

theorem Cursor.advance_of_toList_eq_singleton {c : Cursor} {t : Token} (h : c.toList = [t]) :
    c.advance = c := by
  obtain ⟨ahead, last, hlast⟩ := c
  cases ahead with
  | nil => rfl
  | cons u us => simp [toList] at h

theorem Cursor.toList_advance {c : Cursor} {t u : Token} {rest : List Token}
    (h : c.toList = t :: u :: rest) : c.advance.toList = u :: rest := by
  obtain ⟨ahead, last, hlast⟩ := c
  cases ahead with
  | nil => simp [toList] at h
  | cons v vs =>
    obtain ⟨-, h⟩ := List.cons.inj h
    exact h

theorem Cursor.toList_advance_suffix (c : Cursor) : c.advance.toList <:+ c.toList := by
  obtain ⟨_ | ⟨t, ts⟩, last, hlast⟩ := c
  · exact List.suffix_rfl
  · exact List.suffix_cons t (ts ++ [last])

namespace Parser

theorem runFrom_consumeIf (wanted : TokenKind) (c : Cursor) :
    (consumeIf wanted).runFrom c =
      if c.currentIs wanted then (.ok true, c.advance) else (.ok false, c) := by
  by_cases h : c.currentIs wanted = true <;>
    simp only [consumeIf, runFrom_bind, runFrom_currentIs, runFrom_next, runFrom_pure, h, if_true,
      if_false, Bool.false_eq_true]

theorem runFrom_expect (wanted : TokenKind) (c : Cursor) :
    (expect wanted).runFrom c =
      if c.currentIs wanted then (.ok c.current, c.advance)
      else (.error (.expected [wanted] c.current), c) := by
  by_cases h : c.currentIs wanted = true <;>
    simp only [expect, runFrom_bind, runFrom_currentIs, runFrom_next, runFrom_failExpecting, h,
      if_true, if_false, Bool.false_eq_true]

end Parser

namespace Operation

@[simp] theorem hasConsumed_error (o : Operation) (e : ParseError) :
    o.hasConsumed (.error e) = false := by
  cases o <;> rfl

/-- What a parser that takes one token can do. -/
theorem runFrom_of_takesOne {α : Type} {p : Parser α} {value : TokenKind → Option α}
    {wanted : List TokenKind} (hp : TakesOne p value wanted) (c : Cursor) :
    (∃ a, p.runFrom c = (.ok a, c.advance)) ∨
      p.runFrom c = (.error (.expected wanted c.current), c) := by
  rw [hp c]
  cases value c.current.kind with
  | none => exact .inr rfl
  | some a => exact .inl ⟨a, rfl⟩

/-- All that an operation can do that is no rule: consume the current token, answer without moving,
or fail without moving. -/
theorem runFrom_of_isSingle {o : Operation} (ho : o.isSingle = true) (c : Cursor) :
    (∃ a, o.parser.runFrom c = (.ok a, c.advance) ∧ o.hasConsumed (.ok a) = true) ∨
      (∃ a, o.parser.runFrom c = (.ok a, c) ∧ o.hasConsumed (.ok a) = false) ∨
        ∃ kinds, o.parser.runFrom c = (.error (.expected kinds c.current), c) := by
  cases o with
  | next => exact .inl ⟨_, rfl, rfl⟩
  | peek => exact .inr (.inl ⟨_, rfl, rfl⟩)
  | currentIs wanted => exact .inr (.inl ⟨_, rfl, rfl⟩)
  | consumeIf wanted =>
    have hrun := runFrom_consumeIf wanted c
    by_cases h : c.currentIs wanted = true
    · exact .inl ⟨true, hrun.trans (if_pos h), rfl⟩
    · exact .inr (.inl ⟨false, hrun.trans (if_neg h), rfl⟩)
  | expect wanted =>
    have hrun := runFrom_expect wanted c
    by_cases h : c.currentIs wanted = true
    · exact .inl ⟨c.current, hrun.trans (if_pos h), rfl⟩
    · exact .inr (.inr ⟨[wanted], hrun.trans (if_neg h)⟩)
  | identifier =>
    exact (runFrom_of_takesOne takesOne_identifier c).imp (fun ⟨a, h⟩ => ⟨a, h, rfl⟩)
      fun h => .inr ⟨_, h⟩
  | number =>
    exact (runFrom_of_takesOne takesOne_number c).imp (fun ⟨a, h⟩ => ⟨a, h, rfl⟩)
      fun h => .inr ⟨_, h⟩
  | atEnd =>
    exact (runFrom_of_takesOne takesOne_atEnd c).imp (fun ⟨a, h⟩ => ⟨a, h, rfl⟩)
      fun h => .inr ⟨_, h⟩
  | createTable => cases ho
  | statement => cases ho

/-! ## Rules -/

/-- A `CREATE TABLE` consumes tokens in front, and an error of it is about the token where it stops.
-/
theorem runFrom_createTable {c c' : Cursor} {found : Except ParseError Statement}
    (h : Parser.createTable.runFrom c = (found, c')) :
    c'.toList <:+ c.toList ∧ ∀ e, found = .error e → e.found = c'.current := by
  refine ⟨?_, fun e he => predictive_createTable.decided.found_eq_current (he ▸ h)⟩
  obtain ⟨front, c₁, answer, rfl, halike⟩ := predictive_createTable.decided c
  obtain ⟨-, rfl⟩ := Prod.mk.inj ((halike c₁ front rfl rfl).symm.trans h)
  rw [Cursor.toList_putBack]
  exact List.suffix_append front c₁.toList

/-- A statement consumes the end of input besides, if that is not the last token. -/
theorem runFrom_statement {c c' : Cursor} {found : Except ParseError Statement}
    (h : Parser.statement.runFrom c = (found, c')) :
    c'.toList <:+ c.toList ∧ ∀ e, found = .error e → e.found = c'.current := by
  rw [Ddl.runFrom_statement] at h
  rcases hrun : Parser.createTable.runFrom c with ⟨e | s, c₁⟩ <;> rw [hrun] at h
  · obtain ⟨rfl, rfl⟩ := Prod.mk.inj h
    exact runFrom_createTable hrun
  · obtain ⟨hsuffix, -⟩ := runFrom_createTable hrun
    by_cases hend : c₁.current.kind = .endOfInput
    · simp only [hend, if_true] at h
      obtain ⟨rfl, rfl⟩ := Prod.mk.inj h
      exact ⟨c₁.toList_advance_suffix.trans hsuffix, fun e he => by cases he⟩
    · simp only [hend, if_false] at h
      obtain ⟨rfl, rfl⟩ := Prod.mk.inj h
      exact ⟨hsuffix, fun e he => by cases he; rfl⟩

/-! ## All operations -/

/-- Whatever an operation is, what it leaves ahead was ahead before, and an error is about the token
where it stops. -/
theorem moves_suffix_and_found (o : Operation) (c : Cursor) :
    (o.moves c).toList <:+ c.toList ∧ ∀ e, o.answer c = .error e → e.found = (o.moves c).current := by
  by_cases ho : o.isSingle = true
  · rw [moves, answer]
    obtain ⟨a, h, -⟩ | ⟨a, h, -⟩ | ⟨kinds, h⟩ := runFrom_of_isSingle ho c <;> rw [h]
    · exact ⟨c.toList_advance_suffix, fun e he => by cases he⟩
    · exact ⟨List.suffix_rfl, fun e he => by cases he⟩
    · exact ⟨List.suffix_rfl, fun e he => by cases he; rfl⟩
  · cases o with
    | createTable => exact runFrom_createTable rfl
    | statement => exact runFrom_statement rfl
    | _ => exact absurd rfl ho

/-- An operation keeps the order of the tokens: what it does to them can be told from its answer. -/
structure Orderly (o : Operation) (c : Cursor) : Prop where
  /-- what is passed comes right before what is left -/
  dropped_append : o.dropped c ++ (o.moves c).toList = c.toList
  /-- a token that is consumed is all that is passed, if it is not the last one -/
  of_consumed : o.hasConsumed (o.answer c) = true → ∀ t u rest, c.toList = t :: u :: rest →
    o.dropped c = [t] ∧ (o.moves c).toList = u :: rest
  /-- the last token stays, even if it is consumed -/
  of_last : o.hasConsumed (o.answer c) = true → ∀ t, c.toList = [t] → o.moves c = c
  /-- an operation that is no rule and consumes nothing leaves the cursor as it was -/
  of_idle : o.isSingle = true → o.hasConsumed (o.answer c) = false → o.moves c = c
  /-- an error is about the token under the cursor afterwards -/
  found : ∀ e, o.answer c = .error e → e.found = (o.moves c).current

theorem isSingle_of_hasConsumed {o : Operation} {answer : Except ParseError o.Result}
    (h : o.hasConsumed answer = true) : o.isSingle = true := by
  cases o <;> first | rfl | cases h

/-- A token that is consumed is one token on. -/
theorem moves_of_hasConsumed {o : Operation} {c : Cursor}
    (h : o.hasConsumed (o.answer c) = true) : o.moves c = c.advance := by
  rw [answer] at h
  rw [moves]
  obtain ⟨a, hrun, -⟩ | ⟨a, hrun, hidle⟩ | ⟨kinds, hrun⟩ :=
    runFrom_of_isSingle (isSingle_of_hasConsumed h) c <;> rw [hrun] at h ⊢
  · rw [hidle] at h
    cases h
  · rw [hasConsumed_error] at h
    cases h

theorem orderly (o : Operation) (c : Cursor) : o.Orderly c := by
  obtain ⟨hsuffix, hfound⟩ := o.moves_suffix_and_found c
  have happend : o.dropped c ++ (o.moves c).toList = c.toList :=
    List.suffix_iff_eq_append.mp hsuffix
  refine ⟨happend, fun h t u rest hc => ?_, fun h t hc => ?_, fun ho h => ?_, hfound⟩
  · have htail : (o.moves c).toList = u :: rest := by
      rw [moves_of_hasConsumed h]
      exact Cursor.toList_advance hc
    have hsplit : o.dropped c ++ u :: rest = [t] ++ u :: rest :=
      calc o.dropped c ++ u :: rest = o.dropped c ++ (o.moves c).toList := by rw [htail]
        _ = [t] ++ u :: rest := happend.trans hc
    exact ⟨List.append_cancel_right hsplit, htail⟩
  · rw [moves_of_hasConsumed h]
    exact Cursor.advance_of_toList_eq_singleton hc
  · rw [answer] at h
    rw [moves]
    obtain ⟨a, hrun, hconsumed⟩ | ⟨a, hrun, -⟩ | ⟨kinds, hrun⟩ := runFrom_of_isSingle ho c <;>
      rw [hrun] at h ⊢
    rw [hconsumed] at h
    cases h

end Operation

/-! ## Runs -/

/-- Operations drop the tokens ahead of a cursor in their order. -/
theorem droppedAll_append (ops : List Operation) (c : Cursor) :
    Operation.droppedAll ops c ++ (Operation.movesAll ops c).toList = c.toList := by
  induction ops generalizing c with
  | nil => rfl
  | cons o ops ih =>
    calc Operation.droppedAll (o :: ops) c ++ (Operation.movesAll (o :: ops) c).toList
        = o.dropped c ++ (Operation.droppedAll ops (o.moves c) ++
            (Operation.movesAll ops (o.moves c)).toList) := List.append_assoc ..
      _ = o.dropped c ++ (o.moves c).toList := by rw [ih]
      _ = c.toList := (o.orderly c).dropped_append

/-- **A cursor keeps its tokens.** Whatever is asked of the cursor of a list, one operation after
the other, the tokens that were dropped and those that are ahead are the tokens of the list, closed
by the end of input where it is not. At least the current token is ahead, and whatever is asked next
is orderly: it drops a token that it consumes, if that is not the last one, it stays where it is if
it only looks or fails at a single token, and an error of it is about the token where it stops. -/
theorem cursor_keeps_its_tokens (tokens : List Token) (ops : List Operation) :
    Operation.droppedAll ops (.ofTokens tokens) ++
        (Operation.movesAll ops (.ofTokens tokens)).toList = tokens ++ closing tokens ∧
      (∃ unread, (Operation.movesAll ops (.ofTokens tokens)).toList =
        (Operation.movesAll ops (.ofTokens tokens)).current :: unread) ∧
      ∀ o : Operation, o.Orderly (Operation.movesAll ops (.ofTokens tokens)) := by
  refine ⟨?_, Cursor.exists_toList _, fun o => o.orderly _⟩
  rw [droppedAll_append, toList_ofTokens_eq_append]

/-- An end of input ahead of the last token is consumed like any other token. -/
example : (Operation.movesAll [.atEnd, .identifier, .atEnd, .next]
    (.ofTokens [.soleEnd, ⟨.identifier "a", "a", .start⟩])).toList =
      [⟨.endOfInput, "", ⟨1, 1, 2⟩⟩] := by
  decide

end TableSchema.Ddl
