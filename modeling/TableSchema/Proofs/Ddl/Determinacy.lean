import TableSchema.Proofs.Ddl.Acceptance

/-!
# What decides a run

A run of a parser is decided by the kinds of the tokens that it consumes and of the one where it
stops. What comes later is never looked at, and of the spelling and the place of a token only an
error knows, which is about the token where the parser stopped.

So tokens of the same kinds give the same value, or the same complaint about the token in the same
place (`DecidedByKinds`). The property is one of runs alone and says nothing about a grammar: it is
closed under sequences, choices and repetitions, and each rule has it because its parts have it.
-/

namespace TableSchema.Ddl

open Ddl.Parser

/-- The same complaint about another token. -/
def ParseError.reportedAt (e : ParseError) (t : Token) : ParseError :=
  match e with
  | expected kinds _ => expected kinds t
  | misplaced _ => misplaced t

@[simp] theorem ParseError.found_reportedAt (e : ParseError) (t : Token) :
    (e.reportedAt t).found = t := by
  cases e <;> rfl

/-- A cursor whose next token was consumed, and then some more. -/
theorem Cursor.eq_putBack_cons {c c' : Cursor} {front : List Token}
    (hcur : c.current.isEnd = false) (h : c.advance = c'.putBack front) :
    c = c'.putBack (c.current :: front) :=
  calc c = c.advance.putBack [c.current] := Cursor.eq_putBack_advance hcur
    _ = (c'.putBack front).putBack [c.current] := by rw [h]
    _ = c'.putBack (c.current :: front) := rfl

section Decided

variable {α β σ : Type} {p q : Parser α}

/-- A parser answers alike before tokens of the same kinds: it consumes them, stops before a token
of the same kind, and gives the same value or the same complaint about that token. -/
def AnswersAlike (p : Parser α) (front : List TokenKind) (stop : TokenKind)
    (answer : Except ParseError α) : Prop :=
  ∀ (c : Cursor) (ts : List Token), ts.map Token.kind = front → c.current.kind = stop →
    p.runFrom (c.putBack ts) = (answer.mapError (·.reportedAt c.current), c)

/-- Every run is decided by the kinds of the tokens up to the one where it stops. -/
def DecidedByKinds (p : Parser α) : Prop :=
  ∀ c : Cursor, ∃ (front : List Token) (c' : Cursor) (answer : Except ParseError α),
    c = c'.putBack front ∧ AnswersAlike p (front.map Token.kind) c'.current.kind answer

/-- An error is about the token where the parser stops. -/
theorem DecidedByKinds.found_eq_current (hp : DecidedByKinds p) {c c' : Cursor} {e : ParseError}
    (h : p.runFrom c = (.error e, c')) : e.found = c'.current := by
  obtain ⟨front, c₁, answer, rfl, halike⟩ := hp c
  rw [halike c₁ front rfl rfl] at h
  cases answer with
  | error e₁ =>
    cases h
    exact ParseError.found_reportedAt e₁ _
  | ok a => cases h

/-- A run that consumes nothing answers alike before every token of the kind it stops at. -/
theorem answersAlike_nil {stop : TokenKind} {answer : Except ParseError α}
    (h : ∀ c : Cursor, c.current.kind = stop →
      p.runFrom c = (answer.mapError (·.reportedAt c.current), c)) :
    AnswersAlike p [] stop answer := by
  intro c ts hts hc
  obtain rfl := List.map_eq_nil_iff.mp hts
  exact h c hc

/-- A choice by whether a token of a fixed kind is consumed, as one by the kind of the token. -/
theorem runFrom_ifConsumed {mark : TokenKind} (hm : mark.IsFixed) (p q : Parser α) (c : Cursor) :
    (do if ← consumeIf mark then p else q : Parser α).runFrom c =
      (if c.current.kind = mark then some p else none).elim (q.runFrom c)
        (·.runFrom c.advance) := by
  by_cases hk : c.current.kind = mark
  · simp only [runFrom_bind, hm.runFrom_consumeIf, hk, if_true, Option.elim_some]
  · simp only [runFrom_bind, hm.runFrom_consumeIf, hk, if_false, Bool.false_eq_true,
      Option.elim_none]

/-! ## Sequences -/

theorem decidedByKinds_pure (a : α) : DecidedByKinds (Pure.pure a : Parser α) :=
  fun c => ⟨[], c, .ok a, rfl, answersAlike_nil fun _ _ => rfl⟩

namespace DecidedByKinds

theorem bind {q : α → Parser β} (hp : DecidedByKinds p) (hq : ∀ a, DecidedByKinds (q a)) :
    DecidedByKinds (p >>= q) := by
  intro c
  obtain ⟨front, c', answer, rfl, hfront⟩ := hp c
  cases answer with
  | error e =>
    refine ⟨front, c', .error e, rfl, fun d ts hts hd => ?_⟩
    rw [runFrom_bind, hfront d ts hts hd]
    rfl
  | ok a =>
    obtain ⟨back, c'', answer, rfl, hback⟩ := hq a c'
    refine ⟨front ++ back, c'', answer, (Cursor.putBack_append ..).symm, fun d ts hts hd => ?_⟩
    rw [List.map_append] at hts
    obtain ⟨ts, ts', rfl, hts, hts'⟩ := List.map_eq_append_iff.mp hts
    -- the first part stops before a token of the same kind, here or ahead of what the second takes
    have hstop : (d.putBack ts').current.kind = (c''.putBack back).current.kind := by
      rw [Cursor.kind_current_putBack, Cursor.kind_current_putBack, hts', hd]
    rw [Cursor.putBack_append, runFrom_bind_of_ok (hfront _ ts hts hstop)]
    exact hback d ts' hts' hd

theorem map (f : α → β) (hp : DecidedByKinds p) : DecidedByKinds (do return f (← p)) :=
  hp.bind fun a => decidedByKinds_pure (f a)

/-! ## Choices -/

/-- A parser that goes on in a way that depends on the kind of the current token. -/
theorem byCurrent {q : TokenKind → Parser α}
    (hrun : ∀ c, p.runFrom c = (q c.current.kind).runFrom c) (hq : ∀ k, DecidedByKinds (q k)) :
    DecidedByKinds p := by
  intro c
  obtain ⟨front, c', answer, rfl, hfront⟩ := hq c.current.kind c
  refine ⟨front, c', answer, rfl, fun d ts hts hd => ?_⟩
  have hkind : (d.putBack ts).current.kind = (c'.putBack front).current.kind := by
    rw [Cursor.kind_current_putBack, Cursor.kind_current_putBack, hts, hd]
  rw [hrun, hkind]
  exact hfront d ts hts hd

/-- A parser that consumes the current token and goes on with the branch of its kind, and that goes
another way where the kind has no branch. -/
theorem dispatch {B : TokenKind → Option (Parser α)}
    (hrun : ∀ c, p.runFrom c = (B c.current.kind).elim (q.runFrom c) (·.runFrom c.advance))
    (hend : B .endOfInput = none) (hbranch : ∀ {k r}, B k = some r → DecidedByKinds r)
    (hq : DecidedByKinds q) : DecidedByKinds p := by
  intro c
  rcases hb : B c.current.kind with _ | r
  · obtain ⟨front, c', answer, rfl, hfront⟩ := hq c
    refine ⟨front, c', answer, rfl, fun d ts hts hd => ?_⟩
    have hkind : (d.putBack ts).current.kind = (c'.putBack front).current.kind := by
      rw [Cursor.kind_current_putBack, Cursor.kind_current_putBack, hts, hd]
    rw [hrun, hkind, hb]
    exact hfront d ts hts hd
  · have hcur := Token.isEnd_eq_false_of_branch hend hb
    obtain ⟨front, c', answer, hc, hfront⟩ := hbranch hb c.advance
    refine ⟨c.current :: front, c', answer, Cursor.eq_putBack_cons hcur hc,
      fun d ts hts hd => ?_⟩
    obtain ⟨t, ts, rfl, ht, hts⟩ := List.map_eq_cons_iff.mp hts
    rw [hrun, Cursor.current_putBack_cons, ht, hb]
    exact hfront d ts hts hd

/-- A parser that goes one of two ways, and consumes a token of a fixed kind on the first. -/
theorem ifConsumed {mark : TokenKind} (hm : mark.IsFixed) (hp : DecidedByKinds p)
    (hq : DecidedByKinds q) : DecidedByKinds (do if ← consumeIf mark then p else q) := by
  refine dispatch (B := fun k => if k = mark then some p else none) (runFrom_ifConsumed hm p q)
    (if_neg (Ne.symm hm.1)) ?_ hq
  intro k r hb
  obtain ⟨-, hr⟩ := Option.ite_none_right_eq_some.mp hb
  cases hr
  exact hp

end DecidedByKinds

/-- Failing at once is decided by the current token. -/
theorem decidedByKinds_failExpecting (wanted : List TokenKind) :
    DecidedByKinds (failExpecting wanted : Parser α) :=
  fun c => ⟨[], c, .error (.expected wanted c.current), rfl, answersAlike_nil fun _ _ => rfl⟩

/-- A parser that takes the current token or stops there is decided by the kind of it. -/
theorem TakesOne.decidedByKinds {value : TokenKind → Option α} {wanted : List TokenKind}
    (hp : TakesOne p value wanted) (hend : value .endOfInput = none) : DecidedByKinds p := by
  refine DecidedByKinds.dispatch (B := fun k => (value k).map Pure.pure) (fun c => ?_)
    (by rw [hend]; rfl) (fun hb => ?_) (decidedByKinds_failExpecting wanted)
  · rw [hp c]
    cases value c.current.kind <;> rfl
  · obtain ⟨a, -, rfl⟩ := Option.map_eq_some_iff.mp hb
    exact decidedByKinds_pure a

/-! ## Repetition -/

variable {step : σ → Parser (Option (α × σ))}

theorem runFrom_collect_of_error {s : σ} {c c' : Cursor} {e : ParseError}
    (h : (step s).runFrom c = (.error e, c')) :
    (collect step s).runFrom c = (.error e, c') := by
  change step s c = _ at h
  change collect step s c = _
  rw [collect, h]

theorem runFrom_collect_of_none {s : σ} {c c' : Cursor}
    (h : (step s).runFrom c = (.ok none, c')) : (collect step s).runFrom c = (.ok [], c') := by
  change step s c = _ at h
  change collect step s c = _
  rw [collect, h]

theorem runFrom_collect_of_stay {s s' : σ} {c : Cursor} {a : α}
    (h : (step s).runFrom c = (.ok (some (a, s')), c)) :
    (collect step s).runFrom c = (.ok [a], c) := by
  change step s c = _ at h
  change collect step s c = _
  rw [collect, h]
  simp

theorem runFrom_collect_of_some {s s' : σ} {c c' : Cursor} {a : α} {front : List Token}
    {rest : Except ParseError (List α)} (hne : front ≠ [])
    (h : (step s).runFrom (c.putBack front) = (.ok (some (a, s')), c))
    (hrest : (collect step s').runFrom c = (rest, c')) :
    (collect step s).runFrom (c.putBack front) = (rest.map (a :: ·), c') := by
  have hlt : c.ahead.length < (c.putBack front).ahead.length := by
    have := List.length_pos_iff.mpr hne
    rw [Cursor.ahead_putBack, List.length_append]
    omega
  change step s (c.putBack front) = _ at h
  change collect step s' c = _ at hrest
  change collect step s (c.putBack front) = _
  rw [collect, h]
  simp only [hlt, if_true, hrest]
  cases rest <;> rfl

/-- A repetition is decided if each of its steps is. -/
theorem DecidedByKinds.collect (hstep : ∀ s, DecidedByKinds (step s)) (s : σ) :
    DecidedByKinds (collect step s) := by
  intro c
  -- on the number of tokens ahead: a step that consumes nothing is the last
  induction hn : c.ahead.length using Nat.strongRecOn generalizing s c with
  | ind n ih =>
    obtain ⟨front, c', answer, rfl, hfront⟩ := hstep s c
    match answer with
    | .error e =>
      refine ⟨front, c', .error e, rfl, fun d ts hts hd => ?_⟩
      exact runFrom_collect_of_error (hfront d ts hts hd)
    | .ok none =>
      refine ⟨front, c', .ok [], rfl, fun d ts hts hd => ?_⟩
      exact runFrom_collect_of_none (hfront d ts hts hd)
    | .ok (some (a, s')) =>
      by_cases hne : front = []
      · subst hne
        refine ⟨[], c', .ok [a], rfl, answersAlike_nil fun d hd => ?_⟩
        exact runFrom_collect_of_stay (hfront d [] rfl hd)
      · have hlt : c'.ahead.length < n := by
          have := List.length_pos_iff.mpr hne
          rw [← hn, Cursor.ahead_putBack, List.length_append]
          omega
        obtain ⟨back, c'', rest, rfl, hback⟩ := ih _ hlt s' c' rfl
        refine ⟨front ++ back, c'', rest.map (a :: ·), (Cursor.putBack_append ..).symm,
          fun d ts hts hd => ?_⟩
        rw [List.map_append] at hts
        obtain ⟨ts, ts', rfl, hts, hts'⟩ := List.map_eq_append_iff.mp hts
        have hstop : (d.putBack ts').current.kind = (c''.putBack back).current.kind := by
          rw [Cursor.kind_current_putBack, Cursor.kind_current_putBack, hts', hd]
        have hne' : ts ≠ [] := fun hnil => hne (List.map_eq_nil_iff.mp (by rw [← hts, hnil]; rfl))
        rw [Cursor.putBack_append,
          runFrom_collect_of_some hne' (hfront _ ts hts hstop) (hback d ts' hts' hd)]
        cases rest <;> rfl

end Decided

end TableSchema.Ddl
