import TableSchema.Ddl.Cursor
import TableSchema.Ddl.Grammar

/-!
# What a parser reads

A parser *reads* a relation between values and sequences of kinds when its successful runs are
those of the relation:

* a run that succeeds has consumed a spelling of its value (**soundness**);
* a spelling of a value is consumed and gives the value (**completeness**), if the token after it
  is one that may follow.

The second condition is there because a parser is greedy: it takes a comma after a list for the
start of one more item. What may follow can depend on the value.

Readings compose: a sequence of two parsers reads the concatenations of what they read, and the
repetition of a step reads a sequence of what the step reads. The rules of the grammar are then a
matter of relations alone.
-/

namespace TableSchema.Ddl

open Ddl.Parser

/-- The successful runs of a parser are those of a relation, before tokens that may follow. No
successful run consumes an end of input. -/
structure Reads {α : Type} (p : Parser α) (spells : α → List TokenKind → Prop)
    (follows : α → TokenKind → Prop) : Prop where
  /-- what was consumed spells the value -/
  sound : ∀ {c c' : Cursor} {a : α}, p.runFrom c = (.ok a, c') →
    ∃ front, c = c'.putBack front ∧ (∀ t ∈ front, t.isEnd = false) ∧ spells a (front.map Token.kind)
  /-- a spelling of the value is consumed -/
  complete : ∀ {c : Cursor} {front : List Token} {a : α}, spells a (front.map Token.kind) →
    follows a c.current.kind → p.runFrom (c.putBack front) = (.ok a, c)

/-- Anything may follow. -/
def Anything {α : Type} (_ : α) (_ : TokenKind) : Prop := True

theorem Cursor.putBack_inj {c : Cursor} {ts us : List Token} (h : c.putBack ts = c.putBack us) :
    ts = us := by
  have hahead : ts ++ c.ahead = us ++ c.ahead := congrArg Cursor.ahead h
  exact List.append_cancel_right hahead

/-- A token of a kind that has a branch, where the end of input has none. -/
theorem Token.isEnd_eq_false_of_branch {β : Type} {B : TokenKind → Option β} {t : Token} {r : β}
    (hend : B .endOfInput = none) (h : B t.kind = some r) : t.isEnd = false := by
  rw [Token.isEnd, beq_eq_false_iff_ne]
  intro hk
  rw [hk, hend] at h
  cases h

namespace Reads

variable {α β : Type} {p : Parser α} {q : Parser β} {S S' : α → List TokenKind → Prop}
  {F F' : α → TokenKind → Prop}

/-! ## Spellings alone -/

/-- A spelling is read off any tokens of its kinds. -/
theorem exists_run (hp : Reads p S F) {a : α} {w : List TokenKind} {k : TokenKind}
    (hw : S a w) (hk : F a k) :
    ∃ ts c, ts.map Token.kind = w ∧ p.runFrom (c.putBack ts) = (.ok a, c) := by
  have hts : (w.map fun k => (⟨k, "", .start⟩ : Token)).map Token.kind = w := by
    simp [Function.comp_def]
  let c : Cursor := ⟨[⟨k, "", .start⟩], .soleEnd, rfl⟩
  exact ⟨_, c, hts, hp.complete (by rwa [hts]) hk⟩

/-- A parser reads one relation: a spelling, before some token, is one in every description. -/
theorem spells_of_reads (hp : Reads p S F) (hF : ∀ a, ∃ k, F a k) (hr : Reads p S' F') {a : α}
    {w : List TokenKind} (hw : S a w) : S' a w := by
  obtain ⟨k, hk⟩ := hF a
  obtain ⟨ts, c, rfl, hrun⟩ := hp.exists_run hw hk
  obtain ⟨front, hc, -, hfront⟩ := hr.sound hrun
  obtain rfl := Cursor.putBack_inj hc
  exact hfront

/-- No spelling has an end of input in it. -/
theorem endOfInput_not_mem (hp : Reads p S F) {a : α} {w : List TokenKind} {k : TokenKind}
    (hw : S a w) (hk : F a k) : TokenKind.endOfInput ∉ w := by
  obtain ⟨ts, c, rfl, hrun⟩ := hp.exists_run hw hk
  obtain ⟨front, hc, hend, -⟩ := hp.sound hrun
  obtain rfl := Cursor.putBack_inj hc
  intro hmem
  obtain ⟨t, ht, hkind⟩ := List.mem_map.mp hmem
  simpa [Token.isEnd, hkind] using hend t ht

/-! ## Changing the relation -/

/-- The same spellings, described in another way, and fewer tokens that may follow. -/
theorem congr (hp : Reads p S F) (hS : ∀ a w, S a w ↔ S' a w) (hF : ∀ a k, F' a k → F a k) :
    Reads p S' F' := by
  constructor
  · intro c c' a h
    obtain ⟨front, hc, hend, hs⟩ := hp.sound h
    exact ⟨front, hc, hend, (hS _ _).mp hs⟩
  · intro c front a hs hk
    exact hp.complete ((hS _ _).mpr hs) (hF _ _ hk)

/-- The same spellings, described in another way. -/
theorem respell (hp : Reads p S F) (hS : ∀ a w, S a w ↔ S' a w) : Reads p S' F :=
  hp.congr hS fun _ _ hk => hk

/-! ## Sequences -/

/-- What a sequence of two parsers reads: what the first may be followed by includes whatever the
second starts with. -/
theorem bind {q : α → Parser β} {T : α → β → List TokenKind → Prop} {G : β → TokenKind → Prop}
    (hp : Reads p S F) (hq : ∀ a, Reads (q a) (T a) G)
    (hF : ∀ {a b v k}, T a b v → G b k → F a (v.headD k)) :
    Reads (p >>= q) (fun b w => ∃ a u v, S a u ∧ T a b v ∧ w = u ++ v) G := by
  constructor
  · intro c c'' b h
    obtain ⟨a, c', hpc, hqc⟩ := runFrom_bind_eq_ok h
    obtain ⟨front, rfl, hend, hs⟩ := hp.sound hpc
    obtain ⟨back, rfl, hend', ht⟩ := (hq a).sound hqc
    refine ⟨front ++ back, (Cursor.putBack_append ..).symm, ?_, a, _, _, hs, ht, List.map_append⟩
    intro t ht
    exact (List.mem_append.mp ht).elim (hend t) (hend' t)
  · rintro c w b ⟨a, u, v, hs, ht, hw⟩ hk
    obtain ⟨front, back, rfl, rfl, rfl⟩ := List.map_eq_append_iff.mp hw
    have hfollow : F a (c.putBack back).current.kind := by
      rw [Cursor.kind_current_putBack]
      exact hF ht hk
    rw [Cursor.putBack_append, runFrom_bind_of_ok (hp.complete hs hfollow)]
    exact (hq a).complete ht hk

/-- What a sequence reads whose first part may be followed by anything. -/
theorem andThen {q : α → Parser β} {T : α → β → List TokenKind → Prop} {G : β → TokenKind → Prop}
    (hp : Reads p S Anything) (hq : ∀ a, Reads (q a) (T a) G) :
    Reads (p >>= q) (fun b w => ∃ a u v, S a u ∧ T a b v ∧ w = u ++ v) G :=
  hp.bind hq fun _ _ => trivial

/-- A value that is made without reading. -/
theorem pure (a : α) : Reads (Pure.pure a : Parser α) (fun b w => b = a ∧ w = []) F := by
  constructor
  · intro c c' b h
    obtain ⟨hb, rfl⟩ := Prod.mk.inj h
    obtain rfl := Except.ok.inj hb
    exact ⟨[], rfl, by simp, rfl, rfl⟩
  · rintro c front b ⟨rfl, hw⟩ -
    obtain rfl := List.map_eq_nil_iff.mp hw
    rfl

/-- What a parser reads whose value is changed afterwards. -/
theorem map (f : α → β) (hp : Reads p S F) {G : β → TokenKind → Prop}
    (hG : ∀ a k, G (f a) k → F a k) :
    Reads (do return f (← p)) (fun b w => ∃ a, S a w ∧ b = f a) G := by
  refine respell (hp.bind (T := fun a b v => b = f a ∧ v = []) (fun a => pure (f a)) ?_) ?_
  · rintro a b v k ⟨rfl, rfl⟩ hk
    exact hG a k hk
  · intro b w
    refine ⟨?_, ?_⟩
    · rintro ⟨a, u, v, hs, ⟨rfl, rfl⟩, rfl⟩
      exact ⟨a, by simpa using hs, rfl⟩
    · rintro ⟨a, hs, rfl⟩
      exact ⟨a, w, [], hs, ⟨rfl, rfl⟩, by simp⟩

end Reads

/-! ## Single tokens -/

section Tokens

variable {α : Type} {p : Parser α}

/-- A parser that takes the current token or stops there: the kind decides which, and the value. -/
def TakesOne (p : Parser α) (value : TokenKind → Option α) (wanted : List TokenKind) : Prop :=
  ∀ c, p.runFrom c =
    match value c.current.kind with
    | some a => (.ok a, c.advance)
    | none => (.error (.expected wanted c.current), c)

/-- A parser that takes one token reads the kinds that have a value. -/
theorem TakesOne.reads {value : TokenKind → Option α} {wanted : List TokenKind}
    (hp : TakesOne p value wanted) (hend : value .endOfInput = none) :
    Reads p (fun a w => ∃ k, value k = some a ∧ w = [k]) Anything := by
  constructor
  · intro c c' a h
    rw [hp c] at h
    rcases hv : value c.current.kind with _ | b
    · rw [hv] at h
      cases h
    · rw [hv] at h
      obtain ⟨hb, rfl⟩ := Prod.mk.inj h
      obtain rfl := Except.ok.inj hb
      have hcur := Token.isEnd_eq_false_of_branch hend hv
      exact ⟨[c.current], Cursor.eq_putBack_advance hcur, by simpa using hcur, _, hv, rfl⟩
  · rintro c front a ⟨k, hv, hw⟩ -
    obtain ⟨t, rfl, rfl⟩ := List.map_eq_singleton_iff.mp hw
    rw [hp, Cursor.current_putBack_cons, hv]
    rfl

/-! ### Tokens of a fixed kind -/

/-- A kind that is no end of input and is acceptable only where it is wanted itself. -/
def TokenKind.IsFixed (wanted : TokenKind) : Prop :=
  wanted ≠ .endOfInput ∧ ∀ k : TokenKind, k.accepts wanted = true ↔ k = wanted

theorem isFixed_keyword (word : Keyword) : (TokenKind.keyword word).IsFixed := by
  refine ⟨by simp, fun k => ?_⟩
  cases k <;> simp [TokenKind.accepts]

theorem isFixed_symbol (mark : Symbol) : (TokenKind.symbol mark).IsFixed := by
  refine ⟨by simp, fun k => ?_⟩
  cases k <;> simp [TokenKind.accepts]

theorem TokenKind.IsFixed.currentIs {wanted : TokenKind} (hw : wanted.IsFixed) (c : Cursor) :
    c.currentIs wanted = decide (c.current.kind = wanted) := by
  rw [Bool.eq_iff_iff, decide_eq_true_iff]
  exact hw.2 _

theorem TokenKind.IsFixed.runFrom_consumeIf {wanted : TokenKind} (hw : wanted.IsFixed)
    (c : Cursor) : (consumeIf wanted).runFrom c =
      if c.current.kind = wanted then (.ok true, c.advance) else (.ok false, c) := by
  by_cases hk : c.current.kind = wanted
  · simp only [consumeIf, runFrom_bind, runFrom_currentIs, hw.currentIs, hk, decide_true,
      if_true, runFrom_next, runFrom_pure]
  · simp only [consumeIf, runFrom_bind, runFrom_currentIs, hw.currentIs, hk, decide_false,
      Bool.false_eq_true, if_false, runFrom_pure]

/-- Taking a token of a fixed kind, whose value is of no interest. -/
theorem takesOne_expect {wanted : TokenKind} (hw : wanted.IsFixed) :
    TakesOne (do let _ ← expect wanted) (fun k => if k = wanted then some () else none)
      [wanted] := by
  intro c
  by_cases hk : c.current.kind = wanted
  · simp only [expect, runFrom_bind, runFrom_currentIs, hw.currentIs, hk, decide_true, if_true,
      runFrom_next, runFrom_pure]
  · simp only [expect, runFrom_bind, runFrom_currentIs, hw.currentIs, hk, decide_false,
      Bool.false_eq_true, if_false, runFrom_failExpecting]

/-- Reading a token of a fixed kind. -/
theorem reads_expect {wanted : TokenKind} (hw : wanted.IsFixed) :
    Reads (do let _ ← expect wanted) (fun _ w => w = [wanted]) Anything :=
  ((takesOne_expect hw).reads (by simp [Ne.symm hw.1])).respell (by simp)

theorem reads_keyword (word : Keyword) :
    Reads (keyword word) (fun _ w => w = [.keyword word]) Anything :=
  reads_expect (isFixed_keyword word)

theorem reads_symbol (mark : Symbol) :
    Reads (symbol mark) (fun _ w => w = [.symbol mark]) Anything :=
  reads_expect (isFixed_symbol mark)

/-! ### Names and numbers -/

/-- The name that a kind carries. -/
def TokenKind.name? : TokenKind → Option String
  | .identifier name => some name
  | _ => none

/-- The spelling of a number that a kind carries. -/
def TokenKind.number? : TokenKind → Option String
  | .number text => some text
  | _ => none

theorem takesOne_identifier : TakesOne identifier TokenKind.name? [.identifier ""] := by
  intro c
  rcases hk : c.current.kind <;>
    simp only [identifier, runFrom_bind, runFrom_current, hk, runFrom_next, runFrom_pure,
      runFrom_failExpecting, TokenKind.name?]

theorem takesOne_number : TakesOne number TokenKind.number? [.number ""] := by
  intro c
  rcases hk : c.current.kind <;>
    simp only [number, runFrom_bind, runFrom_current, hk, runFrom_next, runFrom_pure,
      runFrom_failExpecting, TokenKind.number?]

theorem reads_identifier : Reads identifier Grammar.Name Anything := by
  refine (takesOne_identifier.reads rfl).respell fun name w => ?_
  refine ⟨?_, ?_⟩
  · rintro ⟨k, hk, rfl⟩
    cases k <;> cases hk
    rfl
  · rintro rfl
    exact ⟨_, rfl, rfl⟩

theorem reads_number : Reads number (fun text w => w = [.number text]) Anything := by
  refine (takesOne_number.reads rfl).respell fun text w => ?_
  refine ⟨?_, ?_⟩
  · rintro ⟨k, hk, rfl⟩
    cases k <;> cases hk
    rfl
  · rintro rfl
    exact ⟨_, rfl, rfl⟩

end Tokens

/-! ## Choices -/

namespace Reads

variable {α : Type} {p q : Parser α} {T : α → List TokenKind → Prop} {F : α → TokenKind → Prop}

/-- A parser that consumes the current token and goes on with the branch of its kind, and that goes
another way where the kind has no branch. That way reads nothing that starts like a branch. -/
theorem dispatch {B : TokenKind → Option (Parser α)}
    {S : TokenKind → α → List TokenKind → Prop}
    (hrun : ∀ c, p.runFrom c = (B c.current.kind).elim (q.runFrom c) (·.runFrom c.advance))
    (hend : B .endOfInput = none) (hbranch : ∀ {k r}, B k = some r → Reads r (S k) F)
    (hq : Reads q T F) (hT : ∀ {a v k}, T a v → F a k → B (v.headD k) = none) :
    Reads p (fun a w => (∃ k r v, B k = some r ∧ S k a v ∧ w = k :: v) ∨ T a w) F := by
  constructor
  · intro c c' a h
    rw [hrun] at h
    rcases hb : B c.current.kind with _ | r
    · rw [hb] at h
      obtain ⟨front, hc, hfront, ht⟩ := hq.sound h
      exact ⟨front, hc, hfront, .inr ht⟩
    · rw [hb] at h
      obtain ⟨front, hc, hfront, hs⟩ := (hbranch hb).sound h
      have hcur := Token.isEnd_eq_false_of_branch hend hb
      refine ⟨c.current :: front, ?_, ?_, .inl ⟨_, r, _, hb, hs, List.map_cons⟩⟩
      · calc c = c.advance.putBack [c.current] := Cursor.eq_putBack_advance hcur
          _ = (c'.putBack front).putBack [c.current] := by rw [← hc]
          _ = c'.putBack (c.current :: front) := rfl
      · exact List.forall_mem_cons.mpr ⟨hcur, hfront⟩
  · rintro c front a (⟨k, r, v, hb, hs, hw⟩ | ht) hk
    · obtain ⟨t, back, rfl, rfl, rfl⟩ := List.map_eq_cons_iff.mp hw
      rw [hrun, Cursor.current_putBack_cons, hb]
      exact (hbranch hb).complete hs hk
    · have hnone : B (c.putBack front).current.kind = none := by
        rw [Cursor.kind_current_putBack]
        exact hT ht hk
      rw [hrun, hnone]
      exact hq.complete ht hk

/-- A parser that goes one of two ways, and consumes a token of a fixed kind on the first. -/
theorem ifConsumed {S : α → List TokenKind → Prop} {mark : TokenKind} (hm : mark.IsFixed)
    (hp : Reads p S F) (hq : Reads q T F)
    (hT : ∀ {a v k}, T a v → F a k → v.headD k ≠ mark) :
    Reads (do if ← consumeIf mark then p else q)
      (fun a w => (∃ v, S a v ∧ w = mark :: v) ∨ T a w) F := by
  refine (dispatch (B := fun k => if k = mark then some p else none) (S := fun _ => S)
    ?_ (if_neg (Ne.symm hm.1)) ?_ hq fun ht hk => if_neg (hT ht hk)).respell fun a w => ?_
  · intro c
    by_cases hk : c.current.kind = mark
    · simp only [runFrom_bind, hm.runFrom_consumeIf, hk, if_true, Option.elim_some]
    · simp only [runFrom_bind, hm.runFrom_consumeIf, hk, if_false, Bool.false_eq_true,
        Option.elim_none]
  · intro k r hb
    obtain ⟨-, hr⟩ := Option.ite_none_right_eq_some.mp hb
    cases hr
    exact hp
  · refine ⟨?_, ?_⟩
    · rintro (⟨k, r, v, hb, hs, rfl⟩ | ht)
      · obtain ⟨rfl, -⟩ := Option.ite_none_right_eq_some.mp hb
        exact .inl ⟨v, hs, rfl⟩
      · exact .inr ht
    · rintro (⟨v, hs, rfl⟩ | ht)
      · exact .inl ⟨mark, p, v, if_pos rfl, hs, rfl⟩
      · exact .inr ht

end Reads

/-! ## Repetition

Each step of a repetition hands a state on to the next one, so its spelling relates the state
before, the item and the state after. -/

section Repetition

variable {α σ : Type}

/-- Steps one after the other. -/
inductive Repeated (S : σ → α → σ → List TokenKind → Prop) :
    σ → List α → List TokenKind → Prop where
  | nil {s : σ} : Repeated S s [] []
  | cons {s s' : σ} {a : α} {as : List α} {u v : List TokenKind} :
    S s a s' u → Repeated S s' as v → Repeated S s (a :: as) (u ++ v)

/-- What a step reads: nothing where it declines. -/
def StepSpelling (S : σ → α → σ → List TokenKind → Prop) (s : σ) :
    Option (α × σ) → List TokenKind → Prop
  | none, w => w = []
  | some (a, s'), w => S s a s' w

/-- What may follow a step. -/
def StepFollows (F E : TokenKind → Prop) :
    Option (α × σ) → TokenKind → Prop
  | none => E
  | some _ => F

variable {step : σ → Parser (Option (α × σ))} {S : σ → α → σ → List TokenKind → Prop}
  {F E : TokenKind → Prop}

/-- What follows a step is the start of the next one or what stops the repetition. -/
theorem Repeated.headD (hS : ∀ {s a s' w}, S s a s' w → ∃ k v, w = k :: v ∧ F k)
    (hF : ∀ {k}, E k → F k) {s : σ} {as : List α} {w : List TokenKind} {k : TokenKind}
    (h : Repeated S s as w) (hk : E k) : F (w.headD k) := by
  cases h with
  | nil => exact hF hk
  | cons hs _ =>
    obtain ⟨k', v, rfl, hk'⟩ := hS hs
    exact hk'

theorem reads_collect_sound (hS : ∀ {s a s' w}, S s a s' w → w ≠ [])
    (hstep : ∀ s, Reads (step s) (StepSpelling S s) (StepFollows F E)) {s : σ} {c c' : Cursor}
    {as : List α} (h : (collect step s).runFrom c = (.ok as, c')) :
    ∃ front, c = c'.putBack front ∧ (∀ t ∈ front, t.isEnd = false) ∧
      Repeated S s as (front.map Token.kind) := by
  change collect step s c = (.ok as, c') at h
  -- along the calls of the repetition: the second case declines, the fourth takes a step
  fun_induction collect step s c generalizing as c' with
  | case1 => cases h
  | case2 s c c₁ hs =>
    cases h
    obtain ⟨front, hc, hend, hw⟩ := (hstep s).sound hs
    obtain rfl := List.map_eq_nil_iff.mp hw
    exact ⟨[], hc, hend, .nil⟩
  | case3 => cases h
  | case4 s c a s' c₁ hs hlt more c₂ hmore ih =>
    cases h
    obtain ⟨front, rfl, hend, hw⟩ := (hstep s).sound hs
    obtain ⟨back, rfl, hend', hrest⟩ := ih hmore
    refine ⟨front ++ back, (Cursor.putBack_append ..).symm, ?_, ?_⟩
    · intro t ht
      exact (List.mem_append.mp ht).elim (hend t) (hend' t)
    · rw [List.map_append]
      exact .cons hw hrest
  | case5 s c a s' c₁ hs hge =>
    -- a step that gives an item has consumed its spelling, which is not empty
    obtain ⟨front, rfl, -, hw⟩ := (hstep s).sound hs
    have hne : front ≠ [] := fun he => hS hw (by simp [he])
    have := List.length_pos_iff.mpr hne
    simp only [Cursor.ahead_putBack, List.length_append] at hge
    omega

theorem reads_collect_complete (hS : ∀ {s a s' w}, S s a s' w → ∃ k v, w = k :: v ∧ F k)
    (hF : ∀ {k}, E k → F k)
    (hstep : ∀ s, Reads (step s) (StepSpelling S s) (StepFollows F E)) {s : σ} {c : Cursor}
    {as : List α} {front : List Token} (h : Repeated S s as (front.map Token.kind))
    (hk : E c.current.kind) : (collect step s).runFrom (c.putBack front) = (.ok as, c) := by
  generalize hw : front.map Token.kind = w at h
  induction h generalizing front with
  | @nil s =>
    obtain rfl := List.map_eq_nil_iff.mp hw
    have hs : (step s).runFrom (c.putBack []) = (.ok none, c) := (hstep s).complete rfl hk
    change step s c = _ at hs
    change collect step s c = _
    rw [collect, hs]
  | @cons s s' a as u v hs hrest ih =>
    obtain ⟨front, back, rfl, rfl, rfl⟩ := List.map_eq_append_iff.mp hw
    -- the next step, or the token where the repetition stops, is what follows this step
    have hfollow : F (c.putBack back).current.kind := by
      rw [Cursor.kind_current_putBack]
      exact hrest.headD hS hF hk
    have hrun : step s ((c.putBack back).putBack front) = (.ok (some (a, s')), c.putBack back) :=
      (hstep s).complete (a := some (a, s')) hs hfollow
    have hlt : (c.putBack back).ahead.length < ((c.putBack back).putBack front).ahead.length := by
      obtain ⟨k, v', hu, -⟩ := hS hs
      have := congrArg List.length hu
      simp only [Cursor.ahead_putBack, List.length_append, List.length_map, List.length_cons] at *
      omega
    have hmore : collect step s' (c.putBack back) = (.ok as, c) := ih rfl
    change collect step s (c.putBack (front ++ back)) = _
    rw [Cursor.putBack_append, collect, hrun]
    simp only [hlt, if_true, hmore]

/-- A repetition reads its steps one after the other, up to a token where the step declines. -/
theorem reads_collect (hS : ∀ {s a s' w}, S s a s' w → ∃ k v, w = k :: v ∧ F k)
    (hF : ∀ {k}, E k → F k)
    (hstep : ∀ s, Reads (step s) (StepSpelling S s) (StepFollows F E)) (s : σ) :
    Reads (collect step s) (Repeated S s) (fun _ => E) := by
  refine ⟨reads_collect_sound (fun hs => ?_) hstep, reads_collect_complete hS hF hstep⟩
  obtain ⟨k, v, rfl, -⟩ := hS hs
  simp

/-! ### Lists -/

/-- A step that starts with a comma. -/
def AfterComma (S : σ → α → σ → List TokenKind → Prop) (s : σ) (a : α) (s' : σ)
    (w : List TokenKind) : Prop :=
  ∃ u, S s a s' u ∧ w = .symbol .comma :: u

/-- The step of a list: a comma and one more item, or nothing where there is no comma. -/
theorem reads_afterComma {item : Parser (Option (α × σ))} {s : σ}
    (hitem : Reads item (fun o w => ∃ a s', o = some (a, s') ∧ S s a s' w) (fun _ => F))
    (hF : ∀ {k}, E k → F k) (hcomma : ¬ E (.symbol .comma)) :
    Reads (do if ← consumeIf (.symbol .comma) then item else return none)
      (StepSpelling (AfterComma S) s) (StepFollows F E) := by
  have hitem' : Reads item (fun o w => ∃ a s', o = some (a, s') ∧ S s a s' w)
      (StepFollows F E) := by
    refine hitem.congr (fun _ _ => Iff.rfl) fun o k hk => ?_
    cases o with
    | none => exact hF hk
    | some _ => exact hk
  refine (Reads.ifConsumed (isFixed_symbol .comma) hitem' (Reads.pure none) ?_).respell ?_
  · rintro o v k ⟨rfl, rfl⟩ hk rfl
    exact hcomma hk
  · rintro (_ | ⟨a, s'⟩) w
    · simp [StepSpelling]
    · refine ⟨?_, ?_⟩
      · rintro (⟨v, ⟨a, s', ho, hs⟩, rfl⟩ | ⟨ho, -⟩) <;> cases ho
        exact ⟨v, hs, rfl⟩
      · rintro ⟨u, hs, rfl⟩
        exact .inl ⟨u, ⟨a, s', rfl, hs⟩, rfl⟩

/-- A list is an item with what repeated steps add to it. -/
theorem commaSeparated_iff_repeated {S : α → List TokenKind → Prop} {as : List α}
    {w : List TokenKind} :
    Grammar.CommaSeparated S as w ↔
      ∃ a more u v, S a u ∧ Repeated (AfterComma fun (_ : Unit) a _ => S a) () more v ∧
        as = a :: more ∧ w = u ++ v := by
  refine ⟨?_, ?_⟩
  · intro h
    induction h with
    | single hs => exact ⟨_, [], _, [], hs, .nil, rfl, by simp⟩
    | more hs _ ih =>
      obtain ⟨a, more, u, v, hs', hrep, rfl, rfl⟩ := ih
      exact ⟨_, a :: more, _, _, hs, .cons ⟨u, hs', rfl⟩ hrep, rfl, rfl⟩
  · rintro ⟨a, more, u, v, hs, hrep, rfl, rfl⟩
    -- the item in front is carried along: each step makes the one it adds the next in front
    generalize () = s at hrep
    induction hrep generalizing a u with
    | nil => simpa using Grammar.CommaSeparated.single hs
    | cons hs' _ ih =>
      obtain ⟨u', hs', rfl⟩ := hs'
      exact .more hs (ih _ _ hs')

/-- A list of items before a token that is no comma. -/
theorem reads_commaSeparated {item : Parser α} {S : α → List TokenKind → Prop}
    (hitem : Reads item S Anything) :
    Reads (commaSeparated item) (Grammar.CommaSeparated S) (fun _ k => k ≠ .symbol .comma) := by
  have hmore := reads_collect (F := fun _ => True) (E := fun k => k ≠ .symbol .comma)
    (S := AfterComma fun (_ : Unit) a _ => S a)
    (fun ⟨u, _, hw⟩ => ⟨_, u, hw, trivial⟩) (fun _ => trivial)
    (fun s => reads_afterComma
      ((hitem.map (G := fun _ _ => True) (fun a => some (a, ())) fun _ _ _ => trivial).respell
        fun o w => ⟨fun ⟨a, hs, ho⟩ => ⟨a, (), ho, hs⟩, fun ⟨a, (), ho, hs⟩ => ⟨a, hs, ho⟩⟩)
      (fun _ => trivial) (fun h => h rfl)) ()
  refine (hitem.andThen fun first => hmore.map (first :: ·) fun _ _ hk => hk).respell
    fun as w => ?_
  rw [commaSeparated_iff_repeated]
  refine ⟨?_, ?_⟩
  · rintro ⟨a, u, v, hs, ⟨more, hrep, rfl⟩, rfl⟩
    exact ⟨a, more, u, v, hs, hrep, rfl, rfl⟩
  · rintro ⟨a, more, u, v, hs, hrep, rfl, rfl⟩
    exact ⟨a, u, v, hs, ⟨more, hrep, rfl⟩, rfl⟩

end Repetition

/-- Something between parentheses that may be followed by the closing one. -/
theorem reads_parenthesized {α : Type} {p : Parser α} {S : α → List TokenKind → Prop}
    {F : α → TokenKind → Prop} (hp : Reads p S F) (hF : ∀ a, F a (.symbol .rightParen)) :
    Reads (parenthesized p) (Grammar.Parenthesized S) Anything := by
  refine ((reads_symbol .leftParen).andThen fun _ => hp.bind (fun a =>
    (reads_symbol .rightParen).andThen fun _ => Reads.pure a) ?_).respell fun a w => ?_
  · rintro a b _ k ⟨_, _, v, rfl, ⟨rfl, rfl⟩, rfl⟩ -
    exact hF b
  · refine ⟨?_, ?_⟩
    · rintro ⟨_, _, _, rfl, ⟨b, u, _, hs, ⟨_, _, _, rfl, ⟨rfl, rfl⟩, rfl⟩, rfl⟩, rfl⟩
      exact ⟨u, hs, by simp⟩
    · rintro ⟨v, hs, rfl⟩
      exact ⟨(), _, _, rfl, ⟨a, v, _, hs, ⟨(), _, _, rfl, ⟨rfl, rfl⟩, rfl⟩, rfl⟩, by simp⟩

end TableSchema.Ddl
