import TableSchema.Proofs.Ddl.Predictive

/-!
# What a failing parser suggests

A parser that fails where a token does not fit names kinds that it would have taken there. What is
known of all tokens of these kinds, after the tokens consumed, is what the parser suggests
(`Suggests`). A *candid* parser suggests only what its grammar goes on with: behind the tokens
consumed, any token of a kind that is named goes on with some spelling (`Candid.suggests`).

Both are kept by sequences, choices and repetitions. What a part suggests, the whole suggests behind
what the parts ahead have consumed, and the parts behind it complete the spelling.
-/

namespace TableSchema.Ddl

open Ddl.Parser Grammar

section Suggestions

variable {α β σ : Type} {p q : Parser α} {S S' T : α → List TokenKind → Prop}
  {F F' : α → TokenKind → Prop} {A A' C : List TokenKind → TokenKind → Prop}

/-! ## Suggestions -/

/-- Where a parser fails and names kinds, all tokens of these kinds are related to what was
consumed. -/
def Suggests (p : Parser α) (A : List TokenKind → TokenKind → Prop) : Prop :=
  ∀ ⦃c c' : Cursor⦄ ⦃kinds : List TokenKind⦄ ⦃t : Token⦄,
    p.runFrom c = (.error (.expected kinds t), c') →
      ∃ front, c = c'.putBack front ∧
        ∀ wanted ∈ kinds, ∀ k : TokenKind, k.accepts wanted = true → A (front.map Token.kind) k

/-- Some spelling goes on with a kind after some others. -/
def Continues (S : α → List TokenKind → Prop) (w : List TokenKind) (k : TokenKind) : Prop :=
  ∃ a v, S a (w ++ k :: v)

/-- What goes on with one spelling goes on with any that covers it. -/
theorem Continues.mono {k : TokenKind} {w : List TokenKind} {T : β → List TokenKind → Prop}
    (h : Continues S w k) (hS : ∀ {a v}, S a v → ∃ b, T b v) : Continues T w k := by
  obtain ⟨a, v, hv⟩ := h
  obtain ⟨b, hb⟩ := hS hv
  exact ⟨b, v, hb⟩

namespace Suggests

/-- A suggestion may say less. -/
theorem mono (hp : Suggests p A) (hA : ∀ {w k}, A w k → A' w k) : Suggests p A' := by
  intro c c' kinds t h
  obtain ⟨front, hc, hkinds⟩ := hp h
  exact ⟨front, hc, fun wanted hw k hk => hA (hkinds wanted hw k hk)⟩

/-- What does not fail suggests nothing. -/
theorem pure (a : α) : Suggests (Pure.pure a : Parser α) A := by
  intro c c' kinds t h
  cases h

/-- A failure suggests the kinds that it names, and nothing was consumed. -/
theorem failExpecting {wanted : List TokenKind}
    (h : ∀ w ∈ wanted, ∀ k : TokenKind, k.accepts w = true → A [] k) :
    Suggests (Parser.failExpecting wanted : Parser α) A := by
  intro c c' kinds t hrun
  cases hrun
  exact ⟨[], rfl, h⟩

/-- A sequence suggests what its first part does, and behind what that reads, what its second part
does. -/
theorem bind {q : α → Parser β} {B : α → List TokenKind → TokenKind → Prop} (hr : Reads p S F)
    (hp : Suggests p A) (hq : ∀ a, Suggests (q a) (B a)) (hA : ∀ {w k}, A w k → C w k)
    (hB : ∀ {a u v k}, S a u → B a v k → C (u ++ v) k) : Suggests (p >>= q) C := by
  intro c c'' kinds t h
  rw [runFrom_bind] at h
  rcases hrun : p.runFrom c with ⟨_ | a, c'⟩
  · rw [hrun] at h
    cases h
    exact hp.mono hA hrun
  · rw [hrun] at h
    obtain ⟨front, rfl, -, hu⟩ := hr.sound hrun
    obtain ⟨back, rfl, hkinds⟩ := hq a h
    refine ⟨front ++ back, (Cursor.putBack_append ..).symm, fun wanted hw k hk => ?_⟩
    rw [List.map_append]
    exact hB hu (hkinds wanted hw k hk)

theorem map (f : α → β) (hp : Suggests p A) : Suggests (do return f (← p)) A := by
  intro c c' kinds t h
  rw [runFrom_bind] at h
  rcases hrun : p.runFrom c with ⟨_ | a, c''⟩ <;> rw [hrun] at h <;> cases h
  exact hp hrun

/-! ### Choices -/

/-- A parser that goes by the current token suggests what it does for each kind. -/
theorem byCurrent {q : TokenKind → Parser α}
    (hrun : ∀ c, p.runFrom c = (q c.current.kind).runFrom c) (hq : ∀ k, Suggests (q k) A) :
    Suggests p A := by
  intro c c' kinds t h
  rw [hrun] at h
  exact hq _ h

/-- A choice suggests behind the token that decides it what the branch does. -/
theorem dispatch {B : TokenKind → Option (Parser α)}
    {D : TokenKind → List TokenKind → TokenKind → Prop}
    (hrun : ∀ c, p.runFrom c = (B c.current.kind).elim (q.runFrom c) (·.runFrom c.advance))
    (hend : B .endOfInput = none) (hbranch : ∀ {k r}, B k = some r → Suggests r (D k))
    (hq : Suggests q A) (hD : ∀ {k r w k'}, B k = some r → D k w k' → C (k :: w) k')
    (hA : ∀ {w k}, A w k → C w k) : Suggests p C := by
  intro c c' kinds t h
  rw [hrun] at h
  rcases hb : B c.current.kind with _ | r
  · rw [hb] at h
    exact hq.mono hA h
  · rw [hb] at h
    obtain ⟨front, hc, hkinds⟩ := hbranch hb h
    have hcur := Token.isEnd_eq_false_of_branch hend hb
    exact ⟨c.current :: front, Cursor.eq_putBack_cons hcur hc,
      fun wanted hw k hk => hD hb (hkinds wanted hw k hk)⟩

/-- A mark that may be there suggests what each of the two ways to go on does. -/
theorem ifConsumed {mark : TokenKind} {B : List TokenKind → TokenKind → Prop} (hm : mark.IsFixed)
    (hp : Suggests p A) (hq : Suggests q B) (hA : ∀ {w k}, A w k → C (mark :: w) k)
    (hB : ∀ {w k}, B w k → C w k) : Suggests (do if ← consumeIf mark then p else q) C := by
  refine dispatch (B := fun k => if k = mark then some p else none) (D := fun _ => A)
    (runFrom_ifConsumed hm p q) (if_neg (Ne.symm hm.1)) ?_ hq ?_ hB
  · intro k r hb
    obtain ⟨-, hr⟩ := Option.ite_none_right_eq_some.mp hb
    cases hr
    exact hp
  · intro k r w k' hb hw
    obtain ⟨rfl, -⟩ := Option.ite_none_right_eq_some.mp hb
    exact hA hw

end Suggests

/-! ### Repetition -/

section Repetition

variable {step : σ → Parser (Option (α × σ))} {S : σ → α → σ → List TokenKind → Prop}
  {F E : TokenKind → Prop} {A B : σ → List TokenKind → TokenKind → Prop}

/-- What is related to what some step has consumed, behind the steps ahead of it. -/
inductive AfterSteps (S : σ → α → σ → List TokenKind → Prop)
    (A : σ → List TokenKind → TokenKind → Prop) : σ → List TokenKind → TokenKind → Prop where
  | here {s : σ} {w : List TokenKind} {k : TokenKind} : A s w k → AfterSteps S A s w k
  | step {s s' : σ} {a : α} {u v : List TokenKind} {k : TokenKind} :
    S s a s' u → AfterSteps S A s' v k → AfterSteps S A s (u ++ v) k

/-- What is suggested behind the steps taken is suggested by one alternative or by the other. -/
theorem AfterSteps.or {s : σ} {w : List TokenKind} {k : TokenKind}
    (h : AfterSteps S (fun s w k => A s w k ∨ B s w k) s w k) :
    AfterSteps S A s w k ∨ AfterSteps S B s w k := by
  induction h with
  | here h => exact h.imp .here .here
  | step hs _ ih => exact ih.imp (.step hs) (.step hs)

/-- A step that is begun behind others is one more of them. -/
theorem AfterSteps.continues {s : σ} {w : List TokenKind} {k : TokenKind}
    (h : AfterSteps S (fun s => Continues (StepSpelling S s)) s w k) :
    Continues (Repeated S s) w k := by
  induction h with
  | here h =>
    obtain ⟨_ | ⟨a, s'⟩, v, hv⟩ := h
    · exact absurd hv (by simp [StepSpelling])
    · exact ⟨[a], v, by simpa using Repeated.cons hv .nil⟩
  | step hs _ ih =>
    obtain ⟨as, v, hv⟩ := ih
    have hrep := Repeated.cons hs hv
    rw [← List.append_assoc] at hrep
    exact ⟨_, v, hrep⟩

/-- A repetition suggests behind the steps taken what one more step does. -/
theorem Suggests.collect (hr : ∀ s, Reads (step s) (StepSpelling S s) (StepFollows F E))
    (hstep : ∀ s, Suggests (step s) (A s)) (s : σ) :
    Suggests (collect step s) (AfterSteps S A s) := by
  intro c c' kinds t h
  change Parser.collect step s c = (.error (.expected kinds t), c') at h
  fun_induction Parser.collect step s c generalizing c' with
  | case1 s c e c₁ hs =>
    cases h
    exact (hstep s).mono .here hs
  | case2 => cases h
  | case3 s c a s' c₁ hs hlt e c₂ hmore ih =>
    cases h
    obtain ⟨front, rfl, -, hu⟩ := (hr s).sound hs
    obtain ⟨back, rfl, hkinds⟩ := ih hmore
    refine ⟨front ++ back, (Cursor.putBack_append ..).symm, fun wanted hw k hk => ?_⟩
    rw [List.map_append]
    exact .step hu (hkinds wanted hw k hk)
  | case4 => cases h
  | case5 => cases h

end Repetition

/-! ## Candid parsers -/

/-- A predictive parser that suggests only what its grammar goes on with, or what is excepted. -/
structure CandidUpTo (p : Parser α) (S : α → List TokenKind → Prop) (F : α → TokenKind → Prop)
    (X : List TokenKind → TokenKind → Prop) : Prop extends Predictive p S F where
  /-- any token of a kind that is named goes on with a spelling, or is excepted -/
  suggests : Suggests p fun w k => Continues S w k ∨ X w k

/-- A predictive parser that suggests only what its grammar goes on with. -/
structure Candid (p : Parser α) (S : α → List TokenKind → Prop) (F : α → TokenKind → Prop) :
    Prop extends Predictive p S F where
  /-- any token of a kind that is named goes on with a spelling -/
  suggests : Suggests p (Continues S)

/-- A candid parser needs no exception. -/
theorem Candid.upTo {X : List TokenKind → TokenKind → Prop} (hp : Candid p S F) :
    CandidUpTo p S F X where
  toPredictive := hp.toPredictive
  suggests := hp.suggests.mono .inl

namespace CandidUpTo

variable {X X' : List TokenKind → TokenKind → Prop}

/-- Without an exception, a parser is candid. -/
theorem candid (hp : CandidUpTo p S F fun _ _ => False) : Candid p S F where
  toPredictive := hp.toPredictive
  suggests := hp.suggests.mono fun h => h.resolve_right id

theorem mono (hp : CandidUpTo p S F X) (hr : Reads p S' F') (hS : ∀ {a w}, S a w → S' a w)
    (hX : ∀ {w k}, X w k → X' w k) : CandidUpTo p S' F' X' where
  toPredictive := hp.toPredictive.mono hr hS
  suggests := hp.suggests.mono fun h => h.imp (·.mono fun ha => ⟨_, hS ha⟩) hX

/-- The spellings may be told in another way. -/
theorem respell (hp : CandidUpTo p S F X) (hF : ∀ a, ∃ k, F a k) (hr : Reads p S' F)
    (hX : ∀ {w k}, X w k → X' w k) : CandidUpTo p S' F X' :=
  hp.mono hr (hp.toReads.spells_of_reads hF hr) hX

/-- A part that is begun is completed, and then anything that the parts after it read goes on. What
is excepted for a part may go on with a spelling of the whole. -/
theorem bind {q : α → Parser β} {T : α → β → List TokenKind → Prop} {G : β → TokenKind → Prop}
    {Y : α → List TokenKind → TokenKind → Prop} {Z : List TokenKind → TokenKind → Prop}
    (hp : CandidUpTo p S F X) (hq : ∀ a, CandidUpTo (q a) (T a) G (Y a))
    (hF : ∀ {a b v k}, T a b v → G b k → F a (v.headD k))
    (hX : ∀ {w k}, X w k →
      (∃ a b u v v', S a u ∧ T a b v ∧ w ++ k :: v' = u ++ v) ∨ Z w k)
    (hY : ∀ {a u v k}, S a u → Y a v k →
      (∃ a' b u' v' v'', S a' u' ∧ T a' b v' ∧ (u ++ v) ++ k :: v'' = u' ++ v') ∨ Z (u ++ v) k) :
    CandidUpTo (p >>= q) (fun b w => ∃ a u v, S a u ∧ T a b v ∧ w = u ++ v) G Z where
  toPredictive := hp.toPredictive.bind (fun a => (hq a).toPredictive) hF
  suggests := by
    have hcontinues {w : List TokenKind} {k : TokenKind} :
        (∃ a b u v v', S a u ∧ T a b v ∧ w ++ k :: v' = u ++ v) →
          Continues (fun b w => ∃ a u v, S a u ∧ T a b v ∧ w = u ++ v) w k := by
      rintro ⟨a, b, u, v, v', hu, hv, hw⟩
      exact ⟨b, v', a, u, v, hu, hv, hw⟩
    refine .bind hp.toReads hp.suggests (fun a => (hq a).suggests) ?_ ?_
    · rintro w k (⟨a, u, hu⟩ | hx)
      · obtain ⟨b, v, hv⟩ := (hq a).exists_spelling
        exact .inl ⟨b, u ++ v, a, _, v, hu, hv, by simp⟩
      · exact (hX hx).imp_left hcontinues
    · rintro a u v k hu (⟨b, v', hv⟩ | hy)
      · exact .inl ⟨b, v', a, u, _, hu, hv, List.append_assoc ..⟩
      · exact (hY hu hy).imp_left hcontinues

theorem map (f : α → β) (hp : CandidUpTo p S F X) {G : β → TokenKind → Prop}
    (hG : ∀ a k, G (f a) k → F a k) (hG' : ∀ b, ∃ k, G b k) :
    CandidUpTo (do return f (← p)) (fun b w => ∃ a, S a w ∧ b = f a) G X where
  toPredictive := hp.toPredictive.map f hG hG'
  suggests := (hp.suggests.map f).mono fun h =>
    h.imp_left fun hc => hc.mono fun ha => ⟨_, _, ha, rfl⟩

end CandidUpTo

namespace Candid

/-- What is excepted behind what a candid parser reads. -/
theorem behind {q : α → Parser β} {T : α → β → List TokenKind → Prop} {G : β → TokenKind → Prop}
    {Y : α → List TokenKind → TokenKind → Prop} (hp : Candid p S F)
    (hq : ∀ a, CandidUpTo (q a) (T a) G (Y a))
    (hF : ∀ {a b v k}, T a b v → G b k → F a (v.headD k)) :
    CandidUpTo (p >>= q) (fun b w => ∃ a u v, S a u ∧ T a b v ∧ w = u ++ v) G fun w k =>
      ∃ a u v, S a u ∧ Y a v k ∧ w = u ++ v :=
  (hp.upTo (X := fun _ _ => False)).bind hq hF (fun hx => hx.elim)
    fun hu hy => .inr ⟨_, _, _, hu, hy, rfl⟩

/-- A candid parser is candid with regard to any grammar that covers its own. -/
theorem mono (hp : Candid p S F) (hr : Reads p S' F') (hS : ∀ {a w}, S a w → S' a w) :
    Candid p S' F' :=
  (hp.upTo.mono hr hS id).candid

/-- The spellings may be told in another way. -/
theorem respell (hp : Candid p S F) (hF : ∀ a, ∃ k, F a k) (hr : Reads p S' F) :
    Candid p S' F :=
  (hp.upTo.respell hF hr id).candid

/-- What consumes nothing and does not fail is candid. -/
theorem pure (a : α) : Candid (Pure.pure a : Parser α) (fun b w => b = a ∧ w = []) F where
  toPredictive := .pure a
  suggests := .pure a

/-- A sequence is candid if its parts are, and if what the second starts with can follow the first.
-/
theorem bind {q : α → Parser β} {T : α → β → List TokenKind → Prop} {G : β → TokenKind → Prop}
    (hp : Candid p S F) (hq : ∀ a, Candid (q a) (T a) G)
    (hF : ∀ {a b v k}, T a b v → G b k → F a (v.headD k)) :
    Candid (p >>= q) (fun b w => ∃ a u v, S a u ∧ T a b v ∧ w = u ++ v) G :=
  ((hp.upTo (X := fun _ _ => False)).bind (Y := fun _ _ _ => False) (fun a => (hq a).upTo) hF
    (fun hx => hx.elim) fun _ hy => hy.elim).candid

/-- Behind something that anything can follow, the second part of a sequence decides. -/
theorem andThen {q : α → Parser β} {T : α → β → List TokenKind → Prop} {G : β → TokenKind → Prop}
    (hp : Candid p S Anything) (hq : ∀ a, Candid (q a) (T a) G) :
    Candid (p >>= q) (fun b w => ∃ a u v, S a u ∧ T a b v ∧ w = u ++ v) G :=
  hp.bind hq fun _ _ => trivial

theorem map (f : α → β) (hp : Candid p S F) {G : β → TokenKind → Prop}
    (hG : ∀ a k, G (f a) k → F a k) (hG' : ∀ b, ∃ k, G b k) :
    Candid (do return f (← p)) (fun b w => ∃ a, S a w ∧ b = f a) G :=
  (hp.upTo.map f hG hG').candid

/-- A choice is candid if its branches are. -/
theorem dispatch {B : TokenKind → Option (Parser α)} {S : TokenKind → α → List TokenKind → Prop}
    (hrun : ∀ c, p.runFrom c = (B c.current.kind).elim (q.runFrom c) (·.runFrom c.advance))
    (hend : B .endOfInput = none) (hbranch : ∀ {k r}, B k = some r → Candid r (S k) F)
    (hq : Candid q T F) (hT : ∀ {a v k}, T a v → F a k → B (v.headD k) = none) :
    Candid p (fun a w => (∃ k r v, B k = some r ∧ S k a v ∧ w = k :: v) ∨ T a w) F where
  toPredictive := .dispatch hrun hend (fun hb => (hbranch hb).toPredictive) hq.toPredictive hT
  suggests := by
    refine .dispatch hrun hend (fun hb => (hbranch hb).suggests) hq.suggests ?_
      fun h => h.mono fun ha => ⟨_, .inr ha⟩
    rintro k r w k' hb ⟨a, v, hv⟩
    exact ⟨a, v, .inl ⟨k, r, _, hb, hv, rfl⟩⟩

/-- A mark that may be there is candid if both ways to go on are. -/
theorem ifConsumed {mark : TokenKind} (hm : mark.IsFixed) (hp : Candid p S F)
    (hq : Candid q T F) (hT : ∀ {a v k}, T a v → F a k → v.headD k ≠ mark) :
    Candid (do if ← consumeIf mark then p else q)
      (fun a w => (∃ v, S a v ∧ w = mark :: v) ∨ T a w) F where
  toPredictive := .ifConsumed hm hp.toPredictive hq.toPredictive hT
  suggests := by
    refine .ifConsumed hm hp.suggests hq.suggests ?_ fun h => h.mono fun ha => ⟨_, .inr ha⟩
    rintro w k ⟨a, v, hv⟩
    exact ⟨a, v, .inl ⟨_, hv, rfl⟩⟩

end Candid

/-! ### Single tokens -/

/-- A parser that takes one token is candid if it can take every token that it names. -/
theorem TakesOne.candid {value : TokenKind → Option α} {wanted : List TokenKind}
    (hp : TakesOne p value wanted) (hend : value .endOfInput = none) {k : TokenKind} {a : α}
    (hk : value k = some a)
    (hwanted : ∀ w ∈ wanted, ∀ k : TokenKind, k.accepts w = true → ∃ a, value k = some a) :
    Candid p (fun a w => ∃ k, value k = some a ∧ w = [k]) Anything where
  toPredictive := hp.predictive hend hk
  suggests := by
    intro c c' kinds t h
    rw [hp c] at h
    split at h <;> cases h
    refine ⟨[], rfl, fun w hw k hk => ?_⟩
    obtain ⟨a, ha⟩ := hwanted w hw k hk
    exact ⟨a, [], k, ha, rfl⟩

/-- Where one token is wanted, that token would have been taken. -/
theorem candid_expect {wanted : TokenKind} (hw : wanted.IsFixed) :
    Candid (do let _ ← expect wanted) (fun _ w => w = [wanted]) Anything := by
  refine ((takesOne_expect hw).candid (if_neg (Ne.symm hw.1)) (if_pos rfl) ?_).respell
    exists_anything (reads_expect hw)
  intro w hmem k hk
  obtain rfl := List.mem_singleton.mp hmem
  exact ⟨(), if_pos ((hw.2 k).mp hk)⟩

theorem candid_keyword (word : Keyword) :
    Candid (keyword word) (fun _ w => w = [.keyword word]) Anything :=
  candid_expect (isFixed_keyword word)

theorem candid_symbol (mark : Symbol) :
    Candid (symbol mark) (fun _ w => w = [.symbol mark]) Anything :=
  candid_expect (isFixed_symbol mark)

/-- Where a name is wanted, any name is accepted, and nothing else. -/
theorem TokenKind.exists_of_accepts_identifier {k : TokenKind} {wanted : String}
    (h : k.accepts (.identifier wanted) = true) : ∃ name, k = .identifier name := by
  cases k <;> simp [accepts] at h ⊢

/-- Where a number is wanted, any number is accepted, and nothing else. -/
theorem TokenKind.exists_of_accepts_number {k : TokenKind} {wanted : String}
    (h : k.accepts (.number wanted) = true) : ∃ text, k = .number text := by
  cases k <;> simp [accepts] at h ⊢

/-- Where a string is wanted, any string is accepted, and nothing else. -/
theorem TokenKind.exists_of_accepts_string {k : TokenKind} {wanted : String}
    (h : k.accepts (.string wanted) = true) : ∃ text, k = .string text := by
  cases k <;> simp [accepts] at h ⊢

theorem candid_identifier : Candid identifier Name Anything := by
  refine (takesOne_identifier.candid (k := .identifier "") rfl rfl ?_).respell exists_anything
    reads_identifier
  intro w hw k hk
  obtain rfl := List.mem_singleton.mp hw
  obtain ⟨name, rfl⟩ := TokenKind.exists_of_accepts_identifier hk
  exact ⟨name, rfl⟩

theorem candid_number : Candid number (fun text w => w = [.number text]) Anything := by
  refine (takesOne_number.candid (k := .number "") rfl rfl ?_).respell exists_anything reads_number
  intro w hw k hk
  obtain rfl := List.mem_singleton.mp hw
  obtain ⟨text, rfl⟩ := TokenKind.exists_of_accepts_number hk
  exact ⟨text, rfl⟩

/-! ### Lists -/

section Repetition

variable {step : σ → Parser (Option (α × σ))} {S : σ → α → σ → List TokenKind → Prop}
  {F E : TokenKind → Prop}

/-- A repetition is candid up to an exception if its step is. -/
theorem candidUpTo_collect {X : σ → List TokenKind → TokenKind → Prop}
    (hS : ∀ {s a s' w}, S s a s' w → ∃ k v, w = k :: v ∧ F k) (hF : ∀ {k}, E k → F k)
    (hstep : ∀ s, CandidUpTo (step s) (StepSpelling S s) (StepFollows F E) (X s)) (s : σ) :
    CandidUpTo (collect step s) (Repeated S s) (fun _ => E) (AfterSteps S X s) where
  toPredictive := predictive_collect hS hF (fun s => (hstep s).toPredictive) s
  suggests := (Suggests.collect (fun s => (hstep s).toReads) (fun s => (hstep s).suggests) s).mono
    fun h => h.or.imp_left AfterSteps.continues

/-- A repetition is candid if its step is. -/
theorem candid_collect (hS : ∀ {s a s' w}, S s a s' w → ∃ k v, w = k :: v ∧ F k)
    (hF : ∀ {k}, E k → F k)
    (hstep : ∀ s, Candid (step s) (StepSpelling S s) (StepFollows F E)) (s : σ) :
    Candid (collect step s) (Repeated S s) (fun _ => E) where
  toPredictive := predictive_collect hS hF (fun s => (hstep s).toPredictive) s
  suggests := (Suggests.collect (fun s => (hstep s).toReads) (fun s => (hstep s).suggests) s).mono
    AfterSteps.continues

/-- What comes after a comma may bring an exception along. -/
theorem candidUpTo_afterComma {X : List TokenKind → TokenKind → Prop}
    {item : Parser (Option (α × σ))} {s : σ}
    (hitem : CandidUpTo item (fun o w => ∃ a s', o = some (a, s') ∧ S s a s' w) (fun _ => F) X)
    (hF : ∀ {k}, E k → F k) (hcomma : ¬ E (.symbol .comma)) (hE : ∃ k, E k) :
    CandidUpTo (do if ← consumeIf (.symbol .comma) then item else return none)
      (StepSpelling (AfterComma S) s) (StepFollows F E)
      fun w k => ∃ v, w = .symbol .comma :: v ∧ X v k where
  toPredictive := predictive_afterComma hitem.toPredictive hF hcomma hE
  suggests := by
    refine .ifConsumed (isFixed_symbol .comma) hitem.suggests (B := fun _ _ => False) (.pure none)
      ?_ (fun h => h.elim)
    rintro w k (⟨o, v, a, s', rfl, hv⟩ | hx)
    · exact .inl ⟨some (a, s'), v, w ++ k :: v, hv, rfl⟩
    · exact .inr ⟨w, rfl, hx⟩

theorem candid_afterComma {item : Parser (Option (α × σ))} {s : σ}
    (hitem : Candid item (fun o w => ∃ a s', o = some (a, s') ∧ S s a s' w) (fun _ => F))
    (hF : ∀ {k}, E k → F k) (hcomma : ¬ E (.symbol .comma)) (hE : ∃ k, E k) :
    Candid (do if ← consumeIf (.symbol .comma) then item else return none)
      (StepSpelling (AfterComma S) s) (StepFollows F E) := by
  have h := candidUpTo_afterComma (hitem.upTo (X := fun _ _ => False)) hF hcomma hE
  exact (h.mono h.toReads id fun ⟨_, _, hx⟩ => hx.elim).candid

/-- A list between commas is candid if its parts are. -/
theorem Candid.commaSeparated {S : α → List TokenKind → Prop} (hp : Candid p S Anything) :
    Candid (commaSeparated p) (CommaSeparated S) (fun _ k => k ≠ .symbol .comma) := by
  have hitem : Candid (do return some (← p, ()))
      (fun o w => ∃ a s', o = some (a, s') ∧ S a w) (fun _ _ => True) := by
    have h := hp.map (G := fun _ _ => True) (fun a => some (a, ())) (fun _ _ _ => trivial)
      fun _ => ⟨.endOfInput, trivial⟩
    refine h.mono (h.toReads.respell fun o w => ⟨?_, ?_⟩) ?_
    · exact fun ⟨a, hs, ho⟩ => ⟨a, (), ho, hs⟩
    · exact fun ⟨a, (), ho, hs⟩ => ⟨a, hs, ho⟩
    · exact fun ⟨a, hs, ho⟩ => ⟨a, (), ho, hs⟩
  have hmore := candid_collect (F := fun _ => True) (E := fun k => k ≠ .symbol .comma)
    (S := AfterComma fun (_ : Unit) a _ => S a) (fun ⟨u, _, hw⟩ => ⟨_, u, hw, trivial⟩)
    (fun _ => trivial) (fun s => candid_afterComma hitem (fun _ => trivial) (fun h => h rfl)
      ⟨.endOfInput, by simp⟩) ()
  exact (hp.andThen fun first => hmore.map (G := fun _ k => k ≠ .symbol .comma) (first :: ·)
    (fun _ _ hk => hk) fun _ => ⟨.endOfInput, by simp⟩).respell (fun _ => ⟨.endOfInput, by simp⟩)
    (reads_commaSeparated hp.toReads)

end Repetition

/-- Something between parentheses is candid if it is without them. -/
theorem Candid.parenthesized (hp : Candid p S F) (hF : ∀ a, F a (.symbol .rightParen)) :
    Candid (parenthesized p) (Parenthesized S) Anything := by
  refine ((candid_symbol .leftParen).andThen fun _ => hp.bind (fun a =>
    (candid_symbol .rightParen).andThen fun _ => .pure a) ?_).respell exists_anything
    (reads_parenthesized hp.toReads hF)
  rintro a b _ k ⟨_, _, v, rfl, ⟨rfl, rfl⟩, rfl⟩ -
  exact hF b

end Suggestions

end TableSchema.Ddl
