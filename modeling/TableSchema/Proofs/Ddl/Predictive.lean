import TableSchema.Proofs.Ddl.Determinacy

/-!
# Predictive parsers

A predictive parser reads its grammar by looking at one token at a time. When it fails, what it has
consumed so far is the beginning of something that it reads (`Predictive.exists_completion`), and
the token where it stopped has decided the failure (`Predictive.decided`). Both are kept by
sequences, choices and repetitions:

* a part that failed is completed, and then anything that the parts after it read goes on;
* a repetition can stop after each of its steps, so only the step that failed has to be completed.
-/

namespace TableSchema.Ddl

open Ddl.Parser Grammar

/-! ## Predictive parsers -/

section Predictive

variable {α β σ : Type} {p q : Parser α} {S S' T : α → List TokenKind → Prop}
  {F F' : α → TokenKind → Prop}

/-- A predictive parser of a relation: it reads the relation, one token decides each of its steps,
and a run that fails has consumed the beginning of a spelling. -/
structure Predictive (p : Parser α) (S : α → List TokenKind → Prop) (F : α → TokenKind → Prop) :
    Prop extends Reads p S F where
  /-- runs are decided by the kinds of the tokens up to the one where they stop -/
  decided : DecidedByKinds p
  /-- there is something to read -/
  exists_spelling : ∃ a w, S a w
  /-- what a failing run has consumed can be completed -/
  exists_completion : ∀ {c c' : Cursor} {e : ParseError}, p.runFrom c = (.error e, c') →
    ∃ front, c = c'.putBack front ∧ (∀ t ∈ front, t.isEnd = false) ∧
      ∃ a w, S a (front.map Token.kind ++ w)

namespace Predictive

/-- More spellings, if the parser reads them, and other tokens that may follow. -/
theorem mono (hp : Predictive p S F) (hr : Reads p S' F') (hS : ∀ {a w}, S a w → S' a w) :
    Predictive p S' F' where
  toReads := hr
  decided := hp.decided
  exists_spelling := by
    obtain ⟨a, w, hw⟩ := hp.exists_spelling
    exact ⟨a, w, hS hw⟩
  exists_completion h := by
    obtain ⟨front, hc, hend, a, w, hw⟩ := hp.exists_completion h
    exact ⟨front, hc, hend, a, w, hS hw⟩

/-- A parser reads one relation: what it reads before some tokens, it reads in every description. -/
theorem respell (hp : Predictive p S F) (hF : ∀ a, ∃ k, F a k) (hr : Reads p S' F) :
    Predictive p S' F :=
  hp.mono hr (hp.toReads.spells_of_reads hF hr)

theorem pure (a : α) : Predictive (Pure.pure a : Parser α) (fun b w => b = a ∧ w = []) F where
  toReads := .pure a
  decided := decidedByKinds_pure a
  exists_spelling := ⟨a, [], rfl, rfl⟩
  exists_completion h := by cases h

/-- Rules in sequence are predictive when the first stops at whatever the second can begin with. -/
theorem bind {q : α → Parser β} {T : α → β → List TokenKind → Prop} {G : β → TokenKind → Prop}
    (hp : Predictive p S F) (hq : ∀ a, Predictive (q a) (T a) G)
    (hF : ∀ {a b v k}, T a b v → G b k → F a (v.headD k)) :
    Predictive (p >>= q) (fun b w => ∃ a u v, S a u ∧ T a b v ∧ w = u ++ v) G where
  toReads := hp.toReads.bind (fun a => (hq a).toReads) hF
  decided := hp.decided.bind fun a => (hq a).decided
  exists_spelling := by
    obtain ⟨a, u, hu⟩ := hp.exists_spelling
    obtain ⟨b, v, hv⟩ := (hq a).exists_spelling
    exact ⟨b, u ++ v, a, u, v, hu, hv, rfl⟩
  exists_completion := by
    intro c c'' e h
    rw [runFrom_bind] at h
    rcases hrun : p.runFrom c with ⟨_ | a, c'⟩
    · -- a completion of the first part goes on with anything that the second reads
      rw [hrun] at h
      cases h
      obtain ⟨front, hc, hend, a, u, hu⟩ := hp.exists_completion hrun
      obtain ⟨b, v, hv⟩ := (hq a).exists_spelling
      exact ⟨front, hc, hend, b, u ++ v, a, _, v, hu, hv, (List.append_assoc ..).symm⟩
    · rw [hrun] at h
      obtain ⟨front, rfl, hend, hu⟩ := hp.sound hrun
      obtain ⟨back, rfl, hend', b, v, hv⟩ := (hq a).exists_completion h
      refine ⟨front ++ back, (Cursor.putBack_append ..).symm, ?_, b, v, a, _, _, hu, hv, ?_⟩
      · exact List.forall_mem_append.mpr ⟨hend, hend'⟩
      · rw [List.map_append, List.append_assoc]

theorem map (f : α → β) (hp : Predictive p S F) {G : β → TokenKind → Prop}
    (hG : ∀ a k, G (f a) k → F a k) (hG' : ∀ b, ∃ k, G b k) :
    Predictive (do return f (← p)) (fun b w => ∃ a, S a w ∧ b = f a) G := by
  refine (hp.bind (T := fun a b v => b = f a ∧ v = []) (G := G) (fun a => pure (f a)) ?_).respell
    hG' (hp.toReads.map f hG)
  rintro a b v k ⟨rfl, rfl⟩ hk
  exact hG a k hk

/-! ## Choices -/

/-- A rule that chooses its branch by the current token is predictive when its branches are. -/
theorem dispatch {B : TokenKind → Option (Parser α)} {S : TokenKind → α → List TokenKind → Prop}
    (hrun : ∀ c, p.runFrom c = (B c.current.kind).elim (q.runFrom c) (·.runFrom c.advance))
    (hend : B .endOfInput = none) (hbranch : ∀ {k r}, B k = some r → Predictive r (S k) F)
    (hq : Predictive q T F) (hT : ∀ {a v k}, T a v → F a k → B (v.headD k) = none) :
    Predictive p (fun a w => (∃ k r v, B k = some r ∧ S k a v ∧ w = k :: v) ∨ T a w) F where
  toReads := .dispatch hrun hend (fun hb => (hbranch hb).toReads) hq.toReads hT
  decided := .dispatch hrun hend (fun hb => (hbranch hb).decided) hq.decided
  exists_spelling := by
    obtain ⟨a, w, hw⟩ := hq.exists_spelling
    exact ⟨a, w, .inr hw⟩
  exists_completion := by
    intro c c' e h
    rw [hrun] at h
    rcases hb : B c.current.kind with _ | r
    · rw [hb] at h
      obtain ⟨front, hc, hfront, a, w, hw⟩ := hq.exists_completion h
      exact ⟨front, hc, hfront, a, w, .inr hw⟩
    · rw [hb] at h
      obtain ⟨front, hc, hfront, a, w, hw⟩ := (hbranch hb).exists_completion h
      have hcur := Token.isEnd_eq_false_of_branch hend hb
      exact ⟨c.current :: front, Cursor.eq_putBack_cons hcur hc,
        List.forall_mem_cons.mpr ⟨hcur, hfront⟩, a, w, .inl ⟨_, r, _, hb, hw, rfl⟩⟩

theorem ifConsumed {mark : TokenKind} (hm : mark.IsFixed) (hp : Predictive p S F)
    (hq : Predictive q T F) (hT : ∀ {a v k}, T a v → F a k → v.headD k ≠ mark) :
    Predictive (do if ← consumeIf mark then p else q)
      (fun a w => (∃ v, S a v ∧ w = mark :: v) ∨ T a w) F := by
  refine (dispatch (B := fun k => if k = mark then some p else none) (S := fun _ => S)
    (runFrom_ifConsumed hm p q) (if_neg (Ne.symm hm.1)) ?_ hq fun ht hk => if_neg (hT ht hk)).mono
    (hp.toReads.ifConsumed hm hq.toReads hT) ?_
  · intro k r hb
    obtain ⟨-, hr⟩ := Option.ite_none_right_eq_some.mp hb
    cases hr
    exact hp
  · rintro a w (⟨k, r, v, hb, hv, rfl⟩ | ht)
    · obtain ⟨rfl, -⟩ := Option.ite_none_right_eq_some.mp hb
      exact .inl ⟨v, hv, rfl⟩
    · exact .inr ht

end Predictive

/-! ## Single tokens -/

theorem exists_anything (a : α) : ∃ k, Anything a k := ⟨.endOfInput, trivial⟩

/-- A parser that takes one token is predictive if it can take some token at all. -/
theorem TakesOne.predictive {value : TokenKind → Option α} {wanted : List TokenKind}
    (hp : TakesOne p value wanted) (hend : value .endOfInput = none) {k : TokenKind} {a : α}
    (hk : value k = some a) :
    Predictive p (fun a w => ∃ k, value k = some a ∧ w = [k]) Anything where
  toReads := hp.reads hend
  decided := hp.decidedByKinds hend
  exists_spelling := ⟨a, [k], k, hk, rfl⟩
  exists_completion := by
    intro c c' e h
    rw [hp c] at h
    split at h
    · cases h
    · obtain ⟨-, rfl⟩ := Prod.mk.inj h
      exact ⟨[], rfl, by simp, a, [k], k, hk, rfl⟩

/-! ## Repetition -/

section Repetition

variable {step : σ → Parser (Option (α × σ))} {S : σ → α → σ → List TokenKind → Prop}
  {F E : TokenKind → Prop}

/-- A repetition can stop after any of its steps, so a run that fails has begun one more. -/
theorem predictive_collect (hS : ∀ {s a s' w}, S s a s' w → ∃ k v, w = k :: v ∧ F k)
    (hF : ∀ {k}, E k → F k)
    (hstep : ∀ s, Predictive (step s) (StepSpelling S s) (StepFollows F E)) (s : σ) :
    Predictive (collect step s) (Repeated S s) (fun _ => E) where
  toReads := reads_collect hS hF (fun s => (hstep s).toReads) s
  decided := .collect (fun s => (hstep s).decided) s
  exists_spelling := ⟨[], [], .nil⟩
  exists_completion := by
    intro c c' e h
    change collect step s c = (.error e, c') at h
    fun_induction collect step s c generalizing e c' with
    | case1 s c e' c₁ hs =>
      cases h
      obtain ⟨front, hc, hend, o, w, hw⟩ := (hstep s).exists_completion hs
      refine ⟨front, hc, hend, ?_⟩
      rcases o with _ | ⟨a, s'⟩
      · exact ⟨[], w, by rw [show _ = [] from hw]; exact .nil⟩
      · exact ⟨[a], w, by simpa using Repeated.cons hw .nil⟩
    | case2 => cases h
    | case3 s c a s' c₁ hs hlt e' c₂ hmore ih =>
      cases h
      obtain ⟨front, rfl, hend, hw⟩ := (hstep s).sound hs
      obtain ⟨back, rfl, hend', as, w, hrest⟩ := ih hmore
      refine ⟨front ++ back, (Cursor.putBack_append ..).symm,
        List.forall_mem_append.mpr ⟨hend, hend'⟩, a :: as, w, ?_⟩
      rw [List.map_append, List.append_assoc]
      exact .cons hw hrest
    | case4 => cases h
    | case5 => cases h

theorem exists_stepFollows (hF : ∀ {k}, E k → F k) (hE : ∃ k, E k) (o : Option (α × σ)) :
    ∃ k, StepFollows F E o k := by
  obtain ⟨k, hk⟩ := hE
  cases o with
  | none => exact ⟨k, hk⟩
  | some _ => exact ⟨k, hF hk⟩

theorem predictive_afterComma {item : Parser (Option (α × σ))} {s : σ}
    (hitem : Predictive item (fun o w => ∃ a s', o = some (a, s') ∧ S s a s' w) (fun _ => F))
    (hF : ∀ {k}, E k → F k) (hcomma : ¬ E (.symbol .comma)) (hE : ∃ k, E k) :
    Predictive (do if ← consumeIf (.symbol .comma) then item else return none)
      (StepSpelling (AfterComma S) s) (StepFollows F E) := by
  have hitem' : Reads item (fun o w => ∃ a s', o = some (a, s') ∧ S s a s' w)
      (StepFollows F E) := by
    refine hitem.toReads.congr (fun _ _ => Iff.rfl) fun o k hk => ?_
    cases o with
    | none => exact hF hk
    | some _ => exact hk
  refine ((hitem.mono hitem' id).ifConsumed (isFixed_symbol .comma) (.pure none) ?_).respell
    (exists_stepFollows hF hE) (reads_afterComma hitem.toReads hF hcomma)
  rintro o v k ⟨rfl, rfl⟩ hk rfl
  exact hcomma hk

end Repetition

end Predictive

end TableSchema.Ddl
