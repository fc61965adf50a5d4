import TableSchema.Proofs.Run.Request

/-!
# What reaches the standard output

Reading puts nothing out, whether from a file or from a server and however it ends. A document is
put out as the last thing that a request does, so a request that fails has put nothing out
(`perform_error_output`).
-/

namespace TableSchema.Run

open Catalog Host Schema Source

/-! ## Reading -/

section KeepsOutput

variable {ε α β : Type}

/-- Whether something puts nothing out. -/
def KeepsOutput (act : ExceptT ε (StateM World) α) : Prop :=
  ∀ w : World, (w.run act).2.output = w.output

/-- Reading writes nothing on the output. -/
theorem ReadsOnly.keepsOutput {act : ExceptT ε (StateM World) α} (h : ReadsOnly act) :
    KeepsOutput act := fun w => congrArg World.output (h w)

/-- Two actions that keep the output keep it one after the other. -/
theorem KeepsOutput.bind {act : ExceptT ε (StateM World) α}
    {next : α → ExceptT ε (StateM World) β} (h : KeepsOutput act)
    (hnext : ∀ a, KeepsOutput (next a)) : KeepsOutput (act >>= next) := by
  intro w
  rw [World.run_bind, ← h w]
  rcases w.run act with ⟨e | a, w'⟩
  · rfl
  · exact hnext a w'

theorem KeepsOutput.mapM {f : α → ExceptT ε (StateM World) β} (h : ∀ a, KeepsOutput (f a))
    (as : List α) : KeepsOutput (as.mapM f) := by
  induction as with
  | nil => exact fun _ => rfl
  | cons a as ih =>
    rw [List.mapM_cons]
    exact (h a).bind fun b => ih.bind fun bs => fun _ => rfl

theorem keepsOutput_ask (query : String) (f : String → ε) :
    KeepsOutput (attempt (Host.ask query) f : ExceptT ε (StateM World) _) := by
  intro w
  rw [World.run_attempt_ask, World.ask]
  cases w.session <;> rfl

theorem keepsOutput_connect (address : String) (f : String → ε) :
    KeepsOutput (attempt (Host.connect address) f : ExceptT ε (StateM World) _) := by
  intro w
  rw [World.run_attempt_connect, World.connect]
  split
  · rfl
  · split <;> rfl

theorem keepsOutput_disconnect (f : String → ε) :
    KeepsOutput (attempt Host.disconnect f : ExceptT ε (StateM World) _) := by
  intro w
  rw [World.run_attempt_disconnect, World.disconnect]
  split <;> rfl

end KeepsOutput

theorem keepsOutput_describeTable (types : TypeTable) (name : String) :
    KeepsOutput (describeTable types name : ExceptT SourceError (StateM World) Table) :=
  (keepsOutput_ask _ _).bind fun _ => (readsOnly_settle _ _).keepsOutput.bind fun _ =>
    (readsOnly_settle _ _).keepsOutput

/-- A whole conversation with a server, failures included, leaves the output as it was. -/
theorem keepsOutput_readServer (types : TypeTable) (address : String) :
    KeepsOutput (readServer types address : ExceptT SourceError (StateM World) (List Table)) := by
  refine (keepsOutput_connect address _).bind fun _ => (keepsOutput_ask _ _).bind fun rows => ?_
  refine (readsOnly_settle _ _).keepsOutput.bind fun names => ?_
  refine KeepsOutput.bind (fun _ => rfl) fun _ => ?_
  refine (KeepsOutput.mapM (keepsOutput_describeTable types) names).bind fun tables => ?_
  exact (keepsOutput_disconnect _).bind fun _ => fun _ => rfl

theorem keepsOutput_readDatabase (types : TypeTable) (dataSource : String) :
    KeepsOutput (readDatabase types dataSource :
      ExceptT SourceError (StateM World) (List Table)) := by
  intro w
  rw [run_readDatabase]
  split <;> rfl

/-- Whatever the connection, reading its tables writes nothing on the output. -/
theorem keepsOutput_readTables (c : Connection) :
    KeepsOutput (readTables c : ExceptT SourceError (StateM World) (List Table)) := by
  refine (readsOnly_settle _ _).keepsOutput.bind fun driver =>
    (readsOnly_settle _ _).keepsOutput.bind fun types => ?_
  cases driver with
  | sqlite => exact keepsOutput_readDatabase types c.dataSource
  | mysql => exact keepsOutput_readServer types c.dataSource

/-! ## Failures -/

/-- A failure to publish puts nothing out. -/
theorem publish_error_output {s : Settings} {tables : List Table} {w w' : World}
    {e : GeneratorError} (h : w.run (publish s tables) = (.error e, w')) :
    w'.output = w.output := by
  cases houtdir : s.effectiveOutdir with
  | none =>
    rw [run_publish_output houtdir] at h
    cases hdoc : s.definitions tables <;> rw [hdoc] at h <;> cases h
    rfl
  | some directory =>
    rw [run_publish_directory houtdir] at h
    obtain ⟨-, rfl⟩ := Prod.mk.inj h
    exact (writeDirectory_quiet s tables directory w).1

/-- A request that fails puts nothing out, on whatever database. -/
theorem perform_error_output {r : Request} {w w' : World} {e : RequestError}
    (h : w.run r.perform = (.error e, w')) : w'.output = w.output := by
  have hread := keepsOutput_readTables r.connection w
  rw [Request.perform, World.run_bind, World.run_attempt_run] at h
  rcases hrun : w.run (readTables r.connection) with ⟨e | tables, found⟩
  · rw [hrun] at h hread
    cases h
    exact hread
  · rw [hrun] at h hread
    -- a warning does not change the output either
    obtain ⟨warned, hwarned, hpublish⟩ : ∃ warned : World, warned.output = found.output ∧
        warned.run (attempt (publish r.settings (r.filter.apply tables)).run
          RequestError.generator) = (.error e, w') := by
      simp only [Except.mapError] at h
      split at h
      · exact ⟨told found [excludedMessage tables.length], rfl, h⟩
      · exact ⟨found, rfl, h⟩
    rw [World.run_attempt_run] at hpublish
    rcases hresult : warned.run (publish r.settings (r.filter.apply tables)) with ⟨e' | _, after⟩
    · rw [hresult] at hpublish
      obtain ⟨-, rfl⟩ := Prod.mk.inj hpublish
      rw [publish_error_output hresult, hwarned, hread]
    · rw [hresult] at hpublish
      cases hpublish

end TableSchema.Run
