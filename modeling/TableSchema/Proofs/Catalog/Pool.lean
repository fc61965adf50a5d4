import Mathlib.Data.List.Nodup
import TableSchema.Catalog.Pool

/-!
# Every schedule gives the same results

The counter of a pool says all that matters about a schedule: so many turns were taken, and of the
indices handed out, those below the number of jobs are jobs that some worker keeps with their
results, and each of the others sent one worker home (`Pool.Accounts`). Every turn of every worker
keeps this up, so it holds after every schedule.

When all workers have gone home, every job has been handed out, and the kept results are the
numbered results of all jobs in some order. Putting them in the order of their numbers leaves no
choice.
-/

namespace TableSchema.Catalog

namespace Pool

variable {α β : Type} {jobs : List α} {work : α → β} {pool : Pool β}

/-! ## Turns -/

/-- A worker that has not gone home. -/
def AtWork (pool : Pool β) (worker : Nat) : Prop :=
  ∃ done, pool.workers[worker]? = some (done, false)

/-- Only workers that have not gone home take turns. -/
inductive OnlyAtWork (jobs : List α) (work : α → β) : Pool β → List Nat → Prop where
  | nil {pool : Pool β} : OnlyAtWork jobs work pool []
  | cons {pool : Pool β} {worker : Nat} {schedule : List Nat} :
    pool.AtWork worker → OnlyAtWork jobs work (pool.step jobs work worker) schedule →
      OnlyAtWork jobs work pool (worker :: schedule)

/-- What all workers keep together. -/
def kept (pool : Pool β) : List (Nat × β) := pool.workers.flatMap (·.1)

/-- The indices that a worker keeps results for. -/
def takenBy (pool : Pool β) (worker : Nat) : List Nat :=
  (pool.workers[worker]?.elim [] (·.1)).map Prod.fst

/-- The results of jobs with their numbers. -/
def numbered (jobs : List α) (work : α → β) : List (Nat × β) :=
  jobs.mapIdx fun i job => (i, work job)

/-! ## One turn -/

theorem exists_split_of_getElem? {γ : Type} {as : List γ} {i : Nat} {a : γ} (h : as[i]? = some a) :
    ∃ before after, as = before ++ a :: after ∧ ∀ b, as.set i b = before ++ b :: after := by
  obtain ⟨hlt, rfl⟩ := List.getElem?_eq_some_iff.mp h
  refine ⟨as.take i, as.drop (i + 1), ?_, fun b => ?_⟩
  · rw [List.getElem_cons_drop, List.take_append_drop]
  · rw [List.set_eq_take_append_cons_drop, if_pos hlt]

/-- A turn of a worker at work hands out the next index: the worker keeps the result of a job, and
goes home where there is none. -/
theorem step_of_atWork {worker : Nat} (h : pool.AtWork worker) (jobs : List α) (work : α → β) :
    ∃ before done after, pool.workers = before ++ (done, false) :: after ∧
      ((∃ job, jobs[pool.next]? = some job ∧ pool.step jobs work worker =
        ⟨pool.next + 1, before ++ ((pool.next, work job) :: done, false) :: after⟩) ∨
      jobs[pool.next]? = none ∧ pool.step jobs work worker =
        ⟨pool.next + 1, before ++ (done, true) :: after⟩) := by
  obtain ⟨done, hdone⟩ := h
  obtain ⟨before, after, hsplit, hset⟩ := exists_split_of_getElem? hdone
  refine ⟨before, done, after, hsplit, ?_⟩
  cases hjob : jobs[pool.next]? with
  | some job => exact .inl ⟨job, rfl, by simp only [step, hdone, hjob, hset]⟩
  | none => exact .inr ⟨rfl, by simp only [step, hdone, hjob, hset]⟩

/-- A worker that has gone home does nothing. -/
theorem step_of_not_atWork {worker : Nat} (h : ¬pool.AtWork worker) (jobs : List α)
    (work : α → β) : pool.step jobs work worker = pool := by
  rcases hworker : pool.workers[worker]? with _ | ⟨done, _ | _⟩
  · simp only [step, hworker]
  · exact absurd ⟨done, hworker⟩ h
  · simp only [step, hworker]

theorem next_step_of_atWork {worker : Nat} (h : pool.AtWork worker) (jobs : List α)
    (work : α → β) : (pool.step jobs work worker).next = pool.next + 1 := by
  obtain ⟨_, _, _, -, ⟨_, -, hstep⟩ | ⟨-, hstep⟩⟩ := step_of_atWork h jobs work <;> rw [hstep]

/-! ## Accounts -/

theorem length_numbered (jobs : List α) (work : α → β) :
    (numbered jobs work).length = jobs.length := by
  simp [numbered]

theorem numbered_getElem? (jobs : List α) (work : α → β) (i : Nat) :
    (numbered jobs work)[i]? = jobs[i]?.map fun job => (i, work job) := by
  simp [numbered]

/-- Where one worker stands among the others decides one in the number gone home. -/
theorem countP_home_append (before after : List (List (Nat × β) × Bool)) (done : List (Nat × β))
    (home : Bool) : (before ++ (done, home) :: after).countP (·.2) =
      before.countP (·.2) + after.countP (·.2) + if home then 1 else 0 := by
  rw [List.countP_append, List.countP_cons, Nat.add_assoc]

/-- What the counter says about a pool of workers. -/
structure Accounts (jobs : List α) (work : α → β) (workers : Nat) (pool : Pool β) : Prop where
  /-- nobody joins and nobody leaves -/
  length_workers : pool.workers.length = workers
  /-- the jobs handed out are kept with their results, each once -/
  kept_perm : pool.kept.Perm ((numbered jobs work).take pool.next)
  /-- every index that is no job has sent one worker home -/
  countP_home : pool.workers.countP (·.2) = pool.next - jobs.length

theorem accounts_start (jobs : List α) (work : α → β) (workers : Nat) :
    Accounts jobs work workers (start workers) := by
  refine ⟨by simp [start], ?_, ?_⟩
  · simp [start, kept]
  · simp [start, List.countP_replicate]

/-- A step keeps the accounts, whichever worker takes it. -/
theorem Accounts.step {workers : Nat} (h : Accounts jobs work workers pool) (worker : Nat) :
    Accounts jobs work workers (pool.step jobs work worker) := by
  by_cases hwork : pool.AtWork worker
  · obtain ⟨hlength, hkept, hhome⟩ := h
    obtain ⟨before, done, after, hsplit, ⟨job, hjob, hstep⟩ | ⟨hnone, hstep⟩⟩ :=
      step_of_atWork hwork jobs work
    all_goals
      rw [kept, hsplit] at hkept
      rw [hsplit] at hhome hlength
      rw [hstep]
    · have hlt : pool.next < jobs.length := (List.getElem?_eq_some_iff.mp hjob).1
      refine ⟨by simpa using hlength, ?_, ?_⟩
      · -- the new result is in front of one worker's, and at the end of the numbered ones
        have htake : (numbered jobs work).take (pool.next + 1) =
            (numbered jobs work).take pool.next ++ [(pool.next, work job)] := by
          rw [List.take_add_one, numbered_getElem?, hjob]
          rfl
        rw [htake, kept]
        simp only [List.flatMap_append, List.flatMap_cons, List.cons_append] at hkept ⊢
        exact List.perm_middle.trans ((hkept.cons _).trans (List.perm_append_singleton _ _).symm)
      · rw [countP_home_append] at hhome ⊢
        rw [hhome, Nat.sub_eq_zero_of_le (Nat.le_of_lt hlt), Nat.sub_eq_zero_of_le hlt]
    · have hle : jobs.length ≤ pool.next := List.getElem?_eq_none_iff.mp hnone
      refine ⟨by simpa using hlength, ?_, ?_⟩
      · rw [List.take_of_length_le (by rw [length_numbered]; exact hle)] at hkept
        rw [List.take_of_length_le (by rw [length_numbered]; exact Nat.le_succ_of_le hle), kept]
        simpa using hkept
      · rw [countP_home_append] at hhome ⊢
        rw [if_neg Bool.false_ne_true, Nat.add_zero] at hhome
        rw [if_pos rfl, hhome, Nat.succ_sub hle]
  · rw [step_of_not_atWork hwork]
    exact h

/-- The counter accounts for every schedule. -/
theorem Accounts.run {workers : Nat} (h : Accounts jobs work workers pool) (schedule : List Nat) :
    Accounts jobs work workers (pool.run jobs work schedule) := by
  induction schedule generalizing pool with
  | nil => exact h
  | cons worker schedule ih => exact ih (h.step worker)

/-- Nobody is sent home twice. -/
theorem Accounts.next_le {workers : Nat} (h : Accounts jobs work workers pool) :
    pool.next ≤ jobs.length + workers := by
  have hhome : pool.workers.countP (·.2) ≤ pool.workers.length := List.countP_le_length
  rw [h.countP_home, h.length_workers] at hhome
  omega

/-! ## How long a schedule is -/

theorem OnlyAtWork.next_run {schedule : List Nat} (h : OnlyAtWork jobs work pool schedule) :
    (pool.run jobs work schedule).next = pool.next + schedule.length := by
  induction h with
  | nil => rfl
  | @cons pool worker schedule hwork _ ih =>
    rw [next_step_of_atWork hwork] at ih
    rw [List.length_cons, Nat.add_comm schedule.length, ← Nat.add_assoc, ← ih]
    rfl

/-- Until all have gone home, somebody can take a turn. -/
theorem exists_atWork_of_not_finished (h : pool.finished = false) :
    ∃ worker, pool.AtWork worker := by
  obtain ⟨⟨done, home⟩, hmem, hhome⟩ := List.all_eq_false.mp h
  obtain ⟨worker, hworker⟩ := List.getElem?_of_mem hmem
  obtain rfl : home = false := by simpa using hhome
  exact ⟨worker, done, hworker⟩

/-! ## When all have gone home -/

/-- At the end the counter has passed every job, and once more for each worker. -/
theorem Accounts.next_of_finished {workers : Nat} (h : Accounts jobs work workers pool)
    (hworkers : 1 ≤ workers) (hfinished : pool.finished = true) :
    pool.next = jobs.length + workers := by
  have hhome : pool.workers.countP (·.2) = pool.workers.length :=
    List.countP_eq_length.mpr (List.all_eq_true.mp hfinished)
  rw [h.countP_home, h.length_workers] at hhome
  omega

/-- The workers have every job between them. -/
theorem Accounts.kept_perm_numbered {workers : Nat} (h : Accounts jobs work workers pool)
    (hworkers : 1 ≤ workers) (hfinished : pool.finished = true) :
    pool.kept.Perm (numbered jobs work) := by
  have hnext := h.next_of_finished hworkers hfinished
  have hall := h.kept_perm
  rwa [List.take_of_length_le (by rw [length_numbered]; omega)] at hall

theorem map_fst_numbered (jobs : List α) (work : α → β) :
    (numbered jobs work).map (·.1) = List.range jobs.length := by
  refine List.ext_getElem? fun i => ?_
  rw [List.getElem?_map, numbered_getElem?]
  rcases Nat.lt_or_ge i jobs.length with hlt | hge
  · simp [hlt]
  · simp [hge]

theorem map_snd_numbered (jobs : List α) (work : α → β) :
    (numbered jobs work).map (·.2) = jobs.map work := by
  refine List.ext_getElem? fun i => ?_
  rw [List.getElem?_map, numbered_getElem?, List.getElem?_map, Option.map_map]
  rfl

theorem mem_takenBy_iff {worker i : Nat} :
    i ∈ pool.takenBy worker ↔
      ∃ entry, pool.workers[worker]? = some entry ∧ i ∈ entry.1.map Prod.fst := by
  rw [takenBy]
  cases pool.workers[worker]? <;> simp

/-- Where nothing stands twice, everything stands in one place. -/
theorem existsUnique_of_nodup_flatMap {γ δ : Type} {as : List γ} {f : γ → List δ} {d : δ}
    (hnodup : (as.flatMap f).Nodup) (hd : d ∈ as.flatMap f) :
    ∃! i : Nat, ∃ a, as[i]? = some a ∧ d ∈ f a := by
  have apart : ∀ (i j : Nat) (a b : γ), i < j → as[i]? = some a → as[j]? = some b →
      d ∈ f a → d ∉ f b := by
    intro i j a b hij hi hj ha hb
    obtain ⟨hilt, rfl⟩ := List.getElem?_eq_some_iff.mp hi
    obtain ⟨hjlt, rfl⟩ := List.getElem?_eq_some_iff.mp hj
    exact List.pairwise_iff_getElem.mp (List.nodup_flatMap.mp hnodup).2 i j hilt hjlt hij ha hb
  obtain ⟨a, hmem, ha⟩ := List.mem_flatMap.mp hd
  obtain ⟨i, hi⟩ := List.getElem?_of_mem hmem
  refine ⟨i, ⟨a, hi, ha⟩, ?_⟩
  rintro j ⟨b, hj, hb⟩
  rcases Nat.lt_trichotomy i j with hlt | rfl | hgt
  · exact absurd hb (apart i j a b hlt hi hj ha)
  · rfl
  · exact absurd ha (apart j i b a hgt hj hi hb)

/-- Of the workers that have every job between them, each job is with one. -/
theorem existsUnique_takenBy (h : pool.kept.Perm (numbered jobs work)) {i : Nat}
    (hi : i < jobs.length) : ∃! worker, i ∈ pool.takenBy worker := by
  have hnumbers : (pool.workers.flatMap fun entry => entry.1.map Prod.fst).Perm
      (List.range jobs.length) := by
    rw [← map_fst_numbered jobs work, ← List.map_flatMap]
    exact h.map _
  simp only [mem_takenBy_iff]
  exact existsUnique_of_nodup_flatMap (hnumbers.nodup_iff.mpr List.nodup_range)
    (hnumbers.mem_iff.mpr (List.mem_range.mpr hi))

/-- There is one way to put the numbered results in the order of their numbers. -/
theorem map_snd_of_perm_numbered {answers : List (Nat × β)}
    (hperm : answers.Perm (numbered jobs work)) (hsorted : answers.Pairwise fun a b => a.1 ≤ b.1) :
    answers.map (·.2) = jobs.map work := by
  have hnumbers : (numbered jobs work).map (·.1) = List.range jobs.length :=
    map_fst_numbered jobs work
  have hnodup : ((numbered jobs work).map (·.1)).Nodup := hnumbers ▸ List.nodup_range
  have hinOrder : (numbered jobs work).Pairwise fun a b => a.1 ≤ b.1 := by
    refine List.pairwise_map.mp (hnumbers ▸ ?_ : ((numbered jobs work).map (·.1)).Pairwise (· ≤ ·))
    exact List.pairwise_lt_range.imp Nat.le_of_lt
  have heq : answers = numbered jobs work := by
    refine List.Perm.eq_of_pairwise (fun a b ha hb hab hba => ?_) hsorted hinOrder hperm
    exact List.inj_on_of_nodup_map hnodup (hperm.mem_iff.mp ha) hb (Nat.le_antisymm hab hba)
  rw [heq, map_snd_numbered]

/-- Results sorted by their numbers come out in the order of the jobs. -/
theorem results_of_perm_numbered (h : pool.kept.Perm (numbered jobs work)) :
    pool.results = jobs.map work := by
  refine map_snd_of_perm_numbered ((List.mergeSort_perm _ _).trans h) ?_
  have hsorted := @List.pairwise_mergeSort _ (fun a b : Nat × β => decide (a.1 ≤ b.1))
    (fun a b c hab hbc => by simp only [decide_eq_true_eq] at *; omega)
    (fun a b => by simp only [Bool.or_eq_true, decide_eq_true_eq]; omega) pool.kept
  exact hsorted.imp of_decide_eq_true

/-! ## Taking turns -/

/-- A turn sends nobody home but the worker that takes it, and only past the end. -/
theorem home_of_step {worker other : Nat} {done : List (Nat × β)}
    (h : (pool.step jobs work worker).workers[other]? = some (done, true)) :
    pool.workers[other]? = some (done, true) ∨ other = worker ∧ jobs.length ≤ pool.next := by
  by_cases hwork : pool.AtWork worker
  · obtain ⟨mine, hmine⟩ := hwork
    rcases eq_or_ne worker other with rfl | hne
    · cases hjob : jobs[pool.next]? with
      | some job =>
        simp only [step, hmine, hjob] at h
        simp [List.getElem?_set_self (List.getElem?_eq_some_iff.mp hmine).1] at h
      | none => exact .inr ⟨rfl, List.getElem?_eq_none_iff.mp hjob⟩
    · left
      cases hjob : jobs[pool.next]? <;> simpa [step, hmine, hjob, List.getElem?_set_ne hne] using h
  · exact .inl (by rwa [step_of_not_atWork hwork] at h)

/-- What a pool has come to when its workers have taken so many turns in a row. -/
structure TookTurns (jobs : List α) (workers turns : Nat) (pool : Pool β) : Prop where
  /-- every turn handed out an index -/
  next_eq : pool.next = turns
  /-- who has gone home has had a turn past the end -/
  exists_turn : ∀ {worker done}, pool.workers[worker]? = some (done, true) →
    ∃ turn, jobs.length ≤ turn ∧ turn < turns ∧ turn % workers = worker

/-- While there are turns left, the worker whose turn it is has not gone home: since its last turn
there have been fewer turns past the end than workers. -/
theorem TookTurns.atWork {workers turns : Nat} (h : TookTurns jobs workers turns pool)
    (hworkers : 1 ≤ workers) (hlength : pool.workers.length = workers)
    (hturns : turns < jobs.length + workers) : pool.AtWork (turns % workers) := by
  have hlt : turns % workers < pool.workers.length := by
    rw [hlength]
    exact Nat.mod_lt _ hworkers
  rcases hentry : pool.workers[turns % workers] with ⟨done, _ | _⟩
  · exact ⟨done, List.getElem?_eq_some_iff.mpr ⟨hlt, hentry⟩⟩
  · obtain ⟨turn, hpast, hbefore, hmod⟩ :=
      h.exists_turn (List.getElem?_eq_some_iff.mpr ⟨hlt, hentry⟩)
    have hround : (turns - turn) % workers = 0 := Nat.sub_mod_eq_zero_of_mod_eq hmod.symm
    rw [Nat.mod_eq_of_lt (by omega)] at hround
    omega

theorem TookTurns.step {workers turns : Nat} (h : TookTurns jobs workers turns pool)
    (hwork : pool.AtWork (turns % workers)) :
    TookTurns jobs workers (turns + 1) (pool.step jobs work (turns % workers)) where
  next_eq := by rw [next_step_of_atWork hwork, h.next_eq]
  exists_turn := by
    intro worker done hhome
    rcases home_of_step hhome with hhome | ⟨rfl, hpast⟩
    · obtain ⟨turn, hpast, hbefore, hmod⟩ := h.exists_turn hhome
      exact ⟨turn, hpast, Nat.lt_succ_of_lt hbefore, hmod⟩
    · exact ⟨turns, h.next_eq ▸ hpast, Nat.lt_succ_self turns, rfl⟩

theorem tookTurns_run {workers : Nat} (hworkers : 1 ≤ workers) (jobs : List α) (work : α → β)
    (turns : Nat) (hturns : turns ≤ jobs.length + workers) :
    TookTurns jobs workers turns
      ((start workers).run jobs work ((List.range turns).map (· % workers))) := by
  induction turns with
  | zero =>
    refine ⟨rfl, fun h => ?_⟩
    simp [run, start, List.getElem?_replicate] at h
  | succ turns ih =>
    have hturn := ih (Nat.le_of_succ_le hturns)
    have haccounts := (accounts_start jobs work workers).run ((List.range turns).map (· % workers))
    have hwork := hturn.atWork hworkers haccounts.length_workers hturns
    rw [List.range_succ, List.map_append, run, List.foldl_append]
    exact hturn.step hwork

/-- Workers that take turns have all gone home after one turn for each job and each of them. -/
theorem finished_roundRobin {workers : Nat} (hworkers : 1 ≤ workers) (jobs : List α)
    (work : α → β) :
    ((start workers).run jobs work (roundRobin jobs.length workers)).finished = true := by
  have hnext := (tookTurns_run hworkers jobs work _ (Nat.le_refl _)).next_eq
  have haccounts := (accounts_start jobs work workers).run (roundRobin jobs.length workers)
  have hhome := haccounts.countP_home
  rw [← roundRobin] at hnext
  rw [hnext, Nat.add_sub_cancel_left] at hhome
  exact List.all_eq_true.mpr
    (List.countP_eq_length.mp (hhome.trans haccounts.length_workers.symm))

end Pool

/-! ## Definitions -/

/-- Sharing definitions between workers is not seen in the models. -/
theorem parseTables_eq_map (cores : Nat) (types : TypeTable) (texts : List String) :
    parseTables cores types texts = texts.map (Table.ofText types) := by
  have hworkers : 1 ≤ workerCount cores texts.length := Nat.le_max_left _ _
  rw [parseTables]
  split
  · rfl
  · exact Pool.results_of_perm_numbered
      (((Pool.accounts_start texts (Table.ofText types) _).run _).kept_perm_numbered hworkers
        (Pool.finished_roundRobin hworkers texts _))

/-- Whatever order the workers come to the counter in, they come no more often than there are
definitions and workers, and somebody can come until all have gone home. Each definition is then
with one worker, with its own model, and there is one way to put the models in the order of their
numbers: the models of the definitions one by one. -/
theorem models_in_any_schedule (types : TypeTable) (texts : List String) {workers : Nat}
    (hworkers : 1 ≤ workers) (schedule : List Nat) :
    let model := Table.ofText types
    let pool := (Pool.start workers).run texts model schedule
    (Pool.OnlyAtWork texts model (Pool.start workers) schedule →
      schedule.length ≤ texts.length + workers) ∧
    (pool.finished = false → ∃ worker, pool.AtWork worker) ∧
    (pool.finished = true →
      (Pool.OnlyAtWork texts model (Pool.start workers) schedule →
        schedule.length = texts.length + workers) ∧
      (∀ i, i < texts.length → ∃! worker, i ∈ pool.takenBy worker) ∧
      pool.kept.Perm (Pool.numbered texts model) ∧
      (∀ answers : List (Nat × Except DefinitionError Table), answers.Perm pool.kept →
        (answers.Pairwise fun a b => a.1 ≤ b.1) → answers.map (·.2) = texts.map model) ∧
      pool.results = texts.map model ∧
      ∀ cores, parseTables cores types texts = pool.results) := by
  intro model pool
  have haccounts := (Pool.accounts_start texts model workers).run schedule
  have hlength : Pool.OnlyAtWork texts model (Pool.start workers) schedule →
      schedule.length = pool.next := fun h => by
    rw [h.next_run, Pool.start, Nat.zero_add]
  refine ⟨fun h => hlength h ▸ haccounts.next_le, Pool.exists_atWork_of_not_finished,
    fun hfinished => ?_⟩
  have hall := haccounts.kept_perm_numbered hworkers hfinished
  exact ⟨fun h => (hlength h).trans (haccounts.next_of_finished hworkers hfinished),
    fun i => Pool.existsUnique_takenBy hall, hall,
    fun answers hperm => Pool.map_snd_of_perm_numbered (hperm.trans hall),
    Pool.results_of_perm_numbered hall, fun cores =>
      (parseTables_eq_map cores types texts).trans (Pool.results_of_perm_numbered hall).symm⟩

/-- Of two workers, the second comes first and gets both definitions, one of which is broken. -/
theorem models_in_schedule_of_two :
    let types := TypeTable.sqlite
    let texts := ["CREATE TABLE t (a int)", "CREATE TABLE (a int)"]
    let pool := (Pool.start 2).run texts (Table.ofText types) [1, 1, 0, 1]
    pool.finished = true ∧ [1, 1, 0, 1].length = texts.length + 2 ∧
      (∃! worker, 0 ∈ pool.takenBy worker) ∧ pool.takenBy 1 = [1, 0] ∧
      pool.results = texts.map (Table.ofText types) := by
  intro types texts pool
  have hfinished : pool.finished = true := rfl
  have hwork : Pool.OnlyAtWork texts (Table.ofText types) (Pool.start 2) [1, 1, 0, 1] :=
    .cons ⟨_, rfl⟩ (.cons ⟨_, rfl⟩ (.cons ⟨_, rfl⟩ (.cons ⟨_, rfl⟩ .nil)))
  obtain ⟨-, -, hend⟩ := models_in_any_schedule types texts (show 1 ≤ 2 by decide) [1, 1, 0, 1]
  obtain ⟨hlength, hunique, -, -, hresults, -⟩ := hend hfinished
  exact ⟨hfinished, hlength hwork, hunique 0 (by decide), rfl, hresults⟩

end TableSchema.Catalog
