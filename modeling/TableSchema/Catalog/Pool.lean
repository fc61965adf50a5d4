import TableSchema.Catalog.Definition

/-!
# Sharing work between workers

Independent jobs are handed out through one counter. Each worker in turn takes the next index from
the counter: an index past the end sends it home, any other is its job, and it keeps the result
together with the index. When every worker has gone home, all results are put in the order of their
indices.

Which worker takes which job depends on the schedule, and nothing else does: `Pool.results` is the
list of the answers in the order of the jobs, whoever computed them.
-/

namespace TableSchema.Catalog

/-- Workers that share the jobs of a list. -/
structure Pool (α : Type) where
  /-- the next index to hand out -/
  next : Nat
  /-- what each worker has so far, latest first, and whether it has gone home -/
  workers : List (List (Nat × α) × Bool)
  deriving Repr

namespace Pool

variable {α β : Type}

/-- So many workers, none of which has done anything. -/
def start (workers : Nat) : Pool β := ⟨0, List.replicate workers ([], false)⟩

/-- One worker takes an index from the counter. A worker that has gone home does nothing. -/
def step (jobs : List α) (work : α → β) (pool : Pool β) (worker : Nat) : Pool β :=
  match pool.workers[worker]? with
  | some (done, false) =>
    match jobs[pool.next]? with
    | some job =>
      ⟨pool.next + 1, pool.workers.set worker ((pool.next, work job) :: done, false)⟩
    | none => ⟨pool.next + 1, pool.workers.set worker (done, true)⟩
  | _ => pool

/-- The workers take their turns as a schedule says. -/
def run (jobs : List α) (work : α → β) (pool : Pool β) (schedule : List Nat) : Pool β :=
  schedule.foldl (step jobs work) pool

/-- Whether every worker has gone home. -/
def finished (pool : Pool β) : Bool := pool.workers.all (·.2)

/-- The answers of all workers in the order of their indices. -/
def results (pool : Pool β) : List β :=
  ((pool.workers.flatMap (·.1)).mergeSort fun a b => decide (a.1 ≤ b.1)).map (·.2)

/-- The schedule in which the workers take turns until each of them has gone home. -/
def roundRobin (jobs workers : Nat) : List Nat :=
  (List.range (jobs + workers)).map (· % workers)

end Pool

/-- How many workers share a number of jobs: one for each core, but no more than there are jobs,
and at least one. -/
def workerCount (cores jobs : Nat) : Nat := max 1 (min cores jobs)

/-- The models of independent definitions, in the order of the definitions. A single worker takes
them one by one; several share them. -/
def parseTables (cores : Nat) (types : TypeTable) (texts : List String) :
    List (Except DefinitionError Table) :=
  let workers := workerCount cores texts.length
  if workers ≤ 1 then texts.map (Table.ofText types)
  else
    ((Pool.start workers).run texts (Table.ofText types)
      (Pool.roundRobin texts.length workers)).results

end TableSchema.Catalog
