/-
  StClickHouse.Async.SchemaCache
  **THE SCHEMA CACHE AND THE CLIENT'S OWN DDL.**

  `schema_for_table` and `refresh_schema_for_table` (`metadata.rs`) fetch a schema and
  cache it in two steps; `execute` clears the cache after a statement whose first word
  changes tables.  Tasks interleave at every await.

      fresh_schemas  — a call gets no schema older than a statement that had returned
                       before it, if no such statement runs while a fetched schema
                       waits to be cached, and all are recognised
      stale_schemas  — otherwise it may
-/
import StClickHouse.Pool.Cancel

namespace StClickHouse

open RustText

/-- Where a task stands.  A schema is known by how many statements had changed tables
when it was fetched, a call by how many of them had returned when it was made. -/
inductive SchemaTask where
  | idle
  | asked (table : Text) (since : Nat)
  /-- The `DESCRIBE` is on its way. -/
  | fetching (table : Text) (since : Nat)
  /-- It is answered; the schema is to be put in the cache. -/
  | fetched (table : Text) (since schema : Nat)
  | returned (since schema : Nat)
  | executing (query : Text)
  /-- The server has run the statement, as the given one of those that change tables. -/
  | ran (query : Text) (number : Nat)

/-- The server, the cache and the tasks of one client: how many statements changed
tables, and the latest of them whose `execute` has returned. -/
structure SchemaClient where
  changes : Nat
  returned : Nat
  cache : Text → Option Nat
  tasks : Nat → SchemaTask

namespace SchemaClient

inductive Move where
  | schemaForTable (table : Text)
  | refreshSchemaForTable (table : Text)
  /-- The cache is read. -/
  | look
  | fetch
  | insert
  | execute (query : Text)
  /-- The server runs the statement. -/
  | run
  /-- The response is drained, the cache cleared if need be, and `execute` returns. -/
  | finish
  /-- An error, or a dropped future. -/
  | fail

def set (s : SchemaClient) (t : Nat) (task : SchemaTask) : SchemaClient :=
  { s with tasks := fun u => if u = t then task else s.tasks u }

/-- A step of one task, with a server that changes tables on the queries given. -/
def step (changing : Text → Bool) (s : SchemaClient) : Nat × Move → Option SchemaClient
  | (t, move) =>
    match move, s.tasks t with
    | .schemaForTable table, .idle => some (s.set t (.asked table s.returned))
    | .refreshSchemaForTable table, .idle => some (s.set t (.fetching table s.returned))
    | .look, .asked table since =>
      match s.cache table with
      | some schema => some (s.set t (.returned since schema))
      | none => some (s.set t (.fetching table since))
    | .fetch, .fetching table since => some (s.set t (.fetched table since s.changes))
    | .insert, .fetched table since schema =>
      some { s.set t (.returned since schema) with
        cache := fun name => if name = table then some schema else s.cache name }
    | .execute query, .idle => some (s.set t (.executing query))
    | .run, .executing query =>
      if changing query then
        some { s.set t (.ran query (s.changes + 1)) with changes := s.changes + 1 }
      else some (s.set t (.ran query 0))
    | .finish, .ran query number =>
      some { s.set t .idle with
        returned := max s.returned number
        cache := fun name => if queryMayChangeSchema query then none else s.cache name }
    | .fail, _ => some (s.set t .idle)
    | _, _ => none

/-- **The condition on a step**: a statement that changes tables has one of the eight
keywords as its first word, and no fetched schema waits to be cached when it runs. -/
def Quiet (changing : Text → Bool) (s : SchemaClient) : Nat × Move → Prop
  | (t, .run) => ∀ query, s.tasks t = .executing query → changing query = true →
      queryMayChangeSchema query = true ∧
        ∀ u table since schema, s.tasks u ≠ .fetched table since schema
  | _ => True

def start : SchemaClient := ⟨0, 0, fun _ => none, fun _ => .idle⟩

/-- What holds of a task: its schema is no older than its call, nor than a statement
that has run if it is yet to be cached; and a statement that changed tables is known to. -/
def Timely (s : SchemaClient) : SchemaTask → Prop
  | .idle | .executing _ => True
  | .asked _ since | .fetching _ since => since ≤ s.returned
  | .fetched _ since schema => since ≤ schema ∧ s.changes ≤ schema
  | .returned since schema => since ≤ schema
  | .ran query number => number ≤ s.changes ∧ (number = 0 ∨ queryMayChangeSchema query = true)

structure Fresh (s : SchemaClient) : Prop where
  returned : s.returned ≤ s.changes
  cache : ∀ table schema, s.cache table = some schema → s.returned ≤ schema
  tasks : ∀ t, s.Timely (s.tasks t)

variable {changing : Text → Bool} {s s' : SchemaClient} {t : Nat}

/-- A task goes on, and the others stay as timely as they were. -/
theorem set_timely {task : SchemaTask} (htask : s'.Timely task)
    (hothers : ∀ u, s'.Timely (s.tasks u)) (u : Nat) : s'.Timely ((s.set t task).tasks u) := by
  show s'.Timely (if u = t then task else s.tasks u)
  split
  · exact htask
  · exact hothers u

theorem Fresh.set (h : Fresh s) {task : SchemaTask} (htask : s.Timely task) :
    Fresh (s.set t task) :=
  ⟨h.returned, h.cache, set_timely htask h.tasks⟩

/-- **One step keeps what is cached fresh.** -/
theorem Fresh.step {act : Nat × Move} (h : Fresh s) (hquiet : Quiet changing s act)
    (hstep : step changing s act = some s') : Fresh s' := by
  obtain ⟨t, move⟩ := act
  have htask := h.tasks t
  simp only [SchemaClient.step] at hstep
  split at hstep
  case h_1 | h_2 => cases hstep; exact h.set le_rfl
  case h_3 table since hat =>
    rw [hat] at htask
    split at hstep <;> cases hstep
    · next schema hhit => exact h.set (le_trans htask (h.cache table schema hhit))
    · exact h.set htask
  case h_4 table since hat =>
    rw [hat] at htask
    cases hstep
    exact h.set ⟨le_trans htask h.returned, le_rfl⟩
  case h_5 table since schema hat =>
    rw [hat] at htask
    cases hstep
    refine ⟨h.returned, fun name schema' hcache => ?_, set_timely htask.1 h.tasks⟩
    dsimp only at hcache
    split at hcache
    · cases hcache
      exact le_trans h.returned htask.2
    · exact h.cache name schema' hcache
  case h_6 | h_9 => cases hstep; exact h.set trivial
  case h_7 query hat =>
    split at hstep <;> cases hstep
    · next hchanging =>
      obtain ⟨hmay, hnone⟩ := hquiet query hat hchanging
      refine ⟨Nat.le_succ_of_le h.returned, h.cache,
        set_timely ⟨le_rfl, .inr hmay⟩ fun u => ?_⟩
      have hother := h.tasks u
      cases hat : s.tasks u <;> rw [hat] at hother
      case fetched => exact absurd hat (hnone u _ _ _)
      case ran => exact ⟨Nat.le_succ_of_le hother.1, hother.2⟩
      all_goals exact hother
    · exact h.set ⟨Nat.zero_le _, .inl rfl⟩
  case h_8 query number hat =>
    rw [hat] at htask
    cases hstep
    refine ⟨Nat.max_le.mpr ⟨h.returned, htask.1⟩, fun name schema hcache => ?_,
      set_timely trivial fun u => ?_⟩
    · dsimp only at hcache ⊢
      split at hcache
      · cases hcache
      · next hmay =>
        rw [htask.2.resolve_right hmay, Nat.max_zero]
        exact h.cache name schema hcache
    have hother := h.tasks u
    cases hat : s.tasks u <;> rw [hat] at hother
    case asked | fetching => exact le_trans hother (le_max_left _ _)
    all_goals exact hother
  case h_10 => cases hstep

/-- **No call returns a schema that was fetched before a statement that had returned
when the call was made**, on any run whose steps all meet the condition. -/
theorem fresh_schemas {acts : List (Nat × Move)} {since schema : Nat}
    (hrun : Run (step changing) (Quiet changing) start acts s)
    (hreturned : s.tasks t = .returned since schema) : since ≤ schema := by
  have hfresh : Fresh s := hrun.invariant (fun _ _ _ h hquiet hstep => h.step hquiet hstep)
    ⟨le_rfl, nofun, fun _ => trivial⟩
  have htask := hfresh.tasks t
  rwa [hreturned] at htask

/-- A schema that is fetched after an `ALTER` has returned. -/
theorem fresh_schemas_altered :
    ∃ s, Run (step fun _ => true) (Quiet fun _ => true) start [(0, .execute "ALTER TABLE t".toList),
      (0, .run), (0, .finish), (1, .schemaForTable ['t']), (1, .look), (1, .fetch), (1, .insert)] s
      ∧ s.tasks 1 = .returned 1 1 ∧ 1 ≤ 1 := by
  have hrun : ∃ s, Run (step fun _ => true) (Quiet fun _ => true) start
      [(0, .execute "ALTER TABLE t".toList), (0, .run), (0, .finish), (1, .schemaForTable ['t']),
        (1, .look), (1, .fetch), (1, .insert)] s ∧ s.tasks 1 = .returned 1 1 := by
    refine ⟨_, .cons trivial rfl (.cons ?_ rfl (.cons trivial rfl (.cons trivial rfl
      (.cons trivial rfl (.cons trivial rfl (.cons trivial rfl (.nil _))))))), rfl⟩
    intro query hat _
    cases hat
    refine ⟨by decide, fun u table since schema h => ?_⟩
    simp only [set] at h
    split at h <;> cases h
  obtain ⟨s, hrun, hreturned⟩ := hrun
  exact ⟨s, hrun, hreturned, fresh_schemas hrun hreturned⟩

/-- A call that began to fetch before an `ALTER` caches the old schema after it; and an
`ALTER` after a comment does not clear the cache.  Either way a later call gets a schema
that was fetched before the statement ran. -/
theorem stale_schemas :
    (∃ s, exec (step fun _ => true) start [(0, .schemaForTable ['t']), (0, .look), (0, .fetch),
        (1, .execute "ALTER TABLE t".toList), (1, .run), (1, .finish), (0, .insert),
        (2, .schemaForTable ['t']), (2, .look)] = some s ∧ s.tasks 2 = .returned 1 0)
    ∧ ∃ s, exec (step fun _ => true) start [(0, .schemaForTable ['t']), (0, .look), (0, .fetch),
        (0, .insert), (1, .execute "/* x */ ALTER TABLE t".toList), (1, .run), (1, .finish),
        (2, .schemaForTable ['t']), (2, .look)] = some s ∧ s.tasks 2 = .returned 1 0 :=
  ⟨⟨_, rfl, rfl⟩, _, rfl, rfl⟩

end SchemaClient

end StClickHouse
