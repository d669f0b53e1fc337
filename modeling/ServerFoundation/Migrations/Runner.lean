import Mathlib.Algebra.GroupWithZero.Nat
import Mathlib.Data.List.Count
import Mathlib.Data.List.Nodup
import Mathlib.Data.List.Sort
import ServerFoundation.Data.JsText

/-!
# Running migrations

`MigrationRunner.run` sorts the migrations by `localeCompare`, leaves out the recorded
names and executes the others one at a time, each followed by its record. The table
of records has the name as its primary key. An `up` function or a record may fail,
which ends the call.
-/

namespace ServerFoundation.Migrations

universe u

/-- `localeCompare`: the order of a locale, in which different names may be equal. -/
structure Collation where
  localeCompare : String → String → Ordering
  total : ∀ left right, (localeCompare left right).isLE ∨ (localeCompare right left).isLE
  trans : ∀ left middle right, (localeCompare left middle).isLE →
    (localeCompare middle right).isLE → (localeCompare left right).isLE

/-- `Migration`. -/
structure Migration (Up : Type u) where
  name : String
  up : Up

/-- What goes wrong with a migration. -/
inductive Fault where
  | up
  | record
deriving DecidableEq

/-- What is seen of the execution of a migration. -/
inductive Event where
  | completed (name : String)
  | upFailed (name : String)
  | recorded (name : String)
  | recordFailed (name : String)
deriving DecidableEq

/-- The arguments of a call, and what goes wrong with its migrations by their turn. -/
structure Call (Up : Type u) where
  migrations : List (Migration Up)
  fault : ℕ → Option Fault

/-- What a call did: the migrations it was to run, its events and the records afterwards. -/
structure Run (Up : Type u) where
  pending : List (Migration Up)
  events : List Event
  recorded : List String

section Run

variable {Up : Type u} (collation : Collation)

/-- The order in which the migrations are sorted, which leaves equal names as they are. -/
def Collation.Precedes (left right : Migration Up) : Prop :=
  (collation.localeCompare left.name right.name).isLE

instance : DecidableRel (collation.Precedes : Migration Up → Migration Up → Prop) :=
  fun left right =>
    inferInstanceAs (Decidable ((collation.localeCompare left.name right.name).isLE = true))

instance : Std.Total (collation.Precedes : Migration Up → Migration Up → Prop) :=
  ⟨fun left right => collation.total left.name right.name⟩

instance : IsTrans (Migration Up) collation.Precedes :=
  ⟨fun left middle right => collation.trans left.name middle.name right.name⟩

/-- The loop over the pending migrations. -/
def execute (fault : ℕ → Option Fault) :
    ℕ → List String → List (Migration Up) → List Event × List String
  | _, recorded, [] => ([], recorded)
  | turn, recorded, migration :: rest =>
      match fault turn with
      | some .up => ([.upFailed migration.name], recorded)
      | some .record => ([.completed migration.name, .recordFailed migration.name], recorded)
      | none =>
          -- the primary key refuses a second record of a name
          if migration.name ∈ recorded then
            ([.completed migration.name, .recordFailed migration.name], recorded)
          else
            let others := execute fault (turn + 1) (recorded ++ [migration.name]) rest
            (.completed migration.name :: .recorded migration.name :: others.1, others.2)

/-- `ordered.filter(migration => !executed.has(migration.name))`. -/
def pendingOf (migrations : List (Migration Up)) (executed : List String) :
    List (Migration Up) :=
  (migrations.insertionSort collation.Precedes).filter fun migration =>
    migration.name ∉ executed

/-- `MigrationRunner.run`. -/
def run (call : Call Up) (recorded : List String) : Run Up :=
  let pending := pendingOf collation call.migrations recorded
  let executed := execute call.fault 0 recorded pending
  ⟨pending, executed.1, executed.2⟩

/-- The records after a sequence of calls. -/
def recordsAfter (recorded : List String) (calls : List (Call Up)) : List String :=
  calls.foldl (fun recorded call => (run collation call recorded).recorded) recorded

/-- What is seen of a sequence of calls. -/
def historyOf : List String → List (Call Up) → List Event
  | _, [] => []
  | recorded, call :: calls =>
      let first := run collation call recorded
      first.events ++ historyOf first.recorded calls

end Run

section Execution

variable {Up : Type u}

/-- What is seen of a migration that succeeds. -/
def Migration.events (migration : Migration Up) : List Event :=
  [.completed migration.name, .recorded migration.name]

/-- How a call ends, by the migrations that are left: with all done, or at the first that fails. -/
inductive Ending : List (Migration Up) → List Event → Prop where
  | done : Ending [] []
  | up (migration : Migration Up) (others : List (Migration Up)) :
      Ending (migration :: others) [.upFailed migration.name]
  | record (migration : Migration Up) (others : List (Migration Up)) :
      Ending (migration :: others) [.completed migration.name, .recordFailed migration.name]

/-- The migrations before the first that fails are executed and recorded. -/
structure Executes (before : List String) (pending : List (Migration Up)) (events : List Event)
    (after : List String) (executed left : List (Migration Up)) (ending : List Event) : Prop where
  pending : pending = executed ++ left
  events : events = executed.flatMap Migration.events ++ ending
  after : after = before ++ executed.map Migration.name
  ending : Ending left ending
  nodup : (executed.map Migration.name).Nodup
  fresh : ∀ name ∈ executed.map Migration.name, name ∉ before

theorem Ending.executes {left : List (Migration Up)} {ending : List Event}
    (ends : Ending left ending) (before : List String) :
    ∃ executed rest others, Executes before left ending before executed rest others :=
  ⟨[], left, ending, rfl, rfl, by simp, ends, List.nodup_nil, by simp⟩

theorem execute_spec (fault : ℕ → Option Fault) (turn : ℕ) (before : List String)
    (pending : List (Migration Up)) :
    ∃ executed left ending, Executes before pending (execute fault turn before pending).1
      (execute fault turn before pending).2 executed left ending := by
  induction pending generalizing turn before with
  | nil => exact Ending.done.executes before
  | cons migration rest ih =>
      unfold execute
      split
      · exact (Ending.up migration rest).executes before
      · exact (Ending.record migration rest).executes before
      · split_ifs with again
        · exact (Ending.record migration rest).executes before
        · rcases ih (turn + 1) (before ++ [migration.name]) with
            ⟨executed, left, ending, spec⟩
          refine ⟨migration :: executed, left, ending, ?_, ?_, ?_, spec.ending, ?_, ?_⟩
          · rw [spec.pending, List.cons_append]
          · dsimp only
            rw [spec.events]
            rfl
          · rw [spec.after, List.map_cons, List.append_assoc, List.singleton_append]
          · refine List.nodup_cons.mpr ⟨fun twice => ?_, spec.nodup⟩
            exact spec.fresh _ twice (List.mem_append_right _ (List.mem_singleton_self _))
          · intro name member
            rcases List.mem_cons.mp member with rfl | later
            · exact again
            · exact fun old => spec.fresh name later (List.mem_append_left _ old)

section Counts

variable {before after : List String} {pending executed left : List (Migration Up)}
  {events ending : List Event} (spec : Executes before pending events after executed left ending)
  (name : String)
include spec

theorem Executes.count_recorded :
    events.count (.recorded name) = (executed.map Migration.name).count name := by
  have none : ending.count (.recorded name) = 0 := by
    cases spec.ending <;> simp
  rw [spec.events, List.count_append, none, Nat.add_zero]
  clear none spec
  induction executed with
  | nil => rfl
  | cons migration others ih =>
      simp only [List.flatMap_cons, List.count_append, List.map_cons, List.count_cons, ih]
      simp [Migration.events, List.count_cons, Nat.add_comm]

theorem Executes.count_completed :
    events.count (.completed name) =
      events.count (.recorded name) + events.count (.recordFailed name) := by
  have ends : ending.count (.completed name) =
      ending.count (.recorded name) + ending.count (.recordFailed name) := by
    cases spec.ending <;> simp [List.count_cons]
  rw [spec.events]
  simp only [List.count_append, ends]
  suffices same : (executed.flatMap Migration.events).count (.completed name) =
      (executed.flatMap Migration.events).count (.recorded name) +
        (executed.flatMap Migration.events).count (.recordFailed name) by
    omega
  clear ends spec
  induction executed with
  | nil => rfl
  | cons migration others ih =>
      simp only [List.flatMap_cons, List.count_append, ih]
      simp only [Migration.events, List.count_cons, List.count_nil]
      simp only [beq_iff_eq, Event.completed.injEq, Event.recorded.injEq, reduceCtorEq, if_false]
      omega

theorem Executes.pending_of_completed {name : String} (completed : .completed name ∈ events) :
    name ∈ pending.map Migration.name := by
  rw [spec.pending, List.map_append, List.mem_append]
  rw [spec.events] at completed
  rcases List.mem_append.mp completed with early | last
  · left
    rcases List.mem_flatMap.mp early with ⟨migration, member, event⟩
    rw [List.mem_map]
    exact ⟨migration, member, by simpa [Migration.events, eq_comm] using event⟩
  · right
    cases spec.ending with
    | done => cases last
    | up migration others => simp at last
    | record migration others => simpa using Or.inl last

theorem Executes.mem_after : name ∈ after ↔ name ∈ before ∨ .recorded name ∈ events := by
  rw [spec.after, List.mem_append, ← List.count_pos_iff (l := events), spec.count_recorded,
    List.count_pos_iff]

end Counts

end Execution

section Runs

variable {Up : Type u} (collation : Collation) (migrations : List (Migration Up))

theorem run_spec (call : Call Up) (recorded : List String) :
    ∃ executed left ending, Executes recorded (pendingOf collation call.migrations recorded)
      (run collation call recorded).events (run collation call recorded).recorded executed left
      ending :=
  execute_spec call.fault 0 recorded (pendingOf collation call.migrations recorded)

theorem perm_pendingOf (executed : List String) :
    (pendingOf collation migrations executed).Perm
      (migrations.filter fun migration => migration.name ∉ executed) :=
  (List.perm_insertionSort _ _).filter _

theorem pendingOf_pairwise (executed : List String) :
    (pendingOf collation migrations executed).Pairwise collation.Precedes :=
  (List.pairwise_insertionSort _ _).filter _

theorem mem_recordsAfter (recorded : List String) (calls : List (Call Up)) (name : String) :
    name ∈ recordsAfter collation recorded calls ↔
      name ∈ recorded ∨ .recorded name ∈ historyOf collation recorded calls := by
  induction calls generalizing recorded with
  | nil => simp [recordsAfter, historyOf]
  | cons call calls ih =>
      rcases run_spec collation call recorded with ⟨executed, left, ending, spec⟩
      have later := ih (run collation call recorded).recorded
      rw [spec.mem_after, or_assoc, ← List.mem_append] at later
      exact later

theorem count_completed (recorded : List String) (calls : List (Call Up)) (name : String) :
    (historyOf collation recorded calls).count (.completed name) =
      (historyOf collation recorded calls).count (.recorded name) +
        (historyOf collation recorded calls).count (.recordFailed name) := by
  induction calls generalizing recorded with
  | nil => rfl
  | cons call calls ih =>
      rcases run_spec collation call recorded with ⟨executed, left, ending, spec⟩
      have first := spec.count_completed name
      have later := ih (run collation call recorded).recorded
      simp only [historyOf, List.count_append]
      omega

theorem not_completed_of_recorded (recorded : List String) (calls : List (Call Up))
    {name : String} (known : name ∈ recorded) :
    .completed name ∉ historyOf collation recorded calls := by
  induction calls generalizing recorded with
  | nil => simp [historyOf]
  | cons call calls ih =>
      rcases run_spec collation call recorded with ⟨executed, left, ending, spec⟩
      intro completed
      rcases List.mem_append.mp completed with now | later
      · rcases List.mem_map.mp (spec.pending_of_completed now) with ⟨migration, member, rfl⟩
        have kept := (perm_pendingOf collation call.migrations recorded).subset member
        simp [known] at kept
      · exact ih _ ((spec.mem_after name).mpr (Or.inl known)) later

theorem count_recorded_le_one (recorded : List String) (calls : List (Call Up)) (name : String) :
    (historyOf collation recorded calls).count (.recorded name) ≤ 1 := by
  induction calls generalizing recorded with
  | nil => simp [historyOf]
  | cons call calls ih =>
      rcases run_spec collation call recorded with ⟨executed, left, ending, spec⟩
      have later := ih (run collation call recorded).recorded
      simp only [historyOf, List.count_append]
      by_cases now : .recorded name ∈ (run collation call recorded).events
      · have once := List.nodup_iff_count_le_one.mp spec.nodup name
        rw [← spec.count_recorded] at once
        have never := not_completed_of_recorded collation _ calls
          ((spec.mem_after name).mpr (Or.inr now))
        have counted := count_completed collation (run collation call recorded).recorded calls name
        rw [List.count_eq_zero_of_not_mem never] at counted
        omega
      · rw [List.count_eq_zero_of_not_mem now]
        omega

/-- Every completed `up` is recorded or fails to be, no recorded name is executed, and a call goes
through the other migrations in their order up to the first that fails. -/
theorem migrations_resume (recorded : List String) (earlier : List (Call Up)) (call : Call Up) :
    let history := historyOf collation recorded (earlier ++ [call])
    let before := recordsAfter collation recorded earlier
    let last := run collation call before
    (∀ name, history.count (.completed name) =
        history.count (.recorded name) + history.count (.recordFailed name) ∧
      history.count (.recorded name) ≤ 1 ∧
      (name ∈ last.recorded ↔ name ∈ recorded ∨ .recorded name ∈ history) ∧
      (name ∈ before → .completed name ∉ last.events)) ∧
    last.pending.Perm (call.migrations.filter fun migration => migration.name ∉ before) ∧
    ((∀ left ∈ last.pending, ∀ right ∈ last.pending,
        collation.Precedes left right → JsText.units left.name ≤ JsText.units right.name) →
      last.pending.Pairwise fun left right =>
        JsText.units left.name ≤ JsText.units right.name) ∧
    ∃ executed left ending, Executes before last.pending last.events last.recorded executed left
      ending := by
  intro history before last
  have single : historyOf collation before [call] = last.events := by
    simp [historyOf, last]
  have records : last.recorded = recordsAfter collation recorded (earlier ++ [call]) := by
    simp [recordsAfter, last, before]
  refine ⟨fun name => ⟨?_, ?_, ?_, ?_⟩, ?_, ?_, run_spec collation call before⟩
  · exact count_completed collation recorded _ name
  · exact count_recorded_le_one collation recorded _ name
  · rw [records]
    exact mem_recordsAfter collation recorded _ name
  · rw [← single]
    exact not_completed_of_recorded collation before [call]
  · exact perm_pendingOf collation call.migrations before
  · intro lexicographic
    refine (pendingOf_pairwise collation call.migrations before).imp_of_mem ?_
    intro left right leftPending rightPending ordered
    exact lexicographic left leftPending right rightPending ordered

end Runs

section Failures

/-- A locale in which single letters are in alphabetical order. -/
def alphabetical : Collation where
  localeCompare left right :=
    compare (left.toList.map fun char => char.toLower.toNat).sum
      (right.toList.map fun char => char.toLower.toNat).sum
  total left right := by
    simp only [Nat.isLE_compare]
    exact Nat.le_total _ _
  trans left middle right := by
    simp only [Nat.isLE_compare]
    exact Nat.le_trans

/-- Migrations named by letters. -/
def lettered (names : List String) : List (Migration Unit) := names.map fun name => ⟨name, ()⟩

/-- A call in which the second migration fails, and a later one with one migration more. -/
theorem migrations_resume_letters :
    let failing : Call Unit :=
      ⟨lettered ["b", "a"], fun turn => if turn = 1 then some .up else none⟩
    let before := recordsAfter alphabetical [] [failing]
    let last := run alphabetical ⟨lettered ["c", "b", "a"], fun _ => none⟩ before
    "a" ∈ before ∧ .completed "a" ∉ last.events ∧
      last.pending.map Migration.name = ["b", "c"] ∧
      last.pending.Pairwise fun left right => JsText.units left.name ≤ JsText.units right.name := by
  intro failing before last
  have recorded : "a" ∈ before := by decide +kernel
  have lexicographic : ∀ left ∈ last.pending, ∀ right ∈ last.pending,
      alphabetical.Precedes left right → JsText.units left.name ≤ JsText.units right.name := by
    decide +kernel
  have resumed := migrations_resume alphabetical [] [failing]
    ⟨lettered ["c", "b", "a"], fun _ => none⟩
  exact ⟨recorded, (resumed.1 "a").2.2.2 recorded, by decide +kernel,
    resumed.2.2.1 lexicographic⟩

/-- A migration whose record fails runs again, so does the second of two migrations of one name, and
the order is that of the locale. -/
theorem migrations_rerun :
    let named (names : List String) (fault : ℕ → Option Fault) : Call Unit :=
      ⟨names.map fun name => ⟨name, ()⟩, fault⟩
    historyOf alphabetical []
        [named ["users"] fun _ => some .record, named ["users"] fun _ => none] =
      [.completed "users", .recordFailed "users", .completed "users", .recorded "users"] ∧
    historyOf alphabetical [] [named ["users", "users"] fun _ => none] =
      [.completed "users", .recorded "users", .completed "users", .recordFailed "users"] ∧
    historyOf alphabetical [] [named ["a", "B"] fun _ => none] =
      [.completed "a", .recorded "a", .completed "B", .recorded "B"] ∧
    JsText.units "B" < JsText.units "a" := by
  decide +kernel

end Failures

end ServerFoundation.Migrations
