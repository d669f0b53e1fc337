import ServerFoundation.Worker.Recorder

/-!
# Terminal jobs are recorded before they are removed

The id of a record determines the queue, the job and the attempt, because no queue name
has a colon and no attempt number has one. The row that an insert finds under its id is
therefore the row of the same attempt, and a task that removes a job has seen it stored.
-/

namespace ServerFoundation.Worker

variable {rows : List JobRow}

section RecordIds

theorem append_cons_inj_of_not_mem {Letter : Type} {separator : Letter}
    {first second rest other : List Letter}
    (notFirst : separator ∉ first) (notSecond : separator ∉ second)
    (same : first ++ separator :: rest = second ++ separator :: other) :
    first = second ∧ rest = other := by
  induction first generalizing second with
  | nil =>
      cases second with
      | nil => exact ⟨rfl, (List.cons.inj same).2⟩
      | cons letter tail => exact absurd (List.cons.inj same).1 (List.ne_of_not_mem_cons notSecond)
  | cons letter tail ih =>
      cases second with
      | nil => exact absurd (List.cons.inj same).1.symm (List.ne_of_not_mem_cons notFirst)
      | cons other tail' =>
          obtain ⟨rfl, sameTail⟩ := List.cons.inj same
          obtain ⟨rfl, sameRest⟩ := ih (List.not_mem_of_not_mem_cons notFirst)
            (List.not_mem_of_not_mem_cons notSecond) sameTail
          exact ⟨rfl, sameRest⟩

theorem colon_not_mem_repr (number : ℕ) : ':' ∉ (Nat.repr number).toList := by
  intro isDigit
  rw [Nat.toList_repr] at isDigit
  have digit := Nat.isDigit_of_mem_toDigits (by decide) (by decide) isDigit
  revert digit
  decide

theorem repr_injective {number other : ℕ} (same : Nat.repr number = Nat.repr other) :
    number = other := by
  have digits := congrArg (fun text => Nat.ofDigitChars 10 (String.toList text) 0) same
  simpa using digits

theorem recordId_injective {key other : JobKey} {attempt otherAttempt : ℕ}
    (noColon : ':' ∉ key.queue.toList) (noColonOther : ':' ∉ other.queue.toList)
    (same : recordId key attempt = recordId other otherAttempt) :
    key = other ∧ attempt = otherAttempt := by
  have colon : ":".toList = [':'] := rfl
  have letters := congrArg String.toList same
  simp only [recordId, String.toList_append, List.append_assoc, colon, List.cons_append,
    List.nil_append] at letters
  obtain ⟨sameQueue, sameRest⟩ := append_cons_inj_of_not_mem noColon noColonOther letters
  have reversed := congrArg List.reverse sameRest
  simp only [List.reverse_append, List.reverse_cons, List.append_assoc, List.cons_append,
    List.nil_append] at reversed
  obtain ⟨sameAttempt, sameId⟩ := append_cons_inj_of_not_mem
    (by simpa using colon_not_mem_repr attempt) (by simpa using colon_not_mem_repr otherAttempt)
    reversed
  refine ⟨JobKey.ext (String.toList_inj.mp sameQueue) ?_, ?_⟩
  · exact String.toList_inj.mp (List.reverse_injective sameId)
  · exact repr_injective (String.toList_inj.mp (List.reverse_injective sameAttempt))

end RecordIds

/-- The row of a job's attempt is in the table, unless the job opted out. -/
def Recorded (rows : List JobRow) (entry : JobKey × TerminalJob) : Prop :=
  entry.2.recordToDatabase = false ∨
    ∃ row ∈ rows, row.queue = entry.1.queue ∧ row.queueId = entry.1.id ∧
      row.attempt = entry.2.attempt

theorem Recorded.mono {more : List JobRow} {entry : JobKey × TerminalJob}
    (recorded : Recorded rows entry) (sub : ∀ row ∈ rows, row ∈ more) : Recorded more entry := by
  rcases recorded with optedOut | ⟨row, isRow, same⟩
  · exact .inl optedOut
  · exact .inr ⟨row, sub row isRow, same⟩

theorem mem_insertRecord {row other : JobRow} (isRow : other ∈ rows) :
    other ∈ insertRecord rows row := by
  unfold insertRecord
  split
  · exact isRow
  · exact List.mem_append_left _ isRow

theorem insertRecord_cases {row other : JobRow} (isRow : other ∈ insertRecord rows row) :
    other ∈ rows ∨ other = row := by
  unfold insertRecord at isRow
  split at isRow
  · exact .inl isRow
  · exact (List.mem_append.mp isRow).imp_right List.mem_singleton.mp

theorem nodup_insertRecord (row : JobRow) (nodup : (rows.map JobRow.id).Nodup) :
    ((insertRecord rows row).map JobRow.id).Nodup := by
  unfold insertRecord
  split
  · exact nodup
  · rename_i fresh
    rw [List.map_append]
    exact nodup.append (List.nodup_singleton _) (by simpa using fresh)

section Invariants

variable {Node : Type} {acceptsQueueName : String → Bool} {state before : State Node} {key : JobKey}
  {job : TerminalJob} {drain : Drain Node} {status : TerminalJobStatus} {after : State Node}

variable (acceptsQueueName) in
/-- What Redis and the table hold, by the jobs that became terminal. -/
structure Books (state : State Node) : Prop where
  order : ∀ entry ∈ state.finished, entry.2.finishedAt < state.finished.length
  keys : (state.finished.map Prod.fst).Nodup
  accepted : ∀ entry ∈ state.finished, acceptsQueueName entry.1.queue = true
  stored : ∀ key job, state.jobs.get? key = some job → (key, job) ∈ state.finished
  accounted : ∀ entry ∈ state.finished, state.jobs.get? entry.1 = some entry.2 ∨
    entry ∈ state.removed
  rows : ∀ row ∈ state.rows, ∃ entry ∈ state.finished, ∃ status,
    row = recordOf entry.1 entry.2 status
  ids : (state.rows.map JobRow.id).Nodup
  removed : ∀ entry ∈ state.removed, entry ∈ state.finished ∧ Recorded state.rows entry
  drained : ∀ drain ∈ state.drained, drain.roundStart ≤ state.finished.length ∧
    (∀ entry ∈ drain.remaining, drain.roundStart ≤ entry.2.finishedAt) ∧
    ∀ entry ∈ state.finished, entry.1.queue = drain.queue →
      entry.2.finishedAt < drain.roundStart → entry ∈ state.removed

/-- A task knows the job as it became terminal, and removes it only once it is recorded. -/
def Task.Sound (state : State Node) (key : JobKey) (task : Task) : Prop :=
  match task.stage with
  | .reading _ => True
  | .recording job => (key, job) ∈ state.finished
  | .removing job => (key, job) ∈ state.finished ∧ Recorded state.rows (key, job)

/-- The jobs of a queue with a status have become terminal since a round began. -/
def Since (state : State Node) (drain : Drain Node) (status : TerminalJobStatus) : Prop :=
  ∀ key job, state.jobs.get? key = some job → key.queue = drain.queue → job.status = status →
    drain.roundStart ≤ job.finishedAt

/-- What a drain that has not found a job in its round knows. -/
structure Drain.Sound (state : State Node) (drain : Drain Node) : Prop where
  started : drain.roundStart ≤ state.finished.length
  unfound : drain.foundJobs = false →
    match drain.stage with
    | .reading .completed => True
    | .processing .completed page => page = [] ∧ Since state drain .completed
    | .reading .failed => Since state drain .completed
    | .processing .failed page =>
        page = [] ∧ Since state drain .completed ∧ Since state drain .failed
    | .awaiting _ _ _ => False

variable (acceptsQueueName) in
/-- What every run keeps. -/
structure Sound (state : State Node) : Prop where
  books : Books acceptsQueueName state
  tasks : ∀ node key task, state.tasks node key = some task → task.Sound state key
  drains : ∀ id drain, state.drains id = some drain → drain.Sound state

theorem Books.recorded_insert (noColon : ∀ name, acceptsQueueName name = true → ':' ∉ name.toList)
    (books : Books acceptsQueueName state) (isFinished : (key, job) ∈ state.finished)
    (status : TerminalJobStatus) :
    Recorded (insertRecord state.rows (recordOf key job status)) (key, job) := by
  refine .inr ?_
  unfold insertRecord
  split
  · rename_i known
    obtain ⟨row, isRow, sameId⟩ := List.mem_map.mp known
    obtain ⟨entry, isEntry, written, rfl⟩ := books.rows row isRow
    obtain ⟨sameKey, sameAttempt⟩ := recordId_injective
      (noColon _ (books.accepted entry isEntry)) (noColon _ (books.accepted _ isFinished)) sameId
    exact ⟨_, isRow, congrArg JobKey.queue sameKey, congrArg JobKey.id sameKey, sameAttempt⟩
  · exact ⟨_, List.mem_append_right _ (List.mem_singleton.mpr rfl), rfl, rfl, rfl⟩

theorem Books.insert (books : Books acceptsQueueName state)
    (isFinished : (key, job) ∈ state.finished) (status : TerminalJobStatus) :
    Books acceptsQueueName
      { state with rows := insertRecord state.rows (recordOf key job status) } :=
  { books with
    rows := by
      intro row isRow
      rcases insertRecord_cases isRow with earlier | rfl
      · exact books.rows row earlier
      · exact ⟨_, isFinished, status, rfl⟩
    ids := nodup_insertRecord _ books.ids
    removed := by
      intro entry isRemoved
      obtain ⟨isEntry, recorded⟩ := books.removed entry isRemoved
      exact ⟨isEntry, recorded.mono fun _ => mem_insertRecord⟩ }

theorem Books.removeJob (books : Books acceptsQueueName state)
    (isFinished : (key, job) ∈ state.finished) (recorded : Recorded state.rows (key, job)) :
    Books acceptsQueueName (state.removeJob key) := by
  have kept : ∀ entry ∈ state.removed, entry ∈ (state.removeJob key).removed :=
    fun entry isRemoved => List.mem_append_left _ isRemoved
  exact { books with
    stored := by
      intro other found stored
      unfold State.removeJob at stored
      rw [OrderedMap.get?_erase] at stored
      split at stored
      · cases stored
      · exact books.stored other found stored
    accounted := by
      intro entry isEntry
      rcases books.accounted entry isEntry with stored | isRemoved
      · by_cases same : entry.1 = key
        · refine .inr (List.mem_append_right _ ?_)
          rw [same] at stored
          rw [stored]
          exact List.mem_singleton.mpr (Prod.ext same rfl)
        · refine .inl ?_
          unfold State.removeJob
          rw [OrderedMap.get?_erase, if_neg same]
          exact stored
      · exact .inr (kept entry isRemoved)
    removed := by
      intro entry isRemoved
      rcases List.mem_append.mp isRemoved with earlier | last
      · exact books.removed entry earlier
      · cases stored : state.jobs.get? key with
        | none => simp [stored] at last
        | some found =>
            have isEntry := books.stored key found stored
            have same : found = job :=
              congrArg Prod.snd (List.inj_on_of_nodup_map books.keys isEntry isFinished rfl)
            rw [stored] at last
            have isJob : entry = (key, found) := List.mem_singleton.mp last
            subst isJob same
            exact ⟨isEntry, recorded⟩
    drained := by
      intro drain isDrained
      obtain ⟨started, remaining, gone⟩ := books.drained drain isDrained
      exact ⟨started, remaining, fun entry isEntry sameQueue before =>
        kept entry (gone entry isEntry sameQueue before)⟩ }

theorem Books.finish (books : Books acceptsQueueName state)
    (accepted : acceptsQueueName key.queue = true) (fresh : key ∉ state.finished.map Prod.fst)
    (last : job.finishedAt = state.finished.length) :
    Books acceptsQueueName
      { state with
        jobs := state.jobs.set key job
        finished := state.finished ++ [(key, job)] } where
  order := by
    intro entry isEntry
    rw [List.length_append, List.length_singleton]
    rcases List.mem_append.mp isEntry with earlier | isNew
    · exact Nat.lt_succ_of_lt (books.order entry earlier)
    · rw [List.mem_singleton.mp isNew]
      exact Nat.lt_succ_of_le (Nat.le_of_eq last)
  keys := by
    rw [List.map_append]
    exact books.keys.append (List.nodup_singleton _) (by simpa using fresh)
  accepted := by
    intro entry isEntry
    rcases List.mem_append.mp isEntry with earlier | isNew
    · exact books.accepted entry earlier
    · rw [List.mem_singleton.mp isNew]
      exact accepted
  stored := by
    intro other found stored
    rw [OrderedMap.get?_set] at stored
    split at stored
    · rename_i same
      cases stored
      rw [same]
      exact List.mem_append_right _ (List.mem_singleton.mpr rfl)
    · exact List.mem_append_left _ (books.stored other found stored)
  accounted := by
    intro entry isEntry
    rcases List.mem_append.mp isEntry with earlier | isNew
    · have other : entry.1 ≠ key := by
        intro same
        exact fresh (same ▸ List.mem_map_of_mem earlier)
      rw [OrderedMap.get?_set, if_neg other]
      exact books.accounted entry earlier
    · rw [List.mem_singleton.mp isNew]
      exact .inl (by rw [OrderedMap.get?_set, if_pos rfl])
  rows := by
    intro row isRow
    obtain ⟨entry, isEntry, written⟩ := books.rows row isRow
    exact ⟨entry, List.mem_append_left _ isEntry, written⟩
  ids := books.ids
  removed := by
    intro entry isRemoved
    obtain ⟨isEntry, recorded⟩ := books.removed entry isRemoved
    exact ⟨List.mem_append_left _ isEntry, recorded⟩
  drained := by
    intro drain isDrained
    obtain ⟨started, remaining, gone⟩ := books.drained drain isDrained
    refine ⟨Nat.le_trans started (by simp), remaining, ?_⟩
    intro entry isEntry sameQueue before
    rcases List.mem_append.mp isEntry with earlier | isNew
    · exact gone entry earlier sameQueue before
    · rw [List.mem_singleton.mp isNew, last] at before
      exact absurd before (Nat.not_lt.mpr started)

theorem Task.Sound.mono {task : Task} (sound : task.Sound before key)
    (finished : ∀ entry ∈ before.finished, entry ∈ after.finished)
    (rows : ∀ row ∈ before.rows, row ∈ after.rows) : task.Sound after key := by
  unfold Task.Sound at sound ⊢
  split
  · trivial
  · rename_i job inStage
    rw [inStage] at sound
    exact finished _ sound
  · rename_i job inStage
    rw [inStage] at sound
    exact ⟨finished _ sound.1, sound.2.mono rows⟩

theorem Since.mono (since : Since before drain status)
    (started : drain.roundStart ≤ before.finished.length)
    (jobs : ∀ key job, after.jobs.get? key = some job →
      before.jobs.get? key = some job ∨ before.finished.length ≤ job.finishedAt) :
    Since after drain status := by
  intro key job stored sameQueue sameStatus
  rcases jobs key job stored with earlier | isNew
  · exact since key job earlier sameQueue sameStatus
  · exact Nat.le_trans started isNew

theorem Drain.Sound.mono (sound : drain.Sound before)
    (longer : before.finished.length ≤ after.finished.length)
    (jobs : ∀ key job, after.jobs.get? key = some job →
      before.jobs.get? key = some job ∨ before.finished.length ≤ job.finishedAt) :
    drain.Sound after := by
  refine ⟨Nat.le_trans sound.started longer, ?_⟩
  intro unfound
  have known := sound.unfound unfound
  split at known
  · trivial
  · exact ⟨known.1, known.2.mono sound.started jobs⟩
  · exact known.mono sound.started jobs
  · exact ⟨known.1, known.2.1.mono sound.started jobs, known.2.2.mono sound.started jobs⟩
  · exact known

namespace Sound

variable {state : State Node} (sound : Sound acceptsQueueName state)

include sound

theorem withRows {rows : List JobRow} (books : Books acceptsQueueName { state with rows })
    (kept : ∀ row ∈ state.rows, row ∈ rows) : Sound acceptsQueueName { state with rows } :=
  ⟨books, fun node key task isTask => (sound.tasks node key task isTask).mono (fun _ => id) kept,
    fun id drain isDrain => (sound.drains id drain isDrain).mono (Nat.le_refl _) fun _ _ => .inl⟩

theorem insert {key : JobKey} {job : TerminalJob} (isFinished : (key, job) ∈ state.finished)
    (status : TerminalJobStatus) : Sound acceptsQueueName
      { state with rows := insertRecord state.rows (recordOf key job status) } :=
  sound.withRows (sound.books.insert isFinished status) fun _ => mem_insertRecord

theorem removeJob {key : JobKey} {job : TerminalJob} (isFinished : (key, job) ∈ state.finished)
    (recorded : Recorded state.rows (key, job)) :
    Sound acceptsQueueName (state.removeJob key) := by
  refine ⟨sound.books.removeJob isFinished recorded, fun node other task isTask =>
    (sound.tasks node other task isTask).mono (fun _ => id) fun _ => id, ?_⟩
  intro id drain isDrain
  refine (sound.drains id drain isDrain).mono (Nat.le_refl _) ?_
  intro other found stored
  unfold State.removeJob at stored
  rw [OrderedMap.get?_erase] at stored
  split at stored
  · cases stored
  · exact .inl stored

theorem finish {key : JobKey} (accepted : acceptsQueueName key.queue = true)
    (fresh : key ∉ state.finished.map Prod.fst) {job : TerminalJob}
    (last : job.finishedAt = state.finished.length) : Sound acceptsQueueName
      { state with
        jobs := state.jobs.set key job
        finished := state.finished ++ [(key, job)] } := by
  refine ⟨sound.books.finish accepted fresh last, fun node other task isTask =>
    (sound.tasks node other task isTask).mono (fun _ => List.mem_append_left _) fun _ => id, ?_⟩
  intro id drain isDrain
  refine (sound.drains id drain isDrain).mono (by simp) ?_
  intro other found stored
  rw [OrderedMap.get?_set] at stored
  split at stored
  · cases stored
    exact .inr (Nat.le_of_eq last.symm)
  · exact .inl stored

theorem setDrain {id : ℕ} {drain : Option (Drain Node)}
    (fits : ∀ given ∈ drain, given.Sound state) :
    Sound acceptsQueueName (state.setDrain id drain) := by
  refine ⟨{ sound.books with }, fun node key task isTask =>
    (sound.tasks node key task isTask).mono (fun _ entry => entry) fun _ row => row, ?_⟩
  intro other found isDrain
  have kept : found.Sound state := by
    unfold State.setDrain at isDrain
    by_cases same : other = id
    · subst same
      simp only [Function.update_self] at isDrain
      exact fits found isDrain
    · simp only [Function.update_of_ne same] at isDrain
      exact sound.drains other found isDrain
  exact kept.mono (Nat.le_refl _) fun _ _ => .inl

end Sound

theorem since_of_page (empty : state.page drain.queue status = []) : Since state drain status := by
  intro key job stored sameQueue sameStatus
  have isEntry := (OrderedMap.get?_eq_some_iff _ _ _).mp stored
  have none : state.jobs.entries.filter (fun entry =>
      entry.1.queue = drain.queue ∧ entry.2.status = status) = [] := by
    rw [State.page, List.map_eq_nil_iff, List.take_eq_nil_iff] at empty
    exact empty.resolve_left (by decide)
  have kept : (key, job) ∈ state.jobs.entries.filter (fun entry =>
      entry.1.queue = drain.queue ∧ entry.2.status = status) := by
    simp [isEntry, sameQueue, sameStatus]
  rw [none] at kept
  cases kept

theorem Sound.drainPage (sound : Sound acceptsQueueName state) {id : ℕ}
    (isDrain : state.drains id = some drain) (reads : drain.stage = .reading status) :
    Sound acceptsQueueName (state.setDrain id (some { drain with
      stage := .processing status (state.page drain.queue status)
      foundJobs := drain.foundJobs || !(state.page drain.queue status).isEmpty })) := by
  have known := sound.drains id drain isDrain
  refine sound.setDrain ?_
  rintro given ⟨⟩
  refine ⟨known.started, ?_⟩
  intro unfound
  simp only [Bool.or_eq_false_iff, Bool.not_eq_false', List.isEmpty_iff] at unfound
  have earlier := known.unfound unfound.1
  rw [reads] at earlier
  cases status with
  | completed => exact ⟨unfound.2, @since_of_page _ state drain _ unfound.2⟩
  | failed => exact ⟨unfound.2, earlier, @since_of_page _ state drain _ unfound.2⟩

variable [DecidableEq Node]

theorem State.tasks_setTask (state : State Node) (node : Node) (key : JobKey) (task : Option Task)
    (other : Node) (otherKey : JobKey) : (state.setTask node key task).tasks other otherKey =
      if other = node ∧ otherKey = key then task else state.tasks other otherKey := by
  unfold State.setTask
  by_cases sameNode : other = node
  · subst sameNode
    by_cases sameKey : otherKey = key
    · subst sameKey
      simp
    · simp [sameKey]
  · simp [sameNode]

namespace Sound

variable {state : State Node} (sound : Sound acceptsQueueName state)

include sound

theorem setObserver (node : Node) (queue : String) (observer : Option ℕ) :
    Sound acceptsQueueName (state.setObserver node queue observer) :=
  ⟨{ sound.books with }, sound.tasks, fun id drain isDrain =>
    (sound.drains id drain isDrain).mono (Nat.le_refl _) fun _ _ => .inl⟩

theorem setTask {node : Node} {key : JobKey} {task : Option Task}
    (fits : ∀ given ∈ task, given.Sound state key) :
    Sound acceptsQueueName (state.setTask node key task) := by
  refine ⟨{ sound.books with }, ?_, fun id drain isDrain =>
    (sound.drains id drain isDrain).mono (Nat.le_refl _) fun _ _ => .inl⟩
  intro other otherKey found isTask
  rw [State.tasks_setTask] at isTask
  split at isTask
  · rename_i same
    rw [same.2]
    exact (fits found isTask).mono (fun _ => id) fun _ => id
  · exact (sound.tasks other otherKey found isTask).mono (fun _ => id) fun _ => id

theorem settle (node : Node) (key : JobKey) (succeeded : Bool) :
    Sound acceptsQueueName (state.settle node key succeeded) := by
  have cleared : Sound acceptsQueueName (state.setTask node key none) := sound.setTask nofun
  refine ⟨{ cleared.books with }, cleared.tasks, ?_⟩
  intro id drain isDrain
  obtain ⟨before, wasDrain, resumed⟩ := Option.bind_eq_some_iff.mp isDrain
  have known := sound.drains id before wasDrain
  have kept : drain.Sound state := by
    unfold State.resumeDrain at resumed
    split at resumed
    · rename_i waited status page waits
      split at resumed
      · split at resumed
        · cases resumed
          refine ⟨known.started, ?_⟩
          intro unfound
          have impossible := known.unfound unfound
          rw [waits] at impossible
          exact impossible.elim
        · cases resumed
      · cases resumed
        exact known
    · cases resumed
      exact known
  exact kept.mono (Nat.le_refl _) fun _ _ => .inl

theorem queueTerminalBullMqJob (node : Node) (observer : ℕ) (key : JobKey)
    (status : TerminalJobStatus) :
    Sound acceptsQueueName (state.queueTerminalBullMqJob node observer key status) := by
  unfold State.queueTerminalBullMqJob
  split
  · exact sound
  · refine sound.setTask ?_
    rintro given ⟨⟩
    trivial

end Sound

theorem Sound.drainNext (sound : Sound acceptsQueueName state) {id : ℕ}
    (isDrain : state.drains id = some drain) :
    Sound acceptsQueueName (state.drainNext id drain) := by
  have known := sound.drains id drain isDrain
  unfold State.drainNext
  split
  · rename_i status key page processes
    split
    · refine (sound.queueTerminalBullMqJob _ _ _ _).setDrain ?_
      rintro given ⟨⟩
      have sameBooks : ∀ other : State Node, other.finished = state.finished →
          ({ drain with stage := .awaiting key status page } : Drain Node).Sound other := by
        intro other same
        refine ⟨same ▸ known.started, ?_⟩
        intro unfound
        have impossible := known.unfound unfound
        rw [processes] at impossible
        cases status with
        | completed => exact nomatch impossible.1
        | failed => exact nomatch impossible.1
      refine sameBooks _ ?_
      unfold State.queueTerminalBullMqJob
      split <;> rfl
    · exact sound.setDrain nofun
  · rename_i processes
    refine sound.setDrain ?_
    intro given isNext
    split at isNext
    · cases isNext
      refine ⟨known.started, ?_⟩
      intro unfound
      have earlier := known.unfound unfound
      rw [processes] at earlier
      exact earlier.2
    · cases isNext
  · rename_i processes
    split
    · refine sound.setDrain ?_
      intro given isNext
      split at isNext
      · cases isNext
        exact ⟨Nat.le_refl _, fun _ => trivial⟩
      · cases isNext
    · rename_i unfound
      have ended : Sound acceptsQueueName (state.setDrain id none) := sound.setDrain nofun
      have earlier := known.unfound (by simpa using unfound)
      rw [processes] at earlier
      have since : ∀ key job, state.jobs.get? key = some job → key.queue = drain.queue →
          drain.roundStart ≤ job.finishedAt := by
        intro key job stored sameQueue
        cases status : job.status with
        | completed => exact earlier.2.1 key job stored sameQueue status
        | failed => exact earlier.2.2 key job stored sameQueue status
      refine ⟨{ ended.books with drained := ?_ }, ended.tasks, fun other found isDrain =>
        (ended.drains other found isDrain).mono (Nat.le_refl _) fun _ _ => .inl⟩
      intro last isDrained
      rcases List.mem_append.mp isDrained with before | isNew
      · exact sound.books.drained last before
      · rw [List.mem_singleton.mp isNew]
        refine ⟨known.started, ?_, ?_⟩
        · intro entry remains
          obtain ⟨isEntry, sameQueue⟩ := List.mem_filter.mp remains
          exact since entry.1 entry.2 ((OrderedMap.get?_eq_some_iff _ _ _).mpr isEntry)
            (by simpa using sameQueue)
        · intro entry isEntry sameQueue before
          refine (sound.books.accounted entry isEntry).resolve_left ?_
          intro stored
          exact absurd before (Nat.not_lt.mpr (since entry.1 entry.2 stored sameQueue))
  · exact sound

theorem Sound.step (noColon : ∀ name, acceptsQueueName name = true → ':' ∉ name.toList)
    (sound : Sound acceptsQueueName state) {label : Label Node}
    (allowed : Allowed acceptsQueueName state label) :
    Sound acceptsQueueName (state.step label) := by
  cases label with
  | finish key attemptsMade status recordToDatabase =>
      exact sound.finish allowed.1 allowed.2 rfl
  | startObserver node queue =>
      rw [State.step]
      split
      · exact sound
      · have observed := sound.setObserver node queue (some state.nextObserver)
        exact ⟨{ observed.books with }, observed.tasks, fun id drain isDrain =>
          (observed.drains id drain isDrain).mono (Nat.le_refl _) fun _ _ => .inl⟩
  | stop node queue => exact sound.setObserver node queue none
  | abandonObserver node queue observer =>
      rw [State.step]
      split
      · exact sound.setObserver node queue none
      · exact sound
  | event node observer key status => exact sound.queueTerminalBullMqJob node observer key status
  | readJob node key =>
      rw [State.step]
      split
      · split
        · rename_i job stored
          refine sound.setTask ?_
          rintro given ⟨⟩
          exact sound.books.stored key job stored
        · exact sound.settle node key true
      · exact sound
  | readFails node key connectionClosed =>
      rw [State.step]
      split
      · split
        · refine sound.setTask ?_
          rintro given ⟨⟩
          trivial
        · exact sound.settle node key false
      · exact sound
  | record node key =>
      rw [State.step]
      split
      · rename_i status observer job isTask
        have isFinished : (key, job) ∈ state.finished := sound.tasks node key _ isTask
        by_cases records : job.recordToDatabase = true
        · have inserted := sound.insert isFinished status
          have recorded := sound.books.recorded_insert noColon isFinished status
          rw [if_pos records]
          refine inserted.setTask ?_
          rintro given ⟨⟩
          exact ⟨isFinished, recorded⟩
        · rw [if_neg records]
          refine sound.setTask ?_
          rintro given ⟨⟩
          exact ⟨isFinished, .inl (by simpa using records)⟩
      · exact sound
  | recordFails node key inserted =>
      rw [State.step]
      split
      · rename_i status observer job isTask
        have isFinished : (key, job) ∈ state.finished := sound.tasks node key _ isTask
        by_cases records : job.recordToDatabase = true ∧ inserted = true
        · rw [if_pos records]
          exact (sound.insert isFinished status).settle node key false
        · rw [if_neg records]
          exact sound.settle node key false
      · exact sound
  | remove node key =>
      rw [State.step]
      split
      · rename_i status observer job isTask
        have known : (key, job) ∈ state.finished ∧ Recorded state.rows (key, job) :=
          sound.tasks node key _ isTask
        exact (sound.removeJob known.1 known.2).settle node key true
      · exact sound
  | removeFails node key removed =>
      rw [State.step]
      split
      · rename_i status observer job isTask
        have known : (key, job) ∈ state.finished ∧ Recorded state.rows (key, job) :=
          sound.tasks node key _ isTask
        split
        · exact (sound.removeJob known.1 known.2).settle node key false
        · exact sound.settle node key false
      · exact sound
  | drain node queue =>
      rw [State.step]
      split
      · rename_i observer _
        have begun : Sound acceptsQueueName (state.setDrain state.nextDrain (some
            ⟨node, queue, observer, false, .reading .completed, state.finished.length⟩)) := by
          refine sound.setDrain ?_
          rintro given ⟨⟩
          exact ⟨Nat.le_refl _, fun _ => trivial⟩
        exact ⟨{ begun.books with }, begun.tasks, fun id drain isDrain =>
          (begun.drains id drain isDrain).mono (Nat.le_refl _) fun _ _ => .inl⟩
      · exact sound
  | drainPage id =>
      rw [State.step]
      split
      · rename_i drain isDrain
        dsimp only
        split
        · rename_i reads
          exact sound.drainPage isDrain reads
        · exact sound
      · exact sound
  | drainFails id => exact sound.setDrain nofun
  | drainNext id =>
      rw [State.step]
      split
      · rename_i drain isDrain
        exact sound.drainNext isDrain
      · exact sound

theorem sound_of_reachable (noColon : ∀ name, acceptsQueueName name = true → ':' ∉ name.toList)
    (reachable : (system acceptsQueueName).Reachable state) : Sound acceptsQueueName state := by
  refine reachable.invariant (Sound acceptsQueueName) ?_ ?_
  · rintro state rfl
    exact ⟨⟨nofun, .nil, nofun, nofun, nofun, nofun, .nil, nofun, nofun⟩, nofun, nofun⟩
  · rintro before label after - sound ⟨allowed, rfl⟩
    exact sound.step noColon allowed

/-- Jobs are recorded before they are removed, and no record is lost. -/
structure RecordsJobs (state : State Node) : Prop where
  removed : ∀ entry ∈ state.removed, Recorded state.rows entry
  drained : ∀ drain ∈ state.drained,
    (∀ entry ∈ drain.remaining, drain.roundStart ≤ entry.2.finishedAt) ∧
    ∀ entry ∈ state.finished, entry.1.queue = drain.queue →
      entry.2.finishedAt < drain.roundStart → entry ∈ state.removed ∧ Recorded state.rows entry
  unique : state.rows.Pairwise fun first second =>
    ¬(first.queue = second.queue ∧ first.queueId = second.queueId ∧ first.attempt = second.attempt)
  identified : ∀ first ∈ state.finished, ∀ second ∈ state.finished,
    recordId first.1 first.2.attempt = recordId second.1 second.2.attempt →
      first.1 = second.1 ∧ first.2.attempt = second.2.attempt

/-- Whatever the recorders do, jobs are recorded before they are removed. -/
theorem recordsJobs_of_reachable
    (noColon : ∀ name, acceptsQueueName name = true → ':' ∉ name.toList) {state : State Node}
    (reachable : (system acceptsQueueName).Reachable state) : RecordsJobs state := by
  have books := (sound_of_reachable noColon reachable).books
  refine ⟨fun entry isRemoved => (books.removed entry isRemoved).2, ?_, ?_, ?_⟩
  · intro drain isDrained
    obtain ⟨-, remaining, gone⟩ := books.drained drain isDrained
    refine ⟨remaining, ?_⟩
    intro entry isEntry sameQueue before
    have isRemoved := gone entry isEntry sameQueue before
    exact ⟨isRemoved, (books.removed entry isRemoved).2⟩
  · refine (List.pairwise_map.mp books.ids).imp_of_mem ?_
    rintro first second isFirst isSecond differ ⟨sameQueue, sameId, sameAttempt⟩
    obtain ⟨entry, -, status, rfl⟩ := books.rows first isFirst
    obtain ⟨other, -, otherStatus, rfl⟩ := books.rows second isSecond
    have sameKey : entry.1 = other.1 := JobKey.ext sameQueue sameId
    have same : entry.2.attempt = other.2.attempt := sameAttempt
    refine differ ?_
    rw [recordOf, recordOf, sameKey, same]
  · intro first isFirst second isSecond same
    exact recordId_injective (noColon _ (books.accepted first isFirst))
      (noColon _ (books.accepted second isSecond)) same

end Invariants

/-- Names without a colon are accepted. -/
def acceptsPlainName (name : String) : Bool := !name.toList.contains ':'

/-- A node records a job that an event and a drain report. -/
def recordedRun : List (Label ℕ) :=
  [.startObserver 0 "mail", .finish ⟨"mail", "1"⟩ 1 .completed true, .drain 0 "mail",
    .event 0 0 ⟨"mail", "1"⟩ .completed, .drainPage 0, .drainNext 0, .readJob 0 ⟨"mail", "1"⟩,
    .record 0 ⟨"mail", "1"⟩, .remove 0 ⟨"mail", "1"⟩, .drainNext 0, .drainPage 0, .drainNext 0,
    .drainPage 0, .drainNext 0, .drainPage 0, .drainNext 0]

theorem recordsJobs_of_drain : ∃ state : State ℕ,
    (system acceptsPlainName).Reachable state ∧ state.drained.length = 1 ∧
      state.removed.length = 1 ∧ RecordsJobs state := by
  have noColon : ∀ name, acceptsPlainName name = true → ':' ∉ name.toList := by
    intro name accepted
    simpa [acceptsPlainName] using accepted
  have reachable : (system acceptsPlainName).Reachable (recordedRun.foldl State.step .initial) := by
    refine (TransitionSystem.Reachable.start rfl).follow State.step (Allowed acceptsPlainName) ?_ ?_
    · exact fun _ _ allowed => ⟨allowed, rfl⟩
    · decide +kernel
  exact ⟨_, reachable, by decide +kernel, by decide +kernel,
    recordsJobs_of_reachable noColon reachable⟩

/-- A job completes after a drain has seen that no job is completed. -/
def missedRun : List (Label ℕ) :=
  [.startObserver 0 "mail", .drain 0 "mail", .drainPage 0,
    .finish ⟨"mail", "1"⟩ 1 .completed true, .drainNext 0, .drainPage 0, .drainNext 0]

/-- A drain can leave a terminal job behind that is not recorded. -/
theorem unrecorded_after_drain : ∃ state : State ℕ,
    (system acceptsPlainName).Reachable state ∧ ∃ drain ∈ state.drained,
      ∃ entry ∈ drain.remaining, ¬ Recorded state.rows entry := by
  have reachable : (system acceptsPlainName).Reachable (missedRun.foldl State.step .initial) := by
    refine (TransitionSystem.Reachable.start rfl).follow State.step (Allowed acceptsPlainName) ?_ ?_
    · exact fun _ _ allowed => ⟨allowed, rfl⟩
    · decide +kernel
  refine ⟨_, reachable, _, List.mem_singleton.mpr rfl, _, List.mem_singleton.mpr rfl, ?_⟩
  rintro (optedOut | ⟨row, isRow, -⟩)
  · cases optedOut
  · cases isRow

end ServerFoundation.Worker
