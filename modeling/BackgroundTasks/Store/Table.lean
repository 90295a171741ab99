import BackgroundTasks.Store.Call

/-!
# The task table

Rows by id, and one log for all tasks in the order in which entries came in. The table is the
meaning of every store: `answer` says, for each call, what it returns and what it leaves behind.

No two rows share an id. The order in which rows were added never shows: listings are sorted by
keys that end in the id.
-/

namespace BackgroundTasks

/-- Task rows and their log. -/
structure TaskTable where
  rows : List Row
  log : List LogEntry
  /-- An id names one row. -/
  nodup : (rows.map Row.id).Nodup

/-- What the message of a result begins with that came too late. -/
def discardedMark : String := "discarded (task no longer running): "

namespace LogEntry

/-- The entry of a result that was not applied. -/
def discarded (e : LogEntry) : LogEntry :=
  { e with message := some (discardedMark ++ e.message.getD "") }

end LogEntry

namespace Row

/-- Older rows first, then smaller ids. -/
def createdBefore (a b : Row) : Bool :=
  a.createdMs < b.createdMs || (a.createdMs == b.createdMs && a.id.le b.id)

/-- Rows that run earlier first, then smaller ids. -/
def runsBefore (a b : Row) : Bool :=
  a.nextRunMs < b.nextRunMs || (a.nextRunMs == b.nextRunMs && a.id.le b.id)

/-- A row in the queue whose time has come. -/
def isDue (now : UInt64) (r : Row) : Bool := r.state == .enqueued && r.nextRunMs ≤ now

end Row

namespace TaskTable

/-- The table without rows or log. -/
def empty : TaskTable := ⟨[], [], List.nodup_nil⟩

instance : Inhabited TaskTable := ⟨empty⟩

/-- The row with the given id. -/
def find? (t : TaskTable) (id : TaskId) : Option Row := t.rows.find? fun r => r.id == id

/-- The table with a further row, if its id is free. -/
def insert? (t : TaskTable) (row : Row) : Option TaskTable :=
  if h : row.id ∈ t.rows.map Row.id then none
  else
    some { t with
      rows := t.rows ++ [row]
      nodup := by
        rw [List.map_append, List.nodup_append]
        refine ⟨t.nodup, List.nodup_cons.2 ⟨List.not_mem_nil, List.nodup_nil⟩, ?_⟩
        intro a ha b hb hab
        rw [List.map_singleton, List.mem_singleton] at hb
        exact h (hb ▸ hab ▸ ha) }

/-- The table with every row mapped by a function that keeps ids. -/
def mapRows (t : TaskTable) (f : Row → Row) (keepsId : ∀ r, (f r).id = r.id) : TaskTable :=
  { t with
    rows := t.rows.map f
    nodup := by
      have h : (t.rows.map f).map Row.id = t.rows.map Row.id := by
        rw [List.map_map]
        exact List.map_congr_left fun r _ => keepsId r
      rw [h]
      exact t.nodup }

/-- Takes a step with one row; returns the row it leads to. -/
def stepAt (t : TaskTable) (id : TaskId) (step : RowStep) : Option Row × TaskTable :=
  ((t.find? id).bind step.apply, t.mapRows (step.afterAt id) (step.id_afterAt id))

/-- Takes a step with every row that allows it; returns their ids in order. -/
def stepAll (t : TaskTable) (step : RowStep) : List TaskId × TaskTable :=
  ((t.rows.filterMap fun r => (step.apply r).map Row.id).mergeSort TaskId.le,
    t.mapRows step.after step.id_after)

/-- The table with a further log entry. -/
def appendLog (t : TaskTable) (e : LogEntry) : TaskTable := { t with log := t.log ++ [e] }

/-- The table with a row put in the place of the one with its id, or added. -/
def put (t : TaskTable) (row : Row) : TaskTable :=
  match t.insert? row with
  | some t => t
  | none =>
    t.mapRows (fun r => if r.id = row.id then row else r) fun r => by
      split
      · next h => exact h.symm
      · rfl

/-- The table of the given rows and log entries; of several rows with one id the last counts. -/
def ofParts (rows : List Row) (log : List LogEntry) : TaskTable :=
  { rows.foldl put empty with log }

/-! ## Reading -/

/-- Every row, oldest first. -/
def list (t : TaskTable) : List Row := t.rows.mergeSort Row.createdBefore

/-- The rows in the queue whose time has come, earliest first. -/
def due (t : TaskTable) (now : UInt64) : List Row :=
  (t.rows.filter (Row.isDue now)).mergeSort Row.runsBefore

/-- The log of a task, oldest first. -/
def logs (t : TaskTable) (id : TaskId) : List LogEntry := t.log.filter fun e => e.taskId == id

/-! ## Transactions -/

/-- Applies a completion if its claim still runs; says whether it did. -/
def applyCompletion (t : TaskTable) (id : TaskId) (c : Completion) : Bool × TaskTable :=
  let (row, t) := t.stepAt id (.complete c)
  (row.isSome, t)

/--
Applies a completion and logs it. The entry is logged in any case, and marked as discarded when the
completion was not applied; returns the entry as it was logged.
-/
def complete (t : TaskTable) (id : TaskId) (c : Completion) (entry : LogEntry) :
    (Bool × LogEntry) × TaskTable :=
  let (applied, t) := t.applyCompletion id c
  let entry := if applied then entry else entry.discarded
  ((applied, entry), t.appendLog entry)

/-- Gives a row a new description. -/
def replaceSpec (t : TaskTable) (id : TaskId) (spec : Spec) (nextRunMs now : UInt64) :
    Replacement × TaskTable :=
  match t.find? id, t.stepAt id (.replace spec nextRunMs now) with
  | none, (_, t) => (.notFound, t)
  | some _, (none, t) => (.running, t)
  | some _, (some _, t) => (.replaced, t)

/-- What a call returns, and the table it leaves behind. -/
def answer (t : TaskTable) : (c : StoreCall) → c.Answer × TaskTable
  | .insert row =>
    match t.insert? row with
    | some t => (.ok (), t)
    | none => (.error (.store (.taskExists row.id)), t)
  | .get id => (.ok (t.find? id), t)
  | .list => (.ok t.list, t)
  | .due now => (.ok (t.due now), t)
  | .claim id now =>
    let (row, t) := t.stepAt id (.claim now)
    (.ok row, t)
  | .complete id completion entry =>
    let ((applied, _), t) := t.complete id completion entry
    (.ok applied, t)
  | .transition id origins target now =>
    let (row, t) := t.stepAt id (.move origins target now)
    (.ok (if row.isSome then (1 : Nat) else (0 : Nat)), t)
  | .transitionAll origins target now =>
    let (ids, t) := t.stepAll (.move origins target now)
    (.ok ids, t)
  | .replaceSpec id spec nextRunMs now =>
    let (outcome, t) := t.replaceSpec id spec nextRunMs now
    (.ok outcome, t)
  | .setPlatformId id handle =>
    match t.stepAt id (.setPlatformId handle) with
    | (some _, t) => (.ok (), t)
    | (none, t) => (.error (.notFound id), t)
  | .appendLog entry => (.ok (), t.appendLog entry)
  | .logs id => (.ok (t.logs id), t)
  | .lastLog id => (.ok (t.logs id).getLast?, t)

end TaskTable

end BackgroundTasks
