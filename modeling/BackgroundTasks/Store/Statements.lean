/-!
# The store as statements

The contract of a store in the words of a relational database: two tables, and one statement for
each conditional update. Whoever runs them decides by the count of affected rows.
-/

namespace BackgroundTasks.Statements

/-- A statement of several lines. -/
def statement (lines : List String) : String := String.join (lines.map fun line => "\n" ++ line)

/-- Takes the task `$1` from the queue at the time `$2`; no affected row means it was not there. -/
def claim : String :=
  statement [
    "UPDATE scheduled_tasks",
    "   SET state = 'running',",
    "       run_attempt_count = run_attempt_count + 1,",
    "       updated_at_ms = $2",
    " WHERE id = $1",
    "   AND state = 'enqueued'"]

/--
Ends the claim `$6` of the task `$1`: state `$2`, next run `$3` unless null, retries `$4`, time
`$5`.
-/
def complete : String :=
  statement [
    "UPDATE scheduled_tasks",
    "   SET state = $2,",
    "       next_run_time_ms = COALESCE($3, next_run_time_ms),",
    "       retry_count = $4,",
    "       updated_at_ms = $5",
    " WHERE id = $1",
    "   AND state = 'running'",
    "   AND run_attempt_count = $6"]

/-- Cancels the task `$1` at the time `$2`. -/
def cancel : String :=
  statement [
    "UPDATE scheduled_tasks",
    "   SET state = 'cancelled',",
    "       updated_at_ms = $2",
    " WHERE id = $1",
    "   AND state IN ('enqueued', 'running')"]

/-- The tasks in the queue whose time has come at `$1`. -/
def due : String :=
  statement [
    "SELECT * FROM scheduled_tasks",
    " WHERE state = 'enqueued'",
    "   AND next_run_time_ms <= $1",
    " ORDER BY next_run_time_ms"]

/-- Every task, in the order of listings. -/
def list : String :=
  statement [
    "SELECT * FROM scheduled_tasks",
    " ORDER BY priority DESC, next_run_time_ms, created_at_ms"]

/--
Appends an entry of the task `$1` to the log: time `$2`, kind `$3`, attempt `$4`, message `$5`.
-/
def appendLog : String :=
  statement [
    "INSERT INTO task_execution_log (task_id, created_at_ms, result_kind, attempt_number, message)",
    "VALUES ($1, $2, $3, $4, $5)"]

/-- The table of tasks, with the indexes behind `due` and `list`. -/
def createTasks : String :=
  statement [
    "CREATE TABLE IF NOT EXISTS scheduled_tasks (",
    "    id TEXT PRIMARY KEY,",
    "    state TEXT NOT NULL "
      ++ "CHECK (state IN ('enqueued', 'running', 'succeeded', 'failed', 'cancelled')),",
    "    payload_type_id TEXT NOT NULL,",
    "    payload_data TEXT NOT NULL,",
    "    priority SMALLINT NOT NULL,",
    "    requires_network BOOLEAN NOT NULL DEFAULT FALSE,",
    "    requires_charging BOOLEAN NOT NULL DEFAULT FALSE,",
    "    requires_battery_not_low BOOLEAN NOT NULL DEFAULT FALSE,",
    "    schedule_type TEXT NOT NULL,",
    "    initial_delay_ms BIGINT NOT NULL,",
    "    interval_ms BIGINT NOT NULL DEFAULT 0,",
    "    flex_ms BIGINT NOT NULL DEFAULT 0,",
    "    backoff_policy TEXT NOT NULL,",
    "    backoff_delay_ms BIGINT NOT NULL,",
    "    backoff_multiplier DOUBLE PRECISION,",
    "    backoff_jitter_factor DOUBLE PRECISION NOT NULL DEFAULT 0,",
    "    max_retries INTEGER NOT NULL,",
    "    next_run_time_ms BIGINT NOT NULL,",
    "    run_attempt_count INTEGER NOT NULL DEFAULT 0,",
    "    retry_count INTEGER NOT NULL DEFAULT 0,",
    "    platform_id TEXT,",
    "    created_at_ms BIGINT NOT NULL,",
    "    updated_at_ms BIGINT NOT NULL",
    ");",
    "CREATE INDEX IF NOT EXISTS idx_scheduled_tasks_due "
      ++ "ON scheduled_tasks (state, next_run_time_ms);",
    "CREATE INDEX IF NOT EXISTS idx_scheduled_tasks_listing "
      ++ "ON scheduled_tasks (priority DESC, next_run_time_ms, created_at_ms);",
    ""]

/-- The table of the log. -/
def createLog : String :=
  statement [
    "CREATE TABLE IF NOT EXISTS task_execution_log (",
    "    id BIGSERIAL PRIMARY KEY,",
    "    task_id TEXT NOT NULL REFERENCES scheduled_tasks (id),",
    "    created_at_ms BIGINT NOT NULL,",
    "    result_kind TEXT NOT NULL,",
    "    attempt_number INTEGER NOT NULL,",
    "    message TEXT",
    ");",
    "CREATE INDEX IF NOT EXISTS idx_task_execution_log_task ON task_execution_log (task_id, id);",
    ""]

/-- The statements that make both tables. -/
def migrations : List String := [createTasks, createLog]

end BackgroundTasks.Statements
