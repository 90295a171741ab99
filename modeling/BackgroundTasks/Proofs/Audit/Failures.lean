import BackgroundTasks.Proofs.Audit.Trail
import BackgroundTasks.Proofs.Files.Recovery

/-!
# Why a task has failed

A row fails by one result, and as long as it is failed no other result counts. So in the log of the
task the entry of that result is followed by marked ones only, and these belong to attempts that
were overtaken: an attempt that is still under way when the row fails was claimed before the one by
which it fails.

The status of a failed task tells the latest message of the log. That is why it has failed, unless
an overtaken attempt has handed in its result since.
-/

namespace BackgroundTasks

variable {s : Scheduler} {w : Scene} {past later earlier : List Moment} {m m' : Moment}
  {who : Nat} {id : TaskId} {row q : Row} {attempt : UInt32} {entry : LogEntry} {r : AuditRecord}

/-- A row is failed, and this is the number of its last claim. -/
def Fallen (r : Option Row) (attempt : UInt32) : Prop :=
  ∃ q, r = some q ∧ q.state = .failed ∧ q.attempts = attempt

/-- A row fails by a result that is handed in, and is failed from then on. -/
structure FailsBy (id : TaskId) (attempt : UInt32) (later : List Moment) (m : Moment)
    (entry : LogEntry) : Prop where
  result : ∃ who c, m.occurrence = .answers who (.store (.complete id c entry)) (Except.ok true)
    ∧ c.state = .failed ∧ c.claimedAttempt = attempt
  fallen : Fallen (m.after.find? id) attempt
  since : ∀ m' ∈ later, Fallen (m'.after.find? id) attempt

/-- **A failed row has failed by a result that counted.** -/
theorem failsBy_of_failed (ho : custody.Orderly past) (hq : rowAfter id past = some q)
    (hfailed : q.state = .failed) :
    ∃ later m earlier entry, past = later ++ m :: earlier
      ∧ FailsBy id q.attempts later m entry := by
  induction past generalizing q with
  | nil => cases hq
  | cons m past ih =>
    have hch := deed_changes ho.1 id
    -- the row was failed before
    have before {p : Row} (hp : rowAfter id past = some p) (hstate : p.state = .failed)
        (hattempts : p.attempts = q.attempts) :
        ∃ later m' earlier entry, m :: past = later ++ m' :: earlier
          ∧ FailsBy id q.attempts later m' entry := by
      obtain ⟨later, m', earlier, entry, rfl, hby⟩ := ih ho.2 hp hstate
      rw [hattempts] at hby
      refine ⟨m :: later, m', earlier, entry, rfl, hby.result, hby.fallen, ?_⟩
      exact List.forall_mem_cons.2 ⟨⟨q, hq, hfailed, rfl⟩, hby.since⟩
    cases hd : m.deed id <;> rw [hd, hq] at hch
    case nothing => exact before hch.symm hfailed rfl
    case inserted =>
      obtain ⟨-, hsome, _, _, _, _, hfresh⟩ := hch
      obtain rfl := Option.some.inj hsome
      rw [hfresh] at hfailed
      cases hfailed
    all_goals
      obtain ⟨p, hp, hacc, hchange⟩ := hch
      obtain rfl := Option.some.inj hchange
    case noted => exact before hp hfailed rfl
    case concluded who c kind =>
      obtain ⟨entry, hm, -⟩ := concluded_of_deed hd
      obtain ⟨-, hattempts, -⟩ := RowStep.complete_accepts.1 hacc
      exact ⟨[], m, past, entry, rfl, ⟨who, c, hm, hfailed, hattempts.symm⟩,
        ⟨_, hq, hfailed, rfl⟩, fun _ h => absurd h List.not_mem_nil⟩
    case claimed | cancelled | renewed => cases hfailed

/-! ## Results that come in later -/

/-- A result is handed in for a row in custody, and counts just if the store applies it. -/
theorem holding_of_record (h : custody.Follows past m) (hr : m.record? id = some r) :
    ∃ row c, custody.stage m.occurrence.who past = .holding row ∧ row.id = id
      ∧ r.entry.attempt = row.attempts
      ∧ m.occurrence
        = .answers m.occurrence.who (.store (.complete id c r.entry)) (Except.ok r.applied)
      ∧ r.applied = (rowAfter id past).any (RowStep.complete c).accepts := by
  obtain ⟨hid, hact⟩ := record?_eq_some.1 hr
  obtain ⟨who, target, c, hm⟩ := stores_of_act hact
  have hsuits := h.suits
  rw [hm, h.before] at hsuits
  obtain ⟨⟨row, now, d, hstage, hd, rfl, rfl, hentry⟩, hreturns⟩ := hsuits
  have hrow : row.id = id := by rw [← hid, hentry]; rfl
  have happlied : r.applied = ((tableAfter past).complete row.id d.completion r.entry).1.1 :=
    Except.ok.inj (congrArg Prod.fst hreturns)
  rw [TaskTable.complete_applied] at happlied
  subst hrow
  rw [hm]
  exact ⟨row, d.completion, hstage, rfl, by rw [hentry]; rfl, rfl, happlied⟩

namespace FailsBy

/-- The row is failed up to the end. -/
theorem fallen_after (h : FailsBy id attempt later m entry) :
    Fallen (rowAfter id (later ++ m :: earlier)) attempt := by
  cases later with
  | nil => exact h.fallen
  | cons m' later => exact h.since m' List.mem_cons_self

theorem tail (h : FailsBy id attempt (m' :: later) m entry) : FailsBy id attempt later m entry :=
  ⟨h.result, h.fallen, (List.forall_mem_cons.1 h.since).2⟩

/-- The result by which the row fails goes into the log under the number of its claim. -/
theorem record (h : FailsBy id attempt later m entry) (hf : custody.Follows earlier m) :
    m.record? id = some ⟨entry, true⟩ ∧ entry.attempt = attempt := by
  obtain ⟨who, c, hm, -, hattempt⟩ := h.result
  have hsuits := hf.suits
  rw [hm] at hsuits
  obtain ⟨⟨row, now, d, -, hd, rfl, rfl, rfl⟩, -⟩ := hsuits
  refine ⟨record?_eq_some.2 ⟨rfl, by rw [hm]; rfl⟩, ?_⟩
  rw [← hattempt, hd.claimedAttempt]
  rfl

/-- No later result counts. -/
theorem not_applied (h : FailsBy id attempt later m entry)
    (ho : custody.Orderly (m' :: (later ++ m :: earlier))) (hr : m'.record? id = some r) :
    r.applied = false := by
  obtain ⟨row, c, -, -, -, -, happlied⟩ := holding_of_record ho.1 hr
  have hfallen : Fallen (rowAfter id (later ++ m :: earlier)) attempt := h.fallen_after
  obtain ⟨q, hq, hfailed, -⟩ := hfallen
  rw [happlied, hq, Option.any_some, Bool.eq_false_iff]
  intro hacc
  cases hfailed.symm.trans (RowStep.complete_accepts.1 hacc).1

/-- Since the row has failed, nobody has claimed it. -/
theorem not_claimed (h : FailsBy id attempt later m entry)
    (ho : custody.Orderly (later ++ m :: earlier)) {l r : List Moment} {claim : Moment}
    (hlater : later = l ++ claim :: r) (hid : row.id = id) : ¬ claim.Claims who row := by
  intro hc
  subst hlater hid
  rw [List.append_assoc, List.cons_append] at ho
  have hclaim := ho.of_append.1
  obtain ⟨⟨now, hd⟩, hrow⟩ := claims_effect hclaim hc
  have hch := deed_changes hclaim row.id
  rw [hd, hrow] at hch
  obtain ⟨p, -, -, hchange⟩ := hch
  obtain ⟨q, hq, hfailed, -⟩ := h.since claim (by simp)
  -- the row would be running right after the claim
  obtain rfl := Option.some.inj (hrow.symm.trans hq)
  rw [Option.some.inj hchange] at hfailed
  cases hfailed

/-- A later result is that of an attempt that was overtaken. -/
theorem attempt_lt (h : FailsBy id attempt later m entry)
    (ho : custody.Orderly (m' :: (later ++ m :: earlier)))
    (hfit : (tableAfter (later ++ m :: earlier)).CountsFit) (hr : m'.record? id = some r) :
    r.entry.attempt < attempt := by
  have hom := ho.2.of_append
  have hfit' := countsFit_of_cons hom.1 (countsFit_of_append ho.2 hfit)
  obtain ⟨row, -, hstage, hid, hattempt, -⟩ := holding_of_record ho.1 hr
  -- the row was in custody before the task failed, and not with the operation by which it failed
  have hstage : custody.stage m'.occurrence.who (m :: earlier) = .holding row := by
    rcases holding_append ho.2 hstage with hstage | ⟨l, claim, l', hlater, hc⟩
    · exact hstage
    · exact absurd hc (h.not_claimed ho.2 hlater hid)
  obtain ⟨hrecord, hnumber⟩ := h.record hom.1
  obtain ⟨row', c, hstage', hid', hattempt', hm, happlied⟩ := holding_of_record hom.1 hrecord
  have hwho : m.occurrence.who ≠ m'.occurrence.who := by
    intro heq
    rw [← heq, Conduct.stage_self, hm] at hstage
    cases hstage
  rw [Conduct.stage_other hwho] at hstage
  -- the row that failed was found under the number of its claim, which no other attempt has
  obtain ⟨q, hq, hacc⟩ := (Option.any_eq_true _ _).1 happlied.symm
  obtain ⟨_, c', hm', -, hclaimed⟩ := h.result
  rw [hm] at hm'
  cases hm'
  have hlast : q.attempts = attempt := (RowStep.complete_accepts.1 hacc).2.1.trans hclaimed
  obtain ⟨p, hp, hle⟩ := found_of_holding hom.2 hfit' hstage
  rw [hid, hq] at hp
  obtain rfl := Option.some.inj hp
  rw [hattempt]
  refine UInt32.lt_of_le_of_ne (hlast ▸ hle) fun heq => ?_
  refine holders_apart hom.2 hfit' (Ne.symm hwho) hstage hstage' (hid.trans hid'.symm) ?_
  exact heq.trans (hnumber.symm.trans hattempt')

/-- What is handed in later does not count, and is that of attempts that were overtaken. -/
theorem records_since (h : FailsBy id attempt later m entry)
    (ho : custody.Orderly (later ++ m :: earlier)) :
    ∃ late, records id (later ++ m :: earlier) = records id (m :: earlier) ++ late
      ∧ ∀ r ∈ late, r.applied = false
        ∧ ((tableAfter (later ++ m :: earlier)).CountsFit → r.entry.attempt < attempt) := by
  induction later with
  | nil => exact ⟨[], (List.append_nil _).symm, fun _ hr => absurd hr List.not_mem_nil⟩
  | cons m' later ih =>
    obtain ⟨late, hlate, hall⟩ := ih h.tail ho.2
    refine ⟨late ++ (m'.record? id).toList, ?_, fun r hr => ?_⟩
    · rw [List.cons_append, records_cons, hlate, List.append_assoc]
    · have fits (hfit : (tableAfter (m' :: (later ++ m :: earlier))).CountsFit) :
          (tableAfter (later ++ m :: earlier)).CountsFit := countsFit_of_cons ho.1 hfit
      rcases List.mem_append.1 hr with hold | hnew
      · exact ⟨(hall r hold).1, fun hfit => (hall r hold).2 (fits hfit)⟩
      · have hr := Option.mem_toList.1 hnew
        exact ⟨h.tail.not_applied ho hr, fun hfit => h.tail.attempt_lt ho (fits hfit) hr⟩

/-- Every entry that a cycle hands in has a message of its own. -/
theorem message (h : FailsBy id attempt later m entry)
    (hbooks : ledger.Orderly (later ++ m :: earlier)) :
    ∃ message, entry.message = some message ∧ Unmarked message := by
  obtain ⟨who, c, hm, -⟩ := h.result
  have hsuits := hbooks.of_append.1.suits
  rw [hm] at hsuits
  obtain ⟨⟨row, -, -, hreports⟩, -⟩ := hsuits
  exact hreports.message

end FailsBy

theorem AuditRecord.marked_of_not_applied (h : r.applied = false) :
    ∃ text, r.logged.message = some (discardedMark ++ text) := by
  unfold logged
  rw [h]
  exact ⟨_, rfl⟩

/-- The result by which a row has failed is among those that were handed in. -/
theorem failsBy_reachable (hw : Reachable s w) (hrow : w.table.find? id = some row)
    (hfailed : row.state = .failed) :
    ∃ later m earlier entry, w.past = later ++ m :: earlier
      ∧ FailsBy id row.attempts later m entry ∧ ⟨entry, true⟩ ∈ records id w.past := by
  have ho := Conduct.orderly_reachable (custody_governs s) hw (custody_met _)
  obtain ⟨later, m, earlier, entry, hpast, hby⟩ := failsBy_of_failed ho hrow hfailed
  rw [hpast] at ho
  obtain ⟨hrecord, -⟩ := hby.record ho.of_append.1
  exact ⟨later, m, earlier, entry, hpast, hby,
    List.mem_filterMap.2 ⟨m, by simp [hpast], hrecord⟩⟩

/-! ## What is told -/

/-- A question to the store is answered from the table, wherever the rows are. -/
theorem System.askStore_of_reading {y : System} {c : StoreCall} {r : c.Result}
    (hfault : y.faults (.store c) = none) (hanswer : y.table.answer c = (.ok r, y.table))
    (hfiles : FileStore.answer y.table c
      = FileStore.commit y.table y.table r (pure ())) :
    y.askStore c = (some (.ok r), y) := by
  unfold System.askStore System.answerStore
  rw [hfault]
  obtain ⟨store, place, platform, board, sink, clock, elapsed, draws, ids, issued, faults⟩ := y
  cases store with
  | memory t =>
    have hanswer : t.answer c = (.ok r, t) := hanswer
    simp only [hanswer]
    rfl
  | files t =>
    have hfiles : FileStore.answer t c = FileStore.commit t t r (pure ()) := hfiles
    simp only [hfiles]
    rfl

/-- The status of a failed task, as it is told when the store can be asked. -/
theorem completes_taskStatus {y : System} (hget : y.faults (.store (.get id)) = none)
    (hlogs : y.faults (.store (.logs id)) = none) (hq : y.table.find? id = some q)
    (hfailed : q.state = .failed) :
    (Scheduler.taskStatus id).Completes y
      ⟨id, some .failed, (y.table.logs id).getLast?.bind LogEntry.message⟩ y := by
  have hstatus : (Scheduler.status id).Completes y (some .failed) y := by
    have hrow : (Operation.store (.get id)).Completes y (some q) y :=
      Operation.completes_store (System.askStore_of_reading hget (by rw [← hq]; rfl)
        (by rw [← hq]; rfl))
    refine hrow.bind ?_
    rw [Option.map_some, hfailed]
    exact Operation.completes_pure
  have hentries : (Scheduler.executionLog id).Completes y (y.table.logs id) y :=
    Operation.completes_store (System.askStore_of_reading hlogs rfl rfl)
  exact hstatus.bind (hentries.bind Operation.completes_pure)

/-- What the log and the status of a failed task tell of its failure. -/
structure FailureTold (w : Scene) (id : TaskId) (row : Row) (later : List Moment) (m : Moment)
    (entry : LogEntry) (late : List LogEntry) : Prop where
  /-- The row has failed by the result of this entry, under the number of its last claim. -/
  fails : FailsBy id row.attempts later m entry
  attempt : entry.attempt = row.attempts
  /-- The entry has a message of its own. -/
  message : ∃ message, entry.message = some message ∧ Unmarked message
  logged : w.table.logs id = m.before.logs id ++ entry :: late
  /-- Whatever the log has after it is marked as discarded. -/
  marked : ∀ e ∈ late, ∃ text, e.message = some (discardedMark ++ text)
  /-- It is of attempts that were overtaken. -/
  overtaken : w.table.CountsFit → ∀ e ∈ late, e.attempt < row.attempts
  /-- Wherever the rows are, the status tells the latest message as the reason. -/
  told : ∀ y : System, y.table = w.table → y.faults (.store (.get id)) = none →
    y.faults (.store (.logs id)) = none →
    (Scheduler.taskStatus id).Completes y
      ⟨id, some .failed, (late.getLast?.getD entry).message⟩ y
  /-- It is that of the failure just if no overtaken attempt has handed in its result since. -/
  own : (late.getLast?.getD entry).message = entry.message ↔ late = []

/-- **A failed task tells why it has failed**, or that an overtaken attempt has come in since. -/
theorem failure_told (hw : Reachable s w) (hrow : w.table.find? id = some row)
    (hfailed : row.state = .failed) :
    ∃ later m earlier entry late, w.past = later ++ m :: earlier
      ∧ FailureTold w id row later m entry late := by
  have ho := Conduct.orderly_reachable (custody_governs s) hw (custody_met _)
  have hbooks := Conduct.orderly_reachable (ledger_governs s) hw (ledger_met ho)
  obtain ⟨activities, past⟩ := w
  obtain ⟨later, m, earlier, entry, rfl, hby⟩ := failsBy_of_failed ho hrow hfailed
  have hom := ho.of_append
  obtain ⟨hrecord, hattempt⟩ := hby.record hom.1
  obtain ⟨late, hlate, hall⟩ := hby.records_since ho
  have hlogged : (tableAfter (later ++ m :: earlier)).logs id
      = m.before.logs id ++ entry :: late.map AuditRecord.logged := by
    rw [logs_eq_records ho, hlate, records_cons, hrecord, hom.1.before, logs_eq_records hom.2,
      List.map_append, List.map_append, List.append_assoc]
    rfl
  have hmarked :
      ∀ e ∈ late.map AuditRecord.logged, ∃ text, e.message = some (discardedMark ++ text) := by
    intro e he
    obtain ⟨r, hr, rfl⟩ := List.mem_map.1 he
    exact r.marked_of_not_applied (hall r hr).1
  refine ⟨later, m, earlier, entry, late.map AuditRecord.logged, rfl, hby, hattempt,
    hby.message hbooks, hlogged, hmarked, fun hfit e he => ?_, fun y hy hget hlogs => ?_,
    fun h => ?_, fun h => ?_⟩
  · obtain ⟨r, hr, rfl⟩ := List.mem_map.1 he
    rw [r.attempt_logged]
    exact (hall r hr).2 hfit
  · have htold := completes_taskStatus hget hlogs (hy ▸ hrow) hfailed
    rw [hy, show Scene.table _ = tableAfter _ from rfl, hlogged, List.getLast?_append,
      List.getLast?_cons] at htold
    exact htold
  · -- a marked message is not that of the failure
    cases hlast : (late.map AuditRecord.logged).getLast? with
    | none => exact List.getLast?_eq_none_iff.1 hlast
    | some e =>
      obtain ⟨message, hown, hunmarked⟩ := hby.message hbooks
      obtain ⟨text, htext⟩ := hmarked e (List.mem_of_getLast? hlast)
      rw [hlast, Option.getD_some, htext, hown] at h
      exact absurd (Option.some.inj h).symm (hunmarked text)
  · rw [h]
    rfl

/-- A task is overtaken, its later attempt fails, and then the overtaken one succeeds. -/
def Rehearsal.belied : List Cue :=
  overtaking ++ .finish 4 (.returned (.failure .permanent (.permanent "gone"))) :: goes 4 20
    ++ goes 1 20

/-- A system with the rows of a scene. -/
def Rehearsal.home (cues : List Cue) : System :=
  { system with store := .memory (scene cues).table }

theorem Rehearsal.table_home (cues : List Cue) : (home cues).table = (scene cues).table := rfl

theorem Rehearsal.faults_home (cues : List Cue) (c : Call) : (home cues).faults c = none := rfl

open Rehearsal in
/-- The later attempt fails, and what the log has after it is the result of the overtaken one. -/
theorem failure_told_belied :
    ∃ row later m earlier entry late, (scene belied).table.find? first = some row
      ∧ row.state = .failed ∧ (scene belied).past = later ++ m :: earlier
      ∧ FailureTold (scene belied) first row later m entry late ∧ late ≠ [] := by
  have hstate : ((scene belied).table.find? first).map Row.state = some .failed := by
    decide +kernel
  have hlast : ((scene belied).table.logs first).getLast?.bind LogEntry.message
      = some (discardedMark ++ "succeeded") := by decide +kernel
  obtain ⟨row, hrow, hfailed⟩ := Option.map_eq_some_iff.1 hstate
  obtain ⟨later, m, earlier, entry, late, hpast, htold⟩ :=
    failure_told (reachable_scene belied) hrow hfailed
  refine ⟨row, later, m, earlier, entry, late, hrow, hfailed, hpast, htold, fun hnone => ?_⟩
  -- the last message is marked, and that of the failure is not
  obtain ⟨message, hmessage, hunmarked⟩ := htold.message
  rw [htold.logged, hnone, List.getLast?_append, List.getLast?_singleton, Option.some_or,
    Option.bind_some, hmessage] at hlast
  exact hunmarked "succeeded" (Option.some.inj hlast)

open Rehearsal in
/-- A failed task tells the message of an attempt that was overtaken, and not why it has failed. -/
theorem overtaken_result_told :
    ∃ row later m earlier entry, Reachable scheduler (scene belied)
      ∧ (scene belied).table.find? first = some row ∧ row.state = .failed
      ∧ (scene belied).past = later ++ m :: earlier
      ∧ FailsBy first row.attempts later m entry
      ∧ entry.message = some "[unknown] permanent failure: gone"
      ∧ (Scheduler.taskStatus first).Completes (home belied)
        ⟨first, some .failed, some "discarded (task no longer running): succeeded"⟩
        (home belied) := by
  have hw := reachable_scene belied
  have hstate : ((scene belied).table.find? first).map Row.state = some .failed := by
    decide +kernel
  have hlast : ((scene belied).table.logs first).getLast?.bind LogEntry.message
      = some "discarded (task no longer running): succeeded" := by decide +kernel
  have hcounted : ((records first (scene belied).past).filter AuditRecord.applied).map
      (fun r => r.entry.message) = [some "[unknown] permanent failure: gone"] := by
    decide +kernel
  obtain ⟨row, hrow, hfailed⟩ := Option.map_eq_some_iff.1 hstate
  obtain ⟨later, m, earlier, entry, hpast, hby, hmem⟩ := failsBy_reachable hw hrow hfailed
  refine ⟨row, later, m, earlier, entry, hw, hrow, hfailed, hpast, hby, ?_, ?_⟩
  · -- one result has counted, and it is the one by which the row has failed
    have hcounts : ⟨entry, true⟩ ∈ (records first (scene belied).past).filter AuditRecord.applied :=
      List.mem_filter.2 ⟨hmem, rfl⟩
    have hmessage := List.mem_map_of_mem (f := fun r : AuditRecord => r.entry.message) hcounts
    rw [hcounted] at hmessage
    exact List.mem_singleton.1 hmessage
  · have told (y : System) (hy : y.table = (scene belied).table)
        (hfaults : ∀ c, y.faults c = none) :
        (Scheduler.taskStatus first).Completes y
          ⟨first, some .failed, some "discarded (task no longer running): succeeded"⟩ y := by
      have htold := completes_taskStatus (hfaults _) (hfaults _) (hy ▸ hrow) hfailed
      rw [hy, hlast] at htold
      exact htold
    exact told (home belied) (table_home belied) (faults_home belied)

end BackgroundTasks
