import BackgroundTasks.Proofs.Audit.Course
import Mathlib.Data.List.Basic

/-!
# The audit trail

A result goes into the log under the number of its claim, and no two claims of a task have one
number. An operation that has claimed a row has it in custody until it hands in its one result; so
the numbers in the log are those of all claims but the ones in flight. Results come in in any order,
but a result counts only while no later claim has been made, so its number is above those of all
results before it.

The events on an attempt are those of the operation that has claimed it.
-/

namespace BackgroundTasks

variable {s : Scheduler} {w : Scene} {past : List Moment} {m : Moment} {who who' : Nat}
  {id : TaskId} {row row' q : Row} {g : Ledger}

/-! ## Records -/

/-- A result that was handed in. -/
structure AuditRecord where
  entry : LogEntry
  /-- Whether the result counted. -/
  applied : Bool
deriving DecidableEq

/-- The log entry of a result. -/
def AuditRecord.logged (r : AuditRecord) : LogEntry :=
  if r.applied then r.entry else r.entry.discarded

@[simp] theorem AuditRecord.taskId_logged (r : AuditRecord) : r.logged.taskId = r.entry.taskId := by
  unfold logged
  split <;> rfl

@[simp] theorem AuditRecord.attempt_logged (r : AuditRecord) :
    r.logged.attempt = r.entry.attempt := by
  unfold logged
  split <;> rfl

/-- An entry is marked just if its result did not count. -/
theorem AuditRecord.marked_iff (r : AuditRecord) (h : r.entry.Reports row) :
    (∃ text, r.logged.message = some (discardedMark ++ text)) ↔ r.applied = false := by
  obtain ⟨message, hmessage, hunmarked⟩ := h.message
  unfold logged
  cases r.applied with
  | false => exact ⟨fun _ => rfl, fun _ => ⟨r.entry.message.getD "", rfl⟩⟩
  | true =>
    constructor
    · rintro ⟨text, hmarked⟩
      exact absurd (Option.some.inj (hmessage.symm.trans hmarked)) (hunmarked text)
    · intro hfalse
      cases hfalse

/-- The result that an act hands in for a task. -/
def Act.record? (id : TaskId) : Act → Option AuditRecord
  | stores entry applied => if entry.taskId = id then some ⟨entry, applied⟩ else none
  | _ => none

/-- The result that is handed in for a task. -/
def Moment.record? (id : TaskId) (m : Moment) : Option AuditRecord :=
  m.occurrence.act?.bind (Act.record? id)

/-- The results that were handed in for a task, in order. -/
def records (id : TaskId) (past : List Moment) : List AuditRecord :=
  past.reverse.filterMap (Moment.record? id)

theorem records_cons (id : TaskId) (m : Moment) (past : List Moment) :
    records id (m :: past) = records id past ++ (m.record? id).toList := by
  unfold records
  rw [List.reverse_cons, List.filterMap_append]
  cases hr : m.record? id <;> simp [hr]

theorem record?_eq_some {r : AuditRecord} : m.record? id = some r
    ↔ r.entry.taskId = id ∧ m.occurrence.act? = some (.stores r.entry r.applied) := by
  unfold Moment.record?
  rw [Option.bind_eq_some_iff]
  constructor
  · rintro ⟨act, hact, hr⟩
    cases act with
    | claims | tells => cases hr
    | stores entry applied =>
      simp only [Act.record?, Option.ite_none_right_eq_some, Option.some.injEq] at hr
      obtain ⟨hid, rfl⟩ := hr
      exact ⟨hid, hact⟩
  · rintro ⟨hid, hact⟩
    exact ⟨_, hact, if_pos hid⟩

/-- The results for a task are those that operations have stored for it. -/
theorem mem_records {r : AuditRecord} : r ∈ records id past
    ↔ r.entry.taskId = id ∧ ∃ who, .stores r.entry r.applied ∈ actsOf who past := by
  unfold records
  simp only [List.mem_filterMap, List.mem_reverse, record?_eq_some, mem_actsOf]
  constructor
  · rintro ⟨m, hm, hid, hact⟩
    exact ⟨hid, _, m, hm, rfl, hact⟩
  · rintro ⟨hid, who, m, hm, -, hact⟩
    exact ⟨m, hm, hid, hact⟩

/-! ## The log -/

theorem logs_answer (t : TaskTable) (c : StoreCall) (id : TaskId) :
    (t.answer c).2.logs id = t.logs id ++ (t.entries c).filter fun e => e.taskId == id := by
  unfold TaskTable.logs
  rw [t.log_answer, List.filter_append]

theorem filter_logged (id : TaskId) (r : AuditRecord) :
    ([r.logged].filter fun e => e.taskId == id)
      = (Act.record? id (.stores r.entry r.applied)).toList.map AuditRecord.logged := by
  simp only [Act.record?]
  by_cases hid : r.entry.taskId = id
  · rw [if_pos hid, List.filter_cons_of_pos (by simpa using hid)]
    rfl
  · rw [if_neg hid, List.filter_cons_of_neg (by simpa using hid)]
    rfl

/-- The log grows by the results that are handed in. -/
theorem logs_suits {c : Custody} {o : Occurrence} {t t' : TaskTable}
    (h : custody.Suits c t t' o) (id : TaskId) :
    t'.logs id = t.logs id ++ ((o.act?.bind (Act.record? id)).toList.map AuditRecord.logged) := by
  -- most of what happens leaves the table as it is, and is no result
  have same (htable : t' = t) : t'.logs id = t.logs id ++ [] := by
    rw [htable, List.append_nil]
  cases o with
  | begins | wakes => exact same h
  | fails | breaksDown => exact same h.2.2
  | answers who c a =>
    obtain ⟨hallows, hreturns⟩ := h
    cases c with
    | store c =>
      have ha : a = (t.answer c).1 := congrArg Prod.fst hreturns
      have ht : t' = (t.answer c).2 := congrArg Prod.snd hreturns
      rw [ht, logs_answer]
      congr 1
      cases c with
      | claim target now => rcases a with failure | _ | row <;> rfl
      | complete target c entry =>
        subst ha
        -- the entry is logged as the record has it
        exact filter_logged id ⟨entry, (t.complete target c entry).1.1⟩
      | appendLog entry => exact hallows.elim
      | _ => rfl
    | readStatus | arm | disarm | isArmed => exact same hreturns.2
    | emit e =>
      show t'.logs id = t.logs id
        ++ (((if e.isQuiet then none else some (.tells e) : Option Act)).bind
          (Act.record? id)).toList.map AuditRecord.logged
      split <;> exact same hreturns
    | publish | subscribe | unsubscribe | now | newId | retryDelay | periodicRun | work =>
      exact same hreturns

theorem logs_eq_records (ho : custody.Orderly past) (id : TaskId) :
    (tableAfter past).logs id = (records id past).map AuditRecord.logged := by
  induction past with
  | nil => rfl
  | cons m past ih =>
    show m.after.logs id = _
    rw [logs_suits ho.1.suits, ho.1.before, ih ho.2, records_cons, List.map_append]
    rfl

/-! ## Numbers -/

variable {r r' : AuditRecord}

theorem stores_of_act {entry : LogEntry} {applied : Bool}
    (h : m.occurrence.act? = some (.stores entry applied)) :
    ∃ who target c, m.occurrence
      = .answers who (.store (.complete target c entry)) (Except.ok applied) := by
  unfold Occurrence.act? at h
  split at h
  · cases h
  · next who target c entry' applied' hm =>
    obtain ⟨rfl, rfl⟩ := Act.stores.inj (Option.some.inj h)
    exact ⟨who, target, c, hm⟩
  · split at h <;> cases h
  · cases h

namespace Auditable

/-- A result is handed in for a row in custody, and if it counts, that row was claimed last. -/
theorem holder (h : Auditable (m :: past)) (hr : m.record? id = some r) :
    ∃ who row, custody.stage who past = .holding row ∧ row.id = id
      ∧ r.entry.attempt = row.attempts
      ∧ (r.applied = true → ∃ q, rowAfter id past = some q ∧ q.attempts = row.attempts) := by
  obtain ⟨hid, hact⟩ := record?_eq_some.1 hr
  obtain ⟨who, target, c, hm⟩ := stores_of_act hact
  have hsuits := h.rows.1.suits
  rw [hm, h.rows.1.before] at hsuits
  obtain ⟨⟨row, now, d, hstage, hd, rfl, rfl, hentry⟩, hreturns⟩ := hsuits
  have hrow : row.id = id := by rw [← hid, hentry]; rfl
  refine ⟨who, row, hstage, hrow, by rw [hentry]; rfl, fun happlied => ?_⟩
  have hok : r.applied = ((tableAfter past).complete row.id d.completion r.entry).1.1 :=
    Except.ok.inj (congrArg Prod.fst hreturns)
  rw [happlied, TaskTable.complete_applied] at hok
  obtain ⟨q, hq, hacc⟩ := (Option.any_eq_true _ _).1 hok.symm
  obtain ⟨-, hattempts, -⟩ := RowStep.complete_accepts.1 hacc
  exact ⟨q, hrow ▸ hq, hattempts.trans hd.claimedAttempt⟩

/-- A result in the log was stored by the operation that had claimed the row. -/
theorem claimed (h : Auditable past) (hr : r ∈ records id past) :
    ∃ who row, .claims row ∈ actsOf who past ∧ .stores r.entry r.applied ∈ actsOf who past
      ∧ row.id = id ∧ r.entry.Reports row := by
  obtain ⟨hid, who, hstores⟩ := mem_records.1 hr
  obtain ⟨row, hclaim, hall⟩ := (h.course who).concerns hstores
  have hreports : r.entry.Reports row := hall _ hstores
  exact ⟨who, row, hclaim, hstores, hreports.taskId.symm.trans hid, hreports⟩

/-- What has been claimed is there, and its number has not gone back. -/
theorem found (h : Auditable past) (hclaim : .claims row ∈ actsOf who past) :
    ∃ q, rowAfter row.id past = some q ∧ row.attempts ≤ q.attempts := by
  obtain ⟨m, hm, hc⟩ := claims_mem.1 hclaim
  exact found_of_claims h.rows h.fits hm hc

/-- A row in custody has been claimed, and there is no result for it yet. -/
theorem claims_of_holding (h : Auditable past) (hstage : custody.stage who past = .holding row) :
    .claims row ∈ actsOf who past
      ∧ ∀ entry applied, .stores entry applied ∉ actsOf who past := by
  rw [custody_stage] at hstage
  exact ⟨(h.course who).claims_of_holding hstage, (h.course who).not_stored hstage⟩

/-- A result has another number than those before it, and a larger one if it counts. -/
theorem fresh (h : Auditable (m :: past)) (hr : m.record? id = some r)
    (hold : r' ∈ records id past) :
    r'.entry.attempt ≠ r.entry.attempt
      ∧ (r.applied = true → r'.entry.attempt < r.entry.attempt) := by
  obtain ⟨who, row, hstage, hid, hattempt, hlast⟩ := h.holder hr
  obtain ⟨hclaim, hnone⟩ := h.tail.claims_of_holding hstage
  obtain ⟨who', row', hclaim', hstores', hid', hreports⟩ := h.tail.claimed hold
  have hne : r'.entry.attempt ≠ r.entry.attempt := by
    intro heq
    -- both results would be those of one operation, and it has none yet
    have hnumber : row'.attempts = row.attempts :=
      hreports.attempt.symm.trans (heq.trans hattempt)
    obtain rfl := h.tail.claimant hclaim' hclaim (hid'.trans hid.symm) hnumber
    exact hnone _ _ hstores'
  refine ⟨hne, fun happlied => ?_⟩
  obtain ⟨q, hq, hqattempts⟩ := hlast happlied
  obtain ⟨q', hq', hle⟩ := h.tail.found hclaim'
  rw [hid', hq] at hq'
  obtain rfl := Option.some.inj hq'
  rw [← hreports.attempt, hqattempts, ← hattempt] at hle
  exact UInt32.lt_of_le_of_ne hle hne

theorem nodup (h : Auditable past) (id : TaskId) :
    ((records id past).map fun r => r.entry.attempt).Nodup := by
  induction past with
  | nil => exact List.nodup_nil
  | cons m past ih =>
    rw [records_cons, List.map_append, List.nodup_append]
    refine ⟨ih h.tail, ?_, ?_⟩
    · cases m.record? id <;> simp
    · intro n hn n' hn'
      obtain ⟨r', hr', rfl⟩ := List.mem_map.1 hn
      obtain ⟨r, hr, rfl⟩ := List.mem_map.1 hn'
      exact (h.fresh (Option.mem_toList.1 hr) hr').1

/-- The results that count come in in the order of their claims. -/
theorem increasing (h : Auditable past) (id : TaskId) :
    ((records id past).filter AuditRecord.applied).Pairwise
      fun r r' => r.entry.attempt < r'.entry.attempt := by
  induction past with
  | nil => exact List.Pairwise.nil
  | cons m past ih =>
    rw [records_cons, List.filter_append, List.pairwise_append]
    refine ⟨ih h.tail, ?_, ?_⟩
    · cases hr : m.record? id with
      | none => exact List.Pairwise.nil
      | some r => exact (List.pairwise_singleton _ r).filter _
    · intro r' hr' r hr
      obtain ⟨hold, -⟩ := List.mem_filter.1 hr'
      obtain ⟨hnew, happlied⟩ := List.mem_filter.1 hr
      exact (h.fresh (Option.mem_toList.1 hnew) hold).2 happlied

end Auditable

/-- Every number up to that of a row was taken by a claim. -/
theorem claims_reach (ho : custody.Orderly past) (hfit : (tableAfter past).CountsFit)
    (hq : rowAfter id past = some q) {n : UInt32} (hpos : 0 < n) (hle : n ≤ q.attempts) :
    ∃ m ∈ past, ∃ who row, m.Claims who row ∧ row.id = id ∧ row.attempts = n := by
  induction past generalizing q with
  | nil => cases hq
  | cons m past ih =>
    have hch := deed_changes ho.1 id
    have before {p : Row} (hp : rowAfter id past = some p) (hle : n ≤ p.attempts) :
        ∃ m' ∈ m :: past, ∃ who row, m'.Claims who row ∧ row.id = id ∧ row.attempts = n := by
      obtain ⟨m', hm', h⟩ := ih ho.2 (countsFit_of_cons ho.1 hfit) hp hle
      exact ⟨m', List.mem_cons_of_mem _ hm', h⟩
    cases hd : m.deed id <;> rw [hd, hq] at hch
    case nothing => exact before hch.symm hle
    case inserted =>
      obtain ⟨-, hsome, _, _, _, _, rfl⟩ := hch
      obtain rfl := Option.some.inj hsome
      exact absurd hle (UInt32.not_le.2 hpos)
    case claimed who now =>
      obtain ⟨row, hc, hid, hrow⟩ := claims_of_deed ho.1 hd
      obtain rfl := Option.some.inj (hrow.symm.trans hq)
      obtain ⟨p, hp, -, hchange⟩ := hch
      -- the number is that of this claim, or it was taken before
      by_cases hbefore : n ≤ p.attempts
      · exact before hp hbefore
      · refine ⟨m, List.mem_cons_self, who, row, hc, hid, UInt32.le_antisymm ?_ hle⟩
        have hattempts : row.attempts = satSucc p.attempts :=
          congrArg Row.attempts (Option.some.inj hchange)
        have hfits := hfit row (TaskTable.mem_of_find? hrow)
        rw [hattempts] at hfits ⊢
        have hsucc := toNat_satSucc_of_lt hfits
        rw [UInt32.le_iff_toNat_le] at hbefore ⊢
        omega
    all_goals
      obtain ⟨p, hp, -, hchange⟩ := hch
      obtain rfl := Option.some.inj hchange
      exact before hp hle

/-- The number of a claim is not zero. -/
theorem pos_of_claims (h : custody.Follows past m) (hfit : (tableAfter (m :: past)).CountsFit)
    (hc : m.Claims who row) : 0 < row.attempts := by
  obtain ⟨⟨now, hd⟩, hrow⟩ := claims_effect h hc
  have hch := deed_changes h row.id
  rw [hd] at hch
  obtain ⟨p, hp, -⟩ := hch
  obtain ⟨-, hlt⟩ := attempts_lt_of_claims h hfit hc hp
  exact UInt32.lt_of_le_of_lt UInt32.zero_le hlt

namespace Auditable

theorem pos (h : Auditable past) (hclaim : .claims row ∈ actsOf who past) : 0 < row.attempts := by
  obtain ⟨m, hm, hc⟩ := claims_mem.1 hclaim
  obtain ⟨later, earlier, rfl⟩ := List.append_of_mem hm
  have ho := h.rows.of_append
  exact pos_of_claims ho.1 (countsFit_of_append h.rows h.fits) hc

/-- The numbers in the log are those that were claimed, but for the rows in custody. -/
theorem accounted (h : Auditable past) (id : TaskId) (n : UInt32) :
    (∃ r ∈ records id past, r.entry.attempt = n)
      ↔ (∃ q, rowAfter id past = some q ∧ 0 < n ∧ n ≤ q.attempts)
        ∧ ¬ ∃ who row, custody.stage who past = .holding row ∧ row.id = id ∧ row.attempts = n := by
  constructor
  · rintro ⟨r, hr, rfl⟩
    obtain ⟨who, row, hclaim, hstores, rfl, hreports⟩ := h.claimed hr
    obtain ⟨q, hq, hle⟩ := h.found hclaim
    rw [hreports.attempt]
    refine ⟨⟨q, hq, h.pos hclaim, hle⟩, ?_⟩
    rintro ⟨who', row', hstage, hid, hattempts⟩
    obtain ⟨hclaim', hnone⟩ := h.claims_of_holding hstage
    obtain rfl := h.claimant hclaim' hclaim hid hattempts
    exact hnone _ _ hstores
  · rintro ⟨⟨q, hq, hpos, hle⟩, hflight⟩
    obtain ⟨m, hm, who, row, hc, rfl, rfl⟩ := claims_reach h.rows h.fits hq hpos hle
    have hclaim : .claims row ∈ actsOf who past := claims_mem.2 ⟨m, hm, hc⟩
    rcases (h.course who).holding_or_stored hclaim with hstage | ⟨entry, applied, hstores⟩
    · rw [← custody_stage] at hstage
      exact absurd ⟨who, row, hstage, rfl, rfl⟩ hflight
    · have hreports : entry.Reports row := (h.course who).concerns_claimed hclaim hstores
      exact ⟨⟨entry, applied⟩, mem_records.2 ⟨hreports.taskId, who, hstores⟩, hreports.attempt⟩

end Auditable

/-! ## Events -/

/-- An event is on an attempt. -/
def Event.isOn (id : TaskId) (n : UInt32) (e : Event) : Bool :=
  e.taskId == some id && e.attempt == some n

/-- The event that is emitted. -/
def Occurrence.event? : Occurrence → Option Event
  | .answers _ (.emit e) _ => some e
  | _ => none

/-- The event that an act is to tell. -/
def Act.event? : Act → Option Event
  | tells e => some e
  | _ => none

/-- The events that were emitted, in order. -/
def emitted (past : List Moment) : List Event :=
  past.reverse.filterMap fun m => m.occurrence.event?

/-- The events that an operation tells of attempts are those that are not quiet. -/
theorem event?_of_act (o : Occurrence) :
    o.act?.bind Act.event? = o.event?.filter fun e => !e.isQuiet := by
  cases o with
  | begins | wakes | fails | breaksDown => rfl
  | answers who c a =>
    cases c with
    | store c =>
      cases c with
      | claim => rcases a with failure | _ | row <;> rfl
      | complete => rcases a with failure | applied <;> rfl
      | _ => rfl
    | emit e =>
      show (if e.isQuiet then none else some (Act.tells e)).bind Act.event?
        = (some e).filter fun e => !e.isQuiet
      rw [Option.filter_some]
      cases e.isQuiet <;> rfl
    | _ => rfl

theorem tells_of_event {e : Event} (hm : m ∈ past) (hevent : m.occurrence.event? = some e)
    (hloud : e.isQuiet = false) : .tells e ∈ actsOf m.occurrence.who past := by
  have htells := event?_of_act m.occurrence
  rw [hevent, Option.filter_some, if_pos (by rw [hloud]; rfl)] at htells
  obtain ⟨act, hact, hact'⟩ := Option.bind_eq_some_iff.1 htells
  cases act with
  | claims | stores => cases hact'
  | tells e' =>
    obtain rfl := Option.some.inj hact'
    exact mem_actsOf.2 ⟨m, hm, rfl, hact⟩

theorem isOn_iff {e : Event} {n : UInt32} :
    e.isOn id n = true ↔ e.taskId = some id ∧ e.attempt = some n := by
  unfold Event.isOn
  rw [Bool.and_eq_true, beq_iff_eq, beq_iff_eq]

theorem not_quiet_of_isOn {e : Event} {n : UInt32} (h : e.isOn id n = true) :
    e.isQuiet = false := by
  unfold Event.isQuiet
  rw [(isOn_iff.1 h).2]
  rfl

namespace Auditable

/-- The events on an attempt are those of the operation that has claimed it. -/
theorem events_on (h : Auditable past) (hclaim : .claims row ∈ actsOf who past) :
    (emitted past).filter (Event.isOn row.id row.attempts)
      = (actsOf who past).filterMap Act.event? := by
  have hacts : (actsOf who past).filterMap Act.event?
      = past.reverse.filterMap fun m =>
        if m.occurrence.who = who then m.occurrence.event?.filter fun e => !e.isQuiet
        else none := by
    unfold actsOf
    rw [List.filterMap_filterMap]
    refine List.filterMap_congr fun m _ => ?_
    split
    · exact event?_of_act m.occurrence
    · rfl
  unfold emitted
  rw [hacts, List.filter_filterMap]
  refine List.filterMap_congr fun m hm => ?_
  cases hevent : m.occurrence.event? with
  | none => simp
  | some e =>
    have htells (hloud : e.isQuiet = false) : .tells e ∈ actsOf m.occurrence.who past :=
      tells_of_event (List.mem_reverse.1 hm) hevent hloud
    rw [Option.filter_some, Option.filter_some]
    by_cases hon : e.isOn row.id row.attempts = true
    · -- whoever tells of the attempt has claimed it
      have hloud := not_quiet_of_isOn hon
      obtain ⟨row', hclaim', hall⟩ := (h.course _).concerns (htells hloud)
      obtain ⟨hid', hattempt'⟩ : (Act.tells e).Concerns row' := hall _ (htells hloud)
      obtain ⟨hid, hattempt⟩ := isOn_iff.1 hon
      have hwho := h.claimant hclaim' hclaim (Option.some.inj (hid'.symm.trans hid))
        (Option.some.inj (hattempt'.symm.trans hattempt))
      rw [if_pos hon, if_pos hwho, if_pos (by rw [hloud]; rfl)]
    · rw [if_neg hon]
      split
      · next hwho =>
        split
        · next hloud =>
          -- whatever the claimant tells is on its attempt
          subst hwho
          have hmem := htells (by simpa using hloud)
          exact absurd (isOn_iff.2 ((h.course _).concerns_claimed hclaim hmem)) hon
        · rfl
      · rfl

/-- An event of an attempt is on one that was claimed. -/
theorem attributed (h : Auditable past) {e : Event} (he : e ∈ emitted past)
    (hkind : e.kind.isOfAttempt = true) :
    ∃ who row, .claims row ∈ actsOf who past ∧ e.isOn row.id row.attempts = true := by
  obtain ⟨m, hm, hevent⟩ := List.mem_filterMap.1 he
  have hloud : e.isQuiet = false := by
    unfold Event.isQuiet
    rw [hkind, Bool.not_true, Bool.and_false]
  have htells := tells_of_event (List.mem_reverse.1 hm) hevent hloud
  obtain ⟨row, hclaim, hall⟩ := (h.course _).concerns htells
  exact ⟨_, row, hclaim, isOn_iff.2 (hall _ htells)⟩

end Auditable

/-- What an operation tells of its attempt by the time it has come to its end. -/
theorem Course.told {acts : List Act} (h : Course .closed acts) (hclaim : .claims row ∈ acts) :
    ∃ r : AuditRecord, .stores r.entry r.applied ∈ acts
      ∧ (acts.filterMap Act.event?).map (fun e => (e.kind, e.detail))
        = (.started, none)
          :: if r.applied then [(r.entry.kind.event, r.entry.message)] else [] := by
  cases h with
  | idle => cases hclaim
  | discarded starts reports =>
    obtain ⟨time, rfl⟩ := starts
    exact ⟨⟨_, false⟩, List.mem_cons_of_mem _ (List.mem_cons_of_mem _ List.mem_cons_self), rfl⟩
  | counted starts reports announces =>
    obtain ⟨time, rfl⟩ := starts
    obtain ⟨time', rfl⟩ := announces
    exact ⟨⟨_, true⟩, List.mem_cons_of_mem _ (List.mem_cons_of_mem _ List.mem_cons_self), rfl⟩

/-! ## Sinks with room for everything -/

namespace Sink

/-- A sink that is offered events one after another. -/
def hear (y : Sink) (events : List Event) : Sink := events.foldl emit y

theorem events_push {b : EventBuffer} (e : Event) (h : b.events.length < b.capacity) :
    b.push e = { b with events := b.events ++ [e] } := by
  unfold EventBuffer.push
  rw [if_neg (by omega), if_pos h]

/-- A buffer that has room for all events keeps them in order. -/
theorem events_hear (capacity : Nat) (events : List Event) (h : events.length ≤ capacity) :
    ((bounded capacity).hear events).buffer.events = events := by
  have keeps (y : Sink) (hreact : ∀ seen e, y.react seen e = ⟨true, false⟩)
      (hroom : y.buffer.events.length + events.length ≤ y.buffer.capacity) :
      (y.hear events).buffer.events = y.buffer.events ++ events := by
    clear h
    induction events generalizing y with
    | nil => exact (List.append_nil _).symm
    | cons e rest ih =>
      have hlength : rest.length + 1 = (e :: rest).length := rfl
      have hpush : (y.emit e).buffer = { y.buffer with events := y.buffer.events ++ [e] } := by
        rw [← events_push e (by omega)]
        show (if (y.react y.offered e).keeps then y.buffer.push e else y.buffer) = _
        rw [hreact]
        rfl
      show ((y.emit e).hear rest).buffer.events = _
      rw [ih (y.emit e) hreact, hpush, List.append_assoc, List.singleton_append]
      rw [hpush]
      show (y.buffer.events ++ [e]).length + rest.length ≤ y.buffer.capacity
      rw [List.length_append, List.length_singleton]
      omega
  exact keeps (bounded capacity) (fun _ _ => rfl) (by simpa [bounded] using h)

end Sink

/-! ## The whole -/

/-- How the log and the events of tasks belong to their claims. -/
structure Audited (w : Scene) (heard : List Event) : Prop where
  /-- The log of a task has the entries of the results that were handed in, in order. -/
  logged : ∀ id, w.table.logs id = (records id w.past).map AuditRecord.logged
  /-- No two entries of a task have one number. -/
  distinct : ∀ id, ((w.table.logs id).map LogEntry.attempt).Nodup
  /-- The numbers go up to that of the row, and only those of attempts in flight are missing. -/
  accounted : ∀ id n, n ∈ (w.table.logs id).map LogEntry.attempt ↔
    (∃ q, w.table.find? id = some q ∧ 0 < n ∧ n ≤ q.attempts)
      ∧ ¬ ∃ who row, w.InFlight who row ∧ row.id = id ∧ row.attempts = n
  /-- The results that counted stand in the order of their numbers. -/
  increasing : ∀ id, (((records id w.past).filter AuditRecord.applied).map
    fun r => r.logged.attempt).Pairwise (· < ·)
  /-- The message of an entry is marked just if its result did not count. -/
  marked : ∀ id, ∀ r ∈ records id w.past,
    (∃ text, r.logged.message = some (discardedMark ++ text)) ↔ r.applied = false
  /-- The number of a claim tells whose it is, and an operation claims one row. -/
  apart : ∀ m ∈ w.past, ∀ m' ∈ w.past, ∀ who who' row row', m.Claims who row →
    m'.Claims who' row' → row.id = row'.id → row.attempts = row'.attempts →
    who = who' ∧ row = row'
  /--
  When an operation has come to its end, its claim has a result. The events on its attempt are one
  that it has started, and one that tells of the result in the words of the log if it counted.
  -/
  told : ∀ m ∈ w.past, ∀ who row, m.Claims who row → w.activities[who]? = some (.done ()) →
    ∃ r ∈ records row.id w.past, r.logged.attempt = row.attempts
      ∧ (heard.filter (Event.isOn row.id row.attempts)).map (fun e => (e.kind, e.detail))
        = (.started, none)
          :: if r.applied then [(r.logged.kind.event, r.logged.message)] else []
  /-- There are no events of these kinds but on attempts that were claimed. -/
  attributed : ∀ e ∈ heard, e.kind.isOfAttempt = true →
    ∃ m ∈ w.past, ∃ who row, m.Claims who row ∧ e.isOn row.id row.attempts = true

/-- **Log entries and events belong to claims one by one**, in a sink with room for all events. -/
theorem log_and_events_audited (hw : Reachable s w) (hfit : w.table.CountsFit)
    (hs : Steady w.past) {capacity : Nat} (hroom : (emitted w.past).length ≤ capacity) :
    Audited w ((Sink.bounded capacity).hear (emitted w.past)).buffer.events := by
  have h := Auditable.of_reachable hw hfit hs
  rw [Sink.events_hear capacity _ hroom]
  have hlogged (id : TaskId) : w.table.logs id = (records id w.past).map AuditRecord.logged :=
    logs_eq_records h.rows id
  have hnumbers (id : TaskId) : (w.table.logs id).map LogEntry.attempt
      = (records id w.past).map fun r => r.entry.attempt := by
    rw [hlogged, List.map_map]
    exact List.map_congr_left fun r _ => r.attempt_logged
  refine ⟨hlogged, fun id => hnumbers id ▸ h.nodup id, fun id n => ?_, fun id => ?_,
    fun id r hr => ?_, ?_, ?_, fun e he hkind => ?_⟩
  · rw [hnumbers, List.mem_map]
    exact h.accounted id n
  · rw [List.pairwise_map]
    simp only [AuditRecord.attempt_logged]
    exact h.increasing id
  · obtain ⟨_, row, -, -, -, hreports⟩ := h.claimed hr
    exact r.marked_iff hreports
  · intro m hm m' hm' who who' row row' hc hc' hid hattempts
    have hclaim : .claims row ∈ actsOf who w.past := claims_mem.2 ⟨m, hm, hc⟩
    have hclaim' : .claims row' ∈ actsOf who' w.past := claims_mem.2 ⟨m', hm', hc'⟩
    obtain rfl := h.claimant hclaim hclaim' hid hattempts
    exact ⟨rfl, (h.course who).concerns_claimed hclaim' hclaim⟩
  · intro m hm who row hc hdone
    have hclaim : .claims row ∈ actsOf who w.past := claims_mem.2 ⟨m, hm, hc⟩
    have hsettled := Conduct.keeps_reachable (ledger_governs s) hw (ledger_met h.rows) hdone
    obtain ⟨r, hstores, hevents⟩ := ((h.course who).closed_of_settled hsettled).told hclaim
    have hreports : r.entry.Reports row := (h.course who).concerns_claimed hclaim hstores
    refine ⟨r, mem_records.2 ⟨hreports.taskId, who, hstores⟩, ?_, ?_⟩
    · rw [r.attempt_logged, hreports.attempt]
    · rw [h.events_on hclaim, hevents]
      cases happlied : r.applied <;> simp [AuditRecord.logged, happlied]
  · obtain ⟨who, row, hclaim, hon⟩ := h.attributed he hkind
    obtain ⟨m, hm, hc⟩ := claims_mem.1 hclaim
    exact ⟨m, hm, who, row, hc, hon⟩

open Rehearsal in
/-- The overtaken attempt is logged as discarded and told of once, the later one counts. -/
theorem log_and_events_audited_overtaken :
    (records first (scene overtaken).past).map (fun r => (r.entry.attempt, r.applied))
        = [(1, false), (2, true)]
      ∧ ((emitted (scene overtaken).past).filter (Event.isOn first 2)).map Event.kind
        = [.started, .succeeded]
      ∧ Audited (scene overtaken)
        ((Sink.bounded 16).hear (emitted (scene overtaken).past)).buffer.events := by
  refine ⟨by decide +kernel, by decide +kernel, ?_⟩
  exact log_and_events_audited (reachable_scene overtaken) (by decide +kernel)
    (by decide +kernel) (by decide +kernel)

end BackgroundTasks
