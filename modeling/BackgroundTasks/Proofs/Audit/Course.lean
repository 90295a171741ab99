import BackgroundTasks.Proofs.Audit.Ledger
import BackgroundTasks.Proofs.Ownership

/-!
# The course of an attempt

All that one operation does about attempts is a short list: a claim, an event that the attempt has
begun, a result, and an event that tells of the result if it counts. How much of it is done is told
by the stage of the ledger, and when store calls do not go wrong the list is never broken off.

So whatever is done about an attempt is done by the operation that has claimed it, and there is one
such operation, because no two claims of a task have one number.
-/

namespace BackgroundTasks

variable {s : Scheduler} {w : Scene} {past : List Moment} {m : Moment} {who who' : Nat}
  {id : TaskId} {row row' q : Row} {g : Ledger}

/-! ## Histories of ledgers -/

/-- What an operation has in custody. -/
def Ledger.custody : Ledger → Custody
  | free => .free
  | claimed row | running row => .holding row
  | applied _ | closed => .ended

theorem Ledger.custody_next (g : Ledger) (c : Call) (a : c.Answer) :
    (g.next c a).custody = g.custody.next c a := by
  cases c with
  | store c =>
    cases c with
    | claim => rcases a with failure | _ | row <;> rfl
    | complete => rcases a with failure | _ | _ <;> rfl
    | _ => rfl
  | emit e => cases g <;> rfl
  | _ => rfl

/-- The ledger of an operation says what it has in custody. -/
theorem custody_stage (who : Nat) (past : List Moment) :
    custody.stage who past = (ledger.stage who past).custody := by
  induction past with
  | nil => rfl
  | cons m past ih =>
    by_cases hwho : m.occurrence.who = who
    · subst hwho
      rw [Conduct.stage_self, Conduct.stage_self, ih]
      cases m.occurrence with
      | begins | wakes | breaksDown => rfl
      | answers who c a | fails who c a => exact (Ledger.custody_next _ c a).symm
    · rw [Conduct.stage_other hwho, Conduct.stage_other hwho, ih]

theorem ledger_met (ho : custody.Orderly past) : ledger.Met past := by
  refine Conduct.met_of_returns ho (fun _ => trivial) (fun g c a t t' hreturns => ?_)
    fun g c a hfails => ?_
  · cases c with
    | store c =>
      cases c with
      | claim id now =>
        have ha : a = Except.ok (t.stepAt id (.claim now)).1 := congrArg Prod.fst hreturns
        rcases a with failure | _ | row
        · trivial
        · trivial
        · -- the row that is returned is the row of the task that was asked for
          have hrow := (Except.ok.inj ha).symm
          exact TaskTable.id_of_find? (TaskTable.stepAt_taken hrow).2
      | _ => trivial
    | _ => trivial
  · cases c with
    | store c =>
      obtain ⟨failure, rfl⟩ := hfails
      cases c <;> trivial
    | _ => trivial

/-! ## The course of an operation -/

/-- What an operation does about an attempt. -/
inductive Act where
  | claims (row : Row)
  | stores (entry : LogEntry) (applied : Bool)
  | tells (e : Event)

/-- An act concerns the attempt on a claimed row. -/
def Act.Concerns (row : Row) : Act → Prop
  | claims row' => row' = row
  | stores entry _ => entry.Reports row
  | tells e => e.taskId = some row.id ∧ e.attempt = some row.attempts

theorem Event.Starts.concerns {e : Event} (h : e.Starts row) : (Act.tells e).Concerns row := by
  obtain ⟨time, rfl⟩ := h
  exact ⟨rfl, rfl⟩

theorem Event.Announces.concerns {e : Event} {entry : LogEntry} (h : e.Announces entry)
    (hr : entry.Reports row) : (Act.tells e).Concerns row := by
  obtain ⟨time, rfl⟩ := h
  exact ⟨congrArg some hr.taskId, congrArg some hr.attempt⟩

/-- The act of an operation that something is, if it is one on an attempt. -/
def Occurrence.act? : Occurrence → Option Act
  | .answers _ (.store (.claim ..)) (Except.ok (some row)) => some (.claims row)
  | .answers _ (.store (.complete _ _ entry)) (Except.ok applied) => some (.stores entry applied)
  | .answers _ (.emit e) _ => if e.isQuiet then none else some (.tells e)
  | _ => none

/-- What an operation has done, in order. -/
def actsOf (who : Nat) (past : List Moment) : List Act :=
  past.reverse.filterMap fun m => if m.occurrence.who = who then m.occurrence.act? else none

theorem actsOf_self (m : Moment) (past : List Moment) :
    actsOf m.occurrence.who (m :: past)
      = actsOf m.occurrence.who past ++ m.occurrence.act?.toList := by
  unfold actsOf
  rw [List.reverse_cons, List.filterMap_append]
  cases hact : m.occurrence.act? <;> simp [hact]

theorem actsOf_other (h : m.occurrence.who ≠ who) (past : List Moment) :
    actsOf who (m :: past) = actsOf who past := by
  unfold actsOf
  rw [List.reverse_cons, List.filterMap_append]
  simp [h]

theorem mem_actsOf {act : Act} : act ∈ actsOf who past
    ↔ ∃ m ∈ past, m.occurrence.who = who ∧ m.occurrence.act? = some act := by
  unfold actsOf
  simp [List.mem_filterMap]

/-- The acts of an operation that has come to some stage. -/
inductive Course : Ledger → List Act → Prop
  | free : Course .free []
  | claimed (row : Row) : Course (.claimed row) [.claims row]
  | running {row : Row} {e : Event} (starts : e.Starts row) :
      Course (.running row) [.claims row, .tells e]
  | applied {row : Row} {e : Event} {entry : LogEntry} (starts : e.Starts row)
      (reports : entry.Reports row) :
      Course (.applied entry) [.claims row, .tells e, .stores entry true]
  /-- It has ended without a claim. -/
  | idle : Course .closed []
  | discarded {row : Row} {e : Event} {entry : LogEntry} (starts : e.Starts row)
      (reports : entry.Reports row) :
      Course .closed [.claims row, .tells e, .stores entry false]
  | counted {row : Row} {e e' : Event} {entry : LogEntry} (starts : e.Starts row)
      (reports : entry.Reports row) (announces : e'.Announces entry) :
      Course .closed [.claims row, .tells e, .stores entry true, .tells e']

namespace Course

variable {acts : List Act}

/-- An operation without an attempt has done nothing. -/
theorem acts_of_free (h : Course .free acts) : acts = [] := by
  cases h
  rfl

theorem closed_of_settled (h : Course g acts) (hg : g.Settled) : Course .closed acts := by
  rcases hg with rfl | rfl
  · rw [h.acts_of_free]
    exact .idle
  · exact h

/-- An answer leads from one stage of the course to another. -/
theorem answers (h : Course g acts) {c : Call} {a : c.Answer} {t t' : TaskTable}
    (hallows : ledger.allows g c) (hreturns : c.Returns t a t') :
    Course (ledger.next g c a) (acts ++ (Occurrence.answers who c a).act?.toList) := by
  -- most calls are no acts and lead nowhere
  have nothing : Course g (acts ++ (none : Option Act).toList) := by
    rw [Option.toList_none, List.append_nil]
    exact h
  cases c with
  | store c =>
    cases c with
    | claim id now =>
      obtain rfl : g = .free := hallows
      rcases a with failure | _ | row
      · exact nothing
      · exact nothing
      · rw [h.acts_of_free]
        exact .claimed row
    | complete id c entry =>
      obtain ⟨row, rfl, rfl, hreports⟩ := hallows
      obtain rfl : a = Except.ok (t.complete row.id c entry).1.1 := congrArg Prod.fst hreturns
      cases h with
      | running starts =>
        cases (t.complete row.id c entry).1.1 with
        | true => exact .applied starts hreports
        | false => exact .discarded starts hreports
    | appendLog => exact hallows.elim
    | _ => exact nothing
  | emit e =>
    have hact : (Occurrence.answers who (.emit e) a).act?
        = if e.isQuiet then none else some (.tells e) := rfl
    rw [hact]
    cases h with
    | free => rw [if_pos (show e.isQuiet = true from hallows)]; exact .free
    | claimed row =>
      rw [if_neg (Bool.eq_false_iff.1 (Event.Starts.isQuiet hallows))]
      exact .running hallows
    | running => exact hallows.elim
    | applied starts reports =>
      rw [if_neg (Bool.eq_false_iff.1 (Event.Announces.isQuiet hallows))]
      exact .counted starts reports hallows
    | idle | discarded | counted =>
      rw [if_pos (show e.isQuiet = true from hallows)]
      exact nothing
  | _ => exact nothing

end Course

/-- Whatever happens to an operation, it stays on its course. -/
theorem course_self (ho : ledger.Orderly (m :: past)) (hs : Steady (m :: past))
    (h : Course (ledger.stage m.occurrence.who past) (actsOf m.occurrence.who past)) :
    Course (ledger.stage m.occurrence.who (m :: past)) (actsOf m.occurrence.who (m :: past)) := by
  have hnumber := ho.1.number
  have hsuits := ho.1.suits
  have hsteady := hs m List.mem_cons_self
  rw [Conduct.stage_self, actsOf_self]
  -- an operation that begins was idle
  have begun (hbeg : m.occurrence.isBeginning = true) :
      Course .free (actsOf m.occurrence.who past ++ (none : Option Act).toList) := by
    rw [if_pos hbeg] at hnumber
    rw [Conduct.stage_of_not_begun ho.2 (Nat.le_of_eq hnumber.symm)] at h
    rw [Option.toList_none, List.append_nil]
    exact h
  have nothing : Course (ledger.stage m.occurrence.who past)
      (actsOf m.occurrence.who past ++ (none : Option Act).toList) := by
    rw [Option.toList_none, List.append_nil]
    exact h
  cases hm : m.occurrence with
  | begins who job => rw [hm] at begun; exact begun rfl
  | wakes who id => rw [hm] at begun; exact begun rfl
  | answers who c a =>
    rw [hm] at hsuits h
    exact h.answers hsuits.1 hsuits.2
  | fails who c a =>
    rw [hm] at hsuits hsteady nothing
    -- a call that may fail here is no act
    cases c with
    | store c => cases hsteady
    | emit e => exact hsuits.2.1.elim
    | _ => exact nothing
  | breaksDown who c =>
    rw [hm] at hsuits hsteady nothing
    -- only a platform breaks down, and it is not called while an attempt is on the way
    have hsettled : (ledger.stage who past).Settled := by
      cases c with
      | arm | disarm | isArmed => exact hsuits.1
      | _ => cases hsteady
    exact nothing.closed_of_settled hsettled

theorem course_of_orderly (ho : ledger.Orderly past) (hs : Steady past) (who : Nat) :
    Course (ledger.stage who past) (actsOf who past) := by
  induction past with
  | nil => exact .free
  | cons m past ih =>
    have hs' : Steady past := fun m hm => hs m (List.mem_cons_of_mem _ hm)
    by_cases hwho : m.occurrence.who = who
    · subst hwho
      exact course_self ho hs (ih ho.2 hs')
    · rw [Conduct.stage_other hwho, actsOf_other hwho]
      exact ih ho.2 hs'

/-- What the audit rests on. -/
structure Auditable (past : List Moment) : Prop where
  rows : custody.Orderly past
  books : ledger.Orderly past
  steady : Steady past
  fits : (tableAfter past).CountsFit

namespace Auditable

theorem tail (h : Auditable (m :: past)) : Auditable past where
  rows := h.rows.2
  books := h.books.2
  steady := fun m hm => h.steady m (List.mem_cons_of_mem _ hm)
  fits := countsFit_of_cons h.rows.1 h.fits

theorem course (h : Auditable past) (who : Nat) :
    Course (ledger.stage who past) (actsOf who past) :=
  course_of_orderly h.books h.steady who

theorem of_reachable (hw : Reachable s w) (hfit : w.table.CountsFit) (hs : Steady w.past) :
    Auditable w.past := by
  have ho := Conduct.orderly_reachable (custody_governs s) hw (custody_met _)
  exact ⟨ho, Conduct.orderly_reachable (ledger_governs s) hw (ledger_met ho), hs, hfit⟩

end Auditable

/-! ## Acts and claims -/

namespace Course

variable {acts : List Act} {act : Act}

/-- Whoever does something has claimed a row, and all that is done concerns the attempt on it. -/
theorem concerns (h : Course g acts) (hact : act ∈ acts) :
    ∃ row, .claims row ∈ acts ∧ ∀ act ∈ acts, act.Concerns row := by
  have claims (row : Row) : (Act.claims row).Concerns row := rfl
  have stores {row : Row} {entry : LogEntry} (hr : entry.Reports row) (applied : Bool) :
      (Act.stores entry applied).Concerns row := hr
  cases h with
  | free | idle => cases hact
  | claimed row => exact ⟨row, List.mem_cons_self, by simp [claims]⟩
  | running starts => exact ⟨_, List.mem_cons_self, by simp [claims, starts.concerns]⟩
  | applied starts reports | discarded starts reports =>
    exact ⟨_, List.mem_cons_self, by simp [claims, starts.concerns, stores reports]⟩
  | counted starts reports announces =>
    exact ⟨_, List.mem_cons_self,
      by simp [claims, starts.concerns, stores reports, announces.concerns reports]⟩

theorem concerns_claimed (h : Course g acts) (hclaim : .claims row ∈ acts) (hact : act ∈ acts) :
    act.Concerns row := by
  obtain ⟨row', -, hall⟩ := h.concerns hclaim
  obtain rfl : row = row' := hall _ hclaim
  exact hall act hact

/-- While a row is in custody, no result has been handed in. -/
theorem not_stored (h : Course g acts) (hg : g.custody = .holding row) (entry : LogEntry)
    (applied : Bool) : .stores entry applied ∉ acts := by
  cases h with
  | claimed | running => simp
  | _ => cases hg

theorem claims_of_holding (h : Course g acts) (hg : g.custody = .holding row) :
    .claims row ∈ acts := by
  cases h with
  | claimed | running => cases hg; exact List.mem_cons_self
  | _ => cases hg

/-- A row that was claimed is in custody until a result is handed in. -/
theorem holding_or_stored (h : Course g acts) (hclaim : .claims row ∈ acts) :
    g.custody = .holding row ∨ ∃ entry applied, .stores entry applied ∈ acts := by
  cases h with
  | free | idle => cases hclaim
  | claimed row' | running starts =>
    left
    obtain rfl := Act.claims.inj (show Act.claims row = _ by simpa using hclaim)
    rfl
  | applied | discarded | counted =>
    exact .inr ⟨_, _, List.mem_cons_of_mem _ (List.mem_cons_of_mem _ List.mem_cons_self)⟩

end Course

theorem claims_mem : .claims row ∈ actsOf who past ↔ ∃ m ∈ past, m.Claims who row := by
  rw [mem_actsOf]
  constructor
  · rintro ⟨m, hm, hwho, hact⟩
    refine ⟨m, hm, ?_⟩
    unfold Occurrence.act? at hact
    split at hact
    · next who' id now row' ho =>
      obtain rfl := Act.claims.inj (Option.some.inj hact)
      obtain rfl : who' = who := by rw [← hwho, ho]; rfl
      exact ⟨id, now, ho⟩
    · cases hact
    · split at hact <;> cases hact
    · cases hact
  · rintro ⟨m, hm, id, now, ho⟩
    exact ⟨m, hm, congrArg Occurrence.who ho, by rw [ho]; rfl⟩

/-- Two claims of a task with one number are made by one operation. -/
theorem Auditable.claimant (h : Auditable past) (hclaim : .claims row ∈ actsOf who past)
    (hclaim' : .claims row' ∈ actsOf who' past) (hid : row.id = row'.id)
    (hattempts : row.attempts = row'.attempts) : who = who' := by
  obtain ⟨m, hm, hc⟩ := claims_mem.1 hclaim
  obtain ⟨m', hm', hc'⟩ := claims_mem.1 hclaim'
  exact claims_apart h.rows h.fits hm hm' hc hc' hid hattempts

end BackgroundTasks
