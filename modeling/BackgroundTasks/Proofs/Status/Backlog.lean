import BackgroundTasks.Proofs.Fencing
import BackgroundTasks.Proofs.Status.Boards
import BackgroundTasks.Proofs.Status.Reports

/-!
# What is yet to be published

An operation is behind on a task from the moment at which it brings the row into another state, or
subscribes to the task, until it publishes what it has read since. This can be seen from outside, by
the table and the calls; the conduct of reports says that whoever is behind knows it, so none is at
the end.

An operation between the two steps of a report knows the state of the row, or somebody else is
behind: who changes the row in the meantime has to report on it, and cannot do so before it is its
turn.
-/

namespace BackgroundTasks

/-- The state of a task's row. -/
def TaskTable.state? (t : TaskTable) (id : TaskId) : Option State := (t.find? id).map Row.state

/-- The state of a task's row after a history. -/
abbrev stateAfter (id : TaskId) (past : List Moment) : Option State := (tableAfter past).state? id

namespace Occurrence

/-- Whether a store fails to say what a row is like. -/
def failsToRead : Occurrence → Bool
  | .fails _ (.readStatus _) _ | .fails _ (.store (.get _)) _ => true
  | _ => false

/-- Whether a call breaks down. -/
def isBreakdown : Occurrence → Bool
  | .breaksDown .. => true
  | _ => false

/-- Whether a state is read in order to be published. -/
def readsStatus : Occurrence → Bool
  | .answers _ (.readStatus _) _ => true
  | _ => false

end Occurrence

/-- Whether a row is brought into another state, or its task subscribed to. -/
def Moment.stirs (m : Moment) (id : TaskId) : Bool :=
  m.occurrence.subscribesTo id || m.before.state? id != m.after.state? id

/--
Whether an operation has changed the state of a row, or subscribed to its task, and has not
published the state since then.
-/
def behind (who : Nat) (id : TaskId) : List Moment → Bool
  | [] => false
  | m :: past =>
    if m.occurrence.who = who then
      m.stirs id || (behind who id past && !m.occurrence.publishes id)
    else behind who id past

/-- The operation that has read a state and is about to publish it. -/
def reader : List Moment → Option Nat
  | [] => none
  | m :: past =>
    match m.occurrence with
    | .answers who (.readStatus _) (Except.ok (some _)) => some who
    | .answers _ (.publish ..) _ => none
    | _ => reader past

/-- No operation reads a state in order to publish it while another is about to publish one. -/
def InTurn : List Moment → Bool
  | [] => true
  | m :: past => InTurn past && (!m.occurrence.readsStatus || (reader past).isNone)

/-- Nothing is left of an operation, and it did not break down. -/
def Scene.Over (w : Scene) (who : Nat) : Prop :=
  (∀ p, w.activities[who]? = some p → p = .done ())
    ∧ ∀ m ∈ w.past, m.occurrence.who = who → m.occurrence.isBreakdown = false

variable {s : Scheduler} {w : Scene} {past : List Moment} {m : Moment} {who : Nat} {id : TaskId}
  {state : State}

/-! ## What a call stirs -/

namespace Deed

/-- Whether a deed may bring a row into another state. -/
def stirs : Deed → Bool
  | nothing | noted _ => false
  | _ => true

variable {d : Deed} {r r' : Option Row}

theorem stirs_onlyIf {concerns : Prop} [Decidable concerns] :
    (onlyIf concerns d).stirs = true ↔ concerns ∧ d.stirs = true := by
  unfold onlyIf
  split
  · next h => exact (and_iff_right h).symm
  · next h => exact ⟨nofun, fun hd => absurd hd.1 h⟩

theorem state_of_changes (hd : d.Changes r r') (h : d.stirs = false) :
    r'.map Row.state = r.map Row.state := by
  cases d with
  | nothing => rw [show r' = r from hd]
  | noted handle =>
    obtain ⟨p, rfl, -, rfl⟩ := hd
    rfl
  | _ => cases h

theorem row_of_changes (hd : d.Changes r r') (h : d.stirs = true) : ∃ row, r' = some row := by
  cases d with
  | nothing | noted => cases h
  | inserted row => exact ⟨row, hd.2.1⟩
  | claimed | concluded | cancelled | renewed =>
    obtain ⟨p, -, -, hr'⟩ := hd
    exact ⟨_, hr'⟩

end Deed

namespace Call

variable {c : Call} {a : c.Answer}

theorem stirs_of_fails (h : c.Fails a) : c.stirs a = [] := by
  cases c with
  | store c =>
    obtain ⟨failure, rfl⟩ := h
    cases c <;> rfl
  | subscribe => cases h
  | _ => rfl

theorem finds?_of_fails (h : c.Fails a) : c.finds? a = none := by
  cases c with
  | store c =>
    obtain ⟨failure, rfl⟩ := h
    cases c <;> rfl
  | _ => rfl

end Call

/-- A call to the store stirs the tasks that it does a stirring deed to. -/
theorem mem_stirs_store (who : Nat) (c : StoreCall) (a : c.Answer) :
    id ∈ (Call.store c).stirs a
      ↔ (Occurrence.deed id (.answers who (.store c) a)).stirs = true := by
  have neither : id ∈ ([] : List TaskId) ↔ Deed.nothing.stirs = true := by simp [Deed.stirs]
  have only {target : TaskId} {d : Deed} (hd : d.stirs = true) :
      id ∈ [target] ↔ (Deed.onlyIf (target = id) d).stirs = true := by
    rw [Deed.stirs_onlyIf, List.mem_singleton, eq_comm]
    exact (and_iff_left hd).symm
  cases a with
  | error failure => cases c <;> exact neither
  | ok result =>
    cases c with
    | insert row => exact only rfl
    | claim target now =>
      cases result with
      | none => exact neither
      | some row => exact only rfl
    | complete target c e =>
      cases result with
      | false => exact neither
      | true => exact only rfl
    | transition target origins goal now =>
      show id ∈ (if result = 0 then [] else [target])
        ↔ (Deed.onlyIf (target = id ∧ result ≠ 0) (.cancelled now)).stirs = true
      rw [Deed.stirs_onlyIf]
      by_cases hmoved : result = 0
      · rw [if_pos hmoved]
        exact ⟨nofun, fun h => absurd hmoved h.1.2⟩
      · rw [if_neg hmoved, List.mem_singleton]
        exact ⟨fun h => ⟨⟨h.symm, hmoved⟩, rfl⟩, fun h => h.1.1.symm⟩
    | transitionAll origins goal now =>
      show id ∈ result ↔ (Deed.onlyIf (id ∈ result) (.cancelled now)).stirs = true
      rw [Deed.stirs_onlyIf]
      exact (and_iff_left rfl).symm
    | replaceSpec target spec next now =>
      cases result with
      | notFound | running => exact neither
      | replaced => exact only rfl
    | setPlatformId target handle =>
      refine neither.trans ?_
      show Deed.nothing.stirs = true ↔ (Deed.onlyIf (target = id) (.noted handle)).stirs = true
      rw [Deed.stirs_onlyIf]
      simp [Deed.stirs]
    | get | list | due | appendLog | logs | lastLog => exact neither

/-- Only an answer brings a row into another state, and it is one that stirs the task. -/
theorem mem_stirs_of_changed (h : custody.Follows past m)
    (hne : stateAfter id (m :: past) ≠ stateAfter id past) :
    ∃ who c a, m.occurrence = .answers who c a ∧ id ∈ c.stirs a := by
  have hstirs : (m.deed id).stirs = true := by
    rw [← Bool.not_eq_false]
    exact fun hno => hne (Deed.state_of_changes (deed_changes h id) hno)
  unfold Moment.deed at hstirs
  cases hm : m.occurrence with
  | answers who c a =>
    rw [hm] at hstirs
    cases c with
    | store c => exact ⟨who, _, a, rfl, (mem_stirs_store who c a).2 hstirs⟩
    | _ => cases hstirs
  | _ =>
    rw [hm] at hstirs
    cases hstirs

/-- What happens otherwise leaves the table as it is. -/
theorem stirs_of_not_answers (h : custody.Follows past m)
    (hno : ∀ who c a, m.occurrence ≠ .answers who c a) : m.stirs id = false := by
  have hsubscribes : m.occurrence.subscribesTo id = false := by
    unfold Occurrence.subscribesTo
    split
    · next hm => exact absurd hm (hno _ _ _)
    · rfl
  have hstate : m.before.state? id = m.after.state? id := by
    rw [h.before]
    refine (Decidable.byContradiction fun hne => ?_ : stateAfter id (m :: past) = _).symm
    obtain ⟨who, c, a, hm, -⟩ := mem_stirs_of_changed h hne
    exact hno who c a hm
  unfold Moment.stirs
  rw [hsubscribes, hstate]
  simp

/-- What an answer stirs is among what its operation has to report on. -/
theorem mem_stirs_of_stirs (h : custody.Follows past m) {c : Call} {a : c.Answer}
    (hm : m.occurrence = .answers who c a) (hstirs : m.stirs id = true) : id ∈ c.stirs a := by
  rw [Moment.stirs, Bool.or_eq_true] at hstirs
  rcases hstirs with hsub | hstate
  · rw [hm] at hsub
    unfold Occurrence.subscribesTo at hsub
    split at hsub
    · next heq =>
      cases heq
      exact List.mem_singleton.2 (eq_of_beq hsub).symm
    · cases hsub
  · have hne : stateAfter id (m :: past) ≠ stateAfter id past := by
      rw [h.before] at hstate
      exact fun heq => (bne_iff_ne.1 hstate) heq.symm
    obtain ⟨who', c', a', hm', hmem⟩ := mem_stirs_of_changed h hne
    cases hm.symm.trans hm'
    exact hmem

theorem state_of_not_stirs (hbefore : m.before = tableAfter past) (h : m.stirs id = false) :
    stateAfter id (m :: past) = stateAfter id past := by
  have hstate := (Bool.or_eq_false_iff.1 h).2
  rw [hbefore] at hstate
  exact (bne_eq_false_iff_eq.1 hstate).symm

/-! ## Being behind -/

theorem behind_of_stirs (h : m.stirs id = true) :
    behind m.occurrence.who id (m :: past) = true := by
  unfold behind
  rw [if_pos rfl, h]
  rfl

/-- Nobody stops being behind but by publishing. -/
theorem behind_cons (h : behind who id past = true)
    (hno : m.occurrence.who = who → m.occurrence.publishes id = false) :
    behind who id (m :: past) = true := by
  unfold behind
  split
  · next heq =>
    rw [h, hno heq]
    exact Bool.or_true _
  · exact h

/-- Whoever is behind no more has published in the meantime. -/
theorem published_of_not_behind {later : List Moment} (hwho : m.occurrence.who = who)
    (hstirs : m.stirs id = true) (h : behind who id (later ++ m :: past) = false) :
    ∃ m' ∈ later, m'.occurrence.who = who ∧ m'.occurrence.publishes id = true := by
  induction later with
  | nil =>
    subst hwho
    have hbehind : behind m.occurrence.who id (m :: past) = true := behind_of_stirs hstirs
    exact absurd (hbehind.symm.trans h) (by decide)
  | cons m' later ih =>
    by_cases hpub : m'.occurrence.who = who ∧ m'.occurrence.publishes id = true
    · exact ⟨m', List.mem_cons_self, hpub⟩
    · have hpast : behind who id (later ++ m :: past) = false := by
        rw [← Bool.not_eq_true]
        intro hbehind
        have hstill := behind_cons (m := m') hbehind fun heq =>
          Bool.not_eq_true _ ▸ fun hp => hpub ⟨heq, hp⟩
        exact absurd (hstill.symm.trans h) (by decide)
      obtain ⟨m₀, hmem, hm₀⟩ := ih hpast
      exact ⟨m₀, List.mem_cons_of_mem _ hmem, hm₀⟩

/-! ## Stages of a report -/

namespace Report

variable {g : Report} {c : Call} {a : c.Answer}

/-- What is owed after an answer: what the answer stirs, and what was owed and is not published. -/
theorem mem_owed_next :
    id ∈ (g.next c a).owed ↔ id ∈ c.stirs a ∨ id ∈ g.owed ∧ ∀ state, c ≠ .publish id state := by
  cases c with
  | publish target state =>
    have hid : (∀ state', Call.publish target state ≠ .publish id state') ↔ id ≠ target := by
      constructor
      · rintro hno rfl
        exact hno state rfl
      · rintro hne state' heq
        cases heq
        exact hne rfl
    show id ∈ g.owed.filter (· ≠ target) ↔ id ∈ [] ∨ _
    rw [hid, List.mem_filter, decide_eq_true_iff]
    exact (or_iff_right List.not_mem_nil).symm
  | readStatus target =>
    have hsame : (g.next (.readStatus target) a).owed = g.owed := by
      rcases a with failure | _ | state <;> rfl
    rw [hsame]
    exact ⟨fun howed => .inr ⟨howed, nofun⟩, fun h => (h.resolve_left List.not_mem_nil).1⟩
  | _ => exact List.mem_append.trans (or_congr_right (and_iff_left nofun).symm)

theorem found_next : (g.next c a).found = (c.finds? a).or g.found := by
  cases c with
  | readStatus => rcases a with failure | _ | state <;> rfl
  | _ => rfl

theorem observed_next : (g.next c a).observed = g.observed := by
  cases c with
  | readStatus => rcases a with failure | _ | state <;> rfl
  | _ => rfl

/-- What is about to be published is what has been read just now. -/
theorem reads_of_next (hallows : g.allows c) {id : TaskId} {state : State}
    (h : (g.next c a).read = some (id, state)) (who : Nat) :
    Occurrence.answers who c a = .answers who (.readStatus id) (Except.ok (some state)) := by
  cases c with
  | publish => cases h
  | readStatus target =>
    rcases a with failure | _ | read
    · cases (show g.read = none from hallows).symm.trans h
    · cases (show g.read = none from hallows).symm.trans h
    · cases h
      rfl
  | subscribe => cases hallows.1.symm.trans h
  | _ => cases (show g.read = none from hallows).symm.trans h

end Report

/-! ## Histories of reports -/

open Conduct

/-- Whoever is behind on a task has to report on it yet, unless it broke down. -/
theorem owed_of_behind (hc : custody.Orderly past) (hr : reporting.Orderly past)
    (hbreaks : ∀ m ∈ past, m.occurrence.who = who → m.occurrence.isBreakdown = false)
    (h : behind who id past = true) : id ∈ (reporting.stage who past).owed := by
  induction past with
  | nil => cases h
  | cons m past ih =>
    have ih := ih hc.2 hr.2 fun m' hm' => hbreaks m' (List.mem_cons_of_mem _ hm')
    have hnumber := hr.1.number
    have hsuits := hr.1.suits
    unfold behind at h
    split at h
    · next hwho =>
      -- only an answer stirs anything
      have before (hno : ∀ who c a, m.occurrence ≠ .answers who c a) :
          id ∈ (reporting.stage who past).owed := by
        rw [stirs_of_not_answers hc.1 hno] at h
        exact ih (Bool.and_eq_true_iff.1 h).1
      rw [← hwho, stage_self, hwho]
      rw [hwho] at hnumber hsuits
      cases hm : m.occurrence with
      | begins who' job | wakes who' target =>
        -- who begins has done nothing so far
        have howed := before fun _ _ _ => by rw [hm]; nofun
        rw [hm] at hnumber
        rw [stage_of_not_begun hr.2 (Nat.le_of_eq hnumber.symm)] at howed
        cases howed
      | breaksDown who' c =>
        have hno := hbreaks m List.mem_cons_self hwho
        rw [hm] at hno
        cases hno
      | fails who' c a =>
        have howed := before fun _ _ _ => by rw [hm]; nofun
        rw [hm] at hsuits
        refine Report.mem_owed_next.2 (.inr ⟨howed, ?_⟩)
        rintro state rfl
        exact hsuits.2.1
      | answers who' c a =>
        rcases Bool.or_eq_true_iff.1 h with hstirs | hbehind
        · exact Report.mem_owed_next.2 (.inl (mem_stirs_of_stirs hc.1 hm hstirs))
        · obtain ⟨hbehind, hno⟩ := Bool.and_eq_true_iff.1 hbehind
          refine Report.mem_owed_next.2 (.inr ⟨ih hbehind, ?_⟩)
          rintro state rfl
          rw [hm] at hno
          simp [Occurrence.publishes] at hno
    · next hwho =>
      rw [stage_other hwho]
      exact ih h

/-- There is a row for each task that somebody has to report on or has found. -/
theorem row_of_report (hc : custody.Orderly past) (hr : reporting.Orderly past)
    (h : id ∈ (reporting.stage who past).owed ∨ (reporting.stage who past).found = some id) :
    ∃ row, rowAfter id past = some row := by
  induction past with
  | nil => rcases h with h | h <;> cases h
  | cons m past ih =>
    have hsuits := hr.1.suits
    -- rows stay
    have still
        (h : id ∈ (reporting.stage who past).owed ∨ (reporting.stage who past).found = some id) :
        ∃ row, rowAfter id (m :: past) = some row := by
      obtain ⟨row, hrow⟩ := ih hc.2 hr.2 h
      obtain ⟨row', hrow', -⟩ := attempts_mono hc.1 hrow
      exact ⟨row', hrow'⟩
    by_cases hwho : m.occurrence.who = who
    · rw [← hwho, stage_self, hwho] at h
      rw [hwho] at hsuits
      have stirred {c : Call} {a : c.Answer} (hm : m.occurrence = .answers who c a)
          (hstirs : id ∈ c.stirs a) : ∃ row, rowAfter id (m :: past) = some row := by
        cases c with
        | store c =>
          refine Deed.row_of_changes (deed_changes hc.1 id) ?_
          rw [Moment.deed, hm]
          exact (mem_stirs_store who c a).1 hstirs
        | subscribe target state =>
          obtain rfl := List.mem_singleton.1 hstirs
          rw [hm] at hsuits
          exact still (.inr hsuits.1.2.1)
        | _ => cases hstirs
      have found {c : Call} {a : c.Answer} (hm : m.occurrence = .answers who c a)
          (hfinds : c.finds? a = some id) : ∃ row, rowAfter id (m :: past) = some row := by
        rw [hm] at hsuits
        unfold Call.finds? at hfinds
        split at hfinds
        · obtain rfl := Option.some.inj hfinds
          -- a row that is found is left as it is
          obtain ⟨ha, ht⟩ := Prod.mk.inj hsuits.2
          exact ⟨_, (congrArg (TaskTable.find? · _) ht).trans (Except.ok.inj ha).symm⟩
        · cases hfinds
      cases hm : m.occurrence with
      | begins | wakes | breaksDown =>
        rw [hm] at h
        rcases h with h | h <;> cases h
      | fails who' c a =>
        rw [hm] at h hsuits
        rw [reporting, Conduct.lead] at h
        refine still (h.imp (fun h => ?_) fun h => ?_)
        · rcases Report.mem_owed_next.1 h with hstirs | ⟨howed, -⟩
          · cases (Call.stirs_of_fails hsuits.2.1).symm ▸ hstirs
          · exact howed
        · rw [Report.found_next, Call.finds?_of_fails hsuits.2.1, Option.none_or] at h
          exact h
      | answers who' c a =>
        rw [hm] at h hwho
        obtain rfl : who' = who := hwho
        rcases h with h | h
        · exact (Report.mem_owed_next.1 h).elim (stirred hm) fun h => still (.inl h.1)
        · rw [reporting, Conduct.lead, Report.found_next, Option.or_eq_some_iff] at h
          exact h.elim (found hm) fun h => still (.inr h.2)
    · rw [stage_other hwho] at h
      exact still h

/-- A store that does not fail to say what rows are like gives the answers that are counted on. -/
theorem trusts_of_reads {g : Report} (h : custody.Follows past m)
    (hreads : m.occurrence.failsToRead = false)
    (hrow : ∀ id ∈ g.owed, ∃ row, rowAfter id past = some row) :
    reporting.Trusts g m.occurrence := by
  have hsuits := h.suits
  have hfound (id : TaskId) (howed : id ∈ g.owed) : (m.before.find? id).isSome = true := by
    rw [h.before]
    exact Option.isSome_iff_exists.2 (hrow id howed)
  cases hm : m.occurrence with
  | begins | wakes | breaksDown => trivial
  | fails who c a =>
    rw [hm] at hreads
    cases c with
    | readStatus => cases hreads
    | store c =>
      cases c with
      | get => cases hreads
      | _ => trivial
    | _ => trivial
  | answers who c a =>
    rw [hm] at hsuits
    cases c with
    | readStatus target =>
      obtain ⟨rfl, -⟩ := hsuits.2
      exact fun howed => Option.isSome_map.trans (hfound target howed)
    | store c =>
      cases c with
      | get target =>
        obtain ⟨rfl, -⟩ := Prod.mk.inj hsuits.2
        exact hfound target
      | _ => trivial
    | _ => trivial

/-- **While reads do not fail, every operation gets the answers that it counts on.** -/
theorem reporting_met (hw : Reachable s w)
    (hreads : ∀ m ∈ w.past, m.occurrence.failsToRead = false) : reporting.Met w.past := by
  induction hw with
  | init => trivial
  | @tail w w' hw hs ih =>
    have hc := orderly_reachable (custody_governs s) (.tail hw hs) (custody_met w'.past)
    obtain ⟨m, hm⟩ : ∃ m, w'.past = m :: w.past := by cases hs <;> exact ⟨_, rfl⟩
    rw [hm] at hc hreads ⊢
    have hmet := ih fun m' hm' => hreads m' (List.mem_cons_of_mem _ hm')
    have hr := orderly_reachable (reporting_governs s) hw hmet
    exact ⟨trusts_of_reads hc.1 (hreads m List.mem_cons_self)
      fun id howed => row_of_report hc.2 hr (.inl howed), hmet⟩

/-- Nobody is behind who has come to the end. -/
theorem not_behind_of_over (hw : Reachable s w)
    (hreads : ∀ m ∈ w.past, m.occurrence.failsToRead = false) (hover : w.Over who) (id : TaskId) :
    behind who id w.past = false := by
  have hmet := reporting_met hw hreads
  have hr := orderly_reachable (reporting_governs s) hw hmet
  have hc := orderly_reachable (custody_governs s) hw (custody_met w.past)
  have howed : (reporting.stage who w.past).owed = [] := by
    cases hp : w.activities[who]? with
    | none =>
      have hlen := List.getElem?_eq_none_iff.1 hp
      rw [stage_of_not_begun hr (length_activities hw ▸ hlen)]
      rfl
    | some p =>
      have hkeeps := keeps_reachable (reporting_governs s) hw hmet hp
      rw [hover.1 p hp] at hkeeps
      exact hkeeps.nothing
  rw [← Bool.not_eq_true]
  intro hbehind
  have hmem := owed_of_behind hc hr hover.2 hbehind
  rw [howed] at hmem
  cases hmem

/-- Only an observation of a task ever subscribes to it. -/
theorem observed_of_begins {later earlier : List Moment} {job : Job}
    (hr : reporting.Orderly (later ++ m :: earlier)) (hm : m.occurrence = .begins who job)
    (h : (reporting.stage who (later ++ m :: earlier)).observed = some id) :
    job.observed? = some id := by
  have hself : m.occurrence.who = who := by rw [hm]; rfl
  induction later with
  | nil =>
    rw [List.nil_append, ← hself, stage_self, hm] at h
    exact h
  | cons m' later ih =>
    have ih := ih hr.2
    rw [List.cons_append] at h
    by_cases hwho : m'.occurrence.who = who
    · rw [← hwho, stage_self, hwho] at h
      -- nobody begins twice
      have hnumber := hr.1.number
      have hbegun : who < beginnings (later ++ m :: earlier) := by
        refine Nat.lt_of_lt_of_le ?_ (beginnings_le_append later (m :: earlier))
        exact hself ▸ (Orderly.of_append hr.2).1.begun
      rw [hwho] at hnumber
      cases hm' : m'.occurrence with
      | begins | wakes =>
        rw [hm'] at hnumber
        exact absurd hnumber (Nat.ne_of_lt hbegun)
      | breaksDown =>
        rw [hm'] at h
        cases h
      | answers who' c a | fails who' c a =>
        rw [hm'] at h
        exact ih (Report.observed_next.symm.trans h)
    · rw [stage_other hwho] at h
      exact ih h

/-! ## Taking turns -/

theorem inTurn_of_cons (ht : InTurn (m :: past) = true) : InTurn past = true :=
  (Bool.and_eq_true_iff.1 ht).1

/-- What is about to be published was read just now, or before something that others did. -/
theorem read_cons (hr : reporting.Orderly (m :: past))
    (h : (reporting.stage who (m :: past)).read = some (id, state)) :
    m.occurrence = .answers who (.readStatus id) (Except.ok (some state))
        ∧ m.after.state? id = some state
      ∨ m.occurrence.who ≠ who ∧ (reporting.stage who past).read = some (id, state) := by
  have hsuits := hr.1.suits
  by_cases hwho : m.occurrence.who = who
  · rw [← hwho, stage_self, hwho] at h
    rw [hwho] at hsuits
    left
    cases hm : m.occurrence with
    | begins | wakes | breaksDown =>
      rw [hm] at h
      cases h
    | fails who' c a =>
      rw [hm] at h hsuits
      -- who fails to read has read nothing
      cases Report.reads_of_next hsuits.1 h who
      obtain ⟨failure, hfailure⟩ := hsuits.2.1
      cases hfailure
    | answers who' c a =>
      rw [hm] at h hsuits hwho
      obtain rfl : who' = who := hwho
      cases Report.reads_of_next hsuits.1 h who'
      obtain ⟨hread, ht⟩ := hsuits.2
      rw [ht]
      exact ⟨rfl, (Except.ok.inj hread).symm⟩
  · rw [stage_other hwho] at h
    exact .inr ⟨hwho, h⟩

/-- Whoever publishes a state has read it. -/
theorem read_of_publish (h : reporting.Follows past m)
    (hm : m.occurrence = .answers who (.publish id state) ()) :
    (reporting.stage who past).read = some (id, state) := by
  have hsuits := h.suits
  rw [hm] at hsuits
  exact hsuits.1

/-- Whoever has read a state to publish it is the one whose turn it is. -/
theorem reader_of_read (hr : reporting.Orderly past) (ht : InTurn past = true)
    (h : (reporting.stage who past).read = some (id, state)) : reader past = some who := by
  induction past generalizing who id state with
  | nil => cases h
  | cons m past ih =>
    obtain ⟨ht, hturn⟩ := Bool.and_eq_true_iff.1 ht
    unfold reader
    rcases read_cons hr h with ⟨hm, -⟩ | ⟨hwho, h⟩
    · rw [hm]
    · have hreader := ih hr.2 ht h
      split
      · next hm =>
        -- it would not have been the turn of another
        rw [hm, hreader] at hturn
        cases hturn
      · next who' target state' _ hm =>
        have hother := (ih hr.2 ht (read_of_publish hr.1 hm)).symm.trans hreader
        rw [hm] at hwho
        exact absurd (Option.some.inj hother) hwho
      · exact hreader

/-- While somebody is about to publish, nobody else does. -/
theorem publishes_in_turn (hr : reporting.Orderly (m :: past)) (ht : InTurn (m :: past) = true)
    (h : (reporting.stage who past).read = some (id, state)) (hwho : m.occurrence.who ≠ who)
    (id' : TaskId) : m.occurrence.publishes id' = false := by
  have hturn := inTurn_of_cons ht
  unfold Occurrence.publishes
  split
  · next who' target state' _ hm =>
    have hother := reader_of_read hr.2 hturn (read_of_publish hr.1 hm)
    rw [hm] at hwho
    exact absurd (Option.some.inj (hother.symm.trans (reader_of_read hr.2 hturn h))) hwho
  · rfl

end BackgroundTasks
