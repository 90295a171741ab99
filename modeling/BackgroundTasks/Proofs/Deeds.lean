import BackgroundTasks.Proofs.Custody
import BackgroundTasks.Proofs.Interleaving.History
import BackgroundTasks.Proofs.Rows

/-!
# Deeds

Seen from one task, most of what happens is nothing. The rest are six deeds: its row is added,
claimed, concluded, cancelled, renewed by a new schedule, or told the handle of its wake-up. This is
all that has to be known about the calls and the table: every invariant of a row is shown by going
through the deeds.
-/

namespace BackgroundTasks

/-- What happens to the row of one task. -/
inductive Deed where
  | nothing
  | inserted (row : Row)
  | claimed (who : Nat) (now : UInt64)
  | concluded (who : Nat) (c : Completion) (kind : LogKind)
  | cancelled (now : UInt64)
  | renewed (spec : Spec) (nextRunMs now : UInt64)
  | noted (handle : Option String)
deriving DecidableEq

namespace Deed

/-- How a deed changes the row. -/
def Changes : Deed → Option Row → Option Row → Prop
  | nothing, r, r' => r' = r
  | inserted row, r, r' =>
    r = none ∧ r' = some row ∧ ∃ id spec next now, row = Row.fresh id spec next now
  | claimed _ now, r, r' => (RowStep.claim now).Takes r r'
  | concluded _ c _, r, r' => (RowStep.complete c).Takes r r'
  | cancelled now, r, r' => (RowStep.move State.cancellable .cancelled now).Takes r r'
  | renewed spec next now, r, r' => (RowStep.replace spec next now).Takes r r'
  | noted handle, r, r' => (RowStep.setPlatformId handle).Takes r r'

/-- A deed, if it concerns the task that is looked at. -/
def onlyIf (concerns : Prop) [Decidable concerns] (d : Deed) : Deed :=
  if concerns then d else nothing

end Deed

/-- What something does to the row of a task. -/
def Occurrence.deed (id : TaskId) : Occurrence → Deed
  | .answers _ (.store (.insert row)) (Except.ok _) => .onlyIf (row.id = id) (.inserted row)
  | .answers who (.store (.claim target now)) (Except.ok (some _)) =>
    .onlyIf (target = id) (.claimed who now)
  | .answers who (.store (.complete target c e)) (Except.ok true) =>
    .onlyIf (target = id) (.concluded who c e.kind)
  | .answers _ (.store (.transition target _ _ now)) (Except.ok (moved : Nat)) =>
    .onlyIf (target = id ∧ moved ≠ 0) (.cancelled now)
  | .answers _ (.store (.transitionAll _ _ now)) (Except.ok (ids : List TaskId)) =>
    .onlyIf (id ∈ ids) (.cancelled now)
  | .answers _ (.store (.replaceSpec target spec next now)) (Except.ok .replaced) =>
    .onlyIf (target = id) (.renewed spec next now)
  | .answers _ (.store (.setPlatformId target handle)) (Except.ok _) =>
    .onlyIf (target = id) (.noted handle)
  | _ => .nothing

/-- What a moment does to the row of a task. -/
abbrev Moment.deed (m : Moment) (id : TaskId) : Deed := m.occurrence.deed id

/-- The row of a task after a history. -/
def rowAfter (id : TaskId) (past : List Moment) : Option Row := (tableAfter past).find? id

/-- Custody counts on nothing. -/
theorem custody_met (past : List Moment) : custody.Met past :=
  Conduct.met_of_expects (fun _ => trivial) (fun _ _ _ => trivial) past

namespace Deed

variable {id : TaskId} {t t' : TaskTable} {d : Deed}

theorem changes_onlyIf {concerns : Prop} [Decidable concerns]
    (hyes : concerns → d.Changes (t.find? id) (t'.find? id))
    (hno : ¬ concerns → t'.find? id = t.find? id) :
    (onlyIf concerns d).Changes (t.find? id) (t'.find? id) := by
  unfold onlyIf
  split
  · next h => exact hyes h
  · next h => exact hno h

/-- A deed that is a step of the row of `target`. -/
theorem changes_stepAt {target : TaskId} {step : RowStep}
    (hd : ∀ {r r'}, step.Takes r r' → d.Changes r r')
    (htaken : (t.stepAt target step).1.isSome = true) :
    (onlyIf (target = id) d).Changes (t.find? id) ((t.stepAt target step).2.find? id) := by
  refine changes_onlyIf ?_ fun hne => t.find?_stepAt_other step (Ne.symm hne)
  intro heq
  subst heq
  exact hd (TaskTable.takes_of_isSome htaken)

theorem unchanged_stepAt {target : TaskId} {step : RowStep}
    (hrefused : (t.stepAt target step).1 = none) :
    (t.stepAt target step).2.find? id = t.find? id := by
  rw [TaskTable.stepAt_refused hrefused]

end Deed

/-- What the answer of the table does to a row is the deed. -/
theorem deed_changes_answer {t t' : TaskTable} (id : TaskId) (who : Nat) (c : StoreCall)
    (a : c.Answer) (h : (a, t') = t.answer c) {g : Custody}
    (hallows : custody.allows g (.store c)) :
    (Occurrence.deed id (.answers who (.store c) a)).Changes (t.find? id) (t'.find? id) := by
  cases c with
  | insert row =>
    obtain ⟨_, spec, next, now, hfresh⟩ := hallows
    cases hrow : t.insert? row with
    | none =>
      -- the id is taken, and the call reports it
      obtain ⟨rfl, rfl⟩ := Prod.mk.inj (h.trans (by rw [TaskTable.answer, hrow]))
      rfl
    | some t'' =>
      obtain ⟨rfl, rfl⟩ := Prod.mk.inj (h.trans (by rw [TaskTable.answer, hrow]))
      obtain ⟨hnone, hsome, hother⟩ := TaskTable.find?_insert? hrow
      refine Deed.changes_onlyIf ?_ fun hne => hother id (Ne.symm hne)
      intro heq
      subst heq
      exact ⟨hnone, hsome, _, spec, next, now, hfresh⟩
  | claim target now =>
    have ha : a = Except.ok (t.stepAt target (.claim now)).1 := congrArg Prod.fst h
    have ht : t' = (t.stepAt target (.claim now)).2 := congrArg Prod.snd h
    subst ha ht
    cases hrow : (t.stepAt target (.claim now)).1 with
    | none => exact Deed.unchanged_stepAt hrow
    | some row => exact Deed.changes_stepAt (fun hd => hd) (hrow ▸ rfl)
  | complete target c e =>
    have ha : a = Except.ok (t.stepAt target (.complete c)).1.isSome := congrArg Prod.fst h
    have ht : t'.find? id = (t.stepAt target (.complete c)).2.find? id :=
      congrArg (fun p => TaskTable.find? p.2 id) h
    subst ha
    rw [ht]
    cases hrow : (t.stepAt target (.complete c)).1 with
    | none => exact Deed.unchanged_stepAt hrow
    | some row => exact Deed.changes_stepAt (fun hd => hd) (hrow ▸ rfl)
  | transition target origins goal now =>
    obtain ⟨rfl, rfl⟩ := hallows
    have ha : a = Except.ok (if (t.stepAt target (.move State.cancellable .cancelled now)).1.isSome
      then (1 : Nat) else (0 : Nat)) := congrArg Prod.fst h
    have ht : t' = (t.stepAt target (.move State.cancellable .cancelled now)).2 :=
      congrArg Prod.snd h
    subst ha ht
    cases hrow : (t.stepAt target (.move State.cancellable .cancelled now)).1 with
    | none =>
      refine Deed.changes_onlyIf (fun hmoved => absurd rfl hmoved.2) fun _ => ?_
      exact Deed.unchanged_stepAt hrow
    | some row =>
      -- one row was moved
      have hmoved : (target = id ∧ (1 : Nat) ≠ 0) = (target = id) := by simp
      show (Deed.onlyIf (target = id ∧ (1 : Nat) ≠ 0) _).Changes _ _
      simp only [hmoved]
      exact Deed.changes_stepAt (fun hd => hd) (hrow ▸ rfl)
  | transitionAll origins goal now =>
    obtain ⟨rfl, rfl⟩ := hallows
    have ha : a = Except.ok (t.stepAll (.move State.cancellable .cancelled now)).1 :=
      congrArg Prod.fst h
    have ht : t' = (t.stepAll (.move State.cancellable .cancelled now)).2 := congrArg Prod.snd h
    subst ha ht
    exact Deed.changes_onlyIf TaskTable.takes_of_mem_stepAll TaskTable.find?_of_not_mem_stepAll
  | replaceSpec target spec next now =>
    have ha : a = Except.ok (t.replaceSpec target spec next now).1 := congrArg Prod.fst h
    have ht : t' = (t.replaceSpec target spec next now).2 := congrArg Prod.snd h
    subst ha ht
    rw [TaskTable.replaceSpec_snd]
    cases hrow : (t.stepAt target (.replace spec next now)).1 with
    | none =>
      -- the row is missing or running, and stays as it is
      have hout : (t.replaceSpec target spec next now).1 ≠ .replaced := by
        rw [Ne, TaskTable.replaceSpec_replaced, hrow]
        exact Bool.false_ne_true
      cases hcase : (t.replaceSpec target spec next now).1 with
      | replaced => exact absurd hcase hout
      | notFound => exact Deed.unchanged_stepAt hrow
      | running => exact Deed.unchanged_stepAt hrow
    | some row =>
      have hout := (t.replaceSpec_replaced target spec next now).2 (hrow ▸ rfl)
      rw [hout]
      exact Deed.changes_stepAt (fun hd => hd) (hrow ▸ rfl)
  | setPlatformId target handle =>
    cases hrow : t.stepAt target (.setPlatformId handle) with
    | mk row t'' =>
      have ht : t'' = (t.stepAt target (.setPlatformId handle)).2 := by rw [hrow]
      cases row with
      | none =>
        obtain ⟨rfl, rfl⟩ := Prod.mk.inj (h.trans (by rw [TaskTable.answer, hrow]))
        rw [ht]
        exact Deed.unchanged_stepAt (by rw [hrow])
      | some row =>
        obtain ⟨rfl, rfl⟩ := Prod.mk.inj (h.trans (by rw [TaskTable.answer, hrow]))
        rw [ht]
        exact Deed.changes_stepAt (fun hd => hd) (by rw [hrow]; rfl)
  | get _ | list | due _ | appendLog _ | logs _ | lastLog _ =>
    obtain ⟨rfl, rfl⟩ := Prod.mk.inj h
    rfl

/-- **What happens to a row is its deed.** -/
theorem deed_changes {past : List Moment} {m : Moment} (h : custody.Follows past m) (id : TaskId) :
    (m.deed id).Changes (rowAfter id past) (rowAfter id (m :: past)) := by
  obtain ⟨hbefore, -, hsuits⟩ := h
  rw [hbefore] at hsuits
  show (m.occurrence.deed id).Changes ((tableAfter past).find? id) (m.after.find? id)
  generalize tableAfter past = t at hsuits
  cases hm : m.occurrence with
  | begins who job =>
    rw [hm] at hsuits
    exact congrArg (TaskTable.find? · id) hsuits
  | wakes who target =>
    rw [hm] at hsuits
    exact congrArg (TaskTable.find? · id) hsuits
  | fails who c a =>
    rw [hm] at hsuits
    exact congrArg (TaskTable.find? · id) hsuits.2.2
  | breaksDown who c =>
    rw [hm] at hsuits
    exact congrArg (TaskTable.find? · id) hsuits.2.2
  | answers who c a =>
    rw [hm] at hsuits
    obtain ⟨hallows, hreturns⟩ := hsuits
    -- no call but one to the store changes rows
    cases c with
    | store c => exact deed_changes_answer id who c a hreturns hallows
    | readStatus | arm | disarm | isArmed =>
      exact congrArg (TaskTable.find? · id) hreturns.2
    | publish | subscribe | unsubscribe | now | newId | retryDelay | periodicRun | work | emit =>
      exact congrArg (TaskTable.find? · id) hreturns

/-! ## Whose deeds -/

variable {past : List Moment} {m : Moment} {who : Nat} {id : TaskId} {row : Row}

/-- An operation claims a row and takes it into custody. -/
def Moment.Claims (m : Moment) (who : Nat) (row : Row) : Prop :=
  ∃ id now, m.occurrence = .answers who (.store (.claim id now)) (Except.ok (some row))

theorem Deed.of_onlyIf {concerns : Prop} [Decidable concerns] {d d' : Deed}
    (h : onlyIf concerns d = d') (hd' : d' ≠ nothing) : concerns ∧ d = d' := by
  unfold onlyIf at h
  split at h
  · next hc => exact ⟨hc, h⟩
  · exact absurd h.symm hd'

theorem claims_effect (h : custody.Follows past m) (hc : m.Claims who row) :
    (∃ now, m.deed row.id = .claimed who now) ∧ rowAfter row.id (m :: past) = some row := by
  obtain ⟨id, now, hm⟩ := hc
  obtain ⟨-, -, hsuits⟩ := h
  rw [hm] at hsuits
  have hreturns := hsuits.2
  have hrow : (m.before.stepAt id (.claim now)).1 = some row :=
    (Except.ok.inj (congrArg Prod.fst hreturns)).symm
  have hafter : m.after = (m.before.stepAt id (.claim now)).2 := congrArg Prod.snd hreturns
  -- the row that is returned is the row of the task that was asked for
  have hfound := (TaskTable.stepAt_taken hrow).2
  have hid := TaskTable.id_of_find? hfound
  refine ⟨⟨now, ?_⟩, ?_⟩
  · rw [Moment.deed, hm, hid]
    exact if_pos rfl
  · rw [hid, rowAfter, tableAfter, hafter]
    exact hfound

theorem claims_of_deed {now : UInt64} (h : custody.Follows past m)
    (hd : m.deed id = .claimed who now) :
    ∃ row, m.Claims who row ∧ row.id = id ∧ rowAfter id (m :: past) = some row := by
  unfold Moment.deed Occurrence.deed at hd
  split at hd
  case h_2 who' target now' row hm =>
    obtain ⟨rfl, heq⟩ := Deed.of_onlyIf hd (by simp)
    obtain ⟨rfl, -⟩ := Deed.claimed.inj heq
    have hc : m.Claims who' row := ⟨target, now', hm⟩
    obtain ⟨⟨_, hdeed⟩, hrow⟩ := claims_effect h hc
    have hid : target = row.id := by
      rw [Moment.deed, hm] at hdeed
      exact (Deed.of_onlyIf hdeed (by simp)).1
    exact ⟨row, hc, hid.symm, hid ▸ hrow⟩
  -- no other answer is a claim
  all_goals
    first
    | cases hd
    | cases (Deed.of_onlyIf hd (by simp)).2

theorem concluded_of_deed {c : Completion} {kind : LogKind}
    (hd : m.deed id = .concluded who c kind) :
    ∃ e, m.occurrence = .answers who (.store (.complete id c e)) (Except.ok true)
      ∧ e.kind = kind := by
  unfold Moment.deed Occurrence.deed at hd
  split at hd
  case h_3 who' target c' e hm =>
    obtain ⟨rfl, heq⟩ := Deed.of_onlyIf hd (by simp)
    obtain ⟨rfl, rfl, hkind⟩ := Deed.concluded.inj heq
    exact ⟨e, hm, hkind⟩
  -- no other answer concludes a row
  all_goals
    first
    | cases hd
    | cases (Deed.of_onlyIf hd (by simp)).2

/-- Only an operation that has a row in custody concludes it. -/
theorem holder_of_concluded {c : Completion} {kind : LogKind} (h : custody.Follows past m)
    (hd : m.deed id = .concluded who c kind) :
    ∃ row now d, custody.stage who past = .holding row ∧ row.id = id ∧ Concludes row now d
      ∧ c = d.completion ∧ kind = d.kind := by
  obtain ⟨e, hm, rfl⟩ := concluded_of_deed hd
  obtain ⟨-, -, hsuits⟩ := h
  rw [hm] at hsuits
  obtain ⟨row, now, d, hstage, hconcludes, rfl, rfl, rfl⟩ := hsuits.1
  exact ⟨row, now, d, hstage, rfl, hconcludes, rfl, rfl⟩

theorem holding_next {g : Custody} {c : Call} {a : c.Answer}
    (h : custody.next g c a = .holding row) :
    (∃ id now, ∃ hc : c = .store (.claim id now), hc ▸ a = Except.ok (some row))
      ∨ g = .holding row ∧ ∀ id c' e, c ≠ .store (.complete id c' e) := by
  change Custody.next g c a = _ at h
  unfold Custody.next at h
  split at h
  · next id now q =>
    obtain rfl := Custody.holding.inj h
    exact .inl ⟨id, now, rfl, rfl⟩
  · cases h
  · next hclaim hcomplete =>
    refine .inr ⟨h, ?_⟩
    intro id c' e heq
    subst heq
    exact hcomplete id c' e a rfl HEq.rfl

/-- A row in custody has just been claimed, or was in custody before. -/
theorem holding_cons (hf : custody.Follows past m)
    (h : custody.stage who (m :: past) = .holding row) :
    m.Claims who row
      ∨ custody.stage who past = .holding row
        ∧ ∀ id c e a, m.occurrence ≠ .answers who (.store (.complete id c e)) a := by
  by_cases hwho : m.occurrence.who = who
  · subst hwho
    obtain ⟨-, -, hsuits⟩ := hf
    rw [Conduct.stage_self] at h
    cases hm : m.occurrence with
    -- who begins or is gone has nothing in custody
    | begins who job => rw [hm] at h; cases h
    | wakes who id => rw [hm] at h; cases h
    | breaksDown who c => rw [hm] at h; cases h
    | answers who c a =>
      rw [hm] at h
      rcases holding_next h with ⟨id, now, rfl, ha⟩ | ⟨hstage, hc⟩
      · obtain rfl : a = Except.ok (some row) := ha
        exact .inl ⟨id, now, hm⟩
      · refine .inr ⟨hstage, ?_⟩
        intro id c' e a' heq
        exact hc id c' e (Occurrence.answers.inj heq).2.1
    | fails who c a =>
      rw [hm] at h hsuits
      rcases holding_next h with ⟨id, now, rfl, ha⟩ | ⟨hstage, -⟩
      · -- a claim that fails returns no row
        obtain ⟨f, hfails⟩ := hsuits.2.1
        cases hfails.symm.trans ha
      · refine .inr ⟨hstage, ?_⟩
        intro id c e a heq
        cases heq
  · rw [Conduct.stage_other hwho] at h
    refine .inr ⟨h, ?_⟩
    intro id c e a hm
    exact hwho (congrArg Occurrence.who hm)

/-- A row in custody stays there until it is concluded. -/
theorem next_holding {c : Call} (h : custody.allows (.holding row) c) (a : c.Answer) :
    custody.next (.holding row) c a = .holding row
      ∨ ∃ now d, Concludes row now d
        ∧ c = .store (.complete row.id d.completion (d.entry row now)) := by
  cases c with
  | store c =>
    cases c with
    | claim => cases h
    | complete id c e =>
      obtain ⟨row', now, d, hrow, hd, rfl, rfl, rfl⟩ := h
      obtain rfl := Custody.holding.inj hrow
      exact .inr ⟨now, d, hd, rfl⟩
    | _ => exact .inl rfl
  | _ => exact .inl rfl

end BackgroundTasks
