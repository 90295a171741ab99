import BackgroundTasks.Proofs.Deeds
import BackgroundTasks.Proofs.Interleaving.Play

/-!
# Late results

The number of attempts names the claim: it grows with each claim and with nothing else. So a row
that is running under the number of an earlier claim has been running ever since, and but for the
handle of its wake-up it is still the row that was claimed. The store looks at nothing else when a
completion comes in, and this is why that is enough.
-/

namespace BackgroundTasks

variable {s : Scheduler} {w : Scene} {past : List Moment} {m : Moment} {id : TaskId} {q : Row}

/-- No row has used up its count of attempts. -/
def TaskTable.CountsFit (t : TaskTable) : Prop := ∀ row ∈ t.rows, row.attempts < maxCount

instance (t : TaskTable) : Decidable t.CountsFit :=
  inferInstanceAs (Decidable (∀ row ∈ t.rows, row.attempts < maxCount))

/-- Whether a row is running under a claim. -/
def Row.Runs (row : Row) (attempt : UInt32) : Prop :=
  row.state = .running ∧ row.attempts = attempt

/-- Whether a task is running. -/
def TaskTable.IsRunning (t : TaskTable) (id : TaskId) : Prop :=
  ∃ row, t.find? id = some row ∧ row.state = .running

/-! ## The number of attempts -/

theorem attempts_mono (h : custody.Follows past m) (hq : rowAfter id past = some q) :
    ∃ q', rowAfter id (m :: past) = some q' ∧ q.attempts ≤ q'.attempts := by
  have hch := deed_changes h id
  rw [hq] at hch
  -- only a claim changes the count
  cases hd : m.deed id <;> rw [hd] at hch
  case nothing => exact ⟨q, hch, UInt32.le_refl _⟩
  case inserted => cases hch.1
  all_goals
    obtain ⟨_, hsome, -, hq'⟩ := hch
    obtain rfl := Option.some.inj hsome
    refine ⟨_, hq', ?_⟩
  case claimed => exact le_satSucc _
  all_goals exact UInt32.le_refl _

theorem countsFit_of_cons (h : custody.Follows past m)
    (hfit : (tableAfter (m :: past)).CountsFit) : (tableAfter past).CountsFit := by
  intro row hrow
  obtain ⟨q', hq', hle⟩ := attempts_mono h (TaskTable.find?_of_mem hrow)
  exact UInt32.lt_of_le_of_lt hle (hfit q' (TaskTable.mem_of_find? hq'))

theorem countsFit_of_append {later : List Moment} (h : custody.Orderly (later ++ past))
    (hfit : (tableAfter (later ++ past)).CountsFit) : (tableAfter past).CountsFit := by
  induction later with
  | nil => exact hfit
  | cons m later ih => exact ih h.2 (countsFit_of_cons h.1 hfit)

/--
A row that runs under a claim after something has happened ran under it before, and is the same but
for its handle.
-/
theorem runs_cons (h : custody.Follows past m) (hfit : (tableAfter (m :: past)).CountsFit)
    (hq : rowAfter id past = some q) {attempt : UInt32} (hle : attempt ≤ q.attempts) :
    ∃ q', rowAfter id (m :: past) = some q' ∧ attempt ≤ q'.attempts
      ∧ (q'.Runs attempt ↔ q'.state = .running ∧ q.Runs attempt)
      ∧ (q'.Runs attempt → q' = q.withHandle q'.platformId) := by
  have hch := deed_changes h id
  rw [hq] at hch
  cases hd : m.deed id <;> rw [hd] at hch
  case nothing => exact ⟨q, hch, hle, ⟨fun hr => ⟨hr.1, hr⟩, fun hr => hr.2⟩, fun _ => rfl⟩
  case inserted => cases hch.1
  all_goals
    obtain ⟨_, hsome, hacc, hq'⟩ := hch
    obtain rfl := Option.some.inj hsome
    refine ⟨_, hq', ?_⟩
  case claimed who now =>
    -- the count grows, so the new claim is not the one that is looked at
    have hlt : attempt < satSucc q.attempts := by
      have hfits := hfit _ (TaskTable.mem_of_find? hq')
      have hsucc := toNat_satSucc_of_lt hfits
      rw [UInt32.lt_iff_toNat_lt, hsucc]
      have := UInt32.le_iff_toNat_le.1 hle
      omega
    have hno : ¬ Row.Runs ((RowStep.claim now).change q) attempt :=
      fun hr => UInt32.lt_irrefl _ (hr.2 ▸ hlt)
    have hwas : ¬ q.Runs attempt := by
      intro h
      obtain ⟨hstate, -⟩ := h
      simp [RowStep.claim, hstate] at hacc
    exact ⟨UInt32.le_of_lt hlt, ⟨fun hr => absurd hr hno, fun hr => absurd hr.2 hwas⟩,
      fun hr => absurd hr hno⟩
  case noted => exact ⟨hle, ⟨fun hr => ⟨hr.1, hr⟩, fun hr => hr.2⟩, fun _ => rfl⟩
  all_goals
    refine ⟨hle, ?_⟩
    -- a row that is not running runs under no claim
    have ended {q' : Row} (hne : q'.state ≠ .running) :
        (q'.Runs attempt ↔ q'.state = .running ∧ q.Runs attempt)
          ∧ (q'.Runs attempt → q' = q.withHandle q'.platformId) :=
      ⟨⟨fun hr => absurd hr.1 hne, fun hr => absurd hr.1 hne⟩, fun hr => absurd hr.1 hne⟩
  case concluded => exact ended (RowStep.complete_ends hacc)
  case cancelled | renewed =>
    refine ended ?_
    intro hrunning
    cases hrunning

/-! ## Since the claim -/

variable {later between earlier : List Moment} {claim m' : Moment} {who who' : Nat} {row : Row}
  {c c' : Completion} {kind kind' : LogKind} {e : LogEntry} {applied : Bool}

/-- Whether a task was running all along. -/
def RunningThroughout (id : TaskId) (between : List Moment) : Prop :=
  ∀ m ∈ between, m.after.IsRunning id

theorem runningThroughout_cons :
    RunningThroughout id (m :: between) ↔ m.after.IsRunning id ∧ RunningThroughout id between := by
  unfold RunningThroughout
  exact List.forall_mem_cons

/--
A row runs under a claim just if its task has been running ever since, and then it is the row that
was claimed, but for its handle.
-/
theorem runs_iff_throughout (ho : custody.Orderly (between ++ claim :: earlier))
    (hfit : (tableAfter (between ++ claim :: earlier)).CountsFit) (hc : claim.Claims who row) :
    ∃ q, rowAfter row.id (between ++ claim :: earlier) = some q ∧ row.attempts ≤ q.attempts
      ∧ (q.Runs row.attempts ↔ RunningThroughout row.id between)
      ∧ (q.Runs row.attempts → q = row.withHandle q.platformId) := by
  induction between with
  | nil =>
    -- right after the claim the row is the one that was returned
    obtain ⟨⟨now, hd⟩, hrow⟩ := claims_effect ho.1 hc
    have hch := deed_changes ho.1 row.id
    rw [hd, hrow] at hch
    obtain ⟨p, -, -, hp⟩ := hch
    have hstate : row.state = .running := by rw [Option.some.inj hp]; rfl
    exact ⟨row, hrow, UInt32.le_refl _, ⟨fun _ _ => by simp, fun _ => ⟨hstate, rfl⟩⟩, fun _ => rfl⟩
  | cons m between ih =>
    obtain ⟨q, hq, hle, hiff, hsame⟩ := ih ho.2 (countsFit_of_cons ho.1 hfit)
    obtain ⟨q', hq', hle', hiff', hsame'⟩ := runs_cons ho.1 hfit hq hle
    refine ⟨q', hq', hle', ?_, fun hr => ?_⟩
    · -- it runs under the claim now if it did before and is still running
      have hrunning : m.after.IsRunning row.id ↔ q'.state = .running := by
        refine ⟨?_, fun hstate => ⟨q', hq', hstate⟩⟩
        intro h
        obtain ⟨_, hfound, hstate⟩ := h
        obtain rfl := Option.some.inj (hfound.symm.trans hq')
        exact hstate
      rw [hiff', hiff, ← hrunning, runningThroughout_cons]
    · have hq'' := hsame' hr
      rw [hsame (hiff'.1 hr).2] at hq''
      exact hq''

/-- What an operation has in custody, it has claimed, and it has claimed nothing since. -/
theorem claimed_of_holding (ho : custody.Orderly past)
    (h : custody.stage who past = .holding row) :
    ∃ between claim earlier, past = between ++ claim :: earlier ∧ claim.Claims who row
      ∧ ∀ m ∈ between, ∀ q, ¬ m.Claims who q := by
  induction past with
  | nil => cases h
  | cons m past ih =>
    rcases holding_cons ho.1 h with hc | ⟨hstage, -⟩
    · exact ⟨[], m, past, rfl, hc, by simp⟩
    · obtain ⟨between, claim, earlier, rfl, hc, hnone⟩ := ih ho.2 hstage
      refine ⟨m :: between, claim, earlier, rfl, hc, ?_⟩
      rw [List.forall_mem_cons]
      refine ⟨?_, hnone⟩
      -- an operation that has a row in custody makes no claim
      intro q h
      obtain ⟨id, now, hm⟩ := h
      have hallows := ho.1.suits
      rw [hm] at hallows
      cases hallows.1.symm.trans hstage

/-- Once a claim is concluded, the row does not run under it any more. -/
theorem not_runs_of_concluded (ho : custody.Orderly (later ++ m :: past))
    (hfit : (tableAfter (later ++ m :: past)).CountsFit)
    (hd : m.deed id = .concluded who c kind) :
    ∃ q, rowAfter id (later ++ m :: past) = some q ∧ c.claimedAttempt ≤ q.attempts
      ∧ ¬ q.Runs c.claimedAttempt := by
  induction later with
  | nil =>
    have hch := deed_changes ho.1 id
    rw [hd] at hch
    obtain ⟨q, -, hacc, hq'⟩ := hch
    obtain ⟨-, hattempts, -⟩ := RowStep.complete_accepts.1 hacc
    exact ⟨_, hq', hattempts ▸ UInt32.le_refl _, fun hr => RowStep.complete_ends hacc hr.1⟩
  | cons m' later ih =>
    obtain ⟨q, hq, hle, hnot⟩ := ih ho.2 (countsFit_of_cons ho.1 hfit)
    obtain ⟨q', hq', hle', hiff, -⟩ := runs_cons ho.1 hfit hq hle
    exact ⟨q', hq', hle', fun hr => hnot (hiff.1 hr).2⟩

/-- An applied completion was decided upon for the row as it is found. -/
theorem concludes_found (ho : custody.Orderly (m :: past)) (hfit : (tableAfter past).CountsFit)
    (hd : m.deed id = .concluded who c kind) :
    ∃ q now d, rowAfter id past = some q ∧ Concludes q now d ∧ kind = d.kind
      ∧ rowAfter id (m :: past) = some ((RowStep.complete d.completion).change q) := by
  obtain ⟨row, now, d, hstage, rfl, hconcludes, rfl, rfl⟩ := holder_of_concluded ho.1 hd
  have hch := deed_changes ho.1 row.id
  rw [hd] at hch
  obtain ⟨q, hq, hacc, hafter⟩ := hch
  obtain ⟨hstate, hattempts, -⟩ := RowStep.complete_accepts.1 hacc
  -- the row is accepted, so it runs under the claim, so it is still as it was claimed
  obtain ⟨between, claim, earlier, rfl, hc, -⟩ := claimed_of_holding ho.2 hstage
  obtain ⟨p, hp, -, -, hsame⟩ := runs_iff_throughout ho.2 hfit hc
  obtain rfl := Option.some.inj (hq.symm.trans hp)
  have hsame := hsame ⟨hstate, hattempts.trans hconcludes.claimedAttempt⟩
  refine ⟨q, now, d, hq, ?_, rfl, hafter⟩
  rw [hsame]
  exact hconcludes.withHandle q.platformId

/-! ## The fate of a completion -/

/-- What becomes of a completion that an operation stores after a history. -/
structure Fenced (past : List Moment) (m : Moment) (who : Nat) (id : TaskId) (c : Completion)
    (applied : Bool) : Prop where
  /--
  It belongs to a claim of the same operation. It is applied just if the task has been running
  ever since, and the row it finds is then as it was claimed, but for its handle.
  -/
  claimed : ∃ between claim earlier row, past = between ++ claim :: earlier
    ∧ claim.Claims who row ∧ (∀ b ∈ between, ∀ q, ¬ b.Claims who q)
    ∧ row.id = id ∧ row.attempts = c.claimedAttempt
    ∧ (applied = true ↔ RunningThroughout id between)
    ∧ (applied = true →
      ∃ found, m.before.find? id = some found ∧ found = row.withHandle found.platformId)
  /-- No completion of the same claim was applied before. -/
  once : applied = true → ∀ b ∈ past, ∀ who' c' kind, b.deed id = .concluded who' c' kind →
    c'.claimedAttempt ≠ c.claimedAttempt
  /-- If it is not applied, it leaves nothing behind but a marked entry of the log. -/
  discarded : applied = false → m.after.rows = m.before.rows
    ∧ ∃ entry text, m.after.log = m.before.log ++ [entry]
      ∧ entry.message = some (discardedMark ++ text)

/-- **A result counts only if its task has been running since the claim it belongs to.** -/
theorem completion_fenced (hw : Reachable s w) (hfit : w.table.CountsFit)
    (hpast : w.past = later ++ m :: past)
    (hm : m.occurrence = .answers who (.store (.complete id c e)) (Except.ok applied)) :
    Fenced past m who id c applied := by
  have ho : custody.Orderly (later ++ m :: past) :=
    hpast ▸ Conduct.orderly_reachable (custody_governs s) hw (custody_met _)
  have hfit : (tableAfter (later ++ m :: past)).CountsFit := hpast ▸ hfit
  have hom := ho.of_append
  have hfitm := countsFit_of_append ho hfit
  have hfitp := countsFit_of_cons hom.1 hfitm
  have hsuits := hom.1.suits
  rw [hm] at hsuits
  obtain ⟨⟨row, now, d, hstage, hd, rfl, rfl, -⟩, hreturns⟩ := hsuits
  have happlied : applied = (m.before.complete row.id d.completion e).1.1 :=
    Except.ok.inj (congrArg Prod.fst hreturns)
  have hafter : m.after = (m.before.complete row.id d.completion e).2 := congrArg Prod.snd hreturns
  obtain ⟨between, claim, earlier, rfl, hc, hnone⟩ := claimed_of_holding hom.2 hstage
  obtain ⟨q, hq, -, hiff, hsame⟩ := runs_iff_throughout hom.2 hfitp hc
  have hfound : m.before.find? row.id = some q := by rw [hom.1.before]; exact hq
  -- the store accepts the completion just if the row runs under its claim
  have hruns : applied = true ↔ q.Runs row.attempts := by
    rw [happlied, TaskTable.complete_applied, hfound, Option.any_some, RowStep.complete_accepts,
      hd.claimedAttempt]
    refine ⟨fun h => ⟨h.1, h.2.1⟩, fun h => ⟨h.1, h.2, ?_⟩⟩
    rw [h.1]
    exact hd.canBecome
  refine ⟨⟨between, claim, earlier, row, rfl, hc, hnone, rfl, hd.claimedAttempt.symm,
    hruns.trans hiff, fun h => ⟨q, hfound, hsame (hruns.1 h)⟩⟩, ?_, ?_⟩
  · -- after a completion of the same claim the row does not run under it any more
    intro h b hb who' c' kind hdb heq
    obtain ⟨l, r, hlr⟩ := List.append_of_mem hb
    rw [hlr] at hom hfitp hq
    obtain ⟨q', hq', -, hnot⟩ := not_runs_of_concluded hom.2 hfitp hdb
    obtain ⟨e', hb', -⟩ := concluded_of_deed hdb
    obtain rfl := Option.some.inj (hq.symm.trans hq')
    rw [heq, hd.claimedAttempt] at hnot
    exact hnot (hruns.1 h)
  · intro h
    rw [hafter, TaskTable.complete_discarded (happlied ▸ h)]
    exact ⟨rfl, e.discarded, e.message.getD "", rfl, rfl⟩

/-- Whether an operation has a completion for a task answered, in one way or the other. -/
def Occurrence.completes (who : Nat) (id : TaskId) (applied : Bool) : Occurrence → Bool
  | answers who' (.store (.complete id' _ _)) (Except.ok applied') =>
    who' == who && id' == id && applied' == applied
  | _ => false

open Rehearsal in
/-- The result of an attempt that was overtaken comes too late, and that of the later one counts. -/
theorem completion_fenced_overtaken :
    (∃ m past c e, m :: past <:+ (scene overtaken).past
      ∧ m.occurrence = .answers 1 (.store (.complete first c e)) (Except.ok false)
      ∧ Fenced past m 1 first c false)
    ∧ ∃ m past c e, m :: past <:+ (scene overtaken).past
      ∧ m.occurrence = .answers 4 (.store (.complete first c e)) (Except.ok true)
      ∧ Fenced past m 4 first c true := by
  have hfit : (scene overtaken).table.CountsFit := by decide +kernel
  have fenced {who : Nat} {applied : Bool}
      (h : (scene overtaken).past.any (fun m => m.occurrence.completes who first applied) = true) :
      ∃ m past c e, m :: past <:+ (scene overtaken).past
        ∧ m.occurrence = .answers who (.store (.complete first c e)) (Except.ok applied)
        ∧ Fenced past m who first c applied := by
    obtain ⟨m, hmem, hm⟩ := List.any_eq_true.1 h
    obtain ⟨later, past, hpast⟩ := List.append_of_mem hmem
    unfold Occurrence.completes at hm
    split at hm
    · next who' id c e applied' heq =>
      simp only [Bool.and_eq_true, beq_iff_eq] at hm
      obtain ⟨⟨rfl, rfl⟩, rfl⟩ := hm
      exact ⟨m, past, c, e, ⟨later, hpast.symm⟩, heq,
        completion_fenced (reachable_scene overtaken) hfit hpast heq⟩
    · cases hm
  exact ⟨fenced (by decide +kernel), fenced (by decide +kernel)⟩

end BackgroundTasks
