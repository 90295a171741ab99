import BackgroundTasks.Proofs.Armed
import BackgroundTasks.Proofs.Interleaving.Calls

/-!
# One operation after the other

When each operation comes to its end before the next one starts, all that lasts from one to the
other is what the surroundings keep: the table of a store in memory, and the registrations of a
platform that takes them down. Together they are a host. Whatever else a system has may be another
at each call: its clock, what its generators draw, who listens. A worker may end in any way.

What a call answers is taken from a system that has the host's table and registrations. What it
makes of the host turns out to follow from the host and the call alone, so the host can be followed
through a program as the stage of a conduct.
-/

namespace BackgroundTasks

theorem le_satAdd (a b : UInt64) : a ≤ satAdd a b := by
  have hmax : maxMillis.toNat = 18446744073709551615 := rfl
  have ha := a.toNat_lt
  rw [UInt64.le_iff_toNat_le, toNat_satAdd]
  omega

theorem le_nextPeriodicRun (now interval flex : UInt64) (d : Draws) :
    now ≤ (nextPeriodicRun now interval flex d).1 :=
  UInt64.le_trans (le_satAdd now _) (le_satAdd _ _)

/-- What lasts from one operation to the next. -/
structure Host where
  table : TaskTable := .empty
  registrations : Registrations := {}

namespace Host

variable {α : Type} {h h' : Host} {y y' : System}

/-- A system keeps what a host has, and nothing goes wrong in it. -/
structure Hosts (h : Host) (y : System) : Prop where
  store : y.store = .memory h.table
  platform : y.platform = .registrations h.registrations
  faults : ∀ c, y.faults c = none

/-- What a call may return, and what becomes of the host. -/
inductive Answers : Host → (c : Call) → c.Answer → Host → Prop where
  | system {h h' : Host} {y y' : System} {c : Call} {a : c.Answer} (before : h.Hosts y)
      (answer : y.answer c = (some a, y')) (after : h'.Hosts y') : Answers h c a h'
  | work (h : Host) (payload : Payload) (attempt : Attempt) (ending : WorkEnding) :
      Answers h (.work payload attempt) ending h

/-- A program comes to its end with nothing in between. -/
inductive Finishes : Program Call.signature α → Host → α → Host → Prop where
  | done (a : α) (h : Host) : Finishes (.done a) h a h
  | call {c : Call} {k : c.Answer → Program Call.signature α} {h h₁ h' : Host} {r : c.Answer}
      {a : α} (answers : h.Answers c r h₁) (rest : Finishes (k r) h₁ a h') :
      Finishes (.call c k) h a h'

/-! ## What follows from the host -/

/-- What a call makes of a host. -/
def after (h : Host) : Call → Host
  | .store c => { h with table := (h.table.answer c).2 }
  | .arm id delay conditions => { h with registrations := h.registrations.arm id delay conditions }
  | .disarm id => { h with registrations := h.registrations.disarm id }
  | _ => h

/-- What is known of an answer. -/
def Expects (h : Host) : (c : Call) → c.Answer → Prop
  | .store c, a => a = (h.table.answer c).1
  | .arm id .., a => a = Except.ok (some (Registrations.handle id))
  | .disarm _, a => a = Except.ok ()
  | .isArmed id, a => a = Except.ok (h.registrations.isArmed id)
  | .periodicRun now .., a => now ≤ a
  | _, _ => True

/-- What a system answers is known, and so is what becomes of the host. -/
theorem Hosts.answer {c : Call} {a : c.Answer} (hy : h.Hosts y)
    (ha : y.answer c = (some a, y')) : h.Expects c a ∧ (h.after c).Hosts y' := by
  obtain ⟨hstore, hplatform, hfaults⟩ := hy
  have hy' : (y.answer c).2 = y' := congrArg Prod.snd ha
  have hfaults' (d : Call) : y'.faults d = none := by
    rw [← hy', System.faults_answer]
    exact hfaults d
  have asked (c : StoreCall) :
      y.askStore c
        = (some (h.table.answer c).1, { y with store := .memory (h.table.answer c).2 }) := by
    unfold System.askStore System.answerStore
    rw [hfaults, hstore]
    rfl
  cases c with
  | store c =>
    rw [show y.answer (.store c) = y.askStore c from rfl, asked] at ha
    obtain ⟨hr, rfl⟩ := Prod.mk.inj ha
    exact ⟨(Option.some.inj hr).symm, rfl, hplatform, hfaults'⟩
  | readStatus id =>
    simp only [System.answer, asked] at ha
    obtain ⟨-, rfl⟩ := Prod.mk.inj ha
    exact ⟨trivial, rfl, hplatform, hfaults'⟩
  | arm | disarm | isArmed =>
    simp only [System.answer, System.askPlatform, hfaults, hplatform] at ha
    obtain ⟨hr, rfl⟩ := Prod.mk.inj ha
    exact ⟨(Option.some.inj hr).symm, hstore, rfl, hfaults'⟩
  | periodicRun now interval flex =>
    obtain ⟨hr, rfl⟩ := Prod.mk.inj ha
    obtain rfl := Option.some.inj hr
    exact ⟨le_nextPeriodicRun now interval flex y.draws, hstore, hplatform, hfaults'⟩
  | retryDelay backoff retry =>
    simp only [System.answer] at ha
    split at ha
    · obtain ⟨-, rfl⟩ := Prod.mk.inj ha
      exact ⟨trivial, hstore, hplatform, hfaults'⟩
    · cases congrArg Prod.fst ha
  | publish | subscribe | unsubscribe | now | newId | work | emit =>
    subst hy'
    exact ⟨trivial, hstore, hplatform, hfaults'⟩

/-- A system hosts one host only. -/
theorem Hosts.unique (hy : h.Hosts y) (hy' : h'.Hosts y) : h = h' := by
  obtain ⟨table, registrations⟩ := h
  obtain ⟨table', registrations'⟩ := h'
  obtain rfl := Store.memory.inj (hy.store.symm.trans hy'.store)
  obtain rfl := Platform.registrations.inj (hy.platform.symm.trans hy'.platform)
  rfl

theorem Answers.expected {c : Call} {a : c.Answer} (ha : h.Answers c a h') :
    h.Expects c a ∧ h' = h.after c := by
  cases ha with
  | system before answer after =>
    obtain ⟨hexpects, hafter⟩ := before.answer answer
    exact ⟨hexpects, after.unique hafter⟩
  | work => exact ⟨trivial, rfl⟩

/-- What runs in a system finishes on its host. -/
theorem Hosts.run {p : Program Call.signature α} {a : α} (hy : h.Hosts y)
    (hrun : p.run System.answer y = (.finished a, y')) : ∃ h', h'.Hosts y' ∧ Finishes p h a h' := by
  induction p generalizing h y with
  | done b =>
    cases hrun
    exact ⟨h, hy, .done _ h⟩
  | call c k ih =>
    rw [Program.run] at hrun
    rcases hanswer : y.answer c with ⟨_ | r, next⟩
    · rw [hanswer] at hrun
      cases hrun
    · rw [hanswer] at hrun
      have hnext := (hy.answer hanswer).2
      obtain ⟨h', hh', hrest⟩ := ih r hnext hrun
      exact ⟨h', hh', .call (.system hy hanswer hnext) hrest⟩

/-! ## Hosts as stages -/

/--
The host as the stage of a program. All calls are in order, and the answers to be counted on are
those of the host; where operations start and end is of no account.
-/
def hosting : Conduct Host where
  admits _ := True
  idle := {}
  start _ := {}
  gone := {}
  allows _ _ := True
  expects := Expects
  next h c _ := h.after c
  final _ := True
  final_gone := trivial

theorem hosting_overlooks : hosting.Overlooks := by
  intro c hc h
  cases c <;> first | exact ⟨trivial, fun _ => rfl⟩ | simp [Call.isIncidental] at hc

/-- What is shown of all that a host may answer holds of how a program finishes on it. -/
theorem Finishes.keeps {p : Program Call.signature α} {a : α} (hp : Finishes p h a h')
    (post : Host → α → Prop) (hkeeps : hosting.Keeps post p h) : post h' a := by
  induction hp with
  | done a h => exact hkeeps
  | call answers rest ih =>
    obtain ⟨hexpects, rfl⟩ := answers.expected
    exact ih (hkeeps.2 _ hexpects)

/-- Reading leaves a host as it is. -/
theorem keeps_reading {p : Program Call.signature α} (hp : CallsOnly Call.isReading p) :
    hosting.Keeps (fun h' _ => h' = h) p h := by
  have reading (g : Host) (c : Call) (hg : g = h) (hc : c.isReading = true) :
      hosting.allows g c ∧ ∀ r, hosting.next g c r = h := by
    refine ⟨trivial, fun r => ?_⟩
    subst hg
    cases c with
    | store c => cases c <;> first | rfl | cases hc
    | readStatus | publish | subscribe | unsubscribe => rfl
    | _ => cases hc
  exact Conduct.keeps_of_callsOnly reading hp rfl

end Host

end BackgroundTasks
