import BackgroundTasks.Proofs.Interleaving.Play

/-!
# Armed tasks

Which tasks a platform is going to wake can be read off the history: those that were armed, and
neither disarmed nor woken since. Both platforms keep to that in every play, as long as no call arms
a task and then breaks down.
-/

namespace BackgroundTasks

variable {past : List Moment} {m : Moment} {id : TaskId} {who : Nat} {arms : Bool}

/-! ## What the platform is told -/

namespace Occurrence

/-- A task that is armed or disarmed, and which of the two. -/
def command? : Occurrence → Option (TaskId × Bool)
  | answers _ (.arm id ..) (Except.ok _) => some (id, true)
  | answers _ (.disarm id) (Except.ok _) => some (id, false)
  | _ => none

/-- Whether a task is armed after something has happened, given whether it was before. -/
def leavesArmed (id : TaskId) (was : Bool) : Occurrence → Bool
  | wakes _ target => if target = id then false else was
  | o =>
    match o.command? with
    | some (target, arms) => if target = id then arms else was
    | none => was

end Occurrence

/-- Whether the platform has a registration of a task: it was armed, not disarmed and not woken. -/
def armed (id : TaskId) : List Moment → Bool
  | [] => false
  | m :: past => m.occurrence.leavesArmed id (armed id past)

/-- An operation arms or disarms a task. -/
def Moment.Commands (m : Moment) (who : Nat) (id : TaskId) (arms : Bool) : Prop :=
  m.occurrence.who = who ∧ m.occurrence.command? = some (id, arms)

theorem call_of_command (h : m.Commands who id arms) :
    (∃ delay conditions handle, arms = true
        ∧ m.occurrence = .answers who (.arm id delay conditions) (Except.ok handle))
      ∨ arms = false ∧ m.occurrence = .answers who (.disarm id) (Except.ok ()) := by
  obtain ⟨hwho, hcommand⟩ := h
  unfold Occurrence.command? at hcommand
  split at hcommand
  · next who' id' delay conditions handle hm =>
    obtain ⟨rfl, rfl⟩ := Prod.mk.inj (Option.some.inj hcommand)
    rw [hm] at hwho
    obtain rfl : who' = who := hwho
    exact .inl ⟨delay, conditions, handle, rfl, hm⟩
  · next who' id' _ hm =>
    obtain ⟨rfl, rfl⟩ := Prod.mk.inj (Option.some.inj hcommand)
    rw [hm] at hwho
    obtain rfl : who' = who := hwho
    exact .inr ⟨rfl, hm⟩
  · cases hcommand

theorem armed_of_command (h : m.Commands who id arms) : armed id (m :: past) = arms := by
  rcases call_of_command h with ⟨delay, conditions, handle, rfl, hm⟩ | ⟨rfl, hm⟩ <;>
    · rw [armed, hm]
      exact if_pos rfl

/-- Without a command for it, a task can only be woken. -/
theorem armed_of_no_command (h : ∀ who arms, ¬ m.Commands who id arms) :
    armed id (m :: past) = armed id past
      ∨ armed id (m :: past) = false ∧ ∃ who, m.occurrence = .wakes who id := by
  have hother : ∀ target b, m.occurrence.command? = some (target, b) → target ≠ id := by
    intro target b hc heq
    subst heq
    exact h _ b ⟨rfl, hc⟩
  rw [armed]
  generalize armed id past = was
  cases hm : m.occurrence with
  | wakes who target =>
    by_cases hid : target = id
    · subst hid
      exact .inr ⟨if_pos rfl, who, rfl⟩
    · exact .inl (if_neg hid)
  | begins | fails | breaksDown => exact .inl rfl
  | answers who c a =>
    left
    rw [hm] at hother
    show (match (Occurrence.answers who c a).command? with
      | some (target, arms) => if target = id then arms else was
      | none => was) = was
    cases hc : (Occurrence.answers who c a).command? with
    | none => rfl
    | some p => exact if_neg (hother p.1 p.2 hc)

/-! ## Platforms -/

section Lookup

variable {β : Type} (l : List (TaskId × β)) (target id : TaskId)

theorem lookup_without_self : (l.filter fun e => e.1 != target).lookup target = none := by
  rw [List.lookup_eq_none_iff]
  intro e he
  exact bne_iff_ne.2 (Ne.symm (bne_iff_ne.1 (List.mem_filter.1 he).2))

variable {target id} in
theorem lookup_without_other (h : id ≠ target) :
    (l.filter fun e => e.1 != target).lookup id = l.lookup id := by
  induction l with
  | nil => rfl
  | cons e rest ih =>
    rw [List.filter_cons, List.lookup_cons]
    by_cases he : e.1 = target
    · rw [if_neg (by simpa using he), ih, beq_false_of_ne fun h' => h (h'.trans he)]
    · rw [if_pos (by simpa using he), List.lookup_cons, ih]

theorem lookup_renewed_self (b : β) :
    ((l.filter fun e => e.1 != target) ++ [(target, b)]).lookup target = some b := by
  rw [List.lookup_append, lookup_without_self, Option.none_or, List.lookup_cons_self]

variable {target id} in
theorem lookup_renewed_other (h : id ≠ target) (b : β) :
    ((l.filter fun e => e.1 != target) ++ [(target, b)]).lookup id = l.lookup id := by
  rw [List.lookup_append, lookup_without_other l h, List.lookup_cons, beq_false_of_ne h]
  exact Option.or_none

theorem isSome_lookup_without :
    ((l.filter fun e => e.1 != target).lookup id).isSome
      = if target = id then false else (l.lookup id).isSome := by
  split
  · next hid =>
    rw [hid, lookup_without_self]
    rfl
  · next hid => rw [lookup_without_other l (Ne.symm hid)]

theorem isSome_lookup_renewed (b : β) :
    (((l.filter fun e => e.1 != target) ++ [(target, b)]).lookup id).isSome
      = if target = id then true else (l.lookup id).isSome := by
  split
  · next hid =>
    rw [hid, lookup_renewed_self]
    rfl
  · next hid => rw [lookup_renewed_other l (Ne.symm hid)]

end Lookup

namespace Timers

variable (t : Timers) (target id : TaskId)

/-- Whoever is told to stop has not ended yet. -/
theorem any_callingOff (generation : UInt64) :
    ((t.callingOff target).any fun s => s.id == id && s.generation == generation)
      = t.isAsleep id generation := by
  unfold callingOff isAsleep
  rw [List.any_map]
  congr 1
  funext s
  simp only [Function.comp]
  split <;> rfl

/-- Nobody is told to stop but the sleepers of the task. -/
theorem filter_callingOff {id target : TaskId} (h : id ≠ target) :
    (t.callingOff target).filter (fun s => s.id == id) = t.sleepers.filter fun s => s.id == id := by
  unfold callingOff
  rw [List.filter_map]
  refine (List.map_congr_left fun s hs => ?_).trans ((List.map_id _).trans ?_)
  · have hid := (List.mem_filter.1 hs).2
    refine if_neg fun hboth => ?_
    simp only [Function.comp, if_pos hboth, beq_iff_eq] at hid
    exact h (hid.symm.trans hboth.1)
  · congr 1
    funext s
    simp only [Function.comp]
    split <;> rfl

theorem isAsleep_arm (now : Nat) (delay : Span) (generation : UInt64) :
    (t.arm now target delay).isAsleep id generation
      = (t.isAsleep id generation || (target == id && t.nextGeneration == generation)) := by
  rw [← t.any_callingOff target id]
  simp only [isAsleep, arm, List.any_append, List.any_cons, List.any_nil, Bool.or_false]

theorem isArmed_arm (now : Nat) (delay : Span) :
    (t.arm now target delay).isArmed id = if target = id then true else t.isArmed id := by
  have hcurrent : (t.arm now target delay).current
      = (t.current.filter fun e => e.1 != target) ++ [(target, t.nextGeneration)] := rfl
  rw [isArmed, hcurrent]
  split
  · next hid =>
    rw [← hid, lookup_renewed_self, Option.any_some, isAsleep_arm, beq_self_eq_true,
      beq_self_eq_true]
    exact Bool.or_true _
  · next hid =>
    rw [lookup_renewed_other t.current (Ne.symm hid)]
    have hasleep : (t.arm now target delay).isAsleep id = t.isAsleep id := by
      funext generation
      rw [isAsleep_arm, beq_false_of_ne hid, Bool.false_and, Bool.or_false]
    rw [hasleep, isArmed]

theorem isArmed_disarm :
    (t.disarm target).isArmed id = if target = id then false else t.isArmed id := by
  have hasleep : (t.disarm target).isAsleep id = t.isAsleep id :=
    funext fun generation => t.any_callingOff target id generation
  have hcurrent : (t.disarm target).current = t.current.filter fun e => e.1 != target := rfl
  rw [isArmed, hasleep, hcurrent]
  split
  · next hid =>
    rw [hid, lookup_without_self]
    rfl
  · next hid =>
    rw [lookup_without_other t.current (Ne.symm hid)]
    rfl

end Timers

namespace Platform

variable (p : Platform) (target id : TaskId)

theorem isArmed_arm (now : Nat) (delay : Span) (conditions : Conditions) :
    (p.arm now target delay conditions).2.isArmed id
      = if target = id then true else p.isArmed id := by
  cases p with
  | registrations r => exact isSome_lookup_renewed r.armed target id _
  | timers t => exact t.isArmed_arm target id _ delay

theorem isArmed_disarm :
    (p.disarm target).isArmed id = if target = id then false else p.isArmed id := by
  cases p with
  | registrations r => exact isSome_lookup_without r.armed target id
  | timers t => exact t.isArmed_disarm target id

end Platform

/-! ## Systems -/

/-- Only a call to the platform can be a command. -/
theorem leavesArmed_of_rest {c : Call} (hc : c.isPlatform = false) (r : Option c.Answer)
    (was : Bool) : (c.occurrence who r).leavesArmed id was = was := by
  cases c with
  | arm | disarm | isArmed => cases hc
  | _ =>
    unfold Call.occurrence
    split
    · split <;> rfl
    · rfl

namespace System

variable {y : System}

theorem keeps_askStore (c : StoreCall) (y : System) :
    (y.askStore c).2.faults = y.faults ∧ (y.askStore c).2.platform = y.platform := by
  unfold askStore
  split
  · show (y.answerStore c).2.faults = _ ∧ (y.answerStore c).2.platform = _
    unfold answerStore
    split <;> exact ⟨rfl, rfl⟩
  · exact ⟨rfl, rfl⟩
  · exact ⟨rfl, rfl⟩

theorem faults_askPlatform {α : Type} (c : Call) (f : Platform → α × Platform) (y : System) :
    (y.askPlatform c f).2.faults = y.faults := by
  unfold askPlatform
  split <;> rfl

theorem faults_answer (c : Call) (y : System) : (y.answer c).2.faults = y.faults := by
  cases c with
  | store c => exact (keeps_askStore c y).1
  | readStatus id => exact (keeps_askStore (.get id) y).1
  | arm id delay conditions =>
    exact faults_askPlatform (.arm id delay conditions)
      (fun p => p.arm y.elapsed id delay conditions) y
  | disarm | isArmed => exact faults_askPlatform _ _ y
  | retryDelay =>
    simp only [answer]
    split <;> rfl
  | _ => rfl

theorem platform_answer {c : Call} (hc : c.isPlatform = false) :
    (y.answer c).2.platform = y.platform := by
  cases c with
  | store c => exact (keeps_askStore c y).2
  | readStatus id => exact (keeps_askStore (.get id) y).2
  | arm | disarm | isArmed => cases hc
  | retryDelay =>
    simp only [answer]
    split <;> rfl
  | _ => rfl

/-- The platform takes a call as the history has it. -/
theorem isArmed_answer {c : Call} (hfault : y.faults c ≠ some .breaksDownArmed) :
    (y.answer c).2.platform.isArmed id
      = (c.occurrence who (y.answer c).1).leavesArmed id (y.platform.isArmed id) := by
  by_cases hc : c.isPlatform = false
  · rw [platform_answer hc, leavesArmed_of_rest hc]
  cases c with
  | arm target delay conditions =>
    simp only [answer, askPlatform]
    rcases hf : y.faults (.arm target delay conditions) with _ | ⟨text | _ | _ | _⟩
    · exact Platform.isArmed_arm y.platform target id _ _ _
    · rfl
    · rfl
    · exact Platform.isArmed_arm y.platform target id _ _ _
    · exact absurd hf hfault
  | disarm target =>
    simp only [answer, askPlatform]
    rcases y.faults (.disarm target) with _ | ⟨text | _ | _ | _⟩
    · exact Platform.isArmed_disarm y.platform target id
    · rfl
    · rfl
    · exact Platform.isArmed_disarm y.platform target id
    · exact Platform.isArmed_disarm y.platform target id
  | isArmed target =>
    simp only [answer, askPlatform]
    split <;> rfl
  | _ => exact absurd rfl hc

end System

namespace Play

variable {s : Scheduler}

/-- The platform is as the history has it, and no call arms a task and then breaks down. -/
structure Registers (p : Play) : Prop where
  isArmed : ∀ id, p.system.platform.isArmed id = armed id p.scene.past
  faults : ∀ c, p.system.faults c ≠ some .breaksDownArmed

theorem registers_next {p : Play} (h : Registers p) (cue : Cue) : Registers (p.next s cue) := by
  obtain ⟨harmed, hfaults⟩ := h
  cases cue with
  | begin job => exact ⟨harmed, hfaults⟩
  | wake target =>
    show Registers (if p.system.platform.isArmed target then p.wake s target else p)
    split
    · refine ⟨fun id => ?_, hfaults⟩
      show (p.system.platform.disarm target).isArmed id = if target = id then false else _
      rw [Platform.isArmed_disarm, harmed]
    · exact ⟨harmed, hfaults⟩
  | go who =>
    simp only [next]
    split
    · next c k _ =>
      refine ⟨fun id => ?_, fun c' => ?_⟩
      · show (p.system.answer c).2.platform.isArmed id
          = (c.occurrence who (p.system.answer c).1).leavesArmed id (armed id p.scene.past)
        rw [System.isArmed_answer (hfaults c), harmed]
      · show (p.system.answer c).2.faults c' ≠ _
        rw [System.faults_answer]
        exact hfaults c'
    · exact ⟨harmed, hfaults⟩
  | finish who ending =>
    simp only [next]
    split
    · exact ⟨harmed, hfaults⟩
    · exact ⟨harmed, hfaults⟩

/-- **A platform is going to wake just the tasks that are armed**, whatever is played. -/
theorem isArmed_run {y : System} (hnone : ∀ id, y.platform.isArmed id = false)
    (hfaults : ∀ c, y.faults c ≠ some .breaksDownArmed) (cues : List Cue) (id : TaskId) :
    (run s { system := y } cues).system.platform.isArmed id
      = armed id (run s { system := y } cues).scene.past := by
  have registers (p : Play) (h : Registers p) : Registers (p.run s cues) := by
    induction cues generalizing p with
    | nil => exact h
    | cons cue cues ih => exact ih _ (registers_next h cue)
  exact (registers _ ⟨hnone, hfaults⟩).isArmed id

end Play

end BackgroundTasks
