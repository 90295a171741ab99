import BackgroundTasks.Proofs.Interleaving.Play
import BackgroundTasks.Timeline.Restart

/-!
# Sinks decide nothing

Two timelines that are the same but for their sinks go the same way. An operation gets at its sink
by one call only, and that call has the same answer whether the sink keeps the event, ignores it or
breaks down over it. So nothing comes of it: not in the operation that tells, and not in the errands
in the background, the watchdog or the deployments that come after it.

A state without its sinks is what `hush` leaves of it. Functions that tell no sink commute with
`hush`. The others are shown to take states that are the same after `hush` to states that are the
same after `hush`, from a single call up to a whole course of doings.
-/

namespace BackgroundTasks

/-! ## All but the sinks -/

/-- A system with the sink taken out. -/
def System.hush (s : System) : System := { s with sink := .silent }

/-- A world with the sink taken out. -/
def World.hush (w : World) : World := { w with sink := .silent }

/-- A deployment with the sink taken out. -/
def Deployment.hush (d : Deployment) : Deployment := { d with system := d.system.hush }

/-- A timeline with every sink taken out. All the rest stays, rows and random numbers included. -/
def Timeline.hush (t : Timeline) : Timeline :=
  { t with world := t.world.hush, deployments := t.deployments.map Deployment.hush }

/--
A computation that heeds nothing of what `hush` takes out: started in states that are the same but
for that, it has the same result, and leaves states that are the same but for that.
-/
def Heedless {S α : Type} (hush : S → S) (f : S → α × S) : Prop :=
  ∀ ⦃s s' : S⦄, hush s = hush s' → (f s).1 = (f s').1 ∧ hush (f s).2 = hush (f s').2

namespace Heedless

variable {S α β : Type} {hush : S → S} {f : S → α × S}

theorem pure (a : α) : Heedless hush fun s => (a, s) := fun _ _ h => ⟨rfl, h⟩

theorem bind {g : α → S → β × S} (hf : Heedless hush f) (hg : ∀ a, Heedless hush (g a)) :
    Heedless hush fun s => g (f s).1 (f s).2 := by
  intro s s' h
  obtain ⟨hresult, hleft⟩ := hf h
  simp only [hresult]
  exact hg (f s').1 hleft

theorem exists_result {s s' : S} (hf : Heedless hush f) (h : hush s = hush s') :
    ∃ a u u', f s = (a, u) ∧ f s' = (a, u') ∧ hush u = hush u' := by
  obtain ⟨hresult, hleft⟩ := hf h
  exact ⟨(f s).1, (f s).2, (f s').2, rfl, by rw [hresult], hleft⟩

theorem run {σ : Signature} {answer : (c : σ.Call) → S → Option (σ.Answer c) × S}
    (ha : ∀ c, Heedless hush (answer c)) (p : Program σ α) :
    Heedless hush (Program.run answer p) := by
  induction p with
  | done a => exact pure _
  | call c k ih =>
    intro s s' h
    obtain ⟨r, u, u', hu, hu', hleft⟩ := (ha c).exists_result h
    simp only [Program.run, hu, hu']
    cases r with
    | none => exact ⟨rfl, hleft⟩
    | some r => exact ih r hleft

end Heedless

/-! ## Calls -/

namespace System

variable {s s' : System}

theorem exists_sink (h : s.hush = s'.hush) : ∃ x, s' = { s with sink := x } := by
  refine ⟨s'.sink, ?_⟩
  calc s' = { s'.hush with sink := s'.sink } := rfl
    _ = { s.hush with sink := s'.sink } := by rw [h]

theorem answerStore_sink (c : StoreCall) (s : System) (x : Sink) :
    answerStore c { s with sink := x } =
      ((s.answerStore c).1, { (s.answerStore c).2 with sink := x }) := by
  rcases s with ⟨store⟩
  cases store <;> rfl

theorem askStore_sink (c : StoreCall) (s : System) (x : Sink) :
    askStore c { s with sink := x } = ((s.askStore c).1, { (s.askStore c).2 with sink := x }) := by
  rcases hf : s.faults (.store c) with _ | fault
  · simp only [askStore, hf, answerStore_sink, Prod.map, id]
  · cases fault <;> simp only [askStore, hf]

theorem askPlatform_sink {α : Type} (c : Call) (f : Platform → α × Platform) (s : System)
    (x : Sink) :
    askPlatform c f { s with sink := x } =
      ((s.askPlatform c f).1, { (s.askPlatform c f).2 with sink := x }) := by
  rcases hf : s.faults c with _ | fault
  · simp only [askPlatform, hf]
  · cases fault <;> simp only [askPlatform, hf]

/-- A function that carries the sink along, whichever it is, heeds none. -/
theorem heedless_of_sink {α : Type} {f : System → α × System}
    (hf : ∀ s x, f { s with sink := x } = ((f s).1, { (f s).2 with sink := x })) :
    Heedless hush f := by
  intro s s' h
  obtain ⟨x, rfl⟩ := exists_sink h
  rw [hf s x]
  exact ⟨rfl, rfl⟩

/-- The call that tells the sink changes it; the others have nothing to do with it. -/
theorem heedless_answer (c : Call) : Heedless hush (answer c) := by
  cases c with
  | emit e =>
    intro s s' h
    obtain ⟨x, rfl⟩ := exists_sink h
    exact ⟨rfl, rfl⟩
  | store c => exact heedless_of_sink (askStore_sink c)
  | readStatus id => exact heedless_of_sink fun s x => by simp only [answer, askStore_sink]
  | arm | disarm | isArmed =>
    exact heedless_of_sink fun s x => by simp only [answer, askPlatform_sink]
  | retryDelay backoff retry =>
    refine heedless_of_sink fun s x => ?_
    simp only [answer]
    cases backoff.delay retry s.draws <;> rfl
  | publish | subscribe | unsubscribe | now | newId | periodicRun | work =>
    exact heedless_of_sink fun _ _ => rfl

end System

/-! ## A deployment at work -/

namespace Deployment

theorem hush_systemIn (d : Deployment) (w : World) (plan : FaultPlan) :
    (d.systemIn w plan).hush = d.hush.systemIn w.hush plan := by
  rcases d with ⟨_, _, _, _, sharesSink⟩
  cases sharesSink <;> rfl

theorem hush_leave (d : Deployment) (w : World) (s : System) :
    (d.leave w s).hush = d.hush.leave w.hush s.hush := by
  rcases d with ⟨_, _, _, _, sharesSink⟩
  cases sharesSink <;> rfl

end Deployment

namespace Timeline

variable {α : Type} {t t' : Timeline} {d d' : Deployment} {k : Nat}

theorem hush_update (t : Timeline) (k : Nat) (d : Deployment) :
    (t.update k d).hush = t.hush.update k d.hush := by
  simp only [update, hush, List.map_set]

theorem hush_enqueue (t : Timeline) (k : Nat) (e : Errand) :
    (t.enqueue k e).hush = t.hush.enqueue k e := rfl

theorem hush_appoint (t : Timeline) (k ms : Nat) (e : Errand) :
    (t.appoint k ms e).hush = t.hush.appoint k ms e := rfl

theorem hush_foldl_enqueue {β : Type} (e : β → Errand) (xs : List β) (t : Timeline) (k : Nat) :
    (xs.foldl (fun t x => t.enqueue k (e x)) t).hush =
      xs.foldl (fun t x => t.enqueue k (e x)) t.hush :=
  (List.foldl_hom hush fun t x => (hush_enqueue t k (e x)).symm).symm

theorem hush_act (t : Timeline) (k : Nat) (d : Deployment) (f : System → α × System) :
    (t.act k d f).2.hush =
      (t.hush.act k d.hush fun _ => ((), (f (d.systemIn t.world t.plan)).2.hush)).2 := by
  simp only [act, hush_foldl_enqueue]
  congr 1
  simp only [hush, update, List.map_set, Deployment.hush_leave]
  rfl

theorem heedless_act {f : System → α × System} (hf : Heedless System.hush f)
    (h : t.hush = t'.hush) (hd : d.hush = d'.hush) :
    (t.act k d f).1 = (t'.act k d' f).1 ∧ (t.act k d f).2.hush = (t'.act k d' f).2.hush := by
  have hworld : t.world.hush = t'.world.hush := congrArg Timeline.world h
  have hplan : t.plan = t'.plan := (congrArg Timeline.plan h :)
  have hsystem : (d.systemIn t.world t.plan).hush = (d'.systemIn t'.world t'.plan).hush := by
    rw [Deployment.hush_systemIn, Deployment.hush_systemIn, hd, hworld, hplan]
  obtain ⟨hresult, hleft⟩ := hf hsystem
  exact ⟨hresult, by rw [hush_act, hush_act, h, hd, hleft]⟩

theorem hush_deployment? (t : Timeline) (k : Nat) :
    t.hush.deployment? k = (t.deployment? k).map Deployment.hush := by
  simp only [deployment?, hush, List.getElem?_map]

theorem deployment?_cases (h : t.hush = t'.hush) (k : Nat) :
    (t.deployment? k = none ∧ t'.deployment? k = none) ∨
      ∃ d d', t.deployment? k = some d ∧ t'.deployment? k = some d' ∧ d.hush = d'.hush := by
  have heq : (t.deployment? k).map Deployment.hush = (t'.deployment? k).map Deployment.hush := by
    rw [← hush_deployment?, ← hush_deployment?, h]
  cases hd : t.deployment? k with
  | none =>
    rw [hd] at heq
    exact .inl ⟨rfl, Option.map_eq_none_iff.mp heq.symm⟩
  | some d =>
    rw [hd] at heq
    obtain ⟨d', hd', hdd'⟩ := Option.map_eq_some_iff.mp heq.symm
    exact .inr ⟨d, d', rfl, hd', hdd'.symm⟩

theorem heedless_answer (k : Nat) (c : Call) : Heedless hush (answer k c) := by
  intro t t' h
  rcases deployment?_cases h k with ⟨hd, hd'⟩ | ⟨d, d', hd, hd', heq⟩
  · rw [answer, answer, hd, hd']
    exact ⟨rfl, h⟩
  · rw [answer, answer, hd, hd']
    exact heedless_act (System.heedless_answer c) h heq

theorem heedless_beginScripted (payload : Payload) (attempt : Attempt) :
    Heedless hush fun t => t.beginScripted payload attempt := by
  intro t t' h
  have hscript : t.script = t'.script := (congrArg Timeline.script h :)
  exact ⟨by simp only [beginScripted, hscript],
    (congrArg (fun u => (u.beginScripted payload attempt).2) h :)⟩

/-! ## In the background -/

theorem background_call {c : Call} (hc : ∀ payload attempt, c ≠ .work payload attempt)
    (resume : c.Answer → Program Call.signature Unit) (t : Timeline) :
    background k (.call c resume) t =
      match t.answer k c with
      | (some r, t) => background k (resume r) t
      | (none, t) => t := by
  rw [background]
  · rfl
  · exact fun payload attempt _ hwork _ => hc payload attempt hwork

theorem hush_background (p : Program Call.signature Unit) (h : t.hush = t'.hush) :
    (background k p t).hush = (background k p t').hush := by
  induction p generalizing t t' with
  | done => exact h
  | call c resume ih =>
    by_cases hc : ∃ payload attempt, c = .work payload attempt
    · obtain ⟨payload, attempt, rfl⟩ := hc
      obtain ⟨hbehaviour, hleft⟩ := heedless_beginScripted payload attempt h
      simp only [background, ← hbehaviour]
      split
      · exact ih _ hleft
      · rw [hush_appoint, hush_appoint, hleft]
    · have hc : ∀ payload attempt, c ≠ .work payload attempt := fun p a hw => hc ⟨p, a, hw⟩
      obtain ⟨r, u, u', hu, hu', hleft⟩ := (heedless_answer k c).exists_result h
      rw [background_call hc, background_call hc, hu, hu']
      cases r with
      | none => exact hleft
      | some r => exact ih r hleft

theorem hush_resume (waits : List Nat) (rest : Program Call.signature Unit)
    (h : t.hush = t'.hush) : (t.resume k waits rest).hush = (t'.resume k waits rest).hush := by
  simp only [resume]
  split
  · exact hush_background rest h
  · rw [hush_appoint, hush_appoint, h]

theorem hush_tick (watch : Nat) (h : t.hush = t'.hush) (hd : d.hush = d'.hush) :
    (t.tick k d watch).hush = (t'.tick k d' watch).hush := by
  have hwatch : t.watch = t'.watch := (congrArg Timeline.watch h :)
  have hscheduler : d.scheduler = d'.scheduler := (congrArg Deployment.scheduler hd :)
  simp only [tick, hwatch, hscheduler]
  split
  · obtain ⟨houtcome, hleft⟩ := Heedless.run (heedless_answer k) Scheduler.tick h
    rw [hush_appoint, hush_appoint, houtcome, hush_background _ hleft]
  · exact h

theorem hush_endTimer (t : Timeline) (k : Nat) (d : Deployment) (s : Sleeper) :
    (t.endTimer k d s).hush = t.hush.endTimer k d.hush s := by
  have htimers : d.hush.timers = d.timers := rfl
  simp only [endTimer, htimers]
  cases (d.timers.wake s).1 with
  | none => exact hush_update t k _
  | some id =>
    simp only [apply_ite hush, hush_enqueue, hush_update]
    rfl

theorem hush_beginTimer (t : Timeline) (k : Nat) (d : Deployment) (s : Sleeper) :
    (t.beginTimer k d s).hush = t.hush.beginTimer k d.hush s := by
  simp only [beginTimer, ← hush_endTimer]
  exact apply_ite hush _ _ _

theorem hush_attend (t : Timeline) (k : Nat) (d : Deployment) :
    (t.attend k d).hush = t.hush.attend k d.hush := by
  simp only [attend, hush_foldl_enqueue, hush_update]
  rfl

theorem hush_runErrand (e : Errand) (h : t.hush = t'.hush) (hd : d.hush = d'.hush) :
    (t.runErrand k d e).hush = (t'.runErrand k d' e).hush := by
  have htimers : d.timers = d'.timers := (congrArg Deployment.timers hd :)
  have hscheduler : d.scheduler = d'.scheduler := (congrArg Deployment.scheduler hd :)
  cases e with
  | beginTimer generation =>
    simp only [runErrand, htimers]
    cases d'.timers.find? generation with
    | none => exact h
    | some s =>
      rw [Option.map_some, Option.map_some, Option.getD_some, Option.getD_some, hush_beginTimer,
        hush_beginTimer, h, hd]
  | endTimer generation =>
    simp only [runErrand, htimers]
    cases d'.timers.find? generation with
    | none => exact h
    | some s => simp only [Option.map_some, Option.getD_some, hush_endTimer, h, hd]
  | attend => simp only [runErrand, hush_attend, h, hd]
  | dispatch id =>
    simp only [runErrand, hscheduler]
    exact hush_background _ h
  | resume waits rest => exact hush_resume waits rest h
  | tick watch => exact hush_tick watch h hd

theorem hush_runDuty (duty : Duty) (h : t.hush = t'.hush) :
    (t.runDuty duty).hush = (t'.runDuty duty).hush := by
  rcases deployment?_cases h duty.deployment with ⟨hd, hd'⟩ | ⟨d, d', hd, hd', heq⟩
  · simp only [runDuty, hd, hd']
    exact h
  · simp only [runDuty, hd, hd']
    exact hush_runErrand duty.errand h heq

/-! ## Waiting -/

theorem hush_goAhead (line : List Duty) (duty : Duty) (h : t.hush = t'.hush) :
    ({ t with line }.runDuty duty).hush = ({ t' with line }.runDuty duty).hush :=
  hush_runDuty duty (congrArg (fun u : Timeline => { u with line }) h :)

theorem hush_reach (target : Nat) (h : t.hush = t'.hush) :
    (t.reach target).hush = (t'.reach target).hush :=
  (congrArg (fun u => u.reach target) h :)

theorem hush_drain (limit : Nat) (h : t.hush = t'.hush) :
    (drain limit t).hush = (drain limit t').hush := by
  induction limit generalizing t t' with
  | zero => exact h
  | succ limit ih =>
    have hline : t.line = t'.line := (congrArg Timeline.line h :)
    simp only [drain, hline]
    split
    · exact ih (hush_goAhead _ _ h)
    · exact h

theorem hush_waitUntil (target limit : Nat) (h : t.hush = t'.hush) :
    (waitUntil target limit t).hush = (waitUntil target limit t').hush := by
  induction limit generalizing t t' with
  | zero => exact hush_reach target h
  | succ limit ih =>
    have hline : t.line = t'.line := (congrArg Timeline.line h :)
    have hdue : t.nextDue? = t'.nextDue? := (congrArg Timeline.nextDue? h :)
    simp only [waitUntil, hline, hdue]
    split
    · exact ih (hush_goAhead _ _ h)
    · split
      · exact ih (hush_reach _ h)
      · exact hush_reach target h
    · exact hush_reach target h

theorem hush_wait (ms : Nat) (h : t.hush = t'.hush) : (t.wait ms).hush = (t'.wait ms).hush := by
  have helapsed : t.elapsed = t'.elapsed := (congrArg Timeline.elapsed h :)
  simp only [wait, helapsed]
  split
  · exact h
  · exact hush_waitUntil _ limit h

theorem hush_sleep (ms : Nat) (h : t.hush = t'.hush) : (t.sleep ms).hush = (t'.sleep ms).hush :=
  hush_drain limit (hush_wait ms h)

theorem heedless_await (behaviour : Behaviour) : Heedless hush fun t => t.await behaviour := by
  intro t t' h
  refine ⟨rfl, ?_⟩
  simp only [await]
  induction behaviour.waits generalizing t t' with
  | nil => exact h
  | cons ms waits ih => exact ih (hush_wait ms h)

/-! ## In the foreground -/

theorem heedless_answerInFront (k : Nat) (c : Call) : Heedless hush (answerInFront k c) := by
  cases c with
  | work payload attempt =>
    exact (heedless_beginScripted payload attempt).bind fun behaviour =>
      (heedless_await behaviour).bind fun ending => .pure (some ending)
  | _ => exact heedless_answer k _

theorem heedless_perform (k : Nat) (p : Program Call.signature α) :
    Heedless hush (perform k p) := by
  intro t t' h
  obtain ⟨outcome, u, u', hu, hu', hleft⟩ :=
    (Heedless.run (heedless_answerInFront k) p).exists_result h
  simp only [perform, hu, hu']
  cases outcome with
  | finished a => exact ⟨rfl, hleft⟩
  | aborted c => exact ⟨rfl, hleft⟩

theorem start_call {c : Call} (hc : ∀ payload attempt, c ≠ .work payload attempt)
    (resume : c.Answer → Program Call.signature α) (t : Timeline) :
    start k (.call c resume) t =
      match t.answer k c with
      | (some r, t) => start k (resume r) t
      | (none, t) => (.ended none, t) := by
  rw [start]
  · rfl
  · exact fun payload attempt _ hwork _ => hc payload attempt hwork

theorem heedless_start (k : Nat) (p : Program Call.signature α) : Heedless hush (start k p) := by
  induction p with
  | done a => exact .pure _
  | call c resume ih =>
    intro t t' h
    by_cases hc : ∃ payload attempt, c = .work payload attempt
    · obtain ⟨payload, attempt, rfl⟩ := hc
      exact ⟨rfl, (congrArg (fun u => u.noteStart payload attempt) h :)⟩
    · have hc : ∀ payload attempt, c ≠ .work payload attempt := fun p a hw => hc ⟨p, a, hw⟩
      obtain ⟨r, u, u', hu, hu', hleft⟩ := (heedless_answer k c).exists_result h
      rw [start_call hc, start_call hc, hu, hu']
      cases r with
      | none => exact ⟨rfl, hleft⟩
      | some r => exact ih r hleft

/-! ## Watchdogs and restarts -/

theorem heedless_startWatch (k : Nat) (config : Config) :
    Heedless hush fun t => t.startWatch k config := by
  intro t t' h
  simp only [startWatch]
  split
  · exact ⟨rfl, (congrArg (fun u : Timeline => { u with watch := none }) h :)⟩
  · exact ⟨rfl, (congrArg (fun u : Timeline =>
      { u with watch := some u.nextWatch, nextWatch := u.nextWatch + 1 }.enqueue k
        (.tick u.nextWatch)) h :)⟩

theorem heedless_dropWatch : Heedless hush dropWatch := fun _ _ h =>
  ⟨(congrArg (fun u => u.dropWatch.1) h :), (congrArg (fun u => u.dropWatch.2) h :)⟩

theorem heedless_stopWatch : Heedless hush stopWatch := by
  intro t t' h
  obtain ⟨hout, hleft⟩ := heedless_dropWatch h
  refine ⟨hout, ?_⟩
  simp only [stopWatch, hout]
  split
  · exact hush_drain limit hleft
  · exact hleft

theorem hush_inFront? (t : Timeline) :
    t.hush.inFront? = t.inFront?.map fun (k, d) => (k, d.hush) := by
  have hfront : t.hush.front = t.front := rfl
  simp only [inFront?, hfront, hush_deployment?]
  cases t.front with
  | none => rfl
  | some k =>
    simp only [Option.bind_some]
    cases t.deployment? k <;> rfl

theorem hush_giveUp (t : Timeline) : t.giveUp.hush = t.hush.giveUp := by
  simp only [giveUp, hush_inFront?]
  cases t.inFront? with
  | none => rfl
  | some front =>
    obtain ⟨k, d⟩ := front
    exact congrArg (fun u : Timeline => { u with front := none, watch := none })
      (hush_update t k { d with attended := false, woken := [] })

/-- Nothing of the sink of the world goes into a deployment that begins. -/
theorem hush_launch (l : Launch) (scheduler : Scheduler) (store : Store) (place : Place)
    (h : t.hush = t'.hush) :
    ({ t with
        deployments := t.deployments ++ [l.deployment t.world scheduler store place]
        front := some t.deployments.length } : Timeline).hush =
      ({ t' with
        deployments := t'.deployments ++ [l.deployment t'.world scheduler store place]
        front := some t'.deployments.length } : Timeline).hush := by
  have hcommute (u : Timeline) :
      ({ u with
          deployments := u.deployments ++ [l.deployment u.world scheduler store place]
          front := some u.deployments.length } : Timeline).hush =
        { u.hush with
          deployments := u.hush.deployments ++ [l.deployment u.hush.world scheduler store place]
          front := some u.hush.deployments.length } := by
    simp only [hush, List.map_append, List.map_cons, List.map_nil, List.length_map]
    rfl
  rw [hcommute, hcommute, h]

theorem heedless_restart (l : Launch) : Heedless hush fun t => t.restart l := by
  intro t t' h
  have hgiven : t.giveUp.hush = t'.giveUp.hush := by rw [hush_giveUp, hush_giveUp, h]
  have hplace : t.giveUp.world.place = t'.giveUp.world.place :=
    (congrArg (fun u => u.world.place) hgiven :)
  simp only [restart, hplace]
  rcases l.setup.build (l.place.getD t'.giveUp.world.place) with ⟨built, place⟩
  have hopened : (if l.place.isNone then
        { t.giveUp with world := { t.giveUp.world with place } } else t.giveUp).hush =
      (if l.place.isNone then
        { t'.giveUp with world := { t'.giveUp.world with place } } else t'.giveUp).hush := by
    split
    · exact (congrArg (fun u : Timeline => { u with world := { u.world with place } }) hgiven :)
    · exact hgiven
  cases built with
  | error failure => exact ⟨rfl, hopened⟩
  | ok made => exact ⟨rfl, hush_launch l made.1 made.2 place hopened⟩

/-! ## Whole courses -/

/-- Has something done with a deployment, if it is there. -/
def withDeployment (k : Nat) (f : Deployment → Timeline → α × Timeline) (t : Timeline) :
    Option α × Timeline :=
  match t.deployment? k with
  | some d => (f d t).map some id
  | none => (none, t)

theorem heedless_withDeployment {f : Deployment → Timeline → α × Timeline}
    (hf : ∀ ⦃d d' t t'⦄, Deployment.hush d = d'.hush → hush t = t'.hush →
      (f d t).1 = (f d' t').1 ∧ (f d t).2.hush = (f d' t').2.hush) :
    Heedless hush (withDeployment k f) := by
  intro t t' h
  rcases deployment?_cases h k with ⟨hd, hd'⟩ | ⟨d, d', hd, hd', heq⟩
  · simp only [withDeployment, hd, hd']
    exact ⟨trivial, h⟩
  · obtain ⟨hresult, hleft⟩ := hf heq h
    simp only [withDeployment, hd, hd', Prod.map]
    exact ⟨congrArg some hresult, hleft⟩

theorem heedless_withScheduler {f : Scheduler → Timeline → α × Timeline}
    (hf : ∀ s, Heedless hush (f s)) : Heedless hush (withDeployment k fun d => f d.scheduler) := by
  refine heedless_withDeployment fun d d' t t' hd h => ?_
  have hscheduler : d.scheduler = d'.scheduler := (congrArg Deployment.scheduler hd :)
  rw [hscheduler]
  exact hf d'.scheduler h

/-- Something that is done with a timeline, from outside or by a scheduler and its watchdog. -/
inductive Doing : Type 1 where
  /-- An operation of a scheduler, or of its watchdog, is run to its end. -/
  | perform {α : Type} (k : Nat) (op : Scheduler → Operation α)
  /-- An operation is begun; if it comes to a work unit, that is under way then. -/
  | start {α : Type} (k : Nat) (op : Scheduler → Operation α)
  /-- A work unit is waited for, and the operation that began it goes on to its end. -/
  | finish {α : Type} (k : Nat) (resume : WorkEnding → Program Call.signature α)
    (behaviour : Behaviour)
  /-- Somebody looks at a platform, takes registrations from it, or polls a status channel. -/
  | attendTo {α : Type} (k : Nat) (f : Platform × StatusBoard → α × Platform × StatusBoard)
  /-- A watchdog is sent out. -/
  | startWatch (k : Nat)
  | stopWatch
  | dropWatch
  /-- Time passes. Everything in the background that has its time then is done. -/
  | sleep (ms : Nat)
  | restart (l : Launch)
  /-- The clock is moved, files change, and workers are told what to do. -/
  | arrange (clock : Clock → Clock) (place : Place → Place) (script : Script → Script)
  /-- Other calls go wrong from now on. -/
  | setFaults (plan : FaultPlan)
  /-- Other calls go wrong from now on, and the shared sink breaks down as planned. -/
  | setPlan (plan : FaultPlan)

namespace Doing

/-- What comes of it. -/
def Result : Doing → Type
  | @perform α .. => Option (Option (Except Failure α))
  | @start α .. => Option (Progress (Except Failure α))
  | @finish α .. => Option α
  | @attendTo α .. => Option α
  | startWatch _ => Option Bool
  | stopWatch | dropWatch => Bool
  | restart _ => Except Failure Unit
  | sleep _ | arrange .. | setFaults _ | setPlan _ => Unit

/-- Does it. -/
def run : (x : Doing) → Timeline → x.Result × Timeline
  | perform k op => withDeployment k fun d => Timeline.perform k (op d.scheduler).run
  | start k op => withDeployment k fun d => Timeline.start k (op d.scheduler).run
  | finish k resume behaviour => fun t =>
    let (ending, t) := t.await behaviour
    Timeline.perform k (resume ending) t
  | attendTo k f => withDeployment k fun d t =>
    t.act k d fun s =>
      let (a, platform, board) := f (s.platform, s.board)
      (a, { s with platform, board })
  | startWatch k => withDeployment k fun d t => t.startWatch k d.scheduler.config
  | stopWatch => Timeline.stopWatch
  | dropWatch => Timeline.dropWatch
  | sleep ms => fun t => ((), t.sleep ms)
  | restart l => fun t => t.restart l
  | arrange clock place script => fun t =>
    ((), { t with
      world := { t.world with clock := clock t.world.clock, place := place t.world.place }
      script := script t.script })
  | setFaults plan => fun t => ((), { t with plan })
  | setPlan plan => fun t => ((), t.setPlan plan)

theorem heedless_run (x : Doing) : Heedless hush x.run := by
  cases x with
  | perform k op => exact heedless_withScheduler fun s => heedless_perform k (op s).run
  | start k op => exact heedless_withScheduler fun s => heedless_start k (op s).run
  | finish k resume behaviour =>
    exact (heedless_await behaviour).bind fun ending => heedless_perform k (resume ending)
  | attendTo k f =>
    exact heedless_withDeployment fun d d' t t' hd h =>
      heedless_act (System.heedless_of_sink fun _ _ => rfl) h hd
  | startWatch k => exact heedless_withScheduler fun s => heedless_startWatch k s.config
  | stopWatch => exact heedless_stopWatch
  | dropWatch => exact heedless_dropWatch
  | sleep ms => exact fun _ _ h => ⟨rfl, hush_sleep ms h⟩
  | restart l => exact heedless_restart l
  | arrange clock place script =>
    exact fun _ _ h => ⟨rfl, (congrArg (fun u : Timeline => { u with
      world := { u.world with clock := clock u.world.clock, place := place u.world.place }
      script := script u.script }) h :)⟩
  | setFaults plan => exact fun _ _ h => ⟨rfl, (congrArg (fun u : Timeline => { u with plan }) h :)⟩
  | setPlan plan => exact fun _ _ h => ⟨rfl, (congrArg (fun u : Timeline => { u with plan }) h :)⟩

end Doing

/-- Something that was done, what came of it, and how it left the timeline. -/
structure Done : Type 1 where
  doing : Doing
  result : doing.Result
  left : Timeline

/-- What is left of it without the sinks. -/
def Done.hush (x : Done) : Done := { x with left := x.left.hush }

/-- One doing after the other. -/
def course : List Doing → Timeline → List Done
  | [], _ => []
  | x :: xs, t => ⟨x, (x.run t).1, (x.run t).2⟩ :: course xs (x.run t).2

/--
Telemetry cannot influence anything. On two timelines that are the same but for the sinks, which may
keep, ignore or break down over any event, the same course of doings has the same results, and after
each of them all but the sinks is the same: rows and logs, platforms, recorded handles, status
channels, random numbers, and what is still to be done in the background.
-/
theorem course_heeds_no_sink (xs : List Doing) (h : t.hush = t'.hush) :
    (course xs t).map Done.hush = (course xs t').map Done.hush := by
  induction xs generalizing t t' with
  | nil => rfl
  | cons x xs ih =>
    obtain ⟨hresult, hleft⟩ := x.heedless_run h
    simp only [course, List.map_cons, Done.hush, hresult, hleft, ih hleft]

end Timeline

namespace Rehearsal

/-- A world with a sink, in which nothing has begun. -/
def stage (sink : Sink) : Timeline where
  world := { sink, clock := ⟨0, true⟩, ids := TaskId.ofNat }

/-- A scheduler starts, a task is submitted, and a watchdog is out while its timer goes off. -/
def visit : List Timeline.Doing :=
  [.restart { setup := { types := [bare] }, platform := .timers {}, draws := .cycling [] },
    .perform 0 fun s => s.submit request, .startWatch 0, .sleep 1000,
    .perform 0 fun _ => Scheduler.status first]

end Rehearsal

open Rehearsal Timeline in
/-- One sink breaks down over every event, and the other keeps all four. -/
theorem visit_heeds_no_sink :
    (course visit (stage .broken)).map Done.hush = (course visit (stage (.bounded 8))).map Done.hush
      ∧ ((course visit (stage .broken)).map fun x => x.left.world.sink.buffer.events.length)
        = [0, 0, 0, 0, 0]
      ∧ ((course visit (stage (.bounded 8))).map fun x => x.left.world.sink.buffer.events.length)
        = [0, 1, 1, 4, 4] :=
  ⟨course_heeds_no_sink visit rfl, by decide +kernel, by decide +kernel⟩

end BackgroundTasks
