import BackgroundTasks.Proofs.Status.Backlog

/-!
# Streams of states

Whoever observes a task gets a stream of its states. Reports may overtake one another on their way
to the board, and a report may say what is no longer true when it gets there. But since operations
read and publish in turn, whatever is published late was read late, too; and whatever was read too
early is followed by the report of the operation that has made it untrue. So when nobody is behind
any more, the board says what the table says.

A stream begins with a state that was read after it was asked for: until its own operation has
published, nobody looks at it, and from then on all that is published has been read since.
-/

namespace BackgroundTasks

open Conduct

variable {s : Scheduler} {w : Scene} {b : StatusBoard} {past earlier later : List Moment}
  {m : Moment} {who : Nat} {id : TaskId} {state : State}

/-! ## What is known of a state -/

/-- Something is the state of a task's row, or one of some operations is behind on the task. -/
def Known (others : Nat → Prop) (value : Option State) (id : TaskId) (past : List Moment) : Prop :=
  value = stateAfter id past ∨ ∃ who, others who ∧ behind who id past = true

variable {others : Nat → Prop} {value : Option State}

/-- Who brings a row into another state is behind from then on, and nobody else gets even. -/
theorem Known.cons (h : Known others value id past) (hbefore : m.before = tableAfter past)
    (hstirs : m.stirs id = true → others m.occurrence.who)
    (hpublishes : m.occurrence.publishes id = true → ¬ others m.occurrence.who) :
    Known others value id (m :: past) := by
  rcases h with rfl | ⟨who, hother, hbehind⟩
  · by_cases hm : m.stirs id = true
    · exact .inr ⟨_, hstirs hm, behind_of_stirs hm⟩
    · exact .inl (state_of_not_stirs hbefore (Bool.not_eq_true _ ▸ hm)).symm
  · refine .inr ⟨who, hother, behind_cons hbehind fun hwho => ?_⟩
    rw [← Bool.not_eq_true]
    exact fun hpub => hpublishes hpub (hwho ▸ hother)

theorem Known.mono {others' : Nat → Prop} (h : Known others value id past)
    (himp : ∀ who, others who → others' who) : Known others' value id past :=
  h.imp_right fun ⟨who, hother, hbehind⟩ => ⟨who, himp who hother, hbehind⟩

/-- To publish a state is no occasion to change one. -/
theorem stirs_of_publish (h : custody.Follows past m)
    (hm : m.occurrence = .answers who (.publish id state) ()) (id' : TaskId) :
    m.stirs id' = false := by
  rw [← Bool.not_eq_true]
  intro hstirs
  cases mem_stirs_of_stirs h hm hstirs

/-- **What is about to be published is the state of the row, or somebody else is behind.** -/
theorem known_read (hc : custody.Orderly past) (hr : reporting.Orderly past)
    (ht : InTurn past = true) (h : (reporting.stage who past).read = some (id, state)) :
    Known (· ≠ who) (some state) id past := by
  induction past with
  | nil => cases h
  | cons m past ih =>
    rcases read_cons hr h with ⟨-, hread⟩ | ⟨hwho, h⟩
    · exact .inl hread.symm
    · refine (ih hc.2 hr.2 (inTurn_of_cons ht) h).cons hr.1.before (fun _ => hwho) ?_
      intro hpub
      rw [publishes_in_turn hr ht h hwho] at hpub
      cases hpub

/-- **Every channel holds the state of its row, or somebody is behind on the task.** -/
theorem known_channels (hc : custody.Orderly past) (hr : reporting.Orderly past)
    (ht : InTurn past = true) (hb : Shown past b) :
    ∀ c ∈ b.channels, Known (fun _ => True) c.value c.id past := by
  induction hb with
  | start => exact fun c hmem => absurd hmem List.not_mem_nil
  | @hears past m b b' hb hm ih =>
    intro c hmem
    have hturn : InTurn past = true := inTurn_of_cons ht
    rcases StatusBoard.mem_hears hm hmem with ⟨who, state, ho, hvalue⟩ | ⟨hpub, hold | ⟨hsub, -, -⟩⟩
    · -- whoever is behind when the state is published is so still
      rw [hvalue]
      have hknown := known_read hc.2 hr.2 hturn (read_of_publish hr.1 ho)
      have hwho : m.occurrence.who = who := by rw [ho]; rfl
      refine (hknown.cons hc.1.before (fun hstirs => ?_) fun _ hne => hne hwho).mono
        fun _ _ => trivial
      rw [stirs_of_publish hc.1 ho] at hstirs
      cases hstirs
    · refine (ih hc.2 hr.2 hturn c hold).cons hc.1.before (fun _ => trivial) fun hyes => ?_
      rw [hpub] at hyes
      cases hyes
    · -- whoever has subscribed is behind
      refine .inr ⟨m.occurrence.who, trivial, behind_of_stirs ?_⟩
      unfold Moment.stirs
      rw [hsub]
      rfl
  | looks hb key ih =>
    intro c hmem
    rw [StatusBoard.channels_poll] at hmem
    exact ih hc hr ht c hmem

/-! ## What a stream begins with -/

/-- The row of a task has held a state at one of some moments. -/
def Held (moments : List Moment) (id : TaskId) (state : State) : Prop :=
  ∃ m ∈ moments, m.after.state? id = some state

theorem Held.mono {moments : List Moment} (h : Held moments id state)
    (hsub : moments ⊆ later) : Held later id state :=
  h.imp fun _ hm => ⟨hsub hm.1, hm.2⟩

/-- What is about to be published was read of late, or long ago and nothing was published since. -/
theorem held_of_read (hr : reporting.Orderly (later ++ earlier))
    (ht : InTurn (later ++ earlier) = true)
    (h : (reporting.stage who (later ++ earlier)).read = some (id, state)) :
    Held later id state
      ∨ (reporting.stage who earlier).read = some (id, state)
        ∧ ∀ m ∈ later, m.occurrence.publishes id = false := by
  induction later with
  | nil => exact .inr ⟨h, fun _ hm => absurd hm List.not_mem_nil⟩
  | cons m later ih =>
    rcases read_cons hr h with ⟨-, hread⟩ | ⟨hwho, h⟩
    · exact .inl ⟨m, List.mem_cons_self, hread⟩
    · refine (ih hr.2 (inTurn_of_cons ht) h).imp (fun hheld => ?_) fun ⟨hread, hno⟩ => ?_
      · exact hheld.mono (List.subset_cons_self _ _)
      · exact ⟨hread, List.forall_mem_cons.2 ⟨publishes_in_turn hr ht h hwho id, hno⟩⟩

/--
Once the operation that subscribes has published, the channel holds what the row has held since the
subscription.
-/
theorem held_channel {key : Nat} {sub : Moment} (hr : reporting.Orderly (later ++ sub :: earlier))
    (ht : InTurn (later ++ sub :: earlier) = true) (hb : Shown (later ++ sub :: earlier) b)
    (hsub : sub.occurrence = .answers who (.subscribe id state) key) (hkey : (key, id) ∈ b.readers)
    (hpub : ∃ m ∈ later, m.occurrence.who = who ∧ m.occurrence.publishes id = true) :
    ∀ c ∈ b.channels, c.id = id → ∃ state, c.value = some state ∧ Held later id state := by
  generalize hpast : later ++ sub :: earlier = past at hb
  induction hb generalizing later with
  | start => cases later <;> cases hpast
  | looks hb key' ih =>
    intro c hmem
    rw [StatusBoard.readers_poll] at hkey
    rw [StatusBoard.channels_poll] at hmem
    exact ih hr ht hkey hpub hpast c hmem
  | @hears past m b b' hb hm ih =>
    obtain ⟨m', hm', hwho, hpublishes⟩ := hpub
    cases later with
    | nil => cases hm'
    | cons m₀ later =>
      obtain ⟨rfl, rfl⟩ := List.cons.inj hpast
      have hkeeps := StatusBoard.keeps_shown hb
      -- the subscription was there before
      have hkey : (key, id) ∈ b.readers := by
        refine (StatusBoard.mem_readers_hears hm hkey).resolve_right (Nat.ne_of_lt ?_)
        have hmem : sub ∈ later ++ sub :: earlier := List.mem_append_right _ List.mem_cons_self
        exact hkeeps.given sub hmem id key ⟨who, state, hsub⟩
      rintro c hmem rfl
      rcases StatusBoard.mem_hears hm hmem with ⟨who', read, ho, hvalue⟩ | ⟨hno, hc⟩
      · refine ⟨read, hvalue, ?_⟩
        rcases held_of_read hr.2 (inTurn_of_cons ht) (read_of_publish hr.1 ho) with
          hheld | ⟨hread, hnone⟩
        · exact hheld.mono (List.subset_cons_self _ _)
        · -- then nothing has been published yet, which is not so
          exfalso
          have hother : sub.occurrence.who ≠ who' := by
            rcases read_cons (Orderly.of_append hr.2) hread with ⟨hsub', -⟩ | ⟨hother, -⟩
            · cases hsub.symm.trans hsub'
            · exact hother
          rw [hsub] at hother
          rcases List.mem_cons.1 hm' with rfl | hm'
          · rw [ho] at hwho
            exact hother hwho.symm
          · rw [hnone m' hm'] at hpublishes
            cases hpublishes
      · have hpub : ∃ m ∈ later, m.occurrence.who = who ∧ m.occurrence.publishes c.id = true := by
          rcases List.mem_cons.1 hm' with rfl | hm'
          · rw [hno] at hpublishes
            cases hpublishes
          · exact ⟨m', hm', hwho, hpublishes⟩
        rcases hc with hold | ⟨-, hnone, -⟩
        · have hturn := inTurn_of_cons ht
          obtain ⟨read, hvalue, hheld⟩ := ih hr.2 hturn hkey hpub rfl c hold rfl
          exact ⟨read, hvalue, hheld.mono (List.subset_cons_self _ _)⟩
        · -- the task has a channel
          have hserved := hkeeps.served key c.id hkey
          rw [hnone] at hserved
          cases hserved

/-! ## Streams -/

namespace Occurrence

/-- Whether an operation begins that is to observe a task. -/
def asksFor (who : Nat) (id : TaskId) : Occurrence → Bool
  | .begins who' (.observe target) => who' == who && target == id
  | _ => false

/-- Whether an operation takes out a subscription, which gets a key. -/
def takesOut (who key : Nat) : Occurrence → Bool
  | .answers who' (.subscribe ..) key' => who' == who && key' == key
  | _ => false

variable {o : Occurrence} {key : Nat}

theorem eq_of_asksFor (h : o.asksFor who id = true) : o = .begins who (.observe id) := by
  unfold asksFor at h
  split at h
  · obtain ⟨hwho, hid⟩ := Bool.and_eq_true_iff.1 h
    rw [eq_of_beq hwho, eq_of_beq hid]
  · cases h

theorem eq_of_takesOut (h : o.takesOut who key = true) :
    ∃ id state, o = .answers who (.subscribe id state) key := by
  unfold takesOut at h
  split at h
  · next who' target state key' =>
    obtain ⟨hwho, hkey⟩ := Bool.and_eq_true_iff.1 h
    rw [eq_of_beq hwho, eq_of_beq hkey]
    exact ⟨target, state, rfl⟩
  · cases h

end Occurrence

/-- A task is being observed, under a key: the stream was asked for before `later`, and is there. -/
def Scene.Streams (w : Scene) (later : List Moment) (id : TaskId) (key : Nat) : Prop :=
  ∃ who m earlier, w.past = later ++ m :: earlier ∧ m.occurrence.asksFor who id = true
    ∧ w.Over who ∧ ∃ m' ∈ later, m'.occurrence.takesOut who key = true

/-- **A stream begins with a state that the row has held since the stream was asked for.** -/
theorem held_first (hw : Reachable s w) (hreads : ∀ m ∈ w.past, m.occurrence.failsToRead = false)
    (ht : InTurn w.past = true) (hb : Shown w.past b) {key : Nat} (h : w.Streams later id key)
    {sub : Subscription} (hsub : sub ∈ b.subscriptions) (hkey : sub.key = key)
    (hunseen : sub.seen = none) :
    ∃ state, (b.poll key).1 = [some state] ∧ Held later id state := by
  obtain ⟨who, m, earlier, hpast, hasks, hover, take, htake, htakes⟩ := h
  obtain ⟨since, before, rfl⟩ := List.append_of_mem htake
  obtain ⟨target, seed, hsubscribe⟩ := Occurrence.eq_of_takesOut htakes
  have hr := orderly_reachable (reporting_governs s) hw (reporting_met hw hreads)
  have hbehind := not_behind_of_over hw hreads hover id
  have hkeeps := StatusBoard.keeps_shown hb
  have htaken : take ∈ w.past := by
    rw [hpast]
    exact List.mem_append_left _ htake
  rw [List.append_assoc, List.cons_append] at hpast
  rw [hpast] at hr ht hb hbehind
  -- the subscription is to the task that was asked for
  have hcall := (Orderly.of_append hr).1.suits
  rw [hsubscribe] at hcall
  have hobserved := observed_of_begins (Orderly.of_append hr).2 (Occurrence.eq_of_asksFor hasks)
    hcall.1.2.2
  obtain rfl : id = target := Option.some.inj hobserved
  have hreader : (key, sub.id) ∈ b.readers := List.mem_map.2 ⟨sub, hsub, by rw [hkey]⟩
  have hid : id = sub.id := hkeeps.same key sub.id hreader take htaken id ⟨who, seed, hsubscribe⟩
  -- the operation has published, and what the channel holds is what is shown
  have hstirs : take.stirs id = true := by
    unfold Moment.stirs
    rw [hsubscribe]
    simp [Occurrence.subscribesTo]
  have hpublished := published_of_not_behind (by rw [hsubscribe]; rfl) hstirs hbehind
  obtain ⟨c, hc⟩ := Option.isSome_iff_exists.1 (hkeeps.served key sub.id hreader)
  obtain ⟨state, hvalue, hheld⟩ := held_channel hr ht hb hsubscribe (hid ▸ hreader) hpublished c
    (StatusBoard.mem_of_find? hc) ((StatusBoard.id_of_find? hc).trans hid.symm)
  have hpoll := StatusBoard.poll_unseen hkeeps.nodup hsub hunseen hc
  rw [hkey, hvalue] at hpoll
  exact ⟨state, hpoll, hheld.mono (List.subset_append_left _ _)⟩

/--
**Streams converge, and none begins with what is out of date.** Reads of the store do not fail, and
reports take turns; apart from that, any number of operations come one between the calls of another,
and readers look when they like.

* A channel that somebody reads stays, and stays the same but for what is published to it.
* A channel holds the state of its row, unless somebody is behind on the task.
* Nobody is behind who has come to the end.
* The first look at a stream shows a state that the row has held since the stream was asked for.
-/
theorem status_streams_converge (hw : Reachable s w)
    (hreads : ∀ m ∈ w.past, m.occurrence.failsToRead = false) (hturns : InTurn w.past = true)
    (hb : Shown w.past b) :
    (∀ id, b.isObserved id = true → ∃ c, b.find? id = some c
        ∧ (∀ key, (b.poll key).2.find? id = some c)
        ∧ ∀ o b', b.Hears o b' → b'.find? id = some c ∨ ∃ (who : Nat) (state : State),
          o = .answers who (.publish id state) () ∧ b'.find? id = some (c.send state))
      ∧ (∀ c ∈ b.channels, (∀ who, behind who c.id w.past = false) →
        ∃ row, w.table.find? c.id = some row ∧ c.value = some row.state)
      ∧ (∀ who, w.Over who → ∀ id, behind who id w.past = false)
      ∧ ∀ later id key, w.Streams later id key → ∀ sub ∈ b.subscriptions, sub.key = key →
        sub.seen = none → ∃ state, (b.poll key).1 = [some state] ∧ Held later id state := by
  have hr := orderly_reachable (reporting_governs s) hw (reporting_met hw hreads)
  have hc := orderly_reachable (custody_governs s) hw (custody_met w.past)
  refine ⟨fun id hobserved => ?_, fun c hmem hbehind => ?_,
    fun who hover => not_behind_of_over hw hreads hover,
    fun later id key h sub hsub => held_first hw hreads hturns hb h hsub⟩
  · obtain ⟨key, hreader⟩ := StatusBoard.isObserved_iff.1 hobserved
    obtain ⟨c, hfound⟩ :=
      Option.isSome_iff_exists.1 ((StatusBoard.keeps_shown hb).served key id hreader)
    refine ⟨c, hfound, fun key => ?_, fun o b' => StatusBoard.find?_hears hfound hobserved⟩
    exact (congrArg (List.find? _) (StatusBoard.channels_poll b key)).trans hfound
  · obtain ⟨state, hvalue⟩ := StatusBoard.value_shown hb c hmem
    rcases known_channels hc hr hturns hb c hmem with hstate | ⟨who, -, hyes⟩
    · obtain ⟨row, hrow, hstate⟩ := Option.map_eq_some_iff.1 (hstate.symm.trans hvalue)
      exact ⟨row, hrow, hstate ▸ hvalue⟩
    · rw [hbehind who] at hyes
      cases hyes

namespace Rehearsal

/-- A task is claimed while it is about to be observed; then it is cancelled. -/
def observing : List Cue :=
  whole 0 (.submit request) ++ .begin (.observe first) :: goes 1 2 ++ claimed 2 first ++ goes 1 20
    ++ .begin (.cancel first) :: goes 3 3

/-- The cancellation is published, and the attempt comes to its end. -/
def observed : List Cue := observing ++ goes 3 20 ++ goes 2 20

/-- The board after some cues. -/
def board (cues : List Cue) : StatusBoard := (Play.run scheduler { system } cues).system.board

theorem shown_board (cues : List Cue) : Shown (scene cues).past (board cues) :=
  Play.shown_run rfl cues

/-- While the cancellation is not published, the stream shows what is no longer true. -/
example : behind 3 first (scene observing).past = true
    ∧ ((board observing).poll 0).1 = [some .running]
    ∧ (scene observing).table.state? first = some .cancelled := by decide +kernel

end Rehearsal

open Rehearsal in
/-- In the end the stream shows that the task was cancelled, as it was since it was asked for. -/
theorem status_streams_converge_observed :
    (∀ m ∈ (scene observed).past, m.occurrence.failsToRead = false)
      ∧ InTurn (scene observed).past = true
      ∧ (∃ c, (board observed).find? first = some c ∧ c.value = some .cancelled)
      ∧ ∃ state, ((board observed).poll 0).1 = [some state]
        ∧ Held ((scene observed).past.take 23) first state := by
  have hreads : ∀ m ∈ (scene observed).past, m.occurrence.failsToRead = false := by decide +kernel
  have hturns : InTurn (scene observed).past = true := by decide +kernel
  obtain ⟨hstay, hvalue, hover, hfirst⟩ :=
    status_streams_converge (reachable_scene observed) hreads hturns (shown_board observed)
  -- every operation has come to its end
  have hall : (scene observed).AllReturned := by decide +kernel
  have hwhole : ∀ m ∈ (scene observed).past, m.occurrence.isBreakdown = false := by decide +kernel
  have hends (who : Nat) : (scene observed).Over who :=
    ⟨fun p hp => hall p (List.mem_of_getElem? hp), fun m hm _ => hwhole m hm⟩
  refine ⟨hreads, hturns, ?_, ?_⟩
  · have hcancelled : (scene observed).table.state? first = some .cancelled := by decide +kernel
    obtain ⟨c, hc, -⟩ := hstay first (by decide +kernel)
    have hbehind (who : Nat) := hover who (hends who) c.id
    obtain ⟨row, hrow, hstate⟩ := hvalue c (StatusBoard.mem_of_find? hc) hbehind
    rw [StatusBoard.id_of_find? hc] at hrow
    refine ⟨c, hc, hstate.trans ?_⟩
    rw [← hcancelled, TaskTable.state?, hrow]
    rfl
  · -- the observation began twenty-three moments ago
    have hstreams : (scene observed).Streams ((scene observed).past.take 23) first 0 := by
      have hasks : (scene observed).past[23]?.any (·.occurrence.asksFor 1 first) = true := by
        decide +kernel
      obtain ⟨m, hm, hasks⟩ := (Option.any_eq_true _ _).1 hasks
      obtain ⟨hlen, rfl⟩ := List.getElem?_eq_some_iff.1 hm
      refine ⟨1, _, (scene observed).past.drop 24, ?_, hasks, hends 1, ?_⟩
      · rw [← List.drop_eq_getElem_cons hlen, List.take_append_drop]
      · exact List.any_eq_true.1 (by decide +kernel)
    have hsub : (board observed).subscriptions = [⟨0, first, none⟩] := by decide +kernel
    exact hfirst _ first 0 hstreams ⟨0, first, none⟩ (hsub ▸ List.mem_cons_self) rfl rfl

end BackgroundTasks
