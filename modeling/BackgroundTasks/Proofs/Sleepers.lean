import Mathlib.Data.List.Pairwise
import BackgroundTasks.Proofs.Armed

/-!
# Sleepers

Arming a task again does not do away with the sleeper that it had: that one is told to stop, and
until it does there are several of one task, which may wake in any order. What keeps the others from
doing harm is the generation that each was given. The one that counts is that of the latest arm,
and a generation is not given twice as long as there are fewer arms than generations.

So what a platform with timers holds for a task can be read off its history: whether the latest arm
of the task has been disarmed since, or has sent the task off.
-/

namespace BackgroundTasks

namespace Timers

/-! ## Histories -/

/-- A task was armed. -/
structure Arm where
  /-- The nanosecond at which it was. -/
  time : Nat
  id : TaskId
  delay : Span
  /-- The generation of the sleeper that was started. -/
  generation : UInt64
deriving DecidableEq

/-- Something that happens to timers. -/
inductive Incident where
  | arms (a : Arm)
  | disarms (id : TaskId)
  /-- A sleeper wakes at a nanosecond, and sends its task off or does not. -/
  | wakes (s : Sleeper) (time : Nat) (sent : Option TaskId)
  /-- A sleeper stops that was told to. -/
  | stops (s : Sleeper)
deriving DecidableEq

namespace Incident

/-- The arm, if a task was armed. -/
def arm? : Incident → Option Arm
  | arms a => some a
  | _ => none

/-- Whether the earlier arms of a task are over, since it was armed anew or disarmed. -/
def ends (id : TaskId) : Incident → Bool
  | arms a => a.id == id
  | disarms id' => id' == id
  | _ => false

/-- Whether the sleeper of a generation sends its task off. -/
def sends (generation : UInt64) : Incident → Bool
  | wakes s _ (some _) => s.generation == generation
  | _ => false

theorem sends_iff {i : Incident} {generation : UInt64} : i.sends generation = true ↔
    ∃ s time id, i = wakes s time (some id) ∧ s.generation = generation := by
  unfold sends
  split
  · next s time id =>
    rw [beq_iff_eq]
    constructor
    · intro h
      exact ⟨s, time, id, rfl, h⟩
    · rintro ⟨s', time', id', hi, h⟩
      obtain ⟨rfl, -, -⟩ := wakes.inj hi
      exact h
  · next hnot =>
    constructor
    · intro h
      cases h
    · rintro ⟨s, time, id, hi, -⟩
      exact (hnot s time id hi).elim

end Incident

/-- The arms in a history, the latest first. -/
def arms (past : List Incident) : List Arm := past.filterMap Incident.arm?

/--
How timers may come to be as they are, with what has happened to them, the latest first, and the
time. Time passes as it likes. A sleeper wakes when its time has come or later, and in whatever
order; one that was told to stop may stop at any moment, but it may also wake before it does.
-/
inductive Reachable : List Incident → Nat → Timers → Prop
  | start (now : Nat) : Reachable [] now {}
  | passes {past : List Incident} {now : Nat} {t : Timers} (later : Nat) (h : Reachable past now t)
      (hlater : now ≤ later) : Reachable past later t
  | arms {past : List Incident} {now : Nat} {t : Timers} (id : TaskId) (delay : Span)
      (h : Reachable past now t) :
      Reachable (.arms ⟨now, id, delay, t.nextGeneration⟩ :: past) now (t.arm now id delay)
  | disarms {past : List Incident} {now : Nat} {t : Timers} (id : TaskId)
      (h : Reachable past now t) : Reachable (.disarms id :: past) now (t.disarm id)
  | wakes {past : List Incident} {now : Nat} {t : Timers} {s : Sleeper} (h : Reachable past now t)
      (hs : s ∈ t.sleepers) (hdue : s.due ≤ now) :
      Reachable (.wakes s now (t.wake s).1 :: past) now (t.wake s).2
  | stops {past : List Incident} {now : Nat} {t : Timers} {s : Sleeper} (h : Reachable past now t)
      (hs : s ∈ t.sleepers) (htold : s.calledOff = true) :
      Reachable (.stops s :: past) now { t with sleepers := t.sleepers.erase s }

/--
An arm is the latest of its task, the task has not been disarmed since, and the sleeper has not sent
it off.
-/
def Waits (past : List Incident) (a : Arm) : Prop :=
  ∃ later earlier, past = later ++ .arms a :: earlier
    ∧ ∀ i ∈ later, i.ends a.id = false ∧ i.sends a.generation = false

variable {past : List Incident} {now : Nat} {t : Timers} {a : Arm} {i : Incident} {id : TaskId}
  {s : Sleeper} {generation : UInt64}

theorem waits_cons : Waits (i :: past) a ↔
    i = .arms a ∨ i.ends a.id = false ∧ i.sends a.generation = false ∧ Waits past a := by
  constructor
  · rintro ⟨later, earlier, hpast, hquiet⟩
    cases later with
    | nil => exact .inl (List.cons.inj hpast).1
    | cons j later =>
      obtain ⟨rfl, rfl⟩ := List.cons.inj hpast
      obtain ⟨hends, hsends⟩ := hquiet i List.mem_cons_self
      exact .inr ⟨hends, hsends, later, earlier, rfl,
        fun j hj => hquiet j (List.mem_cons_of_mem _ hj)⟩
  · rintro (rfl | ⟨hends, hsends, later, earlier, rfl, hquiet⟩)
    · exact ⟨[], past, rfl, fun j hj => by cases hj⟩
    · refine ⟨i :: later, earlier, rfl, fun j hj => ?_⟩
      rcases List.mem_cons.1 hj with rfl | hj
      · exact ⟨hends, hsends⟩
      · exact hquiet j hj

theorem waits_arms {b : Arm} : Waits (.arms b :: past) a ↔ a = b ∨ b.id ≠ a.id ∧ Waits past a := by
  rw [waits_cons, Incident.arms.injEq, eq_comm]
  simp only [Incident.ends, Incident.sends, beq_eq_false_iff_ne, true_and]

theorem waits_disarms : Waits (.disarms id :: past) a ↔ id ≠ a.id ∧ Waits past a := by
  rw [waits_cons]
  simp only [Incident.ends, Incident.sends, beq_eq_false_iff_ne, true_and, reduceCtorEq, false_or]

theorem waits_sends {time : Nat} :
    Waits (.wakes s time (some id) :: past) a ↔ s.generation ≠ a.generation ∧ Waits past a := by
  rw [waits_cons]
  simp only [Incident.ends, Incident.sends, beq_eq_false_iff_ne, true_and, reduceCtorEq, false_or]

/-- What neither arms nor disarms a task, nor sends one off. -/
def Incident.Idle (i : Incident) : Prop :=
  i.arm? = none ∧ (∀ id, i.ends id = false) ∧ ∀ generation, i.sends generation = false

theorem waits_idle (hi : i.Idle) : Waits (i :: past) a ↔ Waits past a := by
  rw [waits_cons]
  constructor
  · rintro (rfl | ⟨-, -, h⟩)
    · cases hi.1
    · exact h
  · intro h
    exact .inr ⟨hi.2.1 _, hi.2.2 _, h⟩

theorem mem_arms : a ∈ arms past ↔ .arms a ∈ past := by
  simp only [arms, List.mem_filterMap]
  constructor
  · rintro ⟨i, hi, harm⟩
    cases i with
    | arms b =>
      obtain rfl := Option.some.inj harm
      exact hi
    | _ => cases harm
  · intro h
    exact ⟨_, h, rfl⟩

theorem Waits.mem_arms (h : Waits past a) : a ∈ arms past := by
  obtain ⟨later, earlier, rfl, -⟩ := h
  exact Timers.mem_arms.2 (List.mem_append_right _ List.mem_cons_self)

/-- What is over does not wait, if it is not armed again under the same generation. -/
theorem not_waits_of_ends {later : List Incident} (hlater : .arms a ∉ later) (hi : i ≠ .arms a)
    (hends : i.ends a.id = true) : ¬ Waits (later ++ i :: past) a := by
  induction later with
  | nil =>
    rw [List.nil_append, waits_cons]
    rintro (h | ⟨h, -⟩)
    · exact hi h
    · rw [hends] at h
      cases h
  | cons j later ih =>
    rw [List.mem_cons, not_or] at hlater
    rw [List.cons_append, waits_cons]
    rintro (h | ⟨-, -, h⟩)
    · exact hlater.1 h.symm
    · exact ih hlater.2 h

/-! ## Entries and sleepers -/

section Entries

variable {target : TaskId} {generation' : UInt64}

theorem lookup_without : (t.without target).lookup id = some generation ↔
    id ≠ target ∧ t.current.lookup id = some generation := by
  unfold without
  by_cases hid : id = target
  · subst hid
    rw [lookup_without_self]
    constructor
    · intro h
      cases h
    · intro h
      exact absurd rfl h.1
  · rw [lookup_without_other t.current hid]
    exact (and_iff_right hid).symm

theorem lookup_renewed :
    (t.without target ++ [(target, generation')]).lookup id = some generation ↔
      id = target ∧ generation' = generation
        ∨ id ≠ target ∧ t.current.lookup id = some generation := by
  unfold without
  by_cases hid : id = target
  · subst hid
    rw [lookup_renewed_self, Option.some.injEq]
    simp only [ne_eq, not_true_eq_false, true_and, false_and, or_false]
  · rw [lookup_renewed_other t.current hid]
    simp only [hid, ne_eq, not_false_eq_true, true_and, false_and, false_or]

end Entries

theorem mem_callingOff (h : s ∈ t.callingOff id) :
    ∃ s' ∈ t.sleepers, s'.id = s.id ∧ s'.generation = s.generation ∧ s'.due = s.due := by
  obtain ⟨s', hs', rfl⟩ := List.mem_map.1 h
  refine ⟨s', hs', ?_⟩
  split <;> exact ⟨rfl, rfl, rfl⟩

theorem map_callingOff (t : Timers) (id : TaskId) :
    (t.callingOff id).map Sleeper.generation = t.sleepers.map Sleeper.generation := by
  unfold callingOff
  rw [List.map_map]
  refine List.map_congr_left fun s _ => ?_
  simp only [Function.comp]
  split <;> rfl

theorem mem_callingOff_other (hs : s ∈ t.sleepers) (hid : s.id ≠ id) : s ∈ t.callingOff id :=
  List.mem_map.2 ⟨s, hs, if_neg fun h => hid h.1⟩

/-- A sleeper that has ended leaves nobody of its generation behind. -/
theorem ne_of_mem_erase {sleepers : List Sleeper} {s' : Sleeper}
    (hapart : (sleepers.map Sleeper.generation).Nodup) (hs : s ∈ sleepers)
    (hs' : s' ∈ sleepers.erase s) : s'.generation ≠ s.generation := by
  have hperm := (List.perm_cons_erase hs).map Sleeper.generation
  rw [hperm.nodup_iff, List.map_cons, List.nodup_cons] at hapart
  intro heq
  exact hapart.1 (heq ▸ List.mem_map_of_mem hs')

/-! ## What a history says of timers -/

/-- Timers are as their history tells. -/
structure Accounted (past : List Incident) (t : Timers) : Prop where
  /-- Generations are given out in order. -/
  counted : t.nextGeneration.toNat = (arms past).length
  numbered : ∀ a ∈ arms past, a.generation.toNat < (arms past).length
  distinct : (arms past).Pairwise fun a b => a.generation ≠ b.generation
  /-- A task has one entry, and it names the arm that waits. -/
  entries : (t.current.map Prod.fst).Nodup
  current : ∀ id generation, t.current.lookup id = some generation ↔
    ∃ a, Waits past a ∧ a.id = id ∧ a.generation = generation
  /-- A sleeper belongs to an arm, and no two belong to one. -/
  started : ∀ s ∈ t.sleepers,
    ∃ a ∈ arms past, a.id = s.id ∧ a.generation = s.generation ∧ s.due = a.time + a.delay.nanos
  apart : (t.sleepers.map Sleeper.generation).Nodup
  /-- The sleeper of an arm that waits has not been told to stop. -/
  asleep : ∀ id generation, t.current.lookup id = some generation →
    ∃ s ∈ t.sleepers, s.id = id ∧ s.generation = generation ∧ s.calledOff = false
  /-- Who has sent its task off is there no more. -/
  spent : ∀ i ∈ past, ∀ generation, i.sends generation = true →
    generation.toNat < (arms past).length ∧ ∀ s ∈ t.sleepers, s.generation ≠ generation
  once : ∀ generation, past.countP (Incident.sends generation) ≤ 1

namespace Accounted

/-- An arm is known by its generation. -/
theorem arm_unique (h : Accounted past t) {a b : Arm} (ha : a ∈ arms past) (hb : b ∈ arms past)
    (heq : a.generation = b.generation) : a = b := by
  have hsymm : Std.Symm fun a b : Arm => a.generation ≠ b.generation := ⟨fun _ _ h => h.symm⟩
  exact Decidable.byContradiction fun hne => h.distinct.forall ha hb hne heq

theorem started_lt (h : Accounted past t) (hs : s ∈ t.sleepers) :
    s.generation.toNat < (arms past).length := by
  obtain ⟨a, ha, -, hgeneration, -⟩ := h.started s hs
  exact hgeneration ▸ h.numbered a ha

theorem init : Accounted [] {} where
  counted := rfl
  numbered a ha := by cases ha
  distinct := List.Pairwise.nil
  entries := List.nodup_nil
  current id generation := by
    constructor
    · intro h
      cases h
    · rintro ⟨a, hwaits, -⟩
      cases hwaits.mem_arms
  started s hs := by cases hs
  apart := List.nodup_nil
  asleep id generation h := by cases h
  spent i hi := by cases hi
  once generation := Nat.zero_le _

/-- The next generation has not been given to anybody. -/
theorem fresh (h : Accounted past t) (hlt : generation.toNat < (arms past).length) :
    t.nextGeneration ≠ generation := by
  rintro rfl
  rw [h.counted] at hlt
  exact Nat.lt_irrefl _ hlt

theorem entries_without (h : Accounted past t) (id : TaskId) :
    ((t.without id).map Prod.fst).Nodup :=
  h.entries.sublist (List.filter_sublist.map _)

theorem arms (h : Accounted past t) (hfew : (Timers.arms past).length + 1 < UInt64.size)
    (now : Nat) (id : TaskId) (delay : Span) :
    Accounted (.arms ⟨now, id, delay, t.nextGeneration⟩ :: past) (t.arm now id delay) where
  counted := by
    show (t.nextGeneration + 1).toNat = (Timers.arms past).length + 1
    rw [UInt64.toNat_add, h.counted]
    exact Nat.mod_eq_of_lt hfew
  numbered a ha := by
    show a.generation.toNat < (Timers.arms past).length + 1
    rcases List.mem_cons.1 ha with rfl | ha
    · exact Nat.lt_succ_of_le (Nat.le_of_eq h.counted)
    · exact Nat.lt_succ_of_lt (h.numbered a ha)
  distinct := List.pairwise_cons.2 ⟨fun a ha => h.fresh (h.numbered a ha), h.distinct⟩
  entries := by
    show ((t.without id ++ [(id, t.nextGeneration)]).map Prod.fst).Nodup
    rw [List.map_append, List.nodup_append]
    refine ⟨h.entries_without id, List.pairwise_singleton _ _, fun id' hid' id'' hid'' => ?_⟩
    obtain ⟨e, he, rfl⟩ := List.mem_map.1 hid'
    rw [List.mem_singleton.1 hid'']
    exact bne_iff_ne.1 (List.mem_filter.1 he).2
  current id' generation := by
    show (t.without id ++ [(id, t.nextGeneration)]).lookup id' = some generation ↔ _
    rw [lookup_renewed, h.current]
    constructor
    · rintro (⟨rfl, rfl⟩ | ⟨hid, a, hwaits, rfl, hgeneration⟩)
      · exact ⟨_, waits_arms.2 (.inl rfl), rfl, rfl⟩
      · exact ⟨a, waits_arms.2 (.inr ⟨Ne.symm hid, hwaits⟩), rfl, hgeneration⟩
    · rintro ⟨a, hwaits, rfl, rfl⟩
      rcases waits_arms.1 hwaits with rfl | ⟨hid, hwaits⟩
      · exact .inl ⟨rfl, rfl⟩
      · exact .inr ⟨Ne.symm hid, a, hwaits, rfl, rfl⟩
  started s hs := by
    rcases List.mem_append.1 hs with hs | hs
    · obtain ⟨s', hs', hid, hgeneration, hdue⟩ := mem_callingOff hs
      obtain ⟨a, ha, hstarted⟩ := h.started s' hs'
      rw [hid, hgeneration, hdue] at hstarted
      exact ⟨a, List.mem_cons_of_mem _ ha, hstarted⟩
    · obtain rfl := List.mem_singleton.1 hs
      exact ⟨_, List.mem_cons_self, rfl, rfl, rfl⟩
  apart := by
    show ((t.callingOff id ++ [_]).map Sleeper.generation).Nodup
    rw [List.map_append, map_callingOff, List.nodup_append]
    refine ⟨h.apart, List.pairwise_singleton _ _, fun generation hgeneration other hother => ?_⟩
    obtain ⟨s, hs, rfl⟩ := List.mem_map.1 hgeneration
    rw [List.mem_singleton.1 hother]
    exact (h.fresh (h.started_lt hs)).symm
  asleep id' generation hlookup := by
    rcases lookup_renewed.1 hlookup with ⟨rfl, rfl⟩ | ⟨hid, hlookup⟩
    · exact ⟨_, List.mem_append_right _ List.mem_cons_self, rfl, rfl, rfl⟩
    · obtain ⟨s, hs, rfl, hrest⟩ := h.asleep id' generation hlookup
      exact ⟨s, List.mem_append_left _ (mem_callingOff_other hs hid), rfl, hrest⟩
  spent i hi generation hsends := by
    rcases List.mem_cons.1 hi with rfl | hi
    · cases hsends
    · obtain ⟨hlt, hgone⟩ := h.spent i hi generation hsends
      refine ⟨Nat.lt_succ_of_lt hlt, fun s hs => ?_⟩
      rcases List.mem_append.1 hs with hs | hs
      · obtain ⟨s', hs', -, hgeneration, -⟩ := mem_callingOff hs
        exact hgeneration ▸ hgone s' hs'
      · obtain rfl := List.mem_singleton.1 hs
        exact h.fresh hlt
  once generation := by
    rw [List.countP_cons_of_neg Bool.false_ne_true]
    exact h.once generation

theorem disarms (h : Accounted past t) (id : TaskId) :
    Accounted (.disarms id :: past) (t.disarm id) where
  counted := h.counted
  numbered := h.numbered
  distinct := h.distinct
  entries := h.entries_without id
  current id' generation := by
    show (t.without id).lookup id' = some generation ↔ _
    rw [lookup_without, h.current]
    constructor
    · rintro ⟨hid, a, hwaits, rfl, hgeneration⟩
      exact ⟨a, waits_disarms.2 ⟨Ne.symm hid, hwaits⟩, rfl, hgeneration⟩
    · rintro ⟨a, hwaits, rfl, hgeneration⟩
      obtain ⟨hid, hwaits⟩ := waits_disarms.1 hwaits
      exact ⟨Ne.symm hid, a, hwaits, rfl, hgeneration⟩
  started s hs := by
    obtain ⟨s', hs', hid, hgeneration, hdue⟩ := mem_callingOff hs
    rw [← hid, ← hgeneration, ← hdue]
    exact h.started s' hs'
  apart := by
    show ((t.callingOff id).map Sleeper.generation).Nodup
    rw [map_callingOff]
    exact h.apart
  asleep id' generation hlookup := by
    obtain ⟨hid, hlookup⟩ := lookup_without.1 hlookup
    obtain ⟨s, hs, rfl, hrest⟩ := h.asleep id' generation hlookup
    exact ⟨s, mem_callingOff_other hs hid, rfl, hrest⟩
  spent i hi generation hsends := by
    rcases List.mem_cons.1 hi with rfl | hi
    · cases hsends
    · obtain ⟨hlt, hgone⟩ := h.spent i hi generation hsends
      refine ⟨hlt, fun s hs => ?_⟩
      obtain ⟨s', hs', -, hgeneration, -⟩ := mem_callingOff hs
      exact hgeneration ▸ hgone s' hs'
  once generation := by
    rw [List.countP_cons_of_neg Bool.false_ne_true]
    exact h.once generation

/-- A sleeper that does not count ends, and nothing else happens. -/
theorem idle (h : Accounted past t) (hi : i.Idle)
    (hother : t.current.lookup s.id = some s.generation → s.calledOff = true) :
    Accounted (i :: past) { t with sleepers := t.sleepers.erase s } := by
  have harms : Timers.arms (i :: past) = Timers.arms past := List.filterMap_cons_none hi.1
  exact {
    counted := harms ▸ h.counted
    numbered := harms ▸ h.numbered
    distinct := harms ▸ h.distinct
    entries := h.entries
    current := fun id generation => by
      simp only [waits_idle hi]
      exact h.current id generation
    started := fun s' hs' => harms ▸ h.started s' (List.mem_of_mem_erase hs')
    apart := h.apart.sublist (List.erase_sublist.map _)
    asleep := fun id generation hlookup => by
      obtain ⟨s', hs', hid, rfl, hcalled⟩ := h.asleep id generation hlookup
      refine ⟨s', (List.mem_erase_of_ne ?_).2 hs', hid, rfl, hcalled⟩
      rintro rfl
      subst hid
      rw [hother hlookup] at hcalled
      cases hcalled
    spent := fun j hj generation hsends => by
      rw [harms]
      rcases List.mem_cons.1 hj with rfl | hj
      · rw [hi.2.2] at hsends
        cases hsends
      · obtain ⟨hlt, hgone⟩ := h.spent j hj generation hsends
        exact ⟨hlt, fun s' hs' => hgone s' (List.mem_of_mem_erase hs')⟩
    once := fun generation => by
      rw [List.countP_cons_of_neg (by rw [hi.2.2]; exact Bool.false_ne_true)]
      exact h.once generation }

/-- The arm whose sleeper counts. -/
theorem counts (h : Accounted past t) (hs : s ∈ t.sleepers)
    (hcounts : t.current.lookup s.id = some s.generation) :
    ∃ a, Waits past a ∧ a.id = s.id ∧ a.generation = s.generation
      ∧ s.due = a.time + a.delay.nanos := by
  obtain ⟨a, hwaits, hid, hgeneration⟩ := (h.current _ _).1 hcounts
  obtain ⟨b, hb, -, hgeneration', hdue⟩ := h.started s hs
  obtain rfl := h.arm_unique hwaits.mem_arms hb (hgeneration.trans hgeneration'.symm)
  exact ⟨a, hwaits, hid, hgeneration, hdue⟩

/-- A sleeper that counts sends its task off. -/
theorem sends (h : Accounted past t) (hs : s ∈ t.sleepers)
    (hcounts : t.current.lookup s.id = some s.generation) (time : Nat) :
    Accounted (.wakes s time (some s.id) :: past)
      { t with current := t.without s.id, sleepers := t.sleepers.erase s } where
  counted := h.counted
  numbered := h.numbered
  distinct := h.distinct
  entries := h.entries_without s.id
  current id generation := by
    simp only [waits_sends, lookup_without, h.current]
    constructor
    · rintro ⟨hid, a, hwaits, rfl, hgeneration⟩
      refine ⟨a, ⟨fun hsame => hid ?_, hwaits⟩, rfl, hgeneration⟩
      obtain ⟨b, hwaits', hid', hgeneration', -⟩ := h.counts hs hcounts
      obtain rfl :=
        h.arm_unique hwaits.mem_arms hwaits'.mem_arms (hsame.symm.trans hgeneration'.symm)
      exact hid'
    · rintro ⟨a, ⟨hother, hwaits⟩, rfl, hgeneration⟩
      refine ⟨fun hid => hother ?_, a, hwaits, rfl, hgeneration⟩
      have hlookup := (h.current s.id a.generation).2 ⟨a, hwaits, hid, rfl⟩
      rw [hcounts] at hlookup
      exact Option.some.inj hlookup
  started s' hs' := h.started s' (List.mem_of_mem_erase hs')
  apart := h.apart.sublist (List.erase_sublist.map _)
  asleep id generation hlookup := by
    obtain ⟨hid, hlookup⟩ := lookup_without.1 hlookup
    obtain ⟨s', hs', rfl, hrest⟩ := h.asleep id generation hlookup
    refine ⟨s', (List.mem_erase_of_ne ?_).2 hs', rfl, hrest⟩
    rintro rfl
    exact hid rfl
  spent i hi generation hsends := by
    rcases List.mem_cons.1 hi with rfl | hi
    · obtain rfl := beq_iff_eq.1 hsends
      exact ⟨h.started_lt hs, fun s' hs' => ne_of_mem_erase h.apart hs hs'⟩
    · obtain ⟨hlt, hgone⟩ := h.spent i hi generation hsends
      exact ⟨hlt, fun s' hs' => hgone s' (List.mem_of_mem_erase hs')⟩
  once generation := by
    rw [List.countP_cons]
    split
    · next hsends =>
      have hnone : past.countP (Incident.sends generation) = 0 := by
        rw [List.countP_eq_zero]
        intro i hi hbefore
        exact (h.spent i hi generation hbefore).2 s hs (beq_iff_eq.1 hsends)
      omega
    · exact h.once generation

theorem wakes (h : Accounted past t) (hs : s ∈ t.sleepers) (time : Nat) :
    Accounted (.wakes s time (t.wake s).1 :: past) (t.wake s).2 := by
  unfold wake
  split
  · next hcounts => exact h.sends hs hcounts time
  · next hcounts =>
    exact h.idle ⟨rfl, fun _ => rfl, fun _ => rfl⟩ fun hlookup => absurd hlookup hcounts

end Accounted

theorem Reachable.accounted (h : Reachable past now t)
    (hfew : (Timers.arms past).length < UInt64.size) : Accounted past t := by
  induction h with
  | start now => exact Accounted.init
  | passes later h hlater ih => exact ih hfew
  | arms id delay h ih => exact (ih (Nat.lt_of_succ_lt hfew)).arms hfew _ id delay
  | disarms id h ih => exact (ih hfew).disarms id
  | wakes h hs hdue ih => exact (ih hfew).wakes hs _
  | stops h hs htold ih => exact (ih hfew).idle ⟨rfl, fun _ => rfl, fun _ => rfl⟩ fun _ => htold

namespace Accounted

/-- An arm comes once in a history. -/
theorem arms_once (h : Accounted past t) {later earlier : List Incident}
    (hsuffix : later ++ .arms a :: earlier <:+ past) : .arms a ∉ later := by
  intro hmem
  have hdistinct := h.distinct.sublist (hsuffix.sublist.filterMap Incident.arm?)
  rw [List.filterMap_append, List.pairwise_append] at hdistinct
  exact hdistinct.2.2 a (mem_arms.2 hmem) a List.mem_cons_self rfl

/-- Whoever has an entry has not ended, so `isArmed` can do without asking. -/
theorem isArmed_eq (h : Accounted past t) (id : TaskId) :
    t.isArmed id = (t.current.lookup id).isSome := by
  unfold isArmed
  cases hlookup : t.current.lookup id with
  | none => rfl
  | some generation =>
    obtain ⟨s, hs, hid, hgeneration, -⟩ := h.asleep id generation hlookup
    refine List.any_eq_true.2 ⟨s, hs, ?_⟩
    rw [hid, hgeneration, beq_self_eq_true, beq_self_eq_true]
    rfl

theorem isArmed_iff (h : Accounted past t) (id : TaskId) :
    t.isArmed id = true ↔ ∃ a, Waits past a ∧ a.id = id := by
  rw [h.isArmed_eq, Option.isSome_iff_exists]
  constructor
  · rintro ⟨generation, hlookup⟩
    obtain ⟨a, hwaits, hid, -⟩ := (h.current id generation).1 hlookup
    exact ⟨a, hwaits, hid⟩
  · rintro ⟨a, hwaits, hid⟩
    exact ⟨a.generation, (h.current id _).2 ⟨a, hwaits, hid, rfl⟩⟩

theorem mem_entries (h : Accounted past t) (id : TaskId) :
    id ∈ t.current.map Prod.fst ↔ t.isArmed id = true := by
  simp only [h.isArmed_eq, List.lookup_isSome_iff, List.mem_map, beq_iff_eq, eq_comm (a := id)]

end Accounted

/-- A sleeper sends off the task of an arm that waits, and not before the arm's delay is over. -/
theorem Reachable.sends_waiting (h : Reachable past now t)
    (hfew : (Timers.arms past).length < UInt64.size) {time : Nat} {earlier : List Incident}
    (hsends : .wakes s time (some id) :: earlier <:+ past) :
    ∃ a, Waits earlier a ∧ a.id = id ∧ a.generation = s.generation
      ∧ a.time + a.delay.nanos ≤ time := by
  induction h with
  | start now => cases List.suffix_nil.1 hsends
  | passes later h hlater ih => exact ih hfew hsends
  | arms id' delay h ih =>
    rcases List.suffix_cons_iff.1 hsends with hlatest | hsends
    · cases hlatest
    · exact ih (Nat.lt_of_succ_lt hfew) hsends
  | disarms id' h ih =>
    rcases List.suffix_cons_iff.1 hsends with hlatest | hsends
    · cases hlatest
    · exact ih hfew hsends
  | stops h hs htold ih =>
    rcases List.suffix_cons_iff.1 hsends with hlatest | hsends
    · cases hlatest
    · exact ih hfew hsends
  | wakes h hs hdue ih =>
    rcases List.suffix_cons_iff.1 hsends with hlatest | hsends
    · obtain ⟨hwake, rfl⟩ := List.cons.inj hlatest
      obtain ⟨rfl, rfl, hsent⟩ := Incident.wakes.inj hwake
      unfold wake at hsent
      split at hsent
      · next hcounts =>
        obtain ⟨a, hwaits, hid, hgeneration, hafter⟩ := (h.accounted hfew).counts hs hcounts
        exact ⟨a, hwaits, hid.trans (Option.some.inj hsent).symm, hgeneration, hafter ▸ hdue⟩
      · cases hsent
    · exact ih hfew hsends

/-- An arm that is over sends nothing. -/
theorem Reachable.silent_after_end (h : Reachable past now t)
    (hfew : (Timers.arms past).length < UInt64.size) {j : Incident}
    {later between earlier : List Incident}
    (hsuffix : j :: (later ++ i :: (between ++ .arms a :: earlier)) <:+ past)
    (hends : i.ends a.id = true) : j.sends a.generation = false := by
  have hacc := h.accounted hfew
  rw [Bool.eq_false_iff]
  intro hsends
  obtain ⟨s, time, id, rfl, hgeneration⟩ := Incident.sends_iff.1 hsends
  obtain ⟨b, hwaits, -, hgeneration', -⟩ := h.sends_waiting hfew hsuffix
  have ha : a ∈ Timers.arms past := mem_arms.2 (hsuffix.subset (by simp))
  have hb : b ∈ Timers.arms past :=
    mem_arms.2 (hsuffix.subset (List.mem_cons_of_mem _ (mem_arms.1 hwaits.mem_arms)))
  obtain rfl := hacc.arm_unique ha hb (hgeneration.symm.trans hgeneration'.symm)
  -- the arm does not come again after its end, so it cannot be waiting
  have hrest : (later ++ i :: between) ++ .arms a :: earlier <:+ past := by
    rw [List.append_assoc, List.cons_append]
    exact (List.suffix_cons _ _).trans hsuffix
  have honce := hacc.arms_once hrest
  simp only [List.mem_append, List.mem_cons, not_or] at honce
  exact not_waits_of_ends honce.1 (Ne.symm honce.2.1) hends hwaits

/-- The sleeper of an arm that waits has not ended, and sends the task off when it wakes. -/
theorem Reachable.waiting_sends (h : Reachable past now t)
    (hfew : (Timers.arms past).length < UInt64.size) (hwaits : Waits past a) :
    ∃ s ∈ t.sleepers, s.calledOff = false ∧ s.due = a.time + a.delay.nanos
      ∧ (t.wake s).1 = some a.id := by
  have hacc := h.accounted hfew
  have hlookup := (hacc.current a.id a.generation).2 ⟨a, hwaits, rfl, rfl⟩
  obtain ⟨s, hs, hid, hgeneration, hcalled⟩ := hacc.asleep _ _ hlookup
  have hcounts : t.current.lookup s.id = some s.generation := by rw [hid, hgeneration, hlookup]
  obtain ⟨b, hwaits', -, hgeneration', hdue⟩ := hacc.counts hs hcounts
  obtain rfl :=
    hacc.arm_unique hwaits'.mem_arms hwaits.mem_arms (hgeneration'.trans hgeneration)
  refine ⟨s, hs, hcalled, hdue, ?_⟩
  rw [wake, if_pos hcounts, hid]

/-! ## Timers fire once -/

/--
As long as there are fewer arms than generations, no two arms share one, and a task is sent off by
its latest arm alone, which has not been disarmed, once and when its delay is over. A sleeper whose
arm was replaced or disarmed sends nothing whenever it wakes. Armed are the tasks whose latest arm
has neither been disarmed nor sent them off.
-/
theorem fire_once (h : Reachable past now t) (hfew : (Timers.arms past).length < UInt64.size) :
    ((Timers.arms past).Pairwise fun a b => a.generation ≠ b.generation)
    ∧ (∀ s time id earlier, .wakes s time (some id) :: earlier <:+ past →
        ∃ a, Waits earlier a ∧ a.id = id ∧ a.generation = s.generation
          ∧ a.time + a.delay.nanos ≤ time)
    ∧ (∀ a ∈ Timers.arms past, past.countP (Incident.sends a.generation) ≤ 1)
    ∧ (∀ a i j later between earlier,
        j :: (later ++ i :: (between ++ .arms a :: earlier)) <:+ past →
        i.ends a.id = true → j.sends a.generation = false)
    ∧ (∀ id, t.isArmed id = true ↔ ∃ a, Waits past a ∧ a.id = id)
    ∧ ∃ ids : List TaskId, ids.Nodup ∧ (∀ id, id ∈ ids ↔ ∃ a, Waits past a ∧ a.id = id)
      ∧ t.armedCount = ids.length := by
  have hacc := h.accounted hfew
  refine ⟨hacc.distinct, fun s time id earlier => h.sends_waiting hfew,
    fun a _ => hacc.once a.generation, fun a i j later between earlier => h.silent_after_end hfew,
    hacc.isArmed_iff, t.current.map Prod.fst, hacc.entries,
    fun id => (hacc.mem_entries id).trans (hacc.isArmed_iff id), (List.length_map _).symm⟩

end Timers

namespace Rehearsal

open Timers

/-- The sleeper of the first arm, which is late to be told that there is another. -/
def stale : Sleeper := { id := first, generation := 0, due := 10000000, calledOff := true }

/-- The sleeper of a task that is disarmed. -/
def disarmed : Sleeper := { id := .ofNat 1, generation := 1, due := 10000000, calledOff := true }

/-- The sleeper of the second arm. -/
def renewed : Sleeper := { id := first, generation := 2, due := 1000000 }

/--
Two tasks are armed for 10 ms. After 1 ms, one is armed anew, without any delay, and the other is
disarmed. At 10 ms, the first sleeper of all wakes before the one that counts.
-/
def rearmed : List Incident :=
  [.wakes renewed 10000000 (some first), .stops disarmed, .wakes stale 10000000 none,
    .disarms (.ofNat 1), .arms ⟨1000000, first, .zero, 2⟩,
    .arms ⟨0, .ofNat 1, .ofMillis 10, 1⟩, .arms ⟨0, first, .ofMillis 10, 0⟩]

theorem reachable_rearmed : Timers.Reachable rearmed 10000000 { nextGeneration := 3 } := by
  have harms := (((Reachable.start 0).arms first (.ofMillis 10)).arms (.ofNat 1)
    (.ofMillis 10)).passes 1000000 (by decide)
  have htold := ((harms.arms first .zero).disarms (.ofNat 1)).passes 10000000 (by decide)
  have hstale := htold.wakes (s := stale) (by decide) (by decide)
  have hstops := hstale.stops (s := disarmed) (by decide) rfl
  have hwakes := hstops.wakes (s := renewed) (by decide) (by decide)
  exact hwakes

end Rehearsal

open Rehearsal Timers in
/-- The task that was armed anew is sent off by its second sleeper, and the other is not. -/
theorem Timers.fire_once_rearmed :
    Reachable rearmed 10000000 { nextGeneration := 3 }
    ∧ (Timers.arms rearmed).length < UInt64.size
    ∧ rearmed.countP (Incident.sends 2) ≤ 1
    ∧ (∃ a, Waits rearmed.tail a ∧ a.id = first ∧ a.generation = 2
        ∧ a.time + a.delay.nanos ≤ 10000000)
    ∧ (Incident.wakes stale 10000000 none).sends 0 = false := by
  have hfew : (Timers.arms rearmed).length < UInt64.size := by decide
  obtain ⟨-, hsends, honce, hover, -⟩ := fire_once reachable_rearmed hfew
  refine ⟨reachable_rearmed, hfew, honce ⟨1000000, first, .zero, 2⟩ (by decide),
    hsends renewed _ _ _ (List.suffix_refl _), ?_⟩
  exact hover ⟨0, first, .ofMillis 10, 0⟩ (.arms ⟨1000000, first, .zero, 2⟩)
    (.wakes stale 10000000 none) [.disarms (.ofNat 1)] [.arms ⟨0, .ofNat 1, .ofMillis 10, 1⟩] []
    ⟨[.wakes renewed 10000000 (some first), .stops disarmed], rfl⟩ rfl

end BackgroundTasks
