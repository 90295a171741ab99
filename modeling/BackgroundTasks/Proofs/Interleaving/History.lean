import BackgroundTasks.Proofs.Interleaving.Conduct

/-!
# Orderly histories

When every job keeps a conduct, the past of a scene is orderly: each call in it was in order at the
stage that its operation had then, and the table answered it as it stood then. From here on
programs are forgotten, and what is shown of all scenes is shown by induction on their histories.
-/

namespace BackgroundTasks

namespace Conduct

variable {S : Type} (C : Conduct S) {s : Scheduler} {w : Scene} {past : List Moment}

/-- The stage that something leads its operation to. -/
def lead (g : S) : Occurrence → S
  | .begins _ job => C.start job
  | .wakes _ id => C.start (.dispatch id)
  | .answers _ c a | .fails _ c a => C.next g c a
  | .breaksDown .. => C.gone

/-- The stage of an operation after a history. -/
def stage (who : Nat) : List Moment → S
  | [] => C.idle
  | m :: past =>
    if m.occurrence.who = who then C.lead (stage who past) m.occurrence else stage who past

/-- Whether something may happen to an operation at a stage, given the table before and after. -/
def Suits (g : S) (t t' : TaskTable) : Occurrence → Prop
  | .begins .. | .wakes .. => t' = t
  | .answers _ c a => C.allows g c ∧ c.Returns t a t'
  | .fails _ c a => C.allows g c ∧ c.Fails a ∧ t' = t
  | .breaksDown _ c => C.allows g c ∧ c.mayBreakDown = true ∧ t' = t

/-- Whether a job was one that may be given, or an answer one that may be counted on. -/
def Trusts (g : S) : Occurrence → Prop
  | .begins _ job => C.admits job
  | .wakes _ id => C.admits (.dispatch id)
  | .answers _ c a | .fails _ c a => C.expects g c a
  | .breaksDown .. => True

/-- Whether a moment may follow a history. -/
structure Follows (past : List Moment) (m : Moment) : Prop where
  before : m.before = tableAfter past
  /-- An operation takes the next number when it begins; nothing happens to one that has not. -/
  number : if m.occurrence.isBeginning then m.occurrence.who = beginnings past
    else m.occurrence.who < beginnings past
  suits : C.Suits (C.stage m.occurrence.who past) m.before m.after m.occurrence

/-- Every moment of a history may follow those before it. -/
def Orderly : List Moment → Prop
  | [] => True
  | m :: past => C.Follows past m ∧ Orderly past

/-- Every job in a history was one that may be given, and every answer one to be counted on. -/
def Met : List Moment → Prop
  | [] => True
  | m :: past => C.Trusts (C.stage m.occurrence.who past) m.occurrence ∧ Met past

variable {C}

theorem stage_self (m : Moment) (past : List Moment) :
    C.stage m.occurrence.who (m :: past) = C.lead (C.stage m.occurrence.who past) m.occurrence :=
  if_pos rfl

theorem stage_other {m : Moment} {who : Nat} (h : m.occurrence.who ≠ who) (past : List Moment) :
    C.stage who (m :: past) = C.stage who past :=
  if_neg h

/-- An earlier history is orderly, too. -/
theorem Orderly.of_append {later earlier : List Moment} (h : C.Orderly (later ++ earlier)) :
    C.Orderly earlier := by
  induction later with
  | nil => exact h
  | cons m later ih => exact ih h.2

/-- A conduct that counts on nothing is never disappointed. -/
theorem met_of_expects (hjob : ∀ job, C.admits job) (h : ∀ g c a, C.expects g c a)
    (past : List Moment) : C.Met past := by
  induction past with
  | nil => trivial
  | cons m past ih =>
    refine ⟨?_, ih⟩
    cases hm : m.occurrence <;> first | exact h _ _ _ | exact hjob _ | trivial

/-- A conduct that counts on no more than what calls return and fail with is not disappointed. -/
theorem met_of_returns {T : Type} {D : Conduct T} (ho : D.Orderly past)
    (hjob : ∀ job, C.admits job)
    (hreturns : ∀ g c a t t', Call.Returns t c a t' → C.expects g c a)
    (hfails : ∀ g (c : Call) a, c.Fails a → C.expects g c a) : C.Met past := by
  induction past with
  | nil => trivial
  | cons m past ih =>
    refine ⟨?_, ih ho.2⟩
    have hsuits := ho.1.suits
    cases hm : m.occurrence with
    | begins who job => exact hjob job
    | wakes who id => exact hjob (.dispatch id)
    | breaksDown who c => trivial
    | answers who c a =>
      rw [hm] at hsuits
      exact hreturns _ c a _ _ hsuits.2
    | fails who c a =>
      rw [hm] at hsuits
      exact hfails _ c a hsuits.2.1

/-- What is left of each operation keeps the conduct from its stage on. -/
theorem keeps_reachable (hC : C.Governs s) (hw : Reachable s w) (hm : C.Met w.past) {who : Nat}
    {p : Program Call.signature Unit} (hp : w.activities[who]? = some p) :
    C.Keeps (fun g _ => C.final g) p (C.stage who w.past) := by
  induction hw generalizing who p with
  | init => simp at hp
  | @tail w w' hr hs ih =>
    have hlen := length_activities hr
    -- a new operation stands at the end of the activities, at its first stage
    have begun (job : Job) (m : Moment) (hwho : m.occurrence.who = w.activities.length)
        (hlead : ∀ g, C.lead g m.occurrence = C.start job) (hjob : C.admits job)
        (hmet : C.Met w.past)
        (hnew : (w.activities ++ [job.program s])[who]? = some p) :
        C.Keeps (fun g _ => C.final g) p (C.stage who (m :: w.past)) := by
      rcases Nat.lt_or_ge who w.activities.length with hlt | hge
      · rw [List.getElem?_append_left hlt] at hnew
        rw [stage_other (by omega)]
        exact ih hmet hnew
      · rw [List.getElem?_append_right hge, List.getElem?_singleton] at hnew
        split at hnew
        · next h0 =>
          have hself : m.occurrence.who = who := by omega
          subst hself
          rw [stage_self, hlead, ← Option.some.inj hnew]
          exact hC job hjob
        · exact absurd hnew (by simp)
    -- an operation that goes on is replaced by what is left of it
    have goesOn (m : Moment) (q : Program Call.signature Unit) (hmet : C.Met w.past)
        (hq : C.Keeps (fun g _ => C.final g) q
          (C.lead (C.stage m.occurrence.who w.past) m.occurrence))
        (hset : (w.activities.set m.occurrence.who q)[who]? = some p) :
        C.Keeps (fun g _ => C.final g) p (C.stage who (m :: w.past)) := by
      by_cases hself : m.occurrence.who = who
      · subst hself
        rw [List.getElem?_set_self'] at hset
        obtain ⟨_, -, rfl⟩ := Option.map_eq_some_iff.1 hset
        rw [stage_self]
        exact hq
      · rw [List.getElem?_set_ne hself] at hset
        rw [stage_other hself]
        exact ih hmet hset
    cases hs with
    | begin job => exact begun job _ rfl (fun _ => rfl) hm.1 hm.2 hp
    | wake id => exact begun (.dispatch id) _ rfl (fun _ => rfl) hm.1 hm.2 hp
    | answer next returns => exact goesOn _ _ hm.2 ((ih hm.2 next).2 _ hm.1) hp
    | fail next failure => exact goesOn _ _ hm.2 ((ih hm.2 next).2 _ hm.1) hp
    | breakDown next breaks => exact goesOn _ (.done ()) hm.2 C.final_gone hp

/-- The next call of an operation is in order. -/
theorem allows_of_next (hC : C.Governs s) (hw : Reachable s w) (hm : C.Met w.past) {who : Nat}
    {c : Call} {k : c.Answer → Program Call.signature Unit}
    (next : w.activities[who]? = some (.call c k)) : C.allows (C.stage who w.past) c :=
  (keeps_reachable hC hw hm next).1

/-- **The past of every scene is orderly.** -/
theorem orderly_reachable (hC : C.Governs s) (hw : Reachable s w) (hm : C.Met w.past) :
    C.Orderly w.past := by
  induction hw with
  | init => trivial
  | @tail w w' hr hs ih =>
    have hlen := length_activities hr
    have started {who : Nat} {p : Program Call.signature Unit}
        (hp : w.activities[who]? = some p) : who < beginnings w.past := by
      rw [← hlen]
      exact (List.getElem?_eq_some_iff.1 hp).1
    cases hs with
    | begin job => exact ⟨⟨rfl, hlen, rfl⟩, ih hm.2⟩
    | wake id => exact ⟨⟨rfl, hlen, rfl⟩, ih hm.2⟩
    | answer next returns =>
      exact ⟨⟨rfl, started next, allows_of_next hC hr hm.2 next, returns⟩, ih hm.2⟩
    | fail next failure =>
      exact ⟨⟨rfl, started next, allows_of_next hC hr hm.2 next, failure, rfl⟩, ih hm.2⟩
    | breakDown next breaks =>
      exact ⟨⟨rfl, started next, allows_of_next hC hr hm.2 next, breaks, rfl⟩, ih hm.2⟩

/-- An operation to which something happens has begun by then. -/
theorem Follows.begun {m : Moment} (h : C.Follows past m) :
    m.occurrence.who < beginnings (m :: past) := by
  have hnumber := h.number
  unfold beginnings
  split at hnumber
  · next hbeg =>
    rw [if_pos hbeg, hnumber]
    exact Nat.lt_succ_self _
  · exact Nat.lt_of_lt_of_le hnumber (Nat.le_add_right _ _)

/-- An operation that has not begun is idle. -/
theorem stage_of_not_begun (hp : C.Orderly past) {who : Nat} (h : beginnings past ≤ who) :
    C.stage who past = C.idle := by
  induction past with
  | nil => rfl
  | cons m past ih =>
    have hother : m.occurrence.who ≠ who := Nat.ne_of_lt (Nat.lt_of_lt_of_le hp.1.begun h)
    rw [stage_other hother]
    exact ih hp.2 (Nat.le_trans (beginnings_le m past) h)

/-- When every operation has come to its end, each is idle or at a stage at which it may end. -/
theorem stage_of_allReturned (hC : C.Governs s) (hw : Reachable s w) (hm : C.Met w.past)
    (hend : w.AllReturned) (who : Nat) :
    C.stage who w.past = C.idle ∨ C.final (C.stage who w.past) := by
  rcases Nat.lt_or_ge who w.activities.length with hlt | hge
  · right
    have hp := keeps_reachable hC hw hm (List.getElem?_eq_getElem hlt)
    rw [hend _ (List.getElem_mem hlt)] at hp
    exact hp
  · left
    exact stage_of_not_begun (orderly_reachable hC hw hm) (length_activities hw ▸ hge)

end Conduct

end BackgroundTasks
