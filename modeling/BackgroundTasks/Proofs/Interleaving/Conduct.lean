import BackgroundTasks.Proofs.Interleaving.Basic

/-!
# Codes of conduct

What an operation has promised at a given time depends on the calls it has made and on the answers
it has got. A conduct says so in general: it has stages, it says which calls are in order at each
of them and which answers may be counted on there, and an answer leads from one stage to the next.

That a program keeps a conduct is a statement about its tree of calls alone. What follows from it is
a statement about histories: every call in the past of a scene was in order at the stage its
operation had then. So programs are looked into once for each conduct, and whatever holds of all
orders of calls is shown by induction on the history, in which there are no programs any more.
-/

namespace BackgroundTasks

/-- A code of conduct for operations. -/
structure Conduct (S : Type) where
  /-- The jobs that may be given. -/
  admits : Job → Prop
  /-- The stage of an operation that has not begun. -/
  idle : S
  /-- The stage of an operation that begins. -/
  start : Job → S
  /-- The stage of an operation that is gone. -/
  gone : S
  /-- The calls that are in order at a stage. -/
  allows : S → Call → Prop
  /-- The answers that may be counted on. -/
  expects : S → (c : Call) → c.Answer → Prop
  /-- The stage that an answer leads to. -/
  next : S → (c : Call) → c.Answer → S
  /-- The stages at which an operation may end. -/
  final : S → Prop
  final_gone : final gone

namespace Conduct

variable {S : Type} (C : Conduct S) {α β : Type}

/-! ## Programs -/

/-- From a stage on, a program keeps the conduct, and leaves a stage and a result as required. -/
def Keeps (post : S → α → Prop) : Program Call.signature α → S → Prop
  | .done a, g => post g a
  | .call c k, g => C.allows g c ∧ ∀ r, C.expects g c r → Keeps post (k r) (C.next g c r)

/--
From a stage on, an operation keeps the conduct, leaves a stage and a result as required when it
succeeds, and a stage as required when it fails.
-/
def Upholds (op : Operation α) (g : S) (ok : S → α → Prop) (failed : S → Prop) : Prop :=
  C.Keeps (fun g r => match r with | .ok a => ok g a | .error _ => failed g) op g

/-- Every job that may be given keeps the conduct, up to a stage at which it may end. -/
def Governs (s : Scheduler) : Prop :=
  ∀ job, C.admits job → C.Keeps (fun g _ => C.final g) (job.program s) (C.start job)

theorem keeps_bind (post : S → β → Prop) (p : Program Call.signature α)
    (f : α → Program Call.signature β) (g : S) :
    C.Keeps post (p.bind f) g ↔ C.Keeps (fun g a => C.Keeps post (f a) g) p g := by
  induction p generalizing g with
  | done a => exact Iff.rfl
  | call c k ih =>
    refine and_congr_right fun _ => forall_congr' fun r => imp_congr_right fun _ => ?_
    exact ih r _

theorem keeps_mono {post post' : S → α → Prop} (h : ∀ g a, post g a → post' g a)
    {p : Program Call.signature α} {g : S} (hp : C.Keeps post p g) : C.Keeps post' p g := by
  induction p generalizing g with
  | done a => exact h g a hp
  | call c k ih => exact ⟨hp.1, fun r hr => ih r (hp.2 r hr)⟩

theorem keeps_congr {post post' : S → α → Prop} (h : ∀ g a, post g a ↔ post' g a)
    {p : Program Call.signature α} {g : S} : C.Keeps post p g ↔ C.Keeps post' p g :=
  ⟨C.keeps_mono fun g a => (h g a).1, C.keeps_mono fun g a => (h g a).2⟩

theorem keeps_program (op : Operation α) (g : S) :
    C.Keeps (fun g _ => C.final g) op.program g
      ↔ C.Upholds op g (fun g _ => C.final g) C.final := by
  unfold Operation.program Upholds
  rw [keeps_bind]
  refine C.keeps_congr ?_
  intro g r
  cases r <;> exact Iff.rfl

/-! ## Operations -/

variable {C} {g : S} {ok : S → α → Prop} {failed : S → Prop}

theorem Upholds.mono {op : Operation α} {ok' : S → α → Prop} {failed' : S → Prop}
    (h : C.Upholds op g ok failed) (hok : ∀ g a, ok g a → ok' g a)
    (hfailed : ∀ g, failed g → failed' g) : C.Upholds op g ok' failed' := by
  refine C.keeps_mono ?_ h
  intro g r hr
  cases r with
  | ok a => exact hok g a hr
  | error f => exact hfailed g hr

@[simp] theorem upholds_pure (a : α) : C.Upholds (pure a) g ok failed ↔ ok g a := Iff.rfl

@[simp] theorem upholds_throw (f : Failure) :
    C.Upholds (throw f : Operation α) g ok failed ↔ failed g := Iff.rfl

@[simp] theorem upholds_bind (op : Operation α) (f : α → Operation β) {ok : S → β → Prop} :
    C.Upholds (op >>= f) g ok failed
      ↔ C.Upholds op g (fun g a => C.Upholds (f a) g ok failed) failed := by
  refine (C.keeps_bind _ op _ g).trans (C.keeps_congr ?_)
  intro g r
  cases r <;> exact Iff.rfl

@[simp] theorem upholds_map (op : Operation α) (f : α → β) {ok : S → β → Prop} :
    C.Upholds (f <$> op) g ok failed ↔ C.Upholds op g (fun g a => ok g (f a)) failed := by
  rw [← bind_pure_comp, upholds_bind]
  simp only [upholds_pure]

@[simp] theorem upholds_ite {p : Prop} [Decidable p] {x y : Operation α} :
    C.Upholds (if p then x else y) g ok failed
      ↔ (p → C.Upholds x g ok failed) ∧ (¬ p → C.Upholds y g ok failed) := by
  split <;> simp [*]

theorem forall_except {p : Except Failure α → Prop} :
    (∀ r, p r) ↔ (∀ a, p (.ok a)) ∧ ∀ f, p (.error f) := by
  constructor
  · intro h
    exact ⟨fun a => h _, fun f => h _⟩
  · intro h r
    cases r with
    | ok a => exact h.1 a
    | error f => exact h.2 f

theorem exists_of_isOk {ε β : Type} {r : Except ε β} (h : r.isOk = true) : ∃ b, r = .ok b := by
  cases r with
  | ok b => exact ⟨b, rfl⟩
  | error f => cases h

@[simp] theorem upholds_store (c : StoreCall) {ok : S → c.Result → Prop} :
    C.Upholds (Operation.store c) g ok failed
      ↔ C.allows g (.store c)
        ∧ (∀ a, C.expects g (.store c) (Except.ok a) → ok (C.next g (.store c) (Except.ok a)) a)
        ∧ ∀ f, C.expects g (.store c) (Except.error f)
            → failed (C.next g (.store c) (Except.error f)) :=
  and_congr_right fun _ => forall_except

@[simp] theorem upholds_arm (id : TaskId) (delay : Span) (conditions : Conditions)
    {ok : S → Option String → Prop} :
    C.Upholds (Operation.arm id delay conditions) g ok failed
      ↔ C.allows g (.arm id delay conditions)
        ∧ (∀ h, C.expects g (.arm id delay conditions) (Except.ok h)
            → ok (C.next g (.arm id delay conditions) (Except.ok h)) h)
        ∧ ∀ f, C.expects g (.arm id delay conditions) (Except.error f)
            → failed (C.next g (.arm id delay conditions) (Except.error f)) :=
  and_congr_right fun _ => forall_except

@[simp] theorem upholds_disarm (id : TaskId) {ok : S → Unit → Prop} :
    C.Upholds (Operation.disarm id) g ok failed
      ↔ C.allows g (.disarm id)
        ∧ (C.expects g (.disarm id) (Except.ok ())
            → ok (C.next g (.disarm id) (Except.ok ())) ())
        ∧ ∀ f, C.expects g (.disarm id) (Except.error f)
            → failed (C.next g (.disarm id) (Except.error f)) := by
  refine and_congr_right fun _ => forall_except.trans (and_congr_left' ?_)
  exact ⟨fun h => h (), fun h _ => h⟩

@[simp] theorem upholds_isArmed (id : TaskId) {ok : S → Bool → Prop} :
    C.Upholds (Operation.isArmed id) g ok failed
      ↔ C.allows g (.isArmed id)
        ∧ (∀ b, C.expects g (.isArmed id) (Except.ok b)
            → ok (C.next g (.isArmed id) (Except.ok b)) b)
        ∧ ∀ f, C.expects g (.isArmed id) (Except.error f)
            → failed (C.next g (.isArmed id) (Except.error f)) :=
  and_congr_right fun _ => forall_except

@[simp] theorem upholds_ignoringFailure (op : Operation α) {ok : S → Unit → Prop} :
    C.Upholds (Operation.ignoringFailure op) g ok failed
      ↔ C.Upholds op g (fun g _ => ok g ()) (fun g => ok g ()) := by
  refine (C.keeps_bind _ op _ g).trans (C.keeps_congr ?_)
  intro g r
  cases r <;> exact Iff.rfl

@[simp] theorem upholds_orElse (op : Operation α) (default : α) :
    C.Upholds (Operation.orElse op default) g ok failed
      ↔ C.Upholds op g ok (fun g => ok g default) := by
  refine (C.keeps_bind _ op _ g).trans (C.keeps_congr ?_)
  intro g r
  cases r <;> exact Iff.rfl

/-- What is done about a failure has to keep the conduct from wherever the failure has led. -/
theorem Upholds.tryCatch {op : Operation α} {handle : Failure → Operation α}
    (h : C.Upholds op g ok fun g' => ∀ failure, C.Upholds (handle failure) g' ok failed) :
    C.Upholds (tryCatch op handle) g ok failed := by
  refine (C.keeps_bind _ op _ g).2 (C.keeps_mono ?_ h)
  intro g' r hr
  cases r with
  | ok a => exact hr
  | error failure => exact hr failure

/-- A loop keeps the conduct when each of its rounds leads from a stage like it began to another. -/
theorem upholds_forM {β : Type} {f : β → Operation Unit} (inv : List β → S → Prop)
    (round : ∀ b rest g, inv (b :: rest) g → C.Upholds (f b) g (fun g _ => inv rest g) failed)
    (items : List β) {g : S} (h : inv items g) :
    C.Upholds (items.forM f) g (fun g _ => inv [] g) failed := by
  induction items generalizing g with
  | nil => exact h
  | cons b rest ih =>
    show C.Upholds (f b >>= fun _ => rest.forM f) g _ _
    rw [upholds_bind]
    -- whatever stage the first round leaves, the others go on from there
    exact (round b rest g h).mono (fun g _ hg => ih hg) fun _ hg => hg

theorem upholds_mapM {β : Type} {f : β → Operation α} (inv : List β → S → Prop)
    (round : ∀ b rest g, inv (b :: rest) g → C.Upholds (f b) g (fun g _ => inv rest g) failed)
    (items : List β) {g : S} (h : inv items g) :
    C.Upholds (items.mapM f) g (fun g _ => inv [] g) failed := by
  induction items generalizing g with
  | nil => exact h
  | cons b rest ih =>
    rw [List.mapM_cons, upholds_bind]
    refine (round b rest g h).mono (fun g _ hg => ?_) fun _ hg => hg
    rw [upholds_bind]
    exact ih hg

/-- A request is looked at without any call. -/
theorem upholds_normalize (s : Scheduler) (request : Request) (now : UInt64)
    {ok : S → NormalizedRequest → Prop} (hok : ∀ n, ok g n) (hfailed : failed g) :
    C.Upholds (s.normalize request now) g ok failed := by
  unfold Scheduler.normalize
  cases request.normalize s.registry now s.config with
  | ok n => exact hok n
  | error fault => exact hfailed

/-! ## Calls that a conduct is not about -/

/--
A conduct that has nothing to say about calls that concern neither rows nor wake-ups. Such calls are
always in order, and their answers lead nowhere.
-/
def Overlooks (C : Conduct S) : Prop :=
  ∀ (c : Call), c.isIncidental = true → ∀ g, C.allows g c ∧ ∀ r, C.next g c r = g

theorem Overlooks.ask (hC : C.Overlooks) {c : Call} (hc : c.isIncidental = true)
    {ok : S → c.Answer → Prop} (h : ∀ r, ok g r) :
    C.Upholds (Operation.ask c) g ok failed := by
  refine ⟨(hC c hc g).1, fun r _ => ?_⟩
  show ok (C.next g c r) r
  rw [(hC c hc g).2 r]
  exact h r

theorem Overlooks.now (hC : C.Overlooks) {ok : S → UInt64 → Prop} (h : ∀ t, ok g t) :
    C.Upholds Operation.now g ok failed :=
  hC.ask rfl h

theorem Overlooks.emit (hC : C.Overlooks) (e : Event) {ok : S → Unit → Prop} (h : ok g ()) :
    C.Upholds (Operation.emit e) g ok failed :=
  hC.ask rfl fun _ => h

theorem Overlooks.notify (hC : C.Overlooks) (kind : EventKind) (id : TaskId)
    (attempt : Option UInt32) (detail : Option String) {ok : S → Unit → Prop} (h : ok g ()) :
    C.Upholds (Operation.notify kind id attempt detail) g ok failed := by
  unfold Operation.notify
  rw [upholds_bind]
  exact hC.now fun t => hC.emit _ h

theorem Overlooks.refresh (hC : C.Overlooks) (id : TaskId) {ok : S → Unit → Prop} (h : ok g ())
    (hf : failed g) : C.Upholds (Operation.refresh id) g ok failed := by
  refine ⟨(hC (.readStatus id) rfl g).1, fun r _ => ?_⟩
  rw [(hC (.readStatus id) rfl g).2 r]
  rcases r with f | _ | state
  · exact hf
  · exact h
  · refine ⟨(hC (.publish id state) rfl g).1, fun r _ => ?_⟩
    rw [(hC (.publish id state) rfl g).2 r]
    exact h

theorem Overlooks.publishStatus (hC : C.Overlooks) (id : TaskId) {ok : S → Unit → Prop}
    (h : ok g ()) : C.Upholds (Operation.publishStatus id) g ok failed := by
  unfold Operation.publishStatus
  rw [upholds_ignoringFailure]
  exact hC.refresh id h h

end Conduct

end BackgroundTasks
