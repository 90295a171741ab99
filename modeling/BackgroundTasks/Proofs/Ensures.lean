import BackgroundTasks.Scheduler.Basic
import BackgroundTasks.System.Basic

/-!
# What an operation ensures

An operation runs alone in a system, but what its calls come to is not always for the system to say:
a worker may end in any way, a platform may do as it likes, the files may fail. A setting says which
answers are possible to a call, and which systems it may leave behind. An operation ensures
something in a setting if it does so whatever it is answered; and it comes to its end, since every
call has an answer, unless it gets to one at which it may be stuck.

There is one rule for each way of putting operations together, and they lead from what is to be
ensured back to what has to be shown of the calls.
-/

namespace BackgroundTasks

/-- What a call may return in a system, and the system that it may leave behind. -/
abbrev Setting : Type := (c : Call) → System → c.Answer → System → Prop

/--
Whatever its calls return, a program comes to its end, with a result and a system as required; or to
a call at which it may be stuck.
-/
def Program.Ensures {α : Type} (may : Setting) (stuck : Call → System → Prop)
    (post : α → System → Prop) : Program Call.signature α → System → Prop
  | .done a, y => post a y
  | .call c k, y => ((∃ r y', may c y r y') ∨ stuck c y)
      ∧ ∀ r y', may c y r y' → Ensures may stuck post (k r) y'

/-- The same of an operation, with what is required when it fails said apart. -/
def Operation.Ensures {α : Type} (may : Setting) (stuck : Call → System → Prop)
    (op : Operation α) (y : System) (ok : α → System → Prop)
    (failed : Failure → System → Prop) : Prop :=
  Program.Ensures may stuck
    (fun r y => match r with | .ok a => ok a y | .error failure => failed failure y) op y

variable {may : Setting} {stuck : Call → System → Prop} {α β : Type} {y : System}

namespace Program

theorem ensures_bind (post : β → System → Prop) (p : Program Call.signature α)
    (f : α → Program Call.signature β) (y : System) :
    Ensures may stuck post (p.bind f) y
      ↔ Ensures may stuck (fun a y => Ensures may stuck post (f a) y) p y := by
  induction p generalizing y with
  | done a => exact Iff.rfl
  | call c k ih =>
    refine and_congr_right fun _ => forall_congr' fun r => forall_congr' fun y' => ?_
    exact imp_congr_right fun _ => ih r y'

theorem Ensures.mono {post post' : α → System → Prop} {p : Program Call.signature α}
    (h : Ensures may stuck post p y) (hpost : ∀ a y, post a y → post' a y) :
    Ensures may stuck post' p y := by
  induction p generalizing y with
  | done a => exact hpost a y h
  | call c k ih => exact ⟨h.1, fun r y' hr => ih r (h.2 r y' hr)⟩

/-- A call in which the setting has the system answer, and nobody else. -/
theorem ensures_answered {c : Call} {k : c.Answer → Program Call.signature α} {r : c.Answer}
    {y' : System} {post : α → System → Prop}
    (hmay : ∀ r y', may c y r y' ↔ y.answer c = (some r, y'))
    (hanswer : y.answer c = (some r, y')) (h : Ensures may stuck post (k r) y') :
    Ensures may stuck post (.call c k) y := by
  refine ⟨.inl ⟨r, y', (hmay r y').2 hanswer⟩, fun r' y'' hr => ?_⟩
  cases hanswer.symm.trans ((hmay r' y'').1 hr)
  exact h

theorem ensures_congr {post post' : α → System → Prop} {p : Program Call.signature α}
    (h : ∀ a y, post a y ↔ post' a y) :
    Ensures may stuck post p y ↔ Ensures may stuck post' p y :=
  ⟨fun hp => hp.mono fun a y => (h a y).1, fun hp => hp.mono fun a y => (h a y).2⟩

end Program

namespace Operation

variable {ok : α → System → Prop} {failed : Failure → System → Prop}

theorem Ensures.mono {op : Operation α} {ok' : α → System → Prop}
    {failed' : Failure → System → Prop} (h : op.Ensures may stuck y ok failed)
    (hok : ∀ a y, ok a y → ok' a y) (hfailed : ∀ failure y, failed failure y → failed' failure y) :
    op.Ensures may stuck y ok' failed' := by
  refine Program.Ensures.mono h ?_
  intro r y hr
  cases r with
  | ok a => exact hok a y hr
  | error failure => exact hfailed failure y hr

/-- What is required of a result may be said of its two kinds apart. -/
theorem ensures_result {op : Operation α} {post : Except Failure α → System → Prop} :
    op.Ensures may stuck y (fun a => post (.ok a)) (fun failure => post (.error failure))
      ↔ Program.Ensures may stuck post op y := by
  refine Program.ensures_congr ?_
  intro r y
  cases r <;> exact Iff.rfl

@[simp] theorem ensures_pure (a : α) :
    (pure a : Operation α).Ensures may stuck y ok failed ↔ ok a y := Iff.rfl

@[simp] theorem ensures_bind (op : Operation α) (f : α → Operation β) {ok : β → System → Prop} :
    (op >>= f).Ensures may stuck y ok failed
      ↔ op.Ensures may stuck y (fun a y => (f a).Ensures may stuck y ok failed) failed := by
  refine (Program.ensures_bind _ op _ y).trans (Program.ensures_congr ?_)
  intro r y
  cases r <;> exact Iff.rfl

@[simp] theorem ensures_map (op : Operation α) (f : α → β) {ok : β → System → Prop} :
    (f <$> op).Ensures may stuck y ok failed
      ↔ op.Ensures may stuck y (fun a y => ok (f a) y) failed := by
  rw [← bind_pure_comp, ensures_bind]
  simp only [ensures_pure]

@[simp] theorem ensures_ite {p : Prop} [Decidable p] {x z : Operation α} :
    (if p then x else z).Ensures may stuck y ok failed
      ↔ (p → x.Ensures may stuck y ok failed) ∧ (¬ p → z.Ensures may stuck y ok failed) := by
  split <;> simp [*]

@[simp] theorem ensures_ignoringFailure (op : Operation α) {ok : Unit → System → Prop} :
    (ignoringFailure op).Ensures may stuck y ok failed
      ↔ op.Ensures may stuck y (fun _ y => ok () y) (fun _ y => ok () y) := by
  refine (Program.ensures_bind _ op _ y).trans (Program.ensures_congr ?_)
  intro r y
  cases r <;> exact Iff.rfl

@[simp] theorem ensures_orElse (op : Operation α) (default : α) :
    (orElse op default).Ensures may stuck y ok failed
      ↔ op.Ensures may stuck y ok (fun _ y => ok default y) := by
  refine (Program.ensures_bind _ op _ y).trans (Program.ensures_congr ?_)
  intro r y
  cases r <;> exact Iff.rfl

/-- A failure that is caught is handled in the system that it has left. -/
@[simp] theorem ensures_tryCatch (op : Operation α) (handle : Failure → Operation α) :
    (tryCatch op handle).Ensures may stuck y ok failed
      ↔ op.Ensures may stuck y ok
          (fun failure y => (handle failure).Ensures may stuck y ok failed) := by
  refine (Program.ensures_bind _ op _ y).trans (Program.ensures_congr ?_)
  intro r y
  cases r <;> exact Iff.rfl

/-- A loop keeps what each of its rounds keeps. -/
theorem ensures_forM {f : β → Operation Unit} (inv : List β → System → Prop)
    (round : ∀ b rest y, inv (b :: rest) y →
      (f b).Ensures may stuck y (fun _ y => inv rest y) failed)
    (items : List β) (h : inv items y) :
    (items.forM f).Ensures may stuck y (fun _ y => inv [] y) failed := by
  induction items generalizing y with
  | nil => exact h
  | cons b rest ih =>
    show (f b >>= fun _ => rest.forM f).Ensures may stuck y _ _
    rw [ensures_bind]
    -- whatever system the first round leaves, the others go on from there
    exact (round b rest y h).mono (fun _ _ hy => ih hy) fun _ _ hf => hf

/-- A request is looked at without any call. -/
theorem ensures_normalize (s : Scheduler) (request : Request) (now : UInt64)
    {ok : NormalizedRequest → System → Prop} :
    (s.normalize request now).Ensures may stuck y ok failed
      ↔ match request.normalize s.registry now s.config with
        | .ok normalized => ok normalized y
        | .error fault => failed fault.failure y := by
  unfold Scheduler.normalize
  cases request.normalize s.registry now s.config <;> exact Iff.rfl

/-- A call that always has an answer. -/
theorem ensures_ask {c : Call} {ok : c.Answer → System → Prop}
    (hanswers : (∃ r y', may c y r y') ∨ stuck c y) (hok : ∀ r y', may c y r y' → ok r y') :
    (ask c).Ensures may stuck y ok failed :=
  ⟨hanswers, hok⟩

end Operation

end BackgroundTasks
