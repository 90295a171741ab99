import BackgroundTasks.Proofs.Ensures

/-!
# Operations alone

An operation that runs alone in a system has its calls answered by the system, one after the other.
What becomes of it can be said in two ways: as a run that has a result, and as what it ensures when
there is no choice in the answers. The second has a rule for each way of putting operations
together, and the first is what it comes to.
-/

namespace BackgroundTasks

/-- Alone in a system, an operation returns a result and leaves a system behind. -/
def Operation.Completes {α : Type} (op : Operation α) (y : System) (a : α) (y' : System) : Prop :=
  Program.run System.answer op y = (.finished (.ok a), y')

/-- The system answers, and there is no choice in it. -/
def System.Answers : Setting := fun c y r y' => y.answer c = (some r, y')

namespace Operation

variable {α β : Type} {y y' y'' : System} {a : α} {b : β}

theorem completes_pure : (pure a : Operation α).Completes y a y := rfl

theorem run_call {c : Call} {k : c.Answer → Program Call.signature α} {r : c.Answer}
    (h : y.answer c = (some r, y')) :
    Program.run System.answer (.call c k) y = (k r).run System.answer y' := by
  rw [Program.run, h]

theorem run_bind {p : Program Call.signature α} {f : α → Program Call.signature β}
    (h : p.run System.answer y = (.finished a, y')) :
    (p.bind f).run System.answer y = (f a).run System.answer y' := by
  induction p generalizing y with
  | done =>
    cases h
    rfl
  | call c k ih =>
    rcases hanswer : y.answer c with ⟨_ | r, next⟩
    · rw [Program.run, hanswer] at h
      cases h
    · rw [run_call hanswer] at h
      exact (run_call hanswer).trans (ih r h)

theorem Completes.bind {op : Operation α} {f : α → Operation β} (h : op.Completes y a y')
    (hf : (f a).Completes y' b y'') : (op >>= f).Completes y b y'' :=
  (run_bind h).trans hf

theorem completes_store {c : StoreCall} {a : c.Result} (h : y.askStore c = (some (.ok a), y')) :
    (store c).Completes y a y' :=
  run_call (c := .store c) h

end Operation

namespace Program

variable {α : Type} {y y' : System}

theorem ensures_call {c : Call} {k : c.Answer → Program Call.signature α} {r : c.Answer}
    {stuck : Call → System → Prop} {post : α → System → Prop} (hanswer : y.answer c = (some r, y'))
    (h : (k r).Ensures System.Answers stuck post y') :
    (Program.call c k).Ensures System.Answers stuck post y :=
  ensures_answered (fun _ _ => Iff.rfl) hanswer h

/-- What a program ensures when the system answers is so once it has run. -/
theorem Ensures.run {p : Program Call.signature α} {post : α → System → Prop}
    (h : p.Ensures System.Answers (fun _ _ => False) post y) :
    ∃ a y', p.run System.answer y = (.finished a, y') ∧ post a y' := by
  induction p generalizing y with
  | done a => exact ⟨a, y, rfl, h⟩
  | call c k ih =>
    obtain ⟨⟨r, y', hanswer⟩ | ⟨⟨⟩⟩, hrest⟩ := h
    obtain ⟨a, y'', hrun, hpost⟩ := ih r (hrest r y' hanswer)
    exact ⟨a, y'', (Operation.run_call hanswer).trans hrun, hpost⟩

end Program

namespace Operation

variable {α : Type} {y : System} {failed : Failure → System → Prop}

/-- Alone in a system, an operation comes to its end as required. -/
abbrev Ends (op : Operation α) (y : System) (ok : α → System → Prop)
    (failed : Failure → System → Prop) : Prop :=
  op.Ensures System.Answers (fun _ _ => False) y ok failed

theorem Ends.completes {op : Operation α} {ok : α → System → Prop}
    (h : op.Ends y ok fun _ _ => False) : ∃ a y', op.Completes y a y' ∧ ok a y' := by
  obtain ⟨r, y', hrun, hpost⟩ := Program.Ensures.run h
  cases r with
  | ok a => exact ⟨a, y', hrun, hpost⟩
  | error failure => exact hpost.elim

theorem ends_ask {c : Call} {r : c.Answer} {y' : System} {ok : c.Answer → System → Prop}
    (hanswer : y.answer c = (some r, y')) (h : ok r y') : (ask c).Ends y ok failed :=
  Program.ensures_call hanswer h

end Operation

end BackgroundTasks
