import BackgroundTasks.Store.Files
import BackgroundTasks.Proofs.Files.Places

/-!
# Calls to the file system that fail

A call fails before it has done anything, or it is cut short: of what was to be written only a
beginning is there, and a file that was to be opened has been made. A log that is cut back is the
one call that has to work, if there is a file to be cut at all.

Any number of the calls of a program may fail. What a program may then do is a relation between the
place it starts from, its result and the place it ends in.
-/

namespace BackgroundTasks

/-- What a call that fails may have done to the place. -/
inductive FileCall.Fails : FileCall → Place → Place → Prop
  | untouched {c : FileCall} (p : Place) (hc : ∀ name length, c ≠ .truncate name length) :
      Fails c p p
  | cutShort {name : String} {bytes : List UInt8} {p q : Place} (written : Nat)
      (h : p.putFile? [name] (bytes.take written) = some q) : Fails (.write name bytes) p q
  | opened {name : String} {p q : Place}
      (h : p.putFile? [name] ((p.bytes? [name]).getD []) = some q) : Fails (.openAtEnd name) p q
  | appended {name : String} {bytes content : List UInt8} {p q : Place} (written : Nat)
      (hc : p.bytes? [name] = some content)
      (h : p.putFile? [name] (content ++ bytes.take written) = some q) :
      Fails (.append name bytes) p q

namespace FileStore

/-- What a program may do when some of its calls fail. -/
inductive MayRun {α : Type} : FileProgram α → Place → α → Place → Prop
  | done (a : α) (p : Place) : MayRun (.done a) p a p
  | answers {c : FileCall} {k : c.Answer → FileProgram α} {p q : Place} {a : α}
      (h : MayRun (k (Place.answer c p).1) (Place.answer c p).2 a q) : MayRun (.call c k) p a q
  | fails {c : FileCall} {k : c.Answer → FileProgram α} {p p' q : Place} {a : α}
      (hc : c.Fails p p') (h : MayRun (k none) p' a q) : MayRun (.call c k) p a q

variable {α β : Type} {p q : Place}

/-! ## Without faults -/

theorem eval_then {w : Work α} {f : α → Work β} {a : α}
    (h : w.eval Place.answer p = (.ok a, q)) :
    (w >>= f : Work β).eval Place.answer p = (f a).eval Place.answer q := by
  refine (Program.eval_bind _ w _ p).trans ?_
  rw [h]
  rfl

theorem eval_then_error {w : Work α} {f : α → Work β} {fault : StoreFault}
    (h : w.eval Place.answer p = (.error fault, q)) :
    (w >>= f : Work β).eval Place.answer p = (.error fault, q) := by
  refine (Program.eval_bind _ w _ p).trans ?_
  rw [h]
  rfl

theorem eval_perform (c : FileCall) (p : Place) :
    (perform c).eval Place.answer p
      = ((Place.answer c p).1.elim (.error .storage) .ok, (Place.answer c p).2) := by
  unfold perform Program.eval
  rcases Place.answer c p with ⟨_ | _, _⟩ <;> rfl

/-! ## With faults -/

theorem mayRun_done {a b : α} : MayRun (.done a) p b q ↔ b = a ∧ q = p := by
  constructor
  · rintro ⟨⟩
    exact ⟨rfl, rfl⟩
  · rintro ⟨rfl, rfl⟩
    exact .done b q

theorem mayRun_call {c : FileCall} {k : c.Answer → FileProgram α} {a : α} :
    MayRun (.call c k) p a q ↔
      MayRun (k (Place.answer c p).1) (Place.answer c p).2 a q
        ∨ ∃ p', c.Fails p p' ∧ MayRun (k none) p' a q := by
  constructor
  · rintro (_ | h | ⟨hc, h⟩)
    · exact .inl h
    · exact .inr ⟨_, hc, h⟩
  · rintro (h | ⟨p', hc, h⟩)
    · exact .answers h
    · exact .fails hc h

/-- A program that runs without faults is one way in which it may run. -/
theorem mayRun_eval (w : FileProgram α) (p : Place) :
    MayRun w p (w.eval Place.answer p).1 (w.eval Place.answer p).2 := by
  induction w generalizing p with
  | done a => exact .done a p
  | call c k ih => exact .answers (ih _ _)

theorem mayRun_bind {w : FileProgram α} {f : α → FileProgram β} {b : β} :
    MayRun (w.bind f) p b q ↔ ∃ a p', MayRun w p a p' ∧ MayRun (f a) p' b q := by
  induction w generalizing p with
  | done a =>
    constructor
    · intro hf
      exact ⟨a, p, .done a p, hf⟩
    · rintro ⟨_, _, ha, hf⟩
      obtain ⟨rfl, rfl⟩ := mayRun_done.1 ha
      exact hf
  | call c k ih =>
    rw [Program.bind, mayRun_call]
    simp only [ih, mayRun_call]
    constructor
    · rintro (⟨a, p', hk, hf⟩ | ⟨p', hc, a, p'', hk, hf⟩)
      · exact ⟨a, p', .inl hk, hf⟩
      · exact ⟨a, p'', .inr ⟨p', hc, hk⟩, hf⟩
    · rintro ⟨a, p', hk | ⟨p'', hc, hk⟩, hf⟩
      · exact .inl ⟨a, p', hk, hf⟩
      · exact .inr ⟨p'', hc, a, p', hk, hf⟩

/-! ## Work that may fail -/

/-- Work goes on only when what comes first has succeeded. -/
theorem mayRun_then {w : Work α} {f : α → Work β} {b : Except StoreFault β} :
    MayRun (w >>= f : Work β) p b q ↔
      (∃ a p', MayRun w p (.ok a) p' ∧ MayRun (f a) p' b q)
        ∨ ∃ fault, b = .error fault ∧ MayRun w p (.error fault) q := by
  refine mayRun_bind.trans ?_
  constructor
  · rintro ⟨a | a, p', hw, hf⟩
    · obtain ⟨rfl, rfl⟩ := mayRun_done.1 hf
      exact .inr ⟨a, rfl, hw⟩
    · exact .inl ⟨a, p', hw, hf⟩
  · rintro (⟨a, p', hw, hf⟩ | ⟨fault, rfl, hw⟩)
    · exact ⟨.ok a, p', hw, hf⟩
    · exact ⟨.error fault, q, hw, .done _ q⟩

theorem mayRun_pure {a : α} {b : Except StoreFault α} :
    MayRun (pure a : Work α) p b q ↔ b = .ok a ∧ q = p := mayRun_done

/-- A single call succeeds by doing what it says, and in no other way. -/
theorem mayRun_perform_ok {c : FileCall} {a : c.Result} :
    MayRun (perform c) p (.ok a) q ↔ Place.answer c p = (some a, q) := by
  refine mayRun_call.trans ?_
  rcases hanswer : Place.answer c p with ⟨_ | b, p'⟩
  · constructor
    · rintro (h | ⟨_, -, h⟩) <;> cases (mayRun_done.1 h).1
    · rintro ⟨⟩
  · constructor
    · rintro (h | ⟨_, -, h⟩)
      · obtain ⟨⟨⟩, rfl⟩ := mayRun_done.1 h
        rfl
      · cases (mayRun_done.1 h).1
    · rintro ⟨⟩
      exact .inl (.done _ _)

theorem mayRun_perform_error {c : FileCall} {fault : StoreFault} :
    MayRun (perform c) p (.error fault) q ↔
      fault = .storage ∧ (Place.answer c p = (none, q) ∨ c.Fails p q) := by
  refine mayRun_call.trans ?_
  rcases hanswer : Place.answer c p with ⟨_ | b, p'⟩
  · constructor
    · rintro (h | ⟨_, hc, h⟩)
      · obtain ⟨⟨⟩, rfl⟩ := mayRun_done.1 h
        exact ⟨rfl, .inl rfl⟩
      · obtain ⟨⟨⟩, rfl⟩ := mayRun_done.1 h
        exact ⟨rfl, .inr hc⟩
    · rintro ⟨rfl, h | hc⟩
      · cases h
        exact .inl (.done _ _)
      · exact .inr ⟨q, hc, .done _ _⟩
  · constructor
    · rintro (h | ⟨_, hc, h⟩)
      · cases (mayRun_done.1 h).1
      · obtain ⟨⟨⟩, rfl⟩ := mayRun_done.1 h
        exact ⟨rfl, .inr hc⟩
    · rintro ⟨rfl, h | hc⟩
      · cases h
      · exact .inr ⟨q, hc, .done _ _⟩

/-- Work whose failure has the log cut back succeeds when the work does. -/
theorem mayRun_orCutLog_ok {w : Work α} {length : Nat} {a : α} :
    MayRun (orCutLog w length) p (.ok a) q ↔ MayRun w p (.ok a) q := by
  refine mayRun_bind.trans ?_
  constructor
  · rintro ⟨b | b, p', hw, h⟩
    · rcases mayRun_call.1 h with h | ⟨_, -, h⟩ <;> cases (mayRun_done.1 h).1
    · obtain ⟨⟨⟩, rfl⟩ := mayRun_done.1 h
      exact hw
  · intro hw
    exact ⟨.ok a, q, hw, .done _ q⟩

/-- Work that fails is followed by the log being cut back, and that call does not fail. -/
theorem mayRun_orCutLog_error {w : Work α} {length : Nat} {fault : StoreFault} :
    MayRun (orCutLog w length) p (.error fault) q ↔
      ∃ p', MayRun w p (.error fault) p' ∧ (Place.answer (.truncate logName length) p').2 = q := by
  refine mayRun_bind.trans ?_
  constructor
  · rintro ⟨b | b, p', hw, h⟩
    · rcases mayRun_call.1 h with h | ⟨_, hc, h⟩
      · obtain ⟨⟨⟩, rfl⟩ := mayRun_done.1 h
        exact ⟨p', hw, rfl⟩
      · cases hc with
        | untouched _ hc => exact absurd rfl (hc _ _)
    · cases (mayRun_done.1 h).1
  · rintro ⟨p', hw, rfl⟩
    exact ⟨.error fault, p', hw, .answers (.done _ _)⟩

end FileStore

end BackgroundTasks
