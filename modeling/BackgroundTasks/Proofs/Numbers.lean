import BackgroundTasks.Proofs.LifeCycle

/-!
# The numbers of claims

By its number alone a result is told from those of earlier claims, so no two claims of a task should
have the same. A claim has the number after that of the row, and a row's number is never taken back,
so a later claim has the greater number: as long as there is a number left. The counter stays where
it ends, and from then on every claim has the last number.

All of this follows from what one turn of a store may do to the numbers that its rows have, whatever
kind of store it is.
-/

namespace BackgroundTasks

/-! ## Turns -/

/-- One turn in the life of a store. -/
inductive Turn where
  | returned (c : StoreCall) (a : c.Answer)
  /-- A completion that is not logged, and whether it was applied. -/
  | concluded (id : TaskId) (c : Completion) (applied : Bool)
  /-- The store was opened anew. -/
  | reopened

/-- The number of the latest claim of a task, as its row has it. -/
def TaskTable.number? (t : TaskTable) (id : TaskId) : Option UInt32 := (t.find? id).map Row.attempts

namespace Turn

/-- The row of a task is claimed, under a number. -/
def Claims (id : TaskId) (number : UInt32) (x : Turn) : Prop :=
  ∃ now row, x = .returned (.claim id now) (.ok (some row)) ∧ row.attempts = number

/-- A completion that goes by a number is applied to the row of a task. -/
def Applies (id : TaskId) (number : UInt32) (x : Turn) : Prop :=
  ∃ c, c.claimedAttempt = number ∧
    ((∃ e, x = .returned (.complete id c e) (.ok true)) ∨ x = .concluded id c true)

/-- What a turn may do to the numbers of a store. -/
structure Counts (x : Turn) (t t' : TaskTable) : Prop where
  /-- No number is lost or taken back. -/
  kept : ∀ id n, t.number? id = some n → ∃ n', t'.number? id = some n' ∧ n ≤ n'
  claims : ∀ id n, x.Claims id n →
    ∃ m, t.number? id = some m ∧ n = satSucc m ∧ t'.number? id = some n
  applies : ∀ id n, x.Applies id n → t.number? id = some n

end Turn

/--
Two claims of one task have different numbers, and no completion that goes by the earlier number is
applied after the later claim; but for the last number, which every further claim has as well.
-/
structure Numbered (turns : List Turn) : Prop where
  apart : ∀ earlier first between second later id m n,
    turns = earlier ++ first :: (between ++ second :: later) →
    first.Claims id m → second.Claims id n →
    m ≤ n ∧ (m = n ↔ m = maxCount) ∧ ∀ x ∈ later, x.Applies id m → m = maxCount

/-! ## Many turns -/

variable {t t' t'' : TaskTable} {x : Turn} {xs ys : List Turn} {id : TaskId} {m n : UInt32}

/-- Turns that lead a store from one table to another. -/
inductive Counted : TaskTable → List Turn → TaskTable → Prop
  | nil (t : TaskTable) : Counted t [] t
  | cons {t t' t'' : TaskTable} {x : Turn} {xs : List Turn} (head : x.Counts t t')
      (tail : Counted t' xs t'') : Counted t (x :: xs) t''

namespace Counted

theorem of_append (h : Counted t (xs ++ ys) t'') : ∃ t', Counted t xs t' ∧ Counted t' ys t'' := by
  induction xs generalizing t with
  | nil => exact ⟨t, .nil t, h⟩
  | cons x xs ih =>
    obtain ⟨⟩ | ⟨head, tail⟩ := h
    obtain ⟨t', hxs, hys⟩ := ih tail
    exact ⟨t', .cons head hxs, hys⟩

theorem of_cons (h : Counted t (x :: xs) t'') : ∃ t', x.Counts t t' ∧ Counted t' xs t'' := by
  obtain ⟨⟩ | ⟨head, tail⟩ := h
  exact ⟨_, head, tail⟩

theorem kept (h : Counted t xs t') (hn : t.number? id = some n) :
    ∃ n', t'.number? id = some n' ∧ n ≤ n' := by
  induction h generalizing n with
  | nil => exact ⟨n, hn, UInt32.le_refl n⟩
  | cons head _ ih =>
    obtain ⟨n₁, hn₁, hle₁⟩ := head.kept id n hn
    obtain ⟨n', hn', hle⟩ := ih hn₁
    exact ⟨n', hn', UInt32.le_trans hle₁ hle⟩

/-- The number of a row that has been claimed since is greater, unless it was the last one. -/
theorem lt_satSucc (hle : m ≤ n) : m ≤ satSucc n ∧ (m = satSucc n ↔ m = maxCount) := by
  have hmax : maxCount.toNat = 4294967295 := rfl
  have hm := m.toNat_lt
  have hn := n.toNat_lt
  rw [UInt32.le_iff_toNat_le] at hle
  rw [UInt32.le_iff_toNat_le, ← UInt32.toNat_inj, ← UInt32.toNat_inj, toNat_satSucc]
  omega

/-- **Numbers tell claims apart, as long as there are any left.** -/
theorem numbered (h : Counted t xs t') : Numbered xs where
  apart := by
    rintro earlier first between second later id m n rfl hfirst hsecond
    obtain ⟨t₁, -, h⟩ := h.of_append
    obtain ⟨t₂, hcounts, h⟩ := h.of_cons
    obtain ⟨t₃, hbetween, h⟩ := h.of_append
    obtain ⟨t₄, hcounts', hlater⟩ := h.of_cons
    -- the row has the number of the first claim, and no smaller one when it is claimed again
    obtain ⟨-, -, -, hm⟩ := hcounts.claims id m hfirst
    obtain ⟨k, hk, hle⟩ := hbetween.kept hm
    obtain ⟨k', hk', rfl, hn⟩ := hcounts'.claims id n hsecond
    obtain rfl := Option.some.inj (hk.symm.trans hk')
    obtain ⟨hle', heq⟩ := lt_satSucc hle
    refine ⟨hle', heq, fun x hx happlies => heq.1 (UInt32.le_antisymm hle' ?_)⟩
    -- a completion finds a number that is not below that of the second claim
    obtain ⟨l, r, rfl⟩ := List.append_of_mem hx
    obtain ⟨t₅, hl, hr⟩ := hlater.of_append
    obtain ⟨t₆, hcompletes, -⟩ := hr.of_cons
    obtain ⟨n', hn', hge⟩ := hl.kept hn
    obtain rfl := Option.some.inj (hn'.symm.trans (hcompletes.applies id m happlies))
    exact hge

end Counted

/-! ## The turns of a table -/

namespace TaskTable

/-- A transaction and what it returns. -/
def turn (t : TaskTable) : Transaction → Turn
  | .call c => .returned c (t.answer c).1
  | .conclude id c => .concluded id c (t.applyCompletion id c).1

/-- Transactions that come one after another, and what they return. -/
def turns (t : TaskTable) : List Transaction → List Turn
  | [] => []
  | x :: xs => t.turn x :: (t.after x).turns xs

theorem kept_after (t : TaskTable) (x : Transaction) (h : t.number? id = some n) :
    ∃ n', (t.after x).number? id = some n' ∧ n ≤ n' := by
  obtain ⟨row, hrow, rfl⟩ := Option.map_eq_some_iff.1 h
  obtain ⟨row', hrow', hevolves⟩ := (t.lawful x).evolves id row hrow
  exact ⟨row'.attempts, by rw [number?, hrow']; rfl, hevolves.attempts⟩

theorem counts_claim {now : UInt64} {row : Row}
    (h : (t.answer (.claim id now)).1 = .ok (some row)) :
    ∃ m, t.number? id = some m ∧ row.attempts = satSucc m
      ∧ (t.answer (.claim id now)).2.number? id = some row.attempts := by
  obtain ⟨⟨found, hfound, -, hclaimed⟩, hrow⟩ := stepAt_taken (Except.ok.inj h)
  refine ⟨found.attempts, by rw [number?, hfound]; rfl, ?_, ?_⟩
  · rw [Option.some.inj hclaimed]
    rfl
  · show ((t.stepAt id (.claim now)).2.find? id).map Row.attempts = _
    rw [hrow]
    rfl

theorem counts_applied {c : Completion} (h : (t.applyCompletion id c).1 = true) :
    t.number? id = some c.claimedAttempt := by
  have htakes : (RowStep.complete c).Takes (t.find? id) ((t.stepAt id (.complete c)).2.find? id) :=
    takes_of_isSome h
  obtain ⟨row, hrow, haccepts, -⟩ := htakes
  rw [number?, hrow, ← (RowStep.complete_accepts.1 haccepts).2.1]
  rfl

/-- A transaction does to the numbers what a turn may do. -/
theorem counts_turn (t : TaskTable) (x : Transaction) : (t.turn x).Counts t (t.after x) where
  kept id n h := t.kept_after x h
  claims id n h := by
    obtain ⟨now, row, hx, rfl⟩ := h
    cases x with
    | conclude => cases hx
    | call c =>
      obtain ⟨rfl, ha⟩ := Turn.returned.inj hx
      exact counts_claim (eq_of_heq ha)
  applies id n h := by
    obtain ⟨c, rfl, ⟨e, hx⟩ | hx⟩ := h
    · cases x with
      | conclude => cases hx
      | call c' =>
        obtain ⟨rfl, ha⟩ := Turn.returned.inj hx
        exact counts_applied (Except.ok.inj (eq_of_heq ha))
    · cases x with
      | call => cases hx
      | conclude id' c' =>
        obtain ⟨rfl, rfl, happlied⟩ := Turn.concluded.inj hx
        exact counts_applied happlied

theorem counted_turns (t : TaskTable) (xs : List Transaction) :
    Counted t (t.turns xs) (t.run xs) := by
  induction xs generalizing t with
  | nil => exact .nil t
  | cons x xs ih => exact .cons (t.counts_turn x) (ih _)

end TaskTable

end BackgroundTasks
