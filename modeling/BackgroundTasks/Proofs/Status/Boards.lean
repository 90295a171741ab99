import Mathlib.Data.List.Nodup
import BackgroundTasks.Proofs.Interleaving.Play

/-!
# Boards

The status board hears of three kinds of calls: a state is published, a subscription begins, a
subscription ends. What a board holds is not up to the history alone, since readers look at their
subscriptions whenever they like; but to look changes no channel, and takes none down.

A channel is only taken down when it holds a final state and nobody reads it, and it is only made
when there is none. So the channel that a subscription began with is the one that it ends with.
-/

namespace BackgroundTasks

namespace Channel

variable (c : Channel) (state : State)

theorem id_send : (c.send state).id = c.id := by
  unfold send
  split <;> rfl

theorem value_send : (c.send state).value = some state := by
  unfold send
  split
  · next h => exact h
  · rfl

end Channel

namespace StatusBoard

variable {b b' : StatusBoard} {id : TaskId} {c : Channel} {key : Nat}

/-! ## Channels -/

theorem id_of_find? (h : b.find? id = some c) : c.id = id := by simpa using List.find?_some h

theorem mem_of_find? (h : b.find? id = some c) : c ∈ b.channels := List.mem_of_find?_eq_some h

theorem find?_sent (b : StatusBoard) (target : TaskId) (state : State) (id : TaskId) :
    (b.sent target state).find? (fun c : Channel => c.id == id)
      = (b.find? id).map fun c => if c.id = target then c.send state else c := by
  unfold sent find?
  rw [List.find?_map]
  congr 2
  funext c
  show ((if c.id = target then c.send state else c).id == id) = (c.id == id)
  split
  · rw [c.id_send]
  · rfl

/-- A channel that somebody reads outlives every publication. -/
theorem find?_publish (hc : b.find? id = some c) (ho : b.isObserved id = true) (target : TaskId)
    (state : State) :
    (b.publish target state).find? id = some (if id = target then c.send state else c) := by
  have hsent : (b.sent target state).find? (fun c : Channel => c.id == id)
      = some (if id = target then c.send state else c) := by
    rw [find?_sent, hc, Option.map_some, id_of_find? hc]
  unfold publish
  split
  · -- the channels that are kept include all those of a task that is observed
    show ((b.sent target state).filter _).find? (fun c : Channel => c.id == id) = _
    rw [List.find?_filter, ← hsent]
    congr 1
    funext c
    by_cases heq : c.id = id
    · simp [heq, ho]
    · simp [heq]
  · split
    · exact hsent
    · next hnone =>
      show (b.channels ++ [_]).find? (fun c : Channel => c.id == id) = _
      have hfound : b.channels.find? (fun c => c.id == id) = some c := hc
      have hne : id ≠ target := by
        rintro rfl
        exact hnone (by rw [hc]; rfl)
      rw [List.find?_append, hfound, if_neg hne]
      rfl

/-- After a publication the channels of the task hold what was published; others are as before. -/
theorem mem_publish {state : State} (h : c ∈ (b.publish id state).channels) :
    c.id = id ∧ c.value = some state ∨ c.id ≠ id ∧ c ∈ b.channels := by
  have sent (hc : c ∈ b.sent id state) :
      c.id = id ∧ c.value = some state ∨ c.id ≠ id ∧ c ∈ b.channels := by
    obtain ⟨c₀, hmem, rfl⟩ := List.mem_map.1 hc
    by_cases heq : c₀.id = id
    · rw [if_pos heq]
      exact .inl ⟨(c₀.id_send state).trans heq, c₀.value_send state⟩
    · rw [if_neg heq]
      exact .inr ⟨heq, hmem⟩
  unfold publish at h
  split at h
  · exact sent (List.mem_filter.1 h).1
  · split at h
    · exact sent h
    · next hnone =>
      rcases List.mem_append.1 h with hold | hnew
      · refine .inr ⟨fun heq => hnone ?_, hold⟩
        exact List.find?_isSome.2 ⟨c, hold, beq_iff_eq.2 heq⟩
      · obtain rfl := List.mem_singleton.1 hnew
        exact .inl ⟨rfl, rfl⟩

theorem find?_subscribe (hc : b.find? id = some c) (target : TaskId) (current : Option State) :
    (b.subscribe target current).2.find? id = some c := by
  have hfound : b.channels.find? (fun c => c.id == id) = some c := hc
  show (if (b.find? target).isSome then b.channels else b.channels ++ [_]).find? _ = some c
  split
  · exact hfound
  · rw [List.find?_append, hfound]
    rfl

/-- Whoever subscribes has a channel. -/
theorem isSome_find?_subscribe (b : StatusBoard) (id : TaskId) (current : Option State) :
    ((b.subscribe id current).2.find? id).isSome = true := by
  by_cases hsome : (b.find? id).isSome = true
  · obtain ⟨c, hc⟩ := Option.isSome_iff_exists.1 hsome
    rw [find?_subscribe hc]
    rfl
  · show ((if (b.find? id).isSome then b.channels else b.channels ++ [_]).find? _).isSome = true
    rw [if_neg hsome, List.find?_isSome]
    exact ⟨_, List.mem_append_right _ List.mem_cons_self, beq_self_eq_true id⟩

/-- A subscription makes a channel only if there is none. -/
theorem mem_subscribe {current : Option State} (h : c ∈ (b.subscribe id current).2.channels) :
    c ∈ b.channels ∨ b.find? id = none ∧ c.id = id ∧ c.value = current := by
  have h : c ∈ if (b.find? id).isSome then b.channels else b.channels ++ [_] := h
  split at h
  · exact .inl h
  · next hnone =>
    rcases List.mem_append.1 h with hold | hnew
    · exact .inl hold
    · obtain rfl := List.mem_singleton.1 hnew
      exact .inr ⟨Option.not_isSome_iff_eq_none.1 hnone, rfl, rfl⟩

/-! ## Readers -/

/-- Who reads what. -/
def readers (b : StatusBoard) : List (Nat × TaskId) := b.subscriptions.map fun s => (s.key, s.id)

theorem isObserved_iff : b.isObserved id = true ↔ ∃ key, (key, id) ∈ b.readers := by
  unfold isObserved readers
  rw [List.any_eq_true]
  constructor
  · intro ⟨s, hs, hid⟩
    exact ⟨s.key, List.mem_map.2 ⟨s, hs, by rw [eq_of_beq hid]⟩⟩
  · intro ⟨key, hmem⟩
    obtain ⟨s, hs, heq⟩ := List.mem_map.1 hmem
    exact ⟨s, hs, beq_iff_eq.2 (Prod.mk.inj heq).2⟩

theorem readers_publish (b : StatusBoard) (id : TaskId) (state : State) :
    (b.publish id state).readers = b.readers := by
  unfold publish
  split
  · rfl
  · split <;> rfl

theorem readers_subscribe (b : StatusBoard) (id : TaskId) (current : Option State) :
    (b.subscribe id current).2.readers = b.readers ++ [(b.nextKey, id)] :=
  List.map_append

theorem readers_unsubscribe (b : StatusBoard) (key : Nat) :
    (b.unsubscribe key).readers = b.readers.filter fun r => r.1 != key := by
  unfold readers unsubscribe
  rw [List.filter_map]
  rfl

theorem nextKey_publish (b : StatusBoard) (id : TaskId) (state : State) :
    (b.publish id state).nextKey = b.nextKey := by
  unfold publish
  split
  · rfl
  · split <;> rfl

/-! ## Looks -/

/-- To look at a subscription changes nothing but how far its reader has seen. -/
theorem poll_cases (b : StatusBoard) (key : Nat) {motive : StatusBoard → Prop} (same : motive b)
    (seen : ∀ version, motive { b with
      subscriptions := b.subscriptions.map fun s =>
        if s.key = key then { s with seen := some version } else s }) :
    motive (b.poll key).2 := by
  unfold poll
  split
  · exact same
  · split
    · exact same
    · exact seen _

theorem channels_poll (b : StatusBoard) (key : Nat) : (b.poll key).2.channels = b.channels :=
  poll_cases (motive := fun b' => b'.channels = b.channels) b key rfl fun _ => rfl

theorem nextKey_poll (b : StatusBoard) (key : Nat) : (b.poll key).2.nextKey = b.nextKey :=
  poll_cases (motive := fun b' => b'.nextKey = b.nextKey) b key rfl fun _ => rfl

theorem readers_poll (b : StatusBoard) (key : Nat) : (b.poll key).2.readers = b.readers := by
  refine poll_cases (motive := fun b' => b'.readers = b.readers) b key rfl fun version => ?_
  unfold readers
  rw [List.map_map]
  refine List.map_congr_left fun s _ => ?_
  show ((if s.key = key then { s with seen := some version } else s).key,
    (if s.key = key then { s with seen := some version } else s).id) = (s.key, s.id)
  split <;> rfl

/-- The first look at a subscription shows what its channel holds. -/
theorem poll_unseen (hnd : (b.readers.map Prod.fst).Nodup) {sub : Subscription}
    (hsub : sub ∈ b.subscriptions) (hunseen : sub.seen = none) (hc : b.find? sub.id = some c) :
    (b.poll sub.key).1 = [c.value] := by
  have hfind : b.subscriptions.find? (fun s => s.key == sub.key) = some sub := by
    -- no other subscription has the key
    have hkeys : (b.subscriptions.map Subscription.key).Nodup := by
      rw [readers, List.map_map] at hnd
      exact hnd
    cases hfind : b.subscriptions.find? fun s => s.key == sub.key with
    | none => exact absurd (beq_self_eq_true sub.key) (List.find?_eq_none.1 hfind sub hsub)
    | some s =>
      have hkey : s.key = sub.key := by simpa using List.find?_some hfind
      rw [List.inj_on_of_nodup_map hkeys (List.mem_of_find?_eq_some hfind) hsub hkey]
  have hshown : b.unseen? sub = some c := by
    unfold unseen?
    rw [hc, hunseen]
    rfl
  simp only [poll, hfind, hshown]

end StatusBoard

/-! ## Histories of a board -/

/-- Whether something that happens is nothing to the board. -/
def Occurrence.isUnheard : Occurrence → Bool
  | .answers _ (.publish ..) _ | .answers _ (.subscribe ..) _ => false
  | .answers _ (.unsubscribe _) _ => false
  | _ => true

/-- Whether the state of a task is published. -/
def Occurrence.publishes (id : TaskId) : Occurrence → Bool
  | .answers _ (.publish target _) _ => target == id
  | _ => false

/-- Whether a subscription to a task begins. -/
def Occurrence.subscribesTo (id : TaskId) : Occurrence → Bool
  | .answers _ (.subscribe target _) _ => target == id
  | _ => false

/-- What the board makes of something that happens. -/
inductive StatusBoard.Hears (b : StatusBoard) : Occurrence → StatusBoard → Prop where
  | publish (who : Nat) (id : TaskId) (state : State) :
      Hears b (.answers who (.publish id state) ()) (b.publish id state)
  | subscribe (who : Nat) (id : TaskId) (state : State) :
      Hears b (.answers who (.subscribe id state) b.nextKey) (b.subscribe id (some state)).2
  | unsubscribe (who key : Nat) :
      Hears b (.answers who (.unsubscribe key) ()) (b.unsubscribe key)
  | unheard {o : Occurrence} (unheard : o.isUnheard = true) : Hears b o b

/-- The boards that may come of a history; readers may look at any time. -/
inductive Shown : List Moment → StatusBoard → Prop where
  | start : Shown [] {}
  | hears {past : List Moment} {m : Moment} {b b' : StatusBoard} (shown : Shown past b)
      (hears : b.Hears m.occurrence b') : Shown (m :: past) b'
  | looks {past : List Moment} {b : StatusBoard} (shown : Shown past b) (key : Nat) :
      Shown past (b.poll key).2

/-- A subscription to a task begins, under a key. -/
def Occurrence.Subscribes (o : Occurrence) (id : TaskId) (key : Nat) : Prop :=
  ∃ who state, o = .answers who (.subscribe id state) key

namespace StatusBoard

variable {b b' : StatusBoard} {past : List Moment} {m : Moment}

/-- The keys of a board are those that the history has given out, and each reader has a channel. -/
structure Keeps (past : List Moment) (b : StatusBoard) : Prop where
  served : ∀ key id, (key, id) ∈ b.readers → (b.find? id).isSome = true
  nodup : (b.readers.map Prod.fst).Nodup
  fresh : ∀ key id, (key, id) ∈ b.readers → key < b.nextKey
  given : ∀ m ∈ past, ∀ id key, m.occurrence.Subscribes id key → key < b.nextKey
  same : ∀ key id, (key, id) ∈ b.readers →
    ∀ m ∈ past, ∀ id', m.occurrence.Subscribes id' key → id' = id

/-- A board that only lost readers, and no channel that is read, keeps what it kept. -/
theorem Keeps.cons (h : b.Keeps past) (hkey : b'.nextKey = b.nextKey)
    (hreaders : b'.readers.Sublist b.readers)
    (hfind : ∀ id, (∃ key, (key, id) ∈ b.readers) → (b.find? id).isSome = true →
      (b'.find? id).isSome = true)
    (hno : ∀ id key, ¬ m.occurrence.Subscribes id key) : b'.Keeps (m :: past) where
  served key id hmem :=
    hfind id ⟨key, hreaders.subset hmem⟩ (h.served key id (hreaders.subset hmem))
  nodup := h.nodup.sublist (hreaders.map Prod.fst)
  fresh key id hmem := hkey ▸ h.fresh key id (hreaders.subset hmem)
  given m' hm' id key hs := by
    rcases List.mem_cons.1 hm' with rfl | hm'
    · exact absurd hs (hno id key)
    · exact hkey ▸ h.given m' hm' id key hs
  same key id hmem m' hm' id' hs := by
    rcases List.mem_cons.1 hm' with rfl | hm'
    · exact absurd hs (hno id' key)
    · exact h.same key id (hreaders.subset hmem) m' hm' id' hs

/-- A new subscription has a key that nobody had before. -/
theorem Keeps.subscribed {who : Nat} {id : TaskId} {state : State} (h : b.Keeps past)
    (hm : m.occurrence = .answers who (.subscribe id state) b.nextKey) :
    (b.subscribe id (some state)).2.Keeps (m :: past) := by
  have hmem {key : Nat} {id' : TaskId} (hr : (key, id') ∈ (b.subscribe id (some state)).2.readers) :
      (key, id') ∈ b.readers ∨ key = b.nextKey ∧ id' = id := by
    rw [readers_subscribe] at hr
    exact (List.mem_append.1 hr).imp_right fun hnew => Prod.mk.inj (List.mem_singleton.1 hnew)
  have hsubscribes {key : Nat} {id' : TaskId} (hs : m.occurrence.Subscribes id' key) :
      id' = id ∧ key = b.nextKey := by
    obtain ⟨_, _, heq⟩ := hs
    rw [hm] at heq
    cases heq
    exact ⟨rfl, rfl⟩
  refine ⟨fun key id' hr => ?_, ?_, fun key id' hr => ?_, fun m' hm' id' key hs => ?_,
    fun key id' hr m' hm' id'' hs => ?_⟩
  · rcases hmem hr with hold | ⟨-, rfl⟩
    · obtain ⟨c, hc⟩ := Option.isSome_iff_exists.1 (h.served key id' hold)
      rw [find?_subscribe hc]
      rfl
    · exact isSome_find?_subscribe b id' _
  · rw [readers_subscribe, List.map_append]
    refine List.nodup_append.2 ⟨h.nodup, List.nodup_singleton _, fun key hkey key' hkey' => ?_⟩
    obtain ⟨⟨_, id'⟩, hr, rfl⟩ := List.mem_map.1 hkey
    obtain rfl := List.mem_singleton.1 hkey'
    exact Nat.ne_of_lt (h.fresh _ id' hr)
  · rcases hmem hr with hold | ⟨rfl, -⟩
    · exact Nat.lt_succ_of_lt (h.fresh key id' hold)
    · exact Nat.lt_succ_self _
  · rcases List.mem_cons.1 hm' with rfl | hm'
    · rw [(hsubscribes hs).2]
      exact Nat.lt_succ_self _
    · exact Nat.lt_succ_of_lt (h.given m' hm' id' key hs)
  · rcases List.mem_cons.1 hm' with rfl | hm'
    · obtain ⟨rfl, rfl⟩ := hsubscribes hs
      rcases hmem hr with hold | ⟨-, rfl⟩
      · exact absurd (h.fresh _ id' hold) (Nat.lt_irrefl _)
      · rfl
    · rcases hmem hr with hold | ⟨rfl, rfl⟩
      · exact h.same key id' hold m' hm' id'' hs
      · exact absurd (h.given m' hm' id'' _ hs) (Nat.lt_irrefl _)

theorem Keeps.hears (h : b.Keeps past) (hb : b.Hears m.occurrence b') : b'.Keeps (m :: past) := by
  generalize hm : m.occurrence = o at hb
  cases hb with
  | publish who id state =>
    refine h.cons (nextKey_publish b id state) (readers_publish b id state ▸ .refl _) ?_ ?_
    · intro id' hread hsome
      obtain ⟨c, hc⟩ := Option.isSome_iff_exists.1 hsome
      rw [find?_publish hc (isObserved_iff.2 hread)]
      rfl
    · rintro _ _ ⟨_, _, heq⟩
      cases hm.symm.trans heq
  | subscribe who id state => exact h.subscribed hm
  | unsubscribe who key =>
    refine h.cons rfl (readers_unsubscribe b key ▸ List.filter_sublist) (fun _ _ hsome => hsome) ?_
    rintro _ _ ⟨_, _, heq⟩
    cases hm.symm.trans heq
  | unheard hunheard =>
    refine h.cons rfl (.refl _) (fun _ _ hsome => hsome) ?_
    rintro id key ⟨who, state, heq⟩
    obtain rfl := hm.symm.trans heq
    cases hunheard

theorem Keeps.looks (h : b.Keeps past) (key : Nat) : (b.poll key).2.Keeps past := by
  have hfind (id : TaskId) : (b.poll key).2.find? id = b.find? id :=
    congrArg (List.find? _) (channels_poll b key)
  have hreaders := readers_poll b key
  have hkey := nextKey_poll b key
  refine ⟨?_, ?_, ?_, ?_, ?_⟩
  · intro key' id hmem
    rw [hfind]
    exact h.served key' id (hreaders ▸ hmem)
  · exact hreaders ▸ h.nodup
  · exact fun key' id hmem => hkey ▸ h.fresh key' id (hreaders ▸ hmem)
  · exact fun m hm id key' hs => hkey ▸ h.given m hm id key' hs
  · exact fun key' id hmem => h.same key' id (hreaders ▸ hmem)

theorem keeps_shown (h : Shown past b) : b.Keeps past := by
  induction h with
  | start =>
    have none {key : Nat} {id : TaskId} (h : (key, id) ∈ ({} : StatusBoard).readers) : False :=
      List.not_mem_nil h
    exact ⟨fun _ _ h => (none h).elim, List.nodup_nil, fun _ _ h => (none h).elim,
      fun _ h => (List.not_mem_nil h).elim, fun _ _ h => (none h).elim⟩
  | hears _ hb ih => exact ih.hears hb
  | looks _ key ih => exact ih.looks key

/-- Where a channel comes from: it holds what was published, or it was there, or it is new. -/
theorem mem_hears {c : Channel} {o : Occurrence} (hb : b.Hears o b') (hc : c ∈ b'.channels) :
    (∃ (who : Nat) (state : State),
        o = .answers who (.publish c.id state) () ∧ c.value = some state)
      ∨ o.publishes c.id = false ∧
        (c ∈ b.channels
          ∨ o.subscribesTo c.id = true ∧ b.find? c.id = none ∧ ∃ state, c.value = some state) := by
  cases hb with
  | publish who target state =>
    rcases mem_publish hc with ⟨rfl, hvalue⟩ | ⟨hne, hold⟩
    · exact .inl ⟨who, state, rfl, hvalue⟩
    · exact .inr ⟨beq_false_of_ne (Ne.symm hne), .inl hold⟩
  | subscribe who target state =>
    refine .inr ⟨rfl, (mem_subscribe hc).imp_right fun ⟨hnone, hid, hvalue⟩ => ?_⟩
    subst hid
    exact ⟨beq_self_eq_true _, hnone, state, hvalue⟩
  | unsubscribe who key => exact .inr ⟨rfl, .inl hc⟩
  | unheard hunheard =>
    refine .inr ⟨?_, .inl hc⟩
    unfold Occurrence.publishes
    split
    · cases hunheard
    · rfl

/-- There is no channel without a state. -/
theorem value_shown (h : Shown past b) : ∀ c ∈ b.channels, ∃ state, c.value = some state := by
  induction h with
  | start => exact fun c hc => absurd hc List.not_mem_nil
  | hears _ hb ih =>
    intro c hc
    rcases mem_hears hb hc with ⟨_, state, -, hvalue⟩ | ⟨-, hold | ⟨-, -, hvalue⟩⟩
    · exact ⟨state, hvalue⟩
    · exact ih c hold
    · exact hvalue
  | looks _ key ih =>
    intro c hc
    rw [channels_poll] at hc
    exact ih c hc

/-- A reader is one of old, unless the subscription begins just now. -/
theorem mem_readers_hears {key : Nat} {id : TaskId} {o : Occurrence} (hb : b.Hears o b')
    (h : (key, id) ∈ b'.readers) : (key, id) ∈ b.readers ∨ key = b.nextKey := by
  cases hb with
  | publish who target state =>
    rw [readers_publish] at h
    exact .inl h
  | subscribe who target state =>
    rw [readers_subscribe] at h
    exact (List.mem_append.1 h).imp_right fun hnew =>
      (Prod.mk.inj (List.mem_singleton.1 hnew)).1
  | unsubscribe who key' =>
    rw [readers_unsubscribe] at h
    exact .inl (List.mem_filter.1 h).1
  | unheard _ => exact .inl h

/-- **A channel that somebody reads is not taken down, nor replaced by another.** -/
theorem find?_hears {id : TaskId} {c : Channel} {o : Occurrence} (hc : b.find? id = some c)
    (ho : b.isObserved id = true) (hb : b.Hears o b') :
    b'.find? id = some c
      ∨ ∃ (who : Nat) (state : State),
        o = .answers who (.publish id state) () ∧ b'.find? id = some (c.send state) := by
  cases hb with
  | publish who target state =>
    rw [find?_publish hc ho]
    by_cases heq : id = target
    · subst heq
      exact .inr ⟨who, state, rfl, by rw [if_pos rfl]⟩
    · exact .inl (by rw [if_neg heq])
  | subscribe who target state => exact .inl (find?_subscribe hc target _)
  | unsubscribe who key => exact .inl hc
  | unheard _ => exact .inl hc

end StatusBoard

/-! ## Plays -/

namespace System

theorem board_askStore (c : StoreCall) (y : System) : (y.askStore c).2.board = y.board := by
  unfold askStore
  split
  · show (y.answerStore c).2.board = y.board
    unfold answerStore
    split <;> rfl
  · rfl
  · rfl

theorem board_askPlatform {α : Type} (c : Call) (f : Platform → α × Platform) (y : System) :
    (y.askPlatform c f).2.board = y.board := by
  unfold askPlatform
  split <;> rfl

/-- The board of a system hears of the calls that the system answers. -/
theorem hears_answer (who : Nat) (c : Call) (y : System) :
    y.board.Hears (c.occurrence who (y.answer c).1) (y.answer c).2.board := by
  -- a call that is nothing to the board may also fail or break down
  have same (hboard : (y.answer c).2.board = y.board)
      (hunheard : ∀ a, (Occurrence.answers who c a).isUnheard = true) :
      y.board.Hears (c.occurrence who (y.answer c).1) (y.answer c).2.board := by
    rw [hboard]
    refine .unheard ?_
    unfold Call.occurrence
    split
    · split
      · rfl
      · exact hunheard _
    · rfl
  cases c with
  | publish id state => exact .publish who id state
  | subscribe id state => exact .subscribe who id state
  | unsubscribe key => exact .unsubscribe who key
  | store c => exact same (board_askStore c y) fun _ => rfl
  | readStatus id => exact same (board_askStore (.get id) y) fun _ => rfl
  | arm id delay conditions =>
    exact same (board_askPlatform (.arm id delay conditions)
      (fun p => p.arm y.elapsed id delay conditions) y) fun _ => rfl
  | disarm | isArmed => exact same (board_askPlatform _ _ y) fun _ => rfl
  | retryDelay =>
    refine same ?_ fun _ => rfl
    simp only [answer]
    split <;> rfl
  | _ => exact same rfl fun _ => rfl

end System

namespace Play

variable {s : Scheduler}

theorem shown_next {p : Play} (h : Shown p.scene.past p.system.board) (cue : Cue) :
    Shown (p.next s cue).scene.past (p.next s cue).system.board := by
  cases cue with
  | begin job => exact .hears h (.unheard rfl)
  | wake id =>
    simp only [next]
    split
    · exact .hears h (.unheard rfl)
    · exact h
  | go who =>
    simp only [next]
    split
    · next c k _ => exact .hears h (System.hears_answer who c p.system)
    · exact h
  | finish who ending =>
    simp only [next]
    split
    · exact .hears h (.unheard rfl)
    · exact h

/-- The board of the system is one that the history has come to, whatever is played. -/
theorem shown_run {y : System} (hnew : y.board = {}) (cues : List Cue) :
    Shown (run s { system := y } cues).scene.past (run s { system := y } cues).system.board := by
  have shown (p : Play) (h : Shown p.scene.past p.system.board) :
      Shown (p.run s cues).scene.past (p.run s cues).system.board := by
    induction cues generalizing p with
    | nil => exact h
    | cons cue cues ih => exact ih _ (shown_next h cue)
  exact shown _ (by rw [hnew]; exact .start)

end Play

end BackgroundTasks
