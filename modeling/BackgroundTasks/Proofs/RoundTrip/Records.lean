import BackgroundTasks.Proofs.RoundTrip.Json
import BackgroundTasks.Store.Call

/-!
# Records that are written and read again

A record is written as its members in a fixed order and read by name. Names occur once, so whatever
a record holds under a name is what has been written there; the rest is one small fact about each
kind of value. The floats of a description are the only values that need not come back: a
description whose floats do is called faithful, and then so are its row and every table it is in.
-/

namespace BackgroundTasks

namespace Json

/-! ## Scalars -/

theorem spelled_nat (n : Nat) : Spelled (nat n) := .number (Number.Numeral.wellFormed_ofNat n)

theorem spelled_float (f : Float) : Spelled (float f) := by
  unfold float Number.FloatLayout.numeral?
  rcases Number.Binary64.ofFloat f with _ | _ | _
  · exact .null
  · exact .null
  · exact .number (Number.FloatLayout.wellFormed_json _)

theorem spelled_optional {α : Type} {write : α → Json} (h : ∀ a, Spelled (write a)) (o : Option α) :
    Spelled (optional write o) := by
  cases o with
  | none => exact .null
  | some a => exact h a

theorem spelled_record {members : List (String × Json)} (h : ∀ m ∈ members, Spelled m.2) :
    Spelled (record members) := by
  refine .object (fun m hm => ?_) fun m hm => ?_ <;>
    obtain ⟨⟨name, value⟩, hmem, rfl⟩ := List.mem_map.1 hm
  · rfl
  · exact h _ hmem

theorem int?_nat (n : Nat) : int? (nat n) = some (.ofNat n) := by
  have hspell : (Number.Numeral.ofNat n).value.coefficient = n := by
    show Number.ofDigits 0 (Number.decimalDigits n ++ []) = n
    rw [List.append_nil, Number.ofDigits_decimalDigits]
  have hsign : (Number.Numeral.ofNat n).negative = false := rfl
  have hwhole : (Number.Numeral.ofNat n).isWhole = true := rfl
  simp only [int?, nat, hspell, hsign, hwhole, Bool.false_and, Bool.not_false, Bool.and_self,
    if_true, Bool.false_eq_true, if_false]
  rfl

theorem natBelow?_nat {bound n : Nat} (h : n < bound) : natBelow? bound (nat n) = some n := by
  unfold natBelow?
  rw [int?_nat]
  exact if_pos h

theorem word?_word (n : UInt64) : word? (word n) = some n := by
  rw [word?, word, natBelow?_nat n.toNat_lt, Option.map_some, UInt64.ofNat_toNat]

theorem counter?_counter (n : UInt32) : counter? (counter n) = some n := by
  rw [counter?, counter, natBelow?_nat n.toNat_lt, Option.map_some, UInt32.ofNat_toNat]

theorem byte?_nat (n : UInt8) : byte? (nat n.toNat) = some n := by
  rw [byte?, natBelow?_nat n.toNat_lt, Option.map_some, UInt8.ofNat_toNat]

/-- A float that is read back as it was written. -/
def Returns (f : Float) : Prop := float? (float f) = some f

theorem float_ne_null {f : Float} (h : Returns f) : float f ≠ null := by
  intro hnull
  rw [Returns, hnull] at h
  cases h

/-! ### Values that can be set aside -/

theorem keepable_nat (depth : Nat) {n : Nat} (h : n < UInt64.size) :
    keepable depth (nat n) = true := by
  have hword : (word? (nat n)).isSome = true := by
    rw [word?, natBelow?_nat h]
    rfl
  show ((word? (nat n)).isSome || (float? (nat n)).isSome) = true
  rw [hword]
  rfl

theorem keepable_float (depth : Nat) {f : Float} (h : Returns f) :
    keepable depth (float f) = true := by
  have hread : (float? (float f)).isSome = true := by
    rw [h]
    rfl
  unfold float at hread ⊢
  cases hn : Number.FloatLayout.json.numeral? f with
  | none => rfl
  | some n =>
    rw [hn] at hread
    show ((word? (number n)).isSome || (float? (number n)).isSome) = true
    rw [hread, Bool.or_true]

/-! ## Fields -/

theorem lookup_of_mem {α : Type} {members : List (String × α)}
    (hnames : (members.map Prod.fst).Nodup) {name : String} {value : α}
    (h : (name, value) ∈ members) : members.lookup name = some value := by
  induction members with
  | nil => cases h
  | cons m more ih =>
    obtain ⟨habsent, hmore⟩ := List.nodup_cons.1 hnames
    rcases List.mem_cons.1 h with rfl | hmem
    · exact List.lookup_cons_self
    · have hne : (name == m.1) = false := by
        rw [beq_eq_false_iff_ne]
        intro heq
        exact habsent (heq ▸ List.mem_map_of_mem hmem)
      rw [List.lookup_cons, hne]
      exact ih hmore hmem

/-- Choices whose names differ are told apart by their names. -/
theorem choice?_text {α : Type} {choices : List α} {name : α → String}
    (hnames : (choices.map name).Nodup) {a : α} (h : a ∈ choices) :
    choice? (choices.map fun a => (name a, a)) (text (name a)) = some a := by
  refine lookup_of_mem ?_ (List.mem_map_of_mem h)
  rw [List.map_map]
  exact hnames

variable {members : List (String × Json)}

/-- Fields that hold the members of a record under their names. -/
def Fields.Hold (f : Fields) (members : List (String × Json)) : Prop :=
  ∀ name value, (name, value) ∈ members → f.find? name = some value

theorem Fields.Hold.mono {f : Fields} {fewer : List (String × Json)} (h : f.Hold members)
    (hsub : fewer ⊆ members) : f.Hold fewer :=
  fun name value hmem => h name value (hsub hmem)

theorem namedMembers?_record (members : List (String × Json)) :
    namedMembers? (members.map fun (name, value) => (some name, value)) = some members := by
  unfold namedMembers?
  induction members with
  | nil => rfl
  | cons m more ih =>
    rw [List.map_cons, List.mapM_cons, ih]
    rfl

theorem occursOnce_of_nodup (hnames : (members.map Prod.fst).Nodup) (name : String) :
    occursOnce members name = true := by
  unfold occursOnce
  induction members with
  | nil => rfl
  | cons m more ih =>
    obtain ⟨habsent, hmore⟩ := List.nodup_cons.1 hnames
    by_cases hname : m.1 = name
    · have hnone : more.filter (fun m => m.1 == name) = [] := by
        refine List.filter_eq_nil_iff.2 fun other hmem => ?_
        rw [beq_iff_eq]
        rintro rfl
        exact habsent (hname ▸ List.mem_map_of_mem hmem)
      rw [List.filter_cons_of_pos (by simpa using hname), hnone]
      rfl
    · rw [List.filter_cons_of_neg (by simpa using hname)]
      exact ih hmore

theorem objectFields?_record (names : List String) (hnames : (members.map Prod.fst).Nodup) :
    ∃ f, objectFields? names (record members) = some f ∧ f.Hold members ∧ f.found = members := by
  refine ⟨⟨false, members⟩, ?_, fun name value h => lookup_of_mem hnames h, rfl⟩
  have hall : names.all (occursOnce members) = true :=
    List.all_eq_true.2 fun name _ => occursOnce_of_nodup hnames name
  show (namedMembers? (members.map fun (name, value) => (some name, value))).bind _ = _
  rw [namedMembers?_record, Option.bind_some, hall]
  rfl

theorem fields?_record (names : List String) (hnames : (members.map Prod.fst).Nodup) :
    ∃ f, fields? names (record members) = some f ∧ f.Hold members := by
  obtain ⟨f, hf, hhold, -⟩ := objectFields?_record names hnames
  exact ⟨f, hf, hhold⟩

theorem mergedFields?_record {depth : Nat} {own : List String} (inner : List String)
    (hnames : (members.map Prod.fst).Nodup)
    (hkeep : ∀ name value, (name, value) ∈ members → name ∈ own ∨ keepable depth value = true) :
    ∃ f, mergedFields? depth own inner (record members) = some f ∧ f.Hold members := by
  obtain ⟨f, hf, hhold, hfound⟩ := objectFields?_record (own ++ inner) hnames
  refine ⟨f, ?_, hhold⟩
  have hall :
      (f.found.all fun (name, value) => own.contains name || keepable depth value) = true := by
    rw [hfound]
    refine List.all_eq_true.2 fun (name, value) hmem => ?_
    rw [Bool.or_eq_true, List.contains_iff_mem]
    exact hkeep name value hmem
  show (objectFields? (own ++ inner) (record members)).bind _ = _
  rw [hf, Option.bind_some]
  exact if_pos hall

namespace Fields

variable {f : Fields} {α : Type} {name : String} {read : Json → Option α}

theorem Hold.required (h : f.Hold members) {value : Json} (hmem : (name, value) ∈ members)
    {a : α} (hread : read value = some a) : f.required name read = some a := by
  rw [Fields.required, h name value hmem, Option.bind_some, hread]

theorem Hold.defaulted (h : f.Hold members) {value : Json} (hmem : (name, value) ∈ members)
    (default : α) {a : α} (hread : read value = some a) :
    f.defaulted name default read = some a := by
  rw [Fields.defaulted, h name value hmem]
  exact hread

theorem Hold.optional (h : f.Hold members) {write : α → Json} {o : Option α}
    (hmem : (name, Json.optional write o) ∈ members)
    (hread : ∀ a ∈ o, read (write a) = some a ∧ write a ≠ null) :
    f.optional name read = some o := by
  rw [Fields.optional, h name _ hmem]
  cases o with
  | none => rfl
  | some a =>
    obtain ⟨hread, hnull⟩ := hread a rfl
    rw [Json.optional]
    cases hw : write a with
    | null => exact absurd hw hnull
    | _ =>
      rw [hw] at hread
      simp only [hread, Option.map_some]

end Fields

end Json

/-! ## Names -/

theorem TaskId.ofJson?_toJson (id : TaskId) : TaskId.ofJson? id.toJson = some id := by
  rw [TaskId.ofJson?, TaskId.toJson, Json.text, Json.text?, Option.bind_some, id.ofText?_text]

theorem State.ofJson?_toJson (s : State) : State.ofJson? s.toJson = some s :=
  Json.choice?_text (by decide) (by cases s <;> decide)

theorem Recurrence.ofJson?_toJson (r : Recurrence) : Recurrence.ofJson? r.toJson = some r :=
  Json.choice?_text (by decide) (by cases r <;> decide)

theorem Growth.ofJson?_toJson (g : Growth) : Growth.ofJson? g.toJson = some g :=
  Json.choice?_text (by decide) (by cases g <;> decide)

theorem LogKind.ofJson?_toJson (k : LogKind) : LogKind.ofJson? k.toJson = some k :=
  Json.choice?_text (by decide) (by cases k <;> decide)

/-! ## Log entries -/

namespace LogEntry

theorem spelled_toJson (e : LogEntry) : e.toJson.Spelled := by
  refine Json.spelled_record fun m hm => ?_
  simp only [members, List.mem_cons, List.not_mem_nil, or_false] at hm
  rcases hm with rfl | rfl | rfl | rfl | rfl
  · exact .string _
  · exact Json.spelled_nat _
  · exact .string _
  · exact Json.spelled_nat _
  · exact Json.spelled_optional (fun s => .string s) _

theorem ofJson?_toJson (e : LogEntry) : LogEntry.ofJson? e.toJson = some e := by
  obtain ⟨f, hf, hold⟩ := Json.fields?_record names (show (e.members.map Prod.fst).Nodup from by
    show names.Nodup
    decide)
  have hid := hold.required (by simp [members] : ("task_id", e.taskId.toJson) ∈ e.members)
    e.taskId.ofJson?_toJson
  have hcreated := hold.required (by simp [members] : ("created_at_ms", _) ∈ e.members)
    (Json.word?_word e.createdMs)
  have hkind := hold.required (by simp [members] : ("result_kind", _) ∈ e.members)
    e.kind.ofJson?_toJson
  have hattempt := hold.required (by simp [members] : ("attempt_number", _) ∈ e.members)
    (Json.counter?_counter e.attempt)
  have hmessage := hold.optional
    (by simp [members] : ("message", Json.optional Json.text e.message) ∈ e.members)
    (fun _ _ => ⟨rfl, nofun⟩ : ∀ a ∈ e.message, Json.text? (.text a) = some a ∧ Json.text a ≠ .null)
  unfold ofJson? toJson
  rw [hf]
  simp only [Option.bind_eq_bind, Option.bind_some, hid, hcreated, hkind, hattempt, hmessage]

end LogEntry

/-! ## Descriptions and rows -/

theorem Conditions.ofFields?_of_hold {c : Conditions} {f : Json.Fields} (h : f.Hold c.members) :
    Conditions.ofFields? f = some c := by
  have hnetwork := h.defaulted (by simp [members] : ("requires_network", _) ∈ c.members)
    false (rfl : Json.bool? (.bool c.requiresNetwork) = _)
  have hcharging := h.defaulted (by simp [members] : ("requires_charging", _) ∈ c.members)
    false (rfl : Json.bool? (.bool c.requiresCharging) = _)
  have hbattery := h.defaulted (by simp [members] : ("requires_battery_not_low", _) ∈ c.members)
    false (rfl : Json.bool? (.bool c.requiresBatteryNotLow) = _)
  unfold ofFields?
  simp only [Option.bind_eq_bind, Option.bind_some, hnetwork, hcharging, hbattery]

namespace Spec

/-- A description whose floats are read back as they were written. -/
structure Faithful (s : Spec) : Prop where
  multiplier : ∀ f ∈ s.backoffMultiplier, Json.Returns f
  jitter : Json.Returns s.backoffJitter

theorem spelled_members (s : Spec) : ∀ m ∈ s.members, m.2.Spelled := by
  intro m hm
  simp only [members, Conditions.members, List.cons_append, List.nil_append, List.mem_cons,
    List.not_mem_nil, or_false] at hm
  rcases hm with rfl | rfl | rfl | rfl | rfl | rfl | rfl | rfl | rfl | rfl | rfl | rfl | rfl | rfl
    | rfl
  iterate 2 exact .string _
  · exact Json.spelled_nat _
  iterate 3 exact .bool _
  · exact .string _
  iterate 3 exact Json.spelled_nat _
  · exact .string _
  · exact Json.spelled_nat _
  · exact Json.spelled_optional Json.spelled_float _
  · exact Json.spelled_float _
  · exact Json.spelled_nat _

theorem keepable_members {s : Spec} (h : s.Faithful) (depth : Nat) :
    ∀ m ∈ s.members, Json.keepable depth m.2 = true := by
  have hword (n : UInt64) : Json.keepable depth (.word n) = true :=
    Json.keepable_nat depth n.toNat_lt
  intro m hm
  simp only [members, Conditions.members, List.cons_append, List.nil_append, List.mem_cons,
    List.not_mem_nil, or_false] at hm
  rcases hm with rfl | rfl | rfl | rfl | rfl | rfl | rfl | rfl | rfl | rfl | rfl | rfl | rfl | rfl
    | rfl
  iterate 2 rfl
  · exact Json.keepable_nat depth (Nat.lt_trans s.priority.toNat_lt (by decide))
  iterate 4 rfl
  iterate 3 exact hword _
  · rfl
  · exact hword _
  · cases hm : s.backoffMultiplier with
    | none => rfl
    | some f => exact Json.keepable_float depth (h.multiplier f hm)
  · exact Json.keepable_float depth h.jitter
  · exact Json.keepable_nat depth (Nat.lt_trans s.maxRetries.toNat_lt (by decide))

theorem ofFields?_of_hold {s : Spec} {f : Json.Fields} (hs : s.Faithful) (h : f.Hold s.members) :
    Spec.ofFields? f = some s := by
  have hconditions := Conditions.ofFields?_of_hold (c := s.conditions)
    (h.mono fun m hm => by simp [members, hm])
  have htype := h.required (by simp [members] : ("payload_type_id", _) ∈ s.members)
    (rfl : Json.text? (.text s.payloadTypeId) = _)
  have hdata := h.required (by simp [members] : ("payload_data", _) ∈ s.members)
    (rfl : Json.text? (.text s.payloadData) = _)
  have hpriority := h.required (by simp [members] : ("priority", _) ∈ s.members)
    (Json.byte?_nat s.priority)
  have hrecurrence := h.required (by simp [members] : ("schedule_type", _) ∈ s.members)
    s.recurrence.ofJson?_toJson
  have hdelay := h.required (by simp [members] : ("initial_delay_ms", _) ∈ s.members)
    (Json.word?_word s.initialDelayMs)
  have hinterval := h.required (by simp [members] : ("interval_ms", _) ∈ s.members)
    (Json.word?_word s.intervalMs)
  have hflex := h.required (by simp [members] : ("flex_ms", _) ∈ s.members)
    (Json.word?_word s.flexMs)
  have hgrowth := h.required (by simp [members] : ("backoff_policy", _) ∈ s.members)
    s.growth.ofJson?_toJson
  have hbackoff := h.required (by simp [members] : ("backoff_delay_ms", _) ∈ s.members)
    (Json.word?_word s.backoffDelayMs)
  have hmultiplier := h.optional
    (by simp [members] :
      ("backoff_multiplier", Json.optional Json.float s.backoffMultiplier) ∈ s.members)
    (fun f hf => ⟨hs.multiplier f hf, Json.float_ne_null (hs.multiplier f hf)⟩)
  have hjitter := h.required (by simp [members] : ("backoff_jitter_factor", _) ∈ s.members)
    hs.jitter
  have hretries := h.required (by simp [members] : ("max_retries", _) ∈ s.members)
    (Json.counter?_counter s.maxRetries)
  unfold ofFields?
  simp only [Option.bind_eq_bind, Option.bind_some, hconditions, htype, hdata, hpriority,
    hrecurrence, hdelay, hinterval, hflex, hgrowth, hbackoff, hmultiplier, hjitter, hretries]

end Spec

namespace Row

theorem spelled_toJson (r : Row) : r.toJson.Spelled := by
  refine Json.spelled_record fun m hm => ?_
  simp only [members, List.mem_append, List.mem_cons, List.not_mem_nil, or_false] at hm
  rcases hm with ((rfl | rfl) | hm) | rfl | rfl | rfl | rfl | rfl | rfl
  iterate 2 exact .string _
  · exact r.spec.spelled_members m hm
  iterate 3 exact Json.spelled_nat _
  · exact Json.spelled_optional (fun s => .string s) _
  iterate 2 exact Json.spelled_nat _

theorem names_members (r : Row) : (r.members.map Prod.fst).Nodup := by
  show (["id", "state"] ++ (Spec.names.take 3 ++ Conditions.names ++ Spec.names.drop 3)
    ++ Row.names.drop 2).Nodup
  decide

/-- Whatever is not a row's own can be set aside. -/
theorem own_or_keepable {r : Row} (hr : r.spec.Faithful) (depth : Nat) (name : String)
    (value : Json) (hm : (name, value) ∈ r.members) :
    name ∈ names ∨ Json.keepable depth value = true := by
  have hown {ms : List (String × Json)} (hsub : ms.map Prod.fst ⊆ names)
      (hm : (name, value) ∈ ms) : name ∈ names := hsub (List.mem_map_of_mem hm)
  rw [members, List.mem_append, List.mem_append] at hm
  rcases hm with (hm | hm) | hm
  · refine .inl (hown ?_ hm)
    show ["id", "state"] ⊆ names
    decide
  · exact .inr (Spec.keepable_members hr depth _ hm)
  · refine .inl (hown ?_ hm)
    show names.drop 2 ⊆ names
    exact List.drop_subset 2 names

/-- A row is read back as it was written. -/
theorem ofJson?_toJson {r : Row} (hr : r.spec.Faithful) (depth : Nat) :
    Row.ofJson? depth r.toJson = some r := by
  obtain ⟨f, hf, hold⟩ := Json.mergedFields?_record (Spec.names ++ Conditions.names)
    r.names_members (own_or_keepable hr depth)
  have hspec := Spec.ofFields?_of_hold hr (hold.mono fun m hm => by simp [members, hm])
  have hid := hold.required (by simp [members] : ("id", _) ∈ r.members) r.id.ofJson?_toJson
  have hstate := hold.required (by simp [members] : ("state", _) ∈ r.members) r.state.ofJson?_toJson
  have hnext := hold.required (by simp [members] : ("next_run_time_ms", _) ∈ r.members)
    (Json.word?_word r.nextRunMs)
  have hattempts := hold.required (by simp [members] : ("run_attempt_count", _) ∈ r.members)
    (Json.counter?_counter r.attempts)
  have hretries := hold.defaulted (by simp [members] : ("retry_count", _) ∈ r.members) 0
    (Json.counter?_counter r.retries)
  have hhandle := hold.optional
    (by simp [members] : ("platform_id", Json.optional Json.text r.platformId) ∈ r.members)
    (fun _ _ => ⟨rfl, nofun⟩ :
      ∀ a ∈ r.platformId, Json.text? (.text a) = some a ∧ Json.text a ≠ .null)
  have hcreated := hold.required (by simp [members] : ("created_at_ms", _) ∈ r.members)
    (Json.word?_word r.createdMs)
  have hupdated := hold.required (by simp [members] : ("updated_at_ms", _) ∈ r.members)
    (Json.word?_word r.updatedMs)
  unfold ofJson? toJson
  rw [hf]
  simp only [Option.bind_eq_bind, Option.bind_some, hspec, hid, hstate, hnext, hattempts, hretries,
    hhandle, hcreated, hupdated]

end Row

end BackgroundTasks
