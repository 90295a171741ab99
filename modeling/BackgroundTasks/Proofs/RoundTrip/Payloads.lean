import Mathlib.Data.List.Forall2
import BackgroundTasks.Proofs.RoundTrip.Envelope
import BackgroundTasks.Proofs.RoundTrip.Records

/-!
# Payloads that come back from the registry

A payload whose values fit its type is written as a record that is read back as the same payload:
the names of the fields are distinct, so each value is found under its own name, and each kind of
value is read as it was written. Such a text opens with a brace and so is never taken for an
envelope; what was sealed in one is opened by the cipher that sealed it.

Persisted data is read in two ways, as a payload of a type that the reader expects and as a payload
of whatever type is bound to the id. They are the same whenever the reader expects the bound type.
-/

namespace BackgroundTasks

/-! ## Integers -/

namespace Number.Numeral

theorem wellFormed_ofInt (n : Int) : (ofInt n).WellFormed :=
  let h := wellFormed_ofNat n.natAbs
  ⟨h.whole_ne_nil, h.whole, h.no_leading_zero, h.fraction⟩

end Number.Numeral

namespace Json

theorem int?_ofInt (n : Int) : int? (number (Number.Numeral.ofInt n)) = some n := by
  have hspell : (Number.Numeral.ofInt n).value.coefficient = n.natAbs := by
    show Number.ofDigits 0 (Number.decimalDigits n.natAbs ++ []) = n.natAbs
    rw [List.append_nil, Number.ofDigits_decimalDigits]
  have hsign : (Number.Numeral.ofInt n).negative = decide (n < 0) := rfl
  have hwhole : (Number.Numeral.ofInt n).isWhole = true := rfl
  unfold int?
  simp only [hspell, hsign, hwhole, Bool.true_and]
  by_cases hneg : n < 0
  · have hzero : (n.natAbs == 0) = false := by rw [beq_eq_false_iff_ne]; omega
    rw [decide_eq_true hneg, hzero]
    simp only [Bool.and_false, Bool.not_false, if_true]
    exact congrArg some (by omega)
  · rw [decide_eq_false hneg]
    simp only [Bool.false_and, Bool.not_false, if_true, Bool.false_eq_true, if_false]
    exact congrArg some (by omega)

/-- An integer of 64 bits with a sign. -/
def InRange (n : Int) : Prop := -signedBound ≤ n ∧ n < signedBound

theorem signed?_ofInt {n : Int} (h : InRange n) :
    signed? (number (Number.Numeral.ofInt n)) = some n := by
  unfold signed?
  rw [int?_ofInt]
  exact if_pos (by rw [Bool.and_eq_true, decide_eq_true_eq, decide_eq_true_eq]; exact h)

theorem list?_array {α : Type} {read : Json → Option α} {write : α → Json} {as : List α}
    (h : ∀ a ∈ as, read (write a) = some a) : list? read (array (as.map write)) = some as := by
  show (as.map write).mapM read = some as
  induction as with
  | nil => rfl
  | cons a rest ih =>
    obtain ⟨ha, hrest⟩ := List.forall_mem_cons.1 h
    rw [List.map_cons, List.mapM_cons, ha, ih hrest]
    rfl

end Json

/-! ## Values that fit their type -/

/-- The values that a field of a kind may have. -/
inductive FieldValue.Fits : FieldKind → FieldValue → Prop
  | text (s : String) : Fits .text (.text s)
  | integers {ns : List Int} (h : ∀ n ∈ ns, Json.InRange n) : Fits .integers (.integers ns)
  | optionalText (s : Option String) : Fits .optionalText (.optionalText s)
  | flag (b : Bool) : Fits .flag (.flag b)

/-- A payload with a value for each field of its type. -/
structure Payload.Typed (p : Payload) : Prop where
  names_nodup : p.type.names.Nodup
  fits : List.Forall₂ (fun field value => FieldValue.Fits field.2 value) p.type.fields p.values

namespace FieldValue

variable {kind : FieldKind} {v : FieldValue}

theorem Fits.spelled (h : Fits kind v) : v.toJson.Spelled := by
  cases h with
  | text s => exact .string s
  | @integers ns h =>
    refine .array fun j hj => ?_
    obtain ⟨n, -, rfl⟩ := List.mem_map.1 hj
    exact .number (Number.Numeral.wellFormed_ofInt n)
  | optionalText s => exact Json.spelled_optional (fun s => .string s) s
  | flag b => exact .bool b

/-- A value is read back under the name that it was written under. -/
theorem Fits.ofFields? (h : Fits kind v) {f : Json.Fields} {name : String}
    {members : List (String × Json)} (hold : f.Hold members) (hmem : (name, v.toJson) ∈ members) :
    FieldValue.ofFields? f name kind = some v := by
  cases h with
  | text s => exact congrArg (Option.map FieldValue.text) (hold.required hmem rfl)
  | integers h =>
    have hread := Json.list?_array fun n hn => Json.signed?_ofInt (h n hn)
    exact congrArg (Option.map FieldValue.integers) (hold.required hmem hread)
  | optionalText s =>
    exact congrArg (Option.map FieldValue.optionalText) (hold.optional hmem fun _ _ => ⟨rfl, nofun⟩)
  | flag b => exact congrArg (Option.map FieldValue.flag) (hold.defaulted hmem false rfl)

end FieldValue

namespace Payload

/-- The members of a record with the given fields and values. -/
def membersOf (fields : List (String × FieldKind)) (values : List FieldValue) :
    List (String × Json) :=
  ((fields.map (·.1)).zip values).map fun (name, v) => (name, v.toJson)

variable {fields : List (String × FieldKind)} {values : List FieldValue}

theorem names_membersOf
    (h : List.Forall₂ (fun field value => FieldValue.Fits field.2 value) fields values) :
    (membersOf fields values).map Prod.fst = fields.map (·.1) := by
  induction h with
  | nil => rfl
  | cons _ _ ih => exact congrArg (_ :: ·) ih

theorem spelled_membersOf
    (h : List.Forall₂ (fun field value => FieldValue.Fits field.2 value) fields values) :
    ∀ m ∈ membersOf fields values, m.2.Spelled := by
  induction h with
  | nil => exact fun m hm => absurd hm List.not_mem_nil
  | cons hfits _ ih => exact List.forall_mem_cons.2 ⟨hfits.spelled, ih⟩

theorem mapM_ofFields? {f : Json.Fields}
    (h : List.Forall₂ (fun field value => FieldValue.Fits field.2 value) fields values)
    (hold : f.Hold (membersOf fields values)) :
    (fields.mapM fun (name, kind) => FieldValue.ofFields? f name kind) = some values := by
  induction h with
  | nil => rfl
  | @cons field value fields values hfits _ ih =>
    have hhead := hfits.ofFields? hold (List.mem_cons_self : (field.1, value.toJson) ∈ _)
    have htail := ih (hold.mono fun m hm => List.mem_cons_of_mem _ hm)
    rw [List.mapM_cons]
    show (FieldValue.ofFields? f field.1 field.2).bind _ = _
    rw [hhead, htail]
    rfl

variable {p : Payload}

/-- **A payload is read back as it was written.** -/
theorem ofText?_toJson (h : p.Typed) : p.type.ofText? p.toJson.compactText = some p := by
  have hnames : ((membersOf p.type.fields p.values).map Prod.fst).Nodup :=
    names_membersOf h.fits ▸ h.names_nodup
  obtain ⟨f, hf, hold⟩ := Json.fields?_record p.type.names hnames
  have hread : Json.ofText? p.toJson.compactText = some p.toJson :=
    Json.ofText?_compactText (Json.spelled_record (spelled_membersOf h.fits))
  unfold PayloadType.ofText?
  rw [hread, Option.bind_some]
  show (Json.fields? p.type.names (Json.record (membersOf p.type.fields p.values))).bind _ = _
  rw [hf, Option.bind_some, mapM_ofFields? h.fits hold]
  rfl

/-- What is written is the text of the record. -/
theorem write_eq_ok {plain : String} (h : p.write = .ok plain) : plain = p.toJson.compactText := by
  unfold write at h
  split at h
  · cases h
  · exact (Except.ok.inj h).symm

theorem head?_compactText (p : Payload) : p.toJson.compactText.toList.head? = some '\x7b' := by
  rw [Json.compactText, String.toList_ofList]
  rfl

end Payload

namespace Registry

variable {r r' : Registry} {p : Payload} {s : SerializedPayload}

theorem isRegistered_of_find? {typeId : String} {t : PayloadType} (h : r.find? typeId = some t) :
    r.isRegistered typeId = true := by
  rw [isRegistered, h, Option.isSome_some]

theorem typeId_of_find? {typeId : String} {t : PayloadType} (h : r.find? typeId = some t) :
    t.typeId = typeId := by
  have hbeq := List.find?_some h
  exact beq_iff_eq.1 hbeq

theorem serialize_eq_ok (h : r.serialize p = .ok s) :
    s.typeId = p.type.typeId ∧ p.write = .ok p.toJson.compactText
      ∧ r.sealText p.toJson.compactText = .ok s.data := by
  unfold serialize at h
  split at h
  · cases h
  split at h
  · cases h
  next plain hwrite =>
    obtain rfl := Payload.write_eq_ok hwrite
    cases hseal : r.sealText p.toJson.compactText with
    | error e => rw [hseal] at h; cases h
    | ok data =>
      rw [hseal] at h
      cases h
      exact ⟨rfl, hwrite, rfl⟩

/-- The two ways of reading persisted data are one when the reader expects the bound type. -/
theorem instantiate_eq_deserialize {typeId : String} {t : PayloadType}
    (h : r.find? typeId = some t) (data : String) :
    r.instantiate typeId data = r.deserialize t typeId data := by
  unfold instantiate deserialize
  rw [h, isRegistered_of_find? h, typeId_of_find? h, bne_self_eq_false]
  rfl

/-- No data of an unknown type is read. -/
theorem unknown_of_find? {typeId : String} (h : r.find? typeId = none) (data : String) :
    r.instantiate typeId data = .error (.unknownType typeId)
      ∧ ∀ t, r.deserialize t typeId data = .error (.unknownType typeId) := by
  unfold instantiate deserialize isRegistered
  rw [h]
  exact ⟨rfl, fun _ => rfl⟩

/-- Data whose text is the record of a payload is read as that payload. -/
theorem instantiate_of_openEnvelope {data : String} (hp : p.Typed)
    (hknown : r.find? p.type.typeId = some p.type)
    (hopen : r.openEnvelope data = .ok p.toJson.compactText) :
    r.instantiate p.type.typeId data = .ok p := by
  unfold instantiate
  rw [hknown]
  show (r.openEnvelope data).bind _ = _
  rw [hopen]
  show decode p.type p.toJson.compactText = _
  rw [decode, Payload.ofText?_toJson hp]

/-- Data that cannot be opened is not read, whatever type its id is bound to. -/
theorem error_of_openEnvelope {typeId data : String} {fault : PayloadFault}
    (hknown : r.isRegistered typeId = true) (hopen : r.openEnvelope data = .error fault) :
    r.instantiate typeId data = .error fault
      ∧ ∀ t, t.typeId = typeId → r.deserialize t typeId data = .error fault := by
  refine ⟨?_, fun t ht => ?_⟩
  · obtain ⟨t, ht⟩ := Option.isSome_iff_exists.1 hknown
    unfold instantiate
    rw [ht, hopen]
    rfl
  · unfold deserialize
    rw [hknown, ht, bne_self_eq_false, hopen]
    rfl

/-! ## The round trip -/

/--
**A payload that a registry writes comes back.** The registry itself reads it in both ways, if it
has no cipher or one that takes back what it has done. What was written without a cipher is read by
every registry that knows the type, whatever its cipher; what was written with one is not read by
any registry without. And the two ways of reading agree on all data, failures included.
-/
theorem payload_returns (hp : p.Typed) (hknown : r.find? p.type.typeId = some p.type)
    (hs : r.serialize p = .ok s) :
    s.typeId = p.type.typeId
      ∧ ((∀ c ∈ r.cipher, c.Inverts) →
          r.deserialize p.type s.typeId s.data = .ok p ∧ r.instantiate s.typeId s.data = .ok p)
      ∧ (r.cipher = none → ∀ r' : Registry, r'.find? p.type.typeId = some p.type →
          r'.deserialize p.type s.typeId s.data = .ok p ∧ r'.instantiate s.typeId s.data = .ok p)
      ∧ (r.cipher ≠ none → ∀ r' : Registry,
          r'.isRegistered p.type.typeId = true → r'.cipher = none →
          r'.deserialize p.type s.typeId s.data = .error .cipherMissing
            ∧ r'.instantiate s.typeId s.data = .error .cipherMissing)
      ∧ ∀ (r' : Registry) (typeId data : String),
          (∀ t, r'.find? typeId = some t →
            r'.instantiate typeId data = r'.deserialize t typeId data)
          ∧ (r'.find? typeId = none → r'.instantiate typeId data = .error (.unknownType typeId)
            ∧ ∀ t, r'.deserialize t typeId data = .error (.unknownType typeId)) := by
  obtain ⟨htype, -, hseal⟩ := serialize_eq_ok hs
  -- once the data is opened, both ways of reading lead to the payload
  have reads {r' : Registry} (hknown : r'.find? p.type.typeId = some p.type)
      (hopen : r'.openEnvelope s.data = .ok p.toJson.compactText) :
      r'.deserialize p.type s.typeId s.data = .ok p ∧ r'.instantiate s.typeId s.data = .ok p := by
    have hread := instantiate_of_openEnvelope hp hknown hopen
    rw [htype]
    exact ⟨(instantiate_eq_deserialize hknown s.data).symm.trans hread, hread⟩
  have plain (hc : r.cipher = none) (r' : Registry) :
      r'.openEnvelope s.data = .ok p.toJson.compactText := by
    have hdata : s.data = p.toJson.compactText := by
      unfold sealText at hseal
      rw [hc] at hseal
      exact (Except.ok.inj hseal).symm
    rw [hdata]
    exact openEnvelope_plain r' (by rw [p.head?_compactText]; decide)
  refine ⟨htype, fun hinv => ?_, fun hc r' hknown => reads hknown (plain hc r'),
    fun hc r' hknown hc' => ?_, fun r' typeId data =>
    ⟨fun t ht => instantiate_eq_deserialize ht data, fun h => unknown_of_find? h data⟩⟩
  · cases hc : r.cipher with
    | none => exact reads hknown (plain hc r)
    | some c => exact reads hknown (openEnvelope_sealText hc hc (hinv c hc) hseal)
  · obtain ⟨c, hc⟩ := Option.ne_none_iff_exists'.1 hc
    obtain ⟨hinstantiate, hdeserialize⟩ :=
      error_of_openEnvelope hknown (openEnvelope_sealed hc hc' hseal)
    rw [htype]
    exact ⟨hdeserialize p.type rfl, hinstantiate⟩

/-- A type with a field of each kind. -/
def noteType : PayloadType :=
  { typeId := "demo.note.v1"
    fields := [("title", .text), ("pages", .integers), ("remark", .optionalText), ("done", .flag)] }

/-- A note with letters beyond ASCII, characters that are escaped, and both extreme integers. -/
def note : Payload :=
  { type := noteType
    values := [.text "ł\"ódź\" 🚀\n",
      .integers [-9223372036854775808, 0, 9223372036854775807], .optionalText none, .flag true] }

theorem typed_note : note.Typed where
  names_nodup := by decide
  fits := .cons (.text _) (.cons (.integers (by unfold Json.InRange; decide))
    (.cons (.optionalText none) (.cons (.flag true) .nil)))

/-- A note that goes through a registry with a cipher, and past one without. -/
theorem note_returns :
    let masked : Registry := { types := [noteType], cipher := some (.mask 33) }
    let bare : Registry := { types := [noteType] }
    note.Typed ∧ masked.find? note.type.typeId = some note.type
      ∧ (∃ s, masked.serialize note = .ok s ∧ masked.deserialize noteType s.typeId s.data = .ok note
        ∧ masked.instantiate s.typeId s.data = .ok note
        ∧ bare.instantiate s.typeId s.data = .error .cipherMissing)
      ∧ ∃ s, bare.serialize note = .ok s
        ∧ masked.deserialize noteType s.typeId s.data = .ok note := by
  intro masked bare
  obtain ⟨s, hs⟩ : ∃ s, masked.serialize note = .ok s := ⟨_, rfl⟩
  obtain ⟨-, hread, -, hmissing, -⟩ := payload_returns typed_note (r := masked) rfl hs
  obtain ⟨hdeserialize, hinstantiate⟩ := hread fun c hc => by
    obtain rfl := Option.some.inj hc
    exact Cipher.inverts_mask 33
  obtain ⟨-, hbare⟩ := hmissing nofun bare rfl rfl
  obtain ⟨t, ht⟩ : ∃ s, bare.serialize note = .ok s := ⟨_, rfl⟩
  obtain ⟨-, -, hlater, -⟩ := payload_returns typed_note (r := bare) rfl ht
  exact ⟨typed_note, rfl, ⟨s, hs, hdeserialize, hinstantiate, hbare⟩, t, ht,
    (hlater rfl masked rfl).1⟩

end Registry

end BackgroundTasks
