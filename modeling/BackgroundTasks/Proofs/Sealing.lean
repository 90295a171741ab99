import BackgroundTasks.Proofs.LifeCycle
import BackgroundTasks.Proofs.Ownership
import BackgroundTasks.Proofs.RoundTrip.Payloads
import BackgroundTasks.Proofs.WellFormed

/-!
# Payloads at rest

A scheduler that is to encrypt payloads cannot be put together without a cipher, and its registry
has that cipher. What a request comes to has its payload sealed, or it comes to nothing. A job
stores no description but that of its own request, and whatever else is done to a row leaves its
description alone; so from the time it is described, a row has the sealed payload of the request
that it was described for.

A run may begin over any rows. Those that it does not describe stay as they are.
-/

namespace BackgroundTasks

variable {s : Scheduler} {w w' w₀ : Scene} {past since : List Moment} {m : Moment} {who : Nat}
  {id : TaskId} {c : Cipher} {data : String}

/-! ## Sealed data -/

/-- The persisted form that a cipher gives to a payload. -/
def Cipher.Seals (c : Cipher) (p : Payload) (data : String) : Prop :=
  ∃ sealed, c.encrypt (Text.Utf8.ofString p.toJson.compactText) = .ok sealed
    ∧ data = "enc:v1:" ++ String.ofList (Text.Base64.encode sealed)

theorem Registry.cipher_register {r r' : Registry} {t : PayloadType} (h : r.register t = .ok r') :
    r'.cipher = r.cipher := by
  unfold register at h
  split at h
  · cases h
  · cases h
    rfl

theorem Registry.cipher_foldlM {r r' : Registry} {types : List PayloadType}
    (h : types.foldlM Registry.register r = .ok r') : r'.cipher = r.cipher := by
  induction types generalizing r with
  | nil =>
    cases h
    rfl
  | cons t rest ih =>
    rw [List.foldlM_cons] at h
    cases ht : r.register t with
    | error fault => rw [ht] at h; cases h
    | ok next =>
      rw [ht] at h
      exact (ih h).trans (cipher_register ht)

/-- **A scheduler that is to encrypt payloads has a cipher.** -/
theorem Setup.cipher_of_build {setup : Setup} {place place' : Place} {store : Store}
    (hbuild : setup.build place = (.ok (s, store), place'))
    (hencrypts : setup.config.encryptPayloads = true) :
    ∃ c, setup.cipher = some c ∧ s.registry.cipher = some c := by
  have hscheduler := scheduler_of_build hbuild
  obtain ⟨-, hfault⟩ := scheduler_eq_ok hscheduler
  have hcipher : setup.cipher ≠ none := by
    unfold configFault? at hfault
    split at hfault
    · cases hfault
    · simpa [hencrypts] using hfault
  obtain ⟨c, hc⟩ := Option.ne_none_iff_exists'.1 hcipher
  refine ⟨c, hc, ?_⟩
  unfold scheduler at hscheduler
  split at hscheduler
  · cases hscheduler
  next registry hregistry =>
    rw [hfault] at hscheduler
    cases hscheduler
    exact (Registry.cipher_foldlM hregistry).trans hc

/-- What a request comes to has its payload sealed. -/
theorem Request.seals_of_normalize {request : Request} {registry : Registry} {now : UInt64}
    {config : Config} {n : NormalizedRequest} (hc : registry.cipher = some c)
    (h : request.normalize registry now config = .ok n) :
    c.Seals request.payload n.spec.payloadData := by
  obtain ⟨_, _, _, serialized, -, -, -, hserialized, -, hspec⟩ := normalize_eq_ok h
  obtain ⟨-, -, hseal⟩ := Registry.serialize_eq_ok hserialized
  obtain ⟨sealed, hsealed, hdata⟩ := (Registry.sealText_eq_ok hc).1 hseal
  refine ⟨sealed, hsealed, ?_⟩
  rw [hspec, hdata, List.append_cons, String.ofList_append]
  rfl

/-! ## Descriptions in a run -/

/-- The operation that begins, and its job. -/
def Occurrence.starts? : Occurrence → Option (Nat × Job)
  | .begins who job => some (who, job)
  | .wakes who id => some (who, .dispatch id)
  | _ => none

/-- An operation has begun with a job. -/
def Began (past : List Moment) (who : Nat) (job : Job) : Prop :=
  ∃ m ∈ past, m.occurrence.starts? = some (who, job)

/-- The row of a task gets a description. -/
def Moment.Describes (m : Moment) (id : TaskId) : Prop :=
  (∃ row, m.deed id = .inserted row) ∨ m.Renews id

/-- The row of a task is added for a request to submit, or renewed for one to reschedule it. -/
inductive DescribedFor (past : List Moment) (m : Moment) (id : TaskId) (request : Request) : Prop
  | submitted (row : Row) (began : Began past m.occurrence.who (.submit request))
    (adds : m.deed id = .inserted row)
  | rescheduled (began : Began past m.occurrence.who (.reschedule id request))
    (renews : m.Renews id)

/-- The row of a task has this payload data. -/
def TaskTable.Stores (t : TaskTable) (id : TaskId) (data : String) : Prop :=
  ∃ row, t.find? id = some row ∧ row.spec.payloadData = data

/-- What a moment does to payload data. -/
structure KeepsSealed (c : Cipher) (past : List Moment) (m : Moment) : Prop where
  /-- A row that is described has the sealed payload of the request it is described for. -/
  described : ∀ id, m.Describes id → ∃ request data, DescribedFor past m id request
    ∧ c.Seals request.payload data ∧ m.after.Stores id data
  /-- All other rows keep their data. -/
  others : ∀ id data, ¬ m.Describes id → m.before.Stores id data → m.after.Stores id data

theorem not_describes_of_nothing (h : m.deed id = .nothing) : ¬ m.Describes id := by
  rintro (⟨row, hd⟩ | ⟨spec, next, now, hd⟩)
  · cases h.symm.trans hd
  · cases h.symm.trans hd

/-- When nothing is done to any row, all data is kept. -/
theorem keepsSealed_of_nothing (hdeed : ∀ id, m.deed id = .nothing) (htable : m.after = m.before) :
    KeepsSealed c past m where
  described _ h := absurd h (not_describes_of_nothing (hdeed _))
  others _ _ _ h := htable ▸ h

/-- Only a new description changes the data of a row. -/
theorem stores_answer {t : TaskTable} {call : StoreCall}
    (hrenews : ¬ t.Renews id (.call call)) (h : t.Stores id data) :
    (t.answer call).2.Stores id data := by
  obtain ⟨row, hrow, hdata⟩ := h
  obtain ⟨row', hrow', hevolves⟩ := (t.lawful (.call call)).evolves id row hrow
  obtain rfl := TaskTable.id_of_find? hrow
  have hspec : row'.spec = row.spec := not_imp_comm.1 hevolves.described hrenews
  exact ⟨row', hrow', hspec ▸ hdata⟩

/-- A call that is no call to the store leaves the table as it is. -/
theorem table_of_returns {call : Call} {a : call.Answer} {t t' : TaskTable}
    (hcall : ∀ sc, call ≠ .store sc) (h : call.Returns t a t') : t' = t := by
  cases call with
  | store sc => exact absurd rfl (hcall sc)
  | readStatus | arm | disarm | isArmed => exact h.2
  | _ => exact h

theorem stores_of_inserted {row : Row} {t t' : TaskTable}
    (h : (Except.ok (), t') = t.answer (.insert row)) :
    t'.Stores row.id row.spec.payloadData := by
  rw [TaskTable.answer] at h
  split at h
  · next hinsert =>
    cases h
    exact ⟨row, (TaskTable.find?_insert? hinsert).2.1, rfl⟩
  · cases h

theorem stores_of_replaced {spec : Spec} {next now : UInt64} {t : TaskTable}
    (h : (t.replaceSpec id spec next now).1 = .replaced) :
    (t.replaceSpec id spec next now).2.Stores id spec.payloadData := by
  obtain ⟨p, -, -, hp⟩ :=
    TaskTable.takes_of_isSome ((t.replaceSpec_replaced id spec next now).1 h)
  rw [← TaskTable.replaceSpec_snd] at hp
  exact ⟨_, hp, rfl⟩

/-- A row that an answer has renewed gets a description at that moment. -/
theorem describes_of_renews {sc : StoreCall} {a : sc.Answer} {t t' : TaskTable}
    (ha : (a, t') = t.answer sc) (hrenews : t.Renews id (.call sc)) :
    Moment.Describes ⟨.answers who (.store sc) a, t, t'⟩ id := by
  obtain ⟨⟨spec, next, now, heq⟩, hwritten⟩ := hrenews
  cases heq
  have ha : a = Except.ok (t.replaceSpec id spec next now).1 := congrArg Prod.fst ha
  have hout : id ∈ (StoreCall.replaceSpec id spec next now).written
    (t.replaceSpec id spec next now).1 := hwritten
  refine .inr ⟨spec, next, now, ?_⟩
  cases hcase : (t.replaceSpec id spec next now).1 with
  | replaced =>
    rw [hcase] at ha
    subst ha
    exact if_pos rfl
  | notFound | running =>
    rw [hcase] at hout
    cases hout

/-- **An answer to an operation keeps payloads sealed.** -/
theorem keepsSealed_answer {job : Job} {call : Call} {a : call.Answer} {t t' : TaskTable}
    (hc : s.registry.cipher = some c) (hcall : call.describesFor s job = true)
    (hbegan : Began past who job) (hreturns : call.Returns t a t') :
    KeepsSealed c past ⟨.answers who call a, t, t'⟩ where
  described id h := by
    rcases h with ⟨row, hd⟩ | ⟨spec, next, now, hd⟩
    · obtain ⟨rfl, hm⟩ := answers_of_inserted hd
      cases hm
      obtain ⟨request, rfl, hmakes, -⟩ := Call.describesFor_insert.1 hcall
      exact ⟨request, row.spec.payloadData, .submitted row hbegan hd,
        Request.seals_of_normalize hc hmakes, stores_of_inserted hreturns⟩
    · have hm := answers_of_renewed hd
      cases hm
      obtain ⟨request, rfl, hmakes⟩ := Call.describesFor_replaceSpec.1 hcall
      have hout : (t.replaceSpec id spec next now).1 = .replaced :=
        (Except.ok.inj (congrArg Prod.fst hreturns)).symm
      have hafter : t' = (t.replaceSpec id spec next now).2 := congrArg Prod.snd hreturns
      exact ⟨request, spec.payloadData, .rescheduled hbegan ⟨spec, next, now, hd⟩,
        Request.seals_of_normalize hc hmakes, hafter ▸ stores_of_replaced hout⟩
  others id data h hstores := by
    cases call with
    | store sc =>
      have hafter : t' = (t.answer sc).2 := congrArg Prod.snd hreturns
      show t'.Stores id data
      rw [hafter]
      exact stores_answer (fun hrenews => h (describes_of_renews hreturns hrenews)) hstores
    | _ =>
      have hafter : t' = t := table_of_returns (by intro sc heq; cases heq) hreturns
      exact hafter ▸ hstores

/-! ## Runs -/

/-- From moment to moment, payloads are kept sealed. What was before is of no account. -/
def KeptSealed (c : Cipher) (before : List Moment) : List Moment → Prop
  | [] => True
  | m :: since =>
    m.before = tableAfter (since ++ before) ∧ KeepsSealed c since m ∧ KeptSealed c before since

/-- How it stands in a run that has begun at a scene in which nothing was under way. -/
structure Sealing (s : Scheduler) (c : Cipher) (w₀ w : Scene) (since : List Moment) : Prop where
  past : w.past = since ++ w₀.past
  /-- What is left of an operation describes tasks as its job asks for. -/
  working : ∀ who p, w.activities[who]? = some p →
    ∃ job, Began since who job ∧ CallsOnly (Call.describesFor s job) p
  kept : KeptSealed c w₀.past since

theorem Began.cons {job : Job} (h : Began past who job) (m : Moment) :
    Began (m :: past) who job := by
  obtain ⟨m', hm', hstarts⟩ := h
  exact ⟨m', List.mem_cons_of_mem _ hm', hstarts⟩

namespace Sealing

/-- A moment goes on with a run. -/
theorem keptSealed_cons (h : Sealing s c w₀ w since) {o : Occurrence} {t : TaskTable}
    (hm : KeepsSealed c since ⟨o, w.table, t⟩) :
    KeptSealed c w₀.past (⟨o, w.table, t⟩ :: since) :=
  ⟨congrArg tableAfter h.past, hm, h.kept⟩

/-- An operation begins. -/
theorem begins (h : Sealing s c w₀ w since) {o : Occurrence} {job : Job}
    (hstarts : o.starts? = some (w.activities.length, job)) (hdeed : ∀ id, o.deed id = .nothing) :
    Sealing s c w₀ (w.on (w.activities ++ [job.program s]) o w.table)
      (⟨o, w.table, w.table⟩ :: since) where
  past := congrArg (_ :: ·) h.past
  working who p hp := by
    have hp : (w.activities ++ [job.program s])[who]? = some p := hp
    rcases Nat.lt_or_ge who w.activities.length with hlt | hge
    · rw [List.getElem?_append_left hlt] at hp
      obtain ⟨job', hbegan, hcalls⟩ := h.working who p hp
      exact ⟨job', hbegan.cons _, hcalls⟩
    · rw [List.getElem?_append_right hge, List.getElem?_singleton] at hp
      split at hp
      · next hzero =>
        obtain rfl := Option.some.inj hp
        obtain rfl : who = w.activities.length := by omega
        exact ⟨job, ⟨_, List.mem_cons_self, hstarts⟩, callsOnly_describesFor s job⟩
      · cases hp
  kept := h.keptSealed_cons (keepsSealed_of_nothing hdeed rfl)

/-- An operation goes on. -/
theorem goesOn (h : Sealing s c w₀ w since) {o : Occurrence} {t : TaskTable} {job : Job}
    {q : Program Call.signature Unit} (hm : KeepsSealed c since ⟨o, w.table, t⟩)
    (hbegan : Began since who job) (hq : CallsOnly (Call.describesFor s job) q) :
    Sealing s c w₀ (w.on (w.activities.set who q) o t) (⟨o, w.table, t⟩ :: since) where
  past := congrArg (_ :: ·) h.past
  working who' p hp := by
    have hp : (w.activities.set who q)[who']? = some p := hp
    by_cases hself : who = who'
    · subst hself
      rw [List.getElem?_set_self'] at hp
      obtain ⟨_, -, rfl⟩ := Option.map_eq_some_iff.1 hp
      exact ⟨job, hbegan.cons _, hq⟩
    · rw [List.getElem?_set_ne hself] at hp
      obtain ⟨job', hbegan', hcalls⟩ := h.working who' p hp
      exact ⟨job', hbegan'.cons _, hcalls⟩
  kept := h.keptSealed_cons hm

end Sealing

theorem sealing_step (hc : s.registry.cipher = some c) (h : Sealing s c w₀ w since)
    (hs : Step s w w') : ∃ m, Sealing s c w₀ w' (m :: since) := by
  cases hs with
  | begin job => exact ⟨_, h.begins rfl fun _ => rfl⟩
  | wake id => exact ⟨_, h.begins rfl fun _ => rfl⟩
  | answer next returns =>
    obtain ⟨job, hbegan, hcall, hcalls⟩ := h.working _ _ next
    exact ⟨_, h.goesOn (keepsSealed_answer hc hcall hbegan returns) hbegan (hcalls _)⟩
  | fail next failure =>
    obtain ⟨job, hbegan, -, hcalls⟩ := h.working _ _ next
    exact ⟨_, h.goesOn (keepsSealed_of_nothing (fun _ => rfl) rfl) hbegan (hcalls _)⟩
  | breakDown next breaks =>
    obtain ⟨job, hbegan, -⟩ := h.working _ _ next
    exact ⟨_, h.goesOn (keepsSealed_of_nothing (fun _ => rfl) rfl) hbegan trivial⟩

/-- **Every run keeps payloads sealed.** -/
theorem sealing_run (hc : s.registry.cipher = some c) (hidle : w₀.activities = [])
    (hrun : Relation.ReflTransGen (Step s) w₀ w) : ∃ since, Sealing s c w₀ w since := by
  induction hrun with
  | refl =>
    refine ⟨[], rfl, fun who p hp => ?_, trivial⟩
    rw [hidle] at hp
    cases hp
  | tail _ hs ih =>
    obtain ⟨since, h⟩ := ih
    obtain ⟨m, hm⟩ := sealing_step hc h hs
    exact ⟨m :: since, hm⟩

/-! ## From one description to the next -/

theorem KeptSealed.of_append {before later : List Moment}
    (h : KeptSealed c before (later ++ since)) : KeptSealed c before since := by
  induction later with
  | nil => exact h
  | cons m later ih => exact ih h.2.2

/-- Data is kept for as long as there is no new description. -/
theorem KeptSealed.stores {before between earlier : List Moment}
    (h : KeptSealed c before (between ++ m :: earlier)) (hm : m.after.Stores id data)
    (hnone : ∀ b ∈ between, ¬ b.Describes id) :
    ∀ b ∈ between ++ [m], b.after.Stores id data := by
  induction between with
  | nil => exact List.forall_mem_singleton.2 hm
  | cons b between ih =>
    obtain ⟨hb, hbetween⟩ := List.forall_mem_cons.1 hnone
    have hall := ih h.2.2 hbetween
    -- the data that the row had just before
    have hbefore : b.before.Stores id data := by
      rw [h.1]
      cases between with
      | nil => exact hm
      | cons b' between => exact hall b' List.mem_cons_self
    exact List.forall_mem_cons.2 ⟨h.2.1.others id data hb hbefore, hall⟩

/--
Whatever is described in a stretch of a run is described for a request, and has its payload sealed
from then on, for as long as it gets no other description.
-/
def SealedSince (c : Cipher) (since : List Moment) : Prop :=
  ∀ later between m earlier id, since = later ++ between ++ m :: earlier → m.Describes id →
    (∀ b ∈ between, ¬ b.Describes id) →
    ∃ request data, DescribedFor earlier m id request ∧ c.Seals request.payload data
      ∧ ∀ b ∈ between ++ [m], b.after.Stores id data

theorem KeptSealed.sealedSince {before : List Moment} (h : KeptSealed c before since) :
    SealedSince c since := by
  rintro later between m earlier id rfl hdescribes hnone
  rw [List.append_assoc] at h
  obtain ⟨request, data, hfor, hseals, hstores⟩ :=
    h.of_append.of_append.2.1.described id hdescribes
  exact ⟨request, data, hfor, hseals, h.of_append.stores hstores hnone⟩

/-! ## Payloads that cannot be sealed -/

/-- A request in which nothing is wrong when payloads need not be sealed. -/
def Scheduler.AcceptsUnsealed (s : Scheduler) (request : Request) : Prop :=
  ∃ now n, request.normalize { s.registry with cipher := none } now s.config = .ok n

/-- An operation that only looks at the clock, and fails. -/
structure Operation.OnlyFails {α : Type} (op : Operation α) (failure : Failure) : Prop where
  calls : op = .call .now fun _ => .done (.error failure)
  /-- It leaves everything as it is, rows and all. -/
  run : ∀ y : System, Program.run System.answer op y = (.finished (.error failure), y)

theorem Operation.onlyFails_of_calls {α : Type} {op : Operation α} {failure : Failure}
    (h : op = .call .now fun _ => .done (.error failure)) : op.OnlyFails failure := by
  refine ⟨h, fun y => ?_⟩
  rw [h]
  rfl

/-- A request whose payload is refused comes to the cipher's error. -/
theorem Request.normalize_of_refused {request : Request} {text : String}
    (hc : s.registry.cipher = some c) (haccepts : s.AcceptsUnsealed request)
    (hrefuses : c.encrypt (Text.Utf8.ofString request.payload.toJson.compactText) = .error text)
    (now : UInt64) :
    request.normalize s.registry now s.config = .error (.payload (.cipher (.refused text))) := by
  obtain ⟨now', n, hn⟩ := haccepts
  obtain ⟨schedule, jitter, multiplier, serialized, hschedule, hjitter, hmultiplier,
    hserialized, -, -⟩ := normalize_eq_ok hn
  obtain ⟨-, hwrite, -⟩ := Registry.serialize_eq_ok hserialized
  have hknown : s.registry.isRegistered request.payload.type.typeId = true := by
    unfold Registry.serialize at hserialized
    split at hserialized
    · cases hserialized
    · next hknown =>
      rw [Bool.not_eq_true', Bool.not_eq_false] at hknown
      exact hknown
  have hseal : s.registry.serialize request.payload = .error (.cipher (.refused text)) := by
    unfold Registry.serialize Registry.sealText
    rw [hknown, hwrite, hc]
    simp only [hrefuses]
    rfl
  unfold normalize
  rw [hschedule, hjitter, hmultiplier, hseal]
  rfl

/-- What becomes of requests whose payloads the cipher refuses. -/
def RefusesUnsealed (s : Scheduler) (c : Cipher) : Prop :=
  ∀ request text, s.AcceptsUnsealed request →
    c.encrypt (Text.Utf8.ofString request.payload.toJson.compactText) = .error text →
    (s.submit request).OnlyFails (.payload (.cipher (.refused text)))
      ∧ ∀ id, (s.reschedule id request).OnlyFails (.payload (.cipher (.refused text)))

theorem refusesUnsealed (hc : s.registry.cipher = some c) : RefusesUnsealed s c := by
  intro request text haccepts hrefuses
  have hnormalize (now : UInt64) : s.normalize request now
      = throw (Failure.payload (.cipher (.refused text))) := by
    unfold Scheduler.normalize
    rw [Request.normalize_of_refused hc haccepts hrefuses now]
    rfl
  constructor
  · refine Operation.onlyFails_of_calls ?_
    unfold Scheduler.submit
    simp only [hnormalize]
    rfl
  · refine fun id => Operation.onlyFails_of_calls ?_
    unfold Scheduler.reschedule
    simp only [hnormalize]
    rfl

/-! ## The whole -/

/--
**Payloads are encrypted at rest.** Whatever operations run side by side under a scheduler that is
to encrypt payloads, and whatever rows there are at first: the rows that it describes have the
sealed payloads of their requests, and a request whose payload cannot be sealed changes nothing.
-/
theorem payloads_sealed {setup : Setup} {place place' : Place} {store : Store}
    (hbuild : setup.build place = (.ok (s, store), place'))
    (hencrypts : setup.config.encryptPayloads = true) (hidle : w₀.activities = [])
    (hrun : Relation.ReflTransGen (Step s) w₀ w) :
    ∃ c, setup.cipher = some c
      ∧ (∃ since, w.past = since ++ w₀.past ∧ SealedSince c since)
      ∧ RefusesUnsealed s c := by
  obtain ⟨c, hcipher, hc⟩ := Setup.cipher_of_build hbuild hencrypts
  obtain ⟨since, h⟩ := sealing_run hc hidle hrun
  exact ⟨c, hcipher, ⟨since, h.past, h.kept.sealedSince⟩, refusesUnsealed hc⟩

namespace Rehearsal

/-- A setup that is to encrypt payloads. -/
def sealedSetup (c : Cipher) : Setup :=
  { config := { encryptPayloads := true }, types := [bare], cipher := some c }

/-- The scheduler that comes of it. -/
def sealer (c : Cipher) : Scheduler :=
  ⟨{ encryptPayloads := true }, { types := [bare], cipher := some c }⟩

/-- A task is cancelled while it runs, and scheduled and claimed anew, with payloads masked. -/
def sealedScene : Scene := (Play.run (sealer (.mask 90)) { system } overtaking).scene

end Rehearsal

open Rehearsal in
/--
The row that was added and then given a new schedule has its payload masked, and a cipher that
refuses keeps a task from being added.
-/
theorem payloads_sealed_masked :
    (sealedScene.table.find? first).map (fun row => row.spec.payloadData) = some "enc:v1:ISc="
      ∧ (∃ since, sealedScene.past = since ∧ SealedSince (.mask 90) since)
      ∧ (Scheduler.submit (sealer ((Cipher.mask 90).refusingEncryption "no key")) request).OnlyFails
        (.payload (.cipher (.refused "no key"))) := by
  refine ⟨by decide +kernel, ?_, ?_⟩
  · have hw : Reachable (sealer (.mask 90)) sealedScene := Play.reachable_run rfl overtaking
    have hbuild : (sealedSetup (.mask 90)).build .absent
        = (.ok (sealer (.mask 90), .memory .empty), .absent) := rfl
    obtain ⟨c, hc, ⟨since, hpast, hsealed⟩, -⟩ := payloads_sealed hbuild rfl rfl hw.run
    obtain rfl := Option.some.inj hc
    rw [List.append_nil] at hpast
    exact ⟨since, hpast, hsealed⟩
  · have hbuild : (sealedSetup ((Cipher.mask 90).refusingEncryption "no key")).build .absent
        = (.ok (sealer ((Cipher.mask 90).refusingEncryption "no key"), .memory .empty), .absent) :=
      rfl
    have haccepts : (request.normalize { types := [bare] } 0 { encryptPayloads := true }).isOk
        = true := by decide +kernel
    obtain ⟨c, hc, -, hrefuses⟩ := payloads_sealed hbuild rfl rfl (Reachable.init).run
    obtain rfl := Option.some.inj hc
    exact (hrefuses request "no key" ⟨0, Conduct.exists_of_isOk haccepts⟩ rfl).1

end BackgroundTasks
