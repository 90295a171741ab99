import BackgroundTasks.Proofs.Files.Faults

/-!
# A call to the store that fails has not happened

A call may lose any of its calls to the file system on the way. If it then returns an error, the
table in memory is the one from before, and so is all that would be read if the store were opened
anew:

* what is prepared under the passing name is never read, so only the renaming counts;
* a line that has been begun, or one whose snapshot has failed, is cut off again, and what is cut
  is exactly what came after the length that was taken before the line;
* a log that has only been made reads like one that is not there.
-/

namespace BackgroundTasks.FileStore

open Place (AlikeBut)

variable {p p' q : Place}

/-! ## What would be read -/

/-- The table that is read when the store is opened, with no fault on the way. -/
def reopened (p : Place) : Except StoreFault TaskTable := (openTable.eval Place.answer p).1

/-- What is read from a file, or a default when there is no such file. -/
def loaded {α : Type} (default : α) (read : List UInt8 → Option α) :
    Option FolderEntry → Except StoreFault α
  | none => .ok default
  | some .folder => .error .storage
  | some (.file bytes) => (read bytes).elim (.error .unreadable) .ok

theorem eval_readOr {α : Type} (name : String) (default : α) (read : List UInt8 → Option α)
    (p : Place) :
    (readOr name default read).eval Place.answer p = (loaded default read (p.find? [name]), p) := by
  have hthere : (perform (.isThere name)).eval Place.answer p
      = (.ok (p.find? [name]).isSome, p) := eval_perform _ p
  refine (eval_then hthere).trans ?_
  cases hfind : p.find? [name] with
  | none => rfl
  | some e =>
    have hread := eval_perform (.read name) p
    rw [Place.answer, Place.bytes?, hfind] at hread
    cases e with
    | folder => exact eval_then_error hread
    | file bytes =>
      refine (eval_then hread).trans ?_
      rw [loaded]
      cases read bytes <;> rfl

/-- What is read once there is a folder. -/
def load : Work TaskTable := do
  let rows ← readOr snapshotName [] rowsOf?
  let log ← readOr logName [] entriesOf?
  return .ofParts rows log

theorem eval_load (p : Place) :
    load.eval Place.answer p = ((do
      let rows ← loaded [] rowsOf? (p.find? [snapshotName])
      let log ← loaded [] entriesOf? (p.find? [logName])
      return .ofParts rows log), p) := by
  unfold load
  cases hrows : loaded [] rowsOf? (p.find? [snapshotName]) with
  | error fault => exact eval_then_error (by rw [eval_readOr, hrows])
  | ok rows =>
    rw [eval_then (by rw [eval_readOr, hrows])]
    cases hlog : loaded [] entriesOf? (p.find? [logName]) with
    | error fault => exact eval_then_error (by rw [eval_readOr, hlog])
    | ok log => exact eval_then (by rw [eval_readOr, hlog])

theorem eval_openTable {p' : Place} (h : p.makeRoot? = some p') :
    openTable.eval Place.answer p = load.eval Place.answer p' := by
  have hmade := eval_perform .makeRoot p
  rw [Place.answer, h] at hmade
  exact eval_then hmade

theorem reopened_eq (p : Place) :
    reopened p = if p = .blocked then .error .storage else do
      let rows ← loaded [] rowsOf? (p.find? [snapshotName])
      let log ← loaded [] entriesOf? (p.find? [logName])
      return .ofParts rows log := by
  unfold reopened
  cases p with
  | blocked => rfl
  | absent =>
    rw [if_neg nofun, eval_openTable rfl, eval_load]
    rfl
  | folder entries => rw [if_neg nofun, eval_openTable rfl, eval_load]

/-- A log of the given content; one that is empty need not be there. -/
def LogHolds (p : Place) (content : List UInt8) : Prop :=
  p.find? [logName] = some (.file content) ∨ p.find? [logName] = none ∧ content = []

theorem loaded_log {content : List UInt8} (h : LogHolds p content) :
    loaded [] entriesOf? (p.find? [logName])
      = (entriesOf? content).elim (.error .unreadable) .ok := by
  rcases h with h | ⟨h, rfl⟩
  · rw [h]
    rfl
  · rw [h]
    rfl

/-- Two places whose logs read alike. -/
def SameLog (p q : Place) : Prop :=
  q.find? [logName] = p.find? [logName] ∨ ∃ content, LogHolds p content ∧ LogHolds q content

theorem loaded_sameLog (h : SameLog p q) :
    loaded [] entriesOf? (q.find? [logName]) = loaded [] entriesOf? (p.find? [logName]) := by
  rcases h with h | ⟨content, hp, hq⟩
  · rw [h]
  · rw [loaded_log hp, loaded_log hq]

/-- Whatever has changed is not read. -/
structure Unread (p q : Place) : Prop where
  alike : AlikeBut [draftName, logName] p q
  log : SameLog p q

theorem Unread.refl (p : Place) : Unread p p := ⟨.refl _ p, .inl rfl⟩

/-- Only the snapshot and the log are read. -/
theorem reopened_unread (h : Unread p q) : reopened q = reopened p := by
  have hsnapshot := h.alike.find?_eq snapshotName (by decide)
  simp only [reopened_eq, h.alike.blocked_iff, hsnapshot, loaded_sameLog h.log]

/-! ## What a call to the file system leaves as it was -/

/-- The files that a call may change. -/
def touched : FileCall → List String
  | .write name _ | .openAtEnd name | .append name _ | .truncate name _ => [name]
  | .rename source target => [source, target]
  | _ => []

theorem alikeBut_changed {names : List String} {p' : Option Place}
    (h : ∀ q, p' = some q → AlikeBut names p q) : AlikeBut names p (p.changed p').2 := by
  cases p' with
  | none => exact .refl names p
  | some q => exact h q rfl

theorem alikeBut_answer (c : FileCall) (p : Place) :
    AlikeBut (touched c) p (Place.answer c p).2 := by
  cases c with
  | makeRoot =>
    -- a folder that has just been made is as empty as one that is not there
    cases p with
    | absent => exact ⟨by simp [Place.answer, Place.makeRoot?, Place.changed], fun _ => ⟨[], rfl⟩,
        fun _ _ => rfl, nofun⟩
    | blocked | folder => exact .refl _ _
  | isThere | read | size => exact .refl _ p
  | write | openAtEnd => exact alikeBut_changed fun q hq => Place.alikeBut_putFile? hq
  | rename => exact alikeBut_changed fun q hq => Place.alikeBut_rename? hq
  | append | truncate =>
    refine alikeBut_changed fun q hq => ?_
    obtain ⟨content, -, hq⟩ := Option.bind_eq_some_iff.1 hq
    exact Place.alikeBut_putFile? hq

theorem alikeBut_fails {c : FileCall} (h : c.Fails p q) : AlikeBut (touched c) p q := by
  cases h with
  | untouched => exact .refl _ p
  | cutShort _ h | opened h | appended _ _ h => exact Place.alikeBut_putFile? h

theorem alikeBut_perform {c : FileCall} {r : Except StoreFault c.Result}
    (h : MayRun (perform c) p r q) : AlikeBut (touched c) p q := by
  have hanswer := alikeBut_answer c p
  cases r with
  | ok a =>
    rw [mayRun_perform_ok.1 h] at hanswer
    exact hanswer
  | error fault =>
    obtain ⟨-, h | h⟩ := mayRun_perform_error.1 h
    · rw [h] at hanswer
      exact hanswer
    · exact alikeBut_fails h

/-! ## The snapshot -/

theorem writeSnapshot_ok {t : TaskTable} (h : MayRun (writeSnapshot t) p (.ok ()) q) :
    q.find? [snapshotName] = some (.file (snapshot t)) ∧
      AlikeBut [draftName, snapshotName] p q := by
  obtain ⟨_, p', hwrite, hrename⟩ | ⟨_, ⟨⟩, _⟩ := mayRun_then.1 h
  have hdraft : p'.find? [draftName] = some (.file (snapshot t)) :=
    Place.find?_putFile?_self (Place.changed_eq_some.1 (mayRun_perform_ok.1 hwrite))
  have hrenamed := Place.changed_eq_some.1 (mayRun_perform_ok.1 hrename)
  refine ⟨Place.find?_rename?_target (Place.bytes?_eq_some.2 hdraft) hrenamed, ?_⟩
  have hbefore : AlikeBut [draftName, snapshotName] p p' :=
    (alikeBut_perform hwrite).mono (by simp [touched])
  exact hbefore.trans (alikeBut_perform hrename)

/-- What a snapshot that fails leaves behind is under the passing name. -/
theorem writeSnapshot_error {t : TaskTable} {fault : StoreFault}
    (h : MayRun (writeSnapshot t) p (.error fault) q) : AlikeBut [draftName] p q := by
  obtain ⟨_, p', hwrite, hrename⟩ | ⟨_, -, hwrite⟩ := mayRun_then.1 h
  · have hdraft := alikeBut_perform hwrite
    refine hdraft.trans ?_
    obtain ⟨-, hrename | hrename⟩ := mayRun_perform_error.1 hrename
    · obtain ⟨-, rfl⟩ := Place.changed_eq_none.1 hrename
      exact .refl _ _
    · cases hrename
      exact .refl _ _
  · exact alikeBut_perform hwrite

/-! ## The log -/

theorem logHolds_open (h : MayRun (perform (.openAtEnd logName)) p (.ok ()) q) :
    ∃ content, LogHolds p content ∧ q.find? [logName] = some (.file content) := by
  have hput := Place.changed_eq_some.1 (mayRun_perform_ok.1 h)
  refine ⟨_, ?_, Place.find?_putFile?_self hput⟩
  obtain ⟨entries, rfl, hfolder, -⟩ := Place.putFile?_eq_some.1 hput
  unfold LogHolds Place.bytes?
  rw [Place.find?_folder_name]
  rcases hlog : entries.lookup [logName] with _ | content | _
  · exact .inr ⟨rfl, rfl⟩
  · exact .inl rfl
  · exact absurd hlog hfolder

/-- A log that could not be opened has at most been made. -/
theorem sameLog_open {fault : StoreFault}
    (h : MayRun (perform (.openAtEnd logName)) p (.error fault) q) : SameLog p q := by
  obtain ⟨-, h | h⟩ := mayRun_perform_error.1 h
  · obtain ⟨-, rfl⟩ := Place.changed_eq_none.1 h
    exact .inl rfl
  · cases h with
    | untouched => exact .inl rfl
    | opened hput =>
      have hopened : MayRun (perform (.openAtEnd logName)) p (.ok ()) q :=
        mayRun_perform_ok.2 (Place.changed_eq_some.2 hput)
      obtain ⟨content, hp, hq⟩ := logHolds_open hopened
      exact .inr ⟨content, hp, .inl hq⟩

/-- A line that could not be written as a whole leaves a beginning of it behind. -/
theorem append_error {name : String} {bytes content : List UInt8} {fault : StoreFault}
    (hlog : p.find? [name] = some (.file content))
    (h : MayRun (perform (.append name bytes)) p (.error fault) q) :
    ∃ written, q.find? [name] = some (.file (content ++ written)) := by
  obtain ⟨-, h | h⟩ := mayRun_perform_error.1 h
  · obtain ⟨-, rfl⟩ := Place.changed_eq_none.1 h
    exact ⟨[], by rw [List.append_nil, hlog]⟩
  · cases h with
    | untouched => exact ⟨[], by rw [List.append_nil, hlog]⟩
    | appended written hcontent hput =>
      rw [Place.bytes?_eq_some.2 hlog] at hcontent
      cases hcontent
      exact ⟨_, Place.find?_putFile?_self hput⟩

/-- A file that is cut keeps what came before the cut. -/
theorem find?_cut {name : String} {content : List UInt8}
    (hlog : p.find? [name] = some (.file content)) (length : Nat) :
    (Place.answer (.truncate name length) p).2.find? [name]
      = some (.file (content.take length)) := by
  have hfile : p.find? [name] ≠ some .folder := by simp [hlog]
  obtain ⟨q, hput⟩ := Place.exists_putFile? (Place.isFolder_of_find? hlog) hfile
    (content.take length)
  have hanswer : Place.answer (.truncate name length) p = (some (), q) := by
    refine Place.changed_eq_some.2 ?_
    rw [Place.bytes?_eq_some.2 hlog]
    exact hput
  rw [hanswer]
  exact Place.find?_putFile?_self hput

/-- What came after a length is cut off when the log is cut back to it. -/
theorem find?_truncate {name : String} {content more : List UInt8}
    (hlog : p.find? [name] = some (.file (content ++ more))) :
    (Place.answer (.truncate name content.length) p).2.find? [name] = some (.file content) := by
  rw [find?_cut hlog, List.take_left]

theorem size_ok {name : String} {content : List UInt8} {length : Nat}
    (hlog : p.find? [name] = some (.file content))
    (h : MayRun (perform (.size name)) p (.ok length) q) : length = content.length ∧ q = p := by
  have hanswer := mayRun_perform_ok.1 h
  rw [Place.answer, Place.bytes?_eq_some.2 hlog] at hanswer
  cases hanswer
  exact ⟨rfl, rfl⟩

theorem size_error {name : String} {fault : StoreFault}
    (h : MayRun (perform (.size name)) p (.error fault) q) : q = p := by
  obtain ⟨-, h | h⟩ := mayRun_perform_error.1 h
  · exact (congrArg Prod.snd h).symm
  · cases h
    rfl

theorem append_ok {name : String} {bytes content : List UInt8}
    (hlog : p.find? [name] = some (.file content))
    (h : MayRun (perform (.append name bytes)) p (.ok ()) q) :
    q.find? [name] = some (.file (content ++ bytes)) := by
  have hput := Place.changed_eq_some.1 (mayRun_perform_ok.1 h)
  rw [Place.bytes?_eq_some.2 hlog] at hput
  exact Place.find?_putFile?_self hput

/-- A line that is written stands after what the log held, whose length is returned. -/
theorem appendToLog_ok {e : LogEntry} {length : Nat}
    (h : MayRun (appendToLog e) p (.ok length) q) :
    ∃ content, LogHolds p content ∧ length = content.length ∧
      q.find? [logName] = some (.file (content ++ logLine e)) ∧ AlikeBut [logName] p q := by
  obtain ⟨_, p₁, hopen, h₁⟩ | ⟨_, ⟨⟩, _⟩ := mayRun_then.1 h
  obtain ⟨_, p₂, hsize, h₂⟩ | ⟨_, ⟨⟩, _⟩ := mayRun_then.1 h₁
  obtain ⟨_, p₃, happend, h₃⟩ | ⟨_, ⟨⟩, _⟩ := mayRun_then.1 h₂
  obtain ⟨content, hp, hlog⟩ := logHolds_open hopen
  obtain ⟨rfl, rfl⟩ := size_ok hlog hsize
  obtain ⟨⟨⟩, rfl⟩ := mayRun_pure.1 h₃
  have happend := mayRun_orCutLog_ok.1 happend
  have hopened : AlikeBut [logName] p p₂ := alikeBut_perform hopen
  exact ⟨content, hp, rfl, append_ok hlog happend, hopened.trans (alikeBut_perform happend)⟩

/-- A line that could not be written is not there. -/
theorem appendToLog_error {e : LogEntry} {fault : StoreFault}
    (h : MayRun (appendToLog e) p (.error fault) q) : Unread p q := by
  have hmore : [logName] ⊆ [draftName, logName] := by simp
  obtain ⟨_, p₁, hopen, h₁⟩ | ⟨_, -, hopen⟩ := mayRun_then.1 h
  · obtain ⟨content, hp, hlog⟩ := logHolds_open hopen
    have hopened : AlikeBut [logName] p p₁ := alikeBut_perform hopen
    obtain ⟨_, p₂, hsize, h₂⟩ | ⟨_, -, hsize⟩ := mayRun_then.1 h₁
    · obtain ⟨rfl, rfl⟩ := size_ok hlog hsize
      obtain ⟨_, p₃, -, h₃⟩ | ⟨_, -, hcut⟩ := mayRun_then.1 h₂
      · cases (mayRun_pure.1 h₃).1
      · -- the line is torn, and the log is cut back to the length it had
        obtain ⟨p₃, happend, rfl⟩ := mayRun_orCutLog_error.1 hcut
        obtain ⟨written, hwritten⟩ := append_error hlog happend
        have hbegun : AlikeBut [logName] p p₃ := hopened.trans (alikeBut_perform happend)
        have hcut := hbegun.trans (alikeBut_answer (.truncate logName content.length) p₃)
        exact ⟨hcut.mono hmore, .inr ⟨content, hp, .inl (find?_truncate hwritten)⟩⟩
    · obtain rfl := size_error hsize
      exact ⟨hopened.mono hmore, .inr ⟨content, hp, .inl hlog⟩⟩
  · exact ⟨(alikeBut_perform hopen).mono hmore, sameLog_open hopen⟩

/-! ## A whole call -/

/-- What a snapshot that fails leaves behind is not read. -/
theorem unread_snapshot {t : TaskTable} {fault : StoreFault}
    (h : MayRun (writeSnapshot t) p (.error fault) q) : Unread p q := by
  have hdraft := writeSnapshot_error h
  exact ⟨hdraft.mono (by simp), .inl (hdraft.find?_eq logName (by decide))⟩

/-- The work of a completion: its line, and then the snapshot if the row has changed. -/
def completionWork (stored : LogEntry) (next : TaskTable) (applied : Bool) : Work Unit := do
  let length ← appendToLog stored
  if applied then orCutLog (writeSnapshot next) length

theorem answer_complete (t : TaskTable) (id : TaskId) (c : Completion) (e : LogEntry) :
    answer t (.complete id c e) = commit t (t.complete id c e).2 (t.complete id c e).1.1
      (completionWork (t.complete id c e).1.2 (t.complete id c e).2 (t.complete id c e).1.1) := rfl

theorem unread_completion {stored : LogEntry} {next : TaskTable} {applied : Bool}
    {fault : StoreFault} (h : MayRun (completionWork stored next applied) p (.error fault) q) :
    Unread p q := by
  obtain ⟨_, p', happend, hrest⟩ | ⟨_, -, happend⟩ := mayRun_then.1 h
  · obtain ⟨content, hp, rfl, hlog, hlogged⟩ := appendToLog_ok happend
    cases applied with
    | false => cases (mayRun_pure.1 hrest).1
    | true =>
      -- the line stands, but the snapshot has failed, so the line is cut off
      obtain ⟨p₁, hsnapshot, rfl⟩ := mayRun_orCutLog_error.1 hrest
      have hdraft := writeSnapshot_error hsnapshot
      have hlog : p₁.find? [logName] = some (.file (content ++ logLine stored)) :=
        (hdraft.find?_eq logName (by decide)).trans hlog
      have hbegun : AlikeBut [draftName, logName] p p₁ :=
        (hlogged.mono (by simp)).trans (hdraft.mono (by simp))
      have hcut := alikeBut_answer (.truncate logName content.length) p₁
      exact ⟨hbegun.trans (hcut.mono (by simp [touched])),
        .inr ⟨content, hp, .inl (find?_truncate hlog)⟩⟩
  · exact appendToLog_error happend

theorem commit_error {c : StoreCall} {before after t' : TaskTable} {result : c.Result}
    {work : Work Unit} {failure : Failure}
    (h : MayRun (commit before after result work) p (.error failure, t') q) :
    t' = before ∧ ∃ fault, MayRun work p (.error fault) q := by
  obtain ⟨_ | _, p', hwork, hend⟩ := mayRun_bind.1 h
  · obtain ⟨⟨⟩, rfl⟩ := mayRun_done.1 hend
    exact ⟨rfl, _, hwork⟩
  · cases (mayRun_done.1 hend).1

/-- What is done for a call that adds nothing to the log. -/
def plainAnswer (t : TaskTable) (c : StoreCall) : FileProgram (c.Answer × TaskTable) :=
  match t.answer c with
  | (.error failure, _) => .done (.error failure, t)
  | (.ok result, next) =>
    commit t next result (if c.changesRows result then writeSnapshot next else pure ())

theorem unread_plain {t t' : TaskTable} {c : StoreCall} {failure : Failure}
    (heq : answer t c = plainAnswer t c) (h : MayRun (answer t c) p (.error failure, t') q) :
    t' = t ∧ Unread p q := by
  rw [heq, plainAnswer] at h
  rcases hc : t.answer c with ⟨refusal | result, next⟩
  · rw [hc] at h
    obtain ⟨⟨⟩, rfl⟩ := mayRun_done.1 h
    exact ⟨rfl, .refl _⟩
  · rw [hc] at h
    obtain ⟨rfl, fault, hwork⟩ := commit_error h
    refine ⟨rfl, ?_⟩
    split at hwork
    · exact unread_snapshot hwork
    · cases (mayRun_pure.1 hwork).1

theorem unread_of_error {t t' : TaskTable} {c : StoreCall} {failure : Failure}
    (h : MayRun (answer t c) p (.error failure, t') q) : t' = t ∧ Unread p q := by
  cases c with
  | complete id completion entry =>
    rw [answer_complete] at h
    obtain ⟨rfl, fault, hwork⟩ := commit_error h
    exact ⟨rfl, unread_completion hwork⟩
  | appendLog entry =>
    obtain ⟨rfl, fault, hwork⟩ := commit_error h
    obtain ⟨_, _, -, hrest⟩ | ⟨_, -, happend⟩ := mayRun_then.1 hwork
    · cases (mayRun_pure.1 hrest).1
    · exact ⟨rfl, appendToLog_error happend⟩
  | _ => exact unread_plain rfl h

/--
A call that returns an error, whichever of its calls to the file system have failed, leaves the
table in memory as it was and everything that would be read from the files as well.
-/
theorem failed_call_leaves_no_trace {t t' : TaskTable} {c : StoreCall} {failure : Failure}
    (h : MayRun (answer t c) p (.error failure, t') q) :
    t' = t ∧ reopened q = reopened p := by
  obtain ⟨htable, hunread⟩ := unread_of_error h
  exact ⟨htable, reopened_unread hunread⟩

/-- A task whose first attempt is under way. -/
def runningRow : Row where
  id := .ofNat 1
  state := .running
  spec := {
    payloadTypeId := "bare"
    payloadData := "{}"
    priority := 1
    conditions := {}
    recurrence := .oneTime
    initialDelayMs := 0
    intervalMs := 0
    flexMs := 0
    growth := .linear
    backoffDelayMs := 1000
    backoffMultiplier := none
    backoffJitter := 0
    maxRetries := 3 }
  nextRunMs := 0
  attempts := 1
  retries := 0
  platformId := none
  createdMs := 0
  updatedMs := 0

/-- A line of five bytes is cut off again, and the completion has not happened. -/
theorem failed_call_leaves_no_trace_torn :
    let t : TaskTable := ⟨[runningRow], [], by decide⟩
    let c : StoreCall :=
      .complete (.ofNat 1) ⟨1, .succeeded, none, 0, 5⟩ ⟨.ofNat 1, 5, .succeeded, 1, none⟩
    let q : Place := .folder [([logName], .file [])]
    MayRun (answer t c) (.folder []) (.error (.store .storage), t) q ∧
      reopened q = reopened (.folder []) := by
  intro t c q
  have h : MayRun (answer t c) (.folder []) (.error (.store .storage), t) q := by
    refine .answers (.answers (.fails (.appended 5 rfl rfl) (.answers ?_)))
    exact .done _ _
  exact ⟨h, (failed_call_leaves_no_trace h).2⟩

end BackgroundTasks.FileStore
