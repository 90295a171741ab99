import BackgroundTasks.Proofs.Files.TornLog

/-!
# Lines after a torn one

A line is written at the end of the log, whatever is there. If a crash has left a beginning of a
line, the next entry continues it, and the two of them are one line that spells nothing: the brace
of the second entry stands inside the first one. So that entry is lost, and so is the first one, if
all of its text was there and only the line feed was missing. The entries after it are on lines of
their own again.
-/

namespace BackgroundTasks

namespace Text.Utf8

/-- A text that is followed by more bytes is still there. -/
theorem decode_append {bytes : List UInt8} {cs : List Char} (h : decode bytes = some cs)
    (rest : List UInt8) : decode (bytes ++ rest) = (decode rest).map (cs ++ ·) := by
  -- the cases in which something is decoded are those of one, two, three and four bytes
  fun_induction decode bytes generalizing cs with
  | case1 =>
    cases h
    exact Option.map_id'.symm
  | case2 a r ha ih =>
    obtain ⟨ds, hds, rfl⟩ := Option.map_eq_some_iff.1 h
    rw [List.cons_append, decode.eq_def]
    simp only [ha, if_true, ih hds, Option.map_map]
    rfl
  | case5 a ha b r hb hlead ih =>
    obtain ⟨ds, hds, rfl⟩ := Option.map_eq_some_iff.1 h
    rw [List.cons_append, List.cons_append, decode.eq_def]
    simp only [ha, hb, hlead, if_true, if_false, ih hds, Option.map_map]
    rfl
  | case9 a ha b hb htwo c r hc hthree hbounds ih =>
    obtain ⟨ds, hds, rfl⟩ := Option.map_eq_some_iff.1 h
    rw [List.cons_append, List.cons_append, List.cons_append, decode.eq_def]
    simp only [ha, hb, htwo, hc, hthree, hbounds, if_true, if_false, ih hds, Option.map_map]
    rfl
  | case13 a ha b hb htwo c hc hthree d r hd hfour hbounds ih =>
    obtain ⟨ds, hds, rfl⟩ := Option.map_eq_some_iff.1 h
    rw [List.cons_append, List.cons_append, List.cons_append, List.cons_append, decode.eq_def]
    simp only [ha, hb, htwo, hc, hthree, hd, hfour, hbounds, if_true, if_false, ih hds,
      Option.map_map]
    rfl
  | _ => cases h

end Text.Utf8

/-- The entries that calls add to the log, one after another. -/
def TaskTable.recorded (t : TaskTable) : List StoreCall → List LogEntry
  | [] => []
  | c :: more => t.entries c ++ (t.answer c).2.recorded more

namespace FileStore

/-- A log as crashes may leave it: lines are added at its end, and it may be cut at any time. -/
inductive Journal : List UInt8 → Prop
  | empty : Journal []
  | line {content : List UInt8} (h : Journal content) (e : LogEntry) :
      Journal (content ++ logLine e)
  | cut {content : List UInt8} (h : Journal content) (length : Nat) : Journal (content.take length)

/-- Whether what is written next is a line of its own. -/
def Ended (content : List UInt8) : Prop := content = [] ∨ content.getLast? = some lineFeed

variable {content whole tail line rest : List UInt8} {log : List LogEntry}

/-! ## Where a log has been torn -/

/-- The finished lines of a file, and what follows the last of them. -/
theorem exists_tail (content : List UInt8) :
    ∃ whole tail, content = whole ++ tail ∧ Ended whole ∧ lineFeed ∉ tail := by
  induction content with
  | nil => exact ⟨[], [], rfl, .inl rfl, List.not_mem_nil⟩
  | cons b rest ih =>
    obtain ⟨whole, tail, rfl, hended, htail⟩ := ih
    cases whole with
    | cons b' whole =>
      refine ⟨b :: b' :: whole, tail, rfl, .inr ?_, htail⟩
      rw [List.getLast?_cons_cons]
      exact hended.resolve_left nofun
    | nil =>
      by_cases hb : b = lineFeed
      · subst hb
        exact ⟨[lineFeed], tail, rfl, .inr rfl, htail⟩
      · refine ⟨[], b :: tail, rfl, .inl rfl, ?_⟩
        rw [List.mem_cons, not_or]
        exact ⟨Ne.symm hb, htail⟩

/-- Only a line feed at its end makes a file that is not empty end with a line. -/
theorem mem_of_ended_append (hended : Ended (whole ++ tail)) (hne : tail ≠ []) :
    lineFeed ∈ tail := by
  obtain ⟨init, b, rfl⟩ : ∃ init b, tail = init ++ [b] :=
    ⟨_, _, (List.dropLast_concat_getLast hne).symm⟩
  rcases hended with hnone | hlast
  · exact absurd hnone (by simp)
  · rw [← List.append_assoc, List.getLast?_concat] at hlast
    rw [Option.some.inj hlast]
    exact List.mem_append_right _ List.mem_cons_self

theorem ended_append (hended : Ended whole) (htail : lineFeed ∉ tail) :
    Ended (whole ++ tail) ↔ tail = [] := by
  constructor
  · intro h
    by_cases hnone : tail = []
    · exact hnone
    · exact absurd (mem_of_ended_append h hnone) htail
  · rintro rfl
    rw [List.append_nil]
    exact hended

theorem logLine_brace (e : LogEntry) : ∃ rest, logLine e = 0x7B :: rest := by
  rw [logLine_eq_encode]
  exact ⟨_, rfl⟩

/-- Every line of a log begins with a brace. -/
theorem Journal.begins (h : Journal content) {before after : List UInt8} {b : UInt8}
    (heq : content = before ++ b :: after) (hended : Ended before) : b = 0x7B := by
  induction h generalizing before after b with
  | empty => exact absurd heq (by simp)
  | @cut content h length ih =>
    have hwhole : content = before ++ b :: (after ++ content.drop length) := by
      rw [← List.cons_append, ← List.append_assoc, ← heq, List.take_append_drop]
    exact ih hwhole hended
  | @line content h e ih =>
    obtain ⟨rest, hbrace⟩ := logLine_brace e
    rcases List.append_eq_append_iff.1 heq with ⟨more, hbefore, hline⟩ | ⟨more, hcontent, hafter⟩
    · by_cases hmore : more = []
      · rw [hmore, hbrace] at hline
        exact (List.cons.inj hline).1.symm
      · -- no line ends inside an entry
        rw [hbefore] at hended
        have hfeed := mem_of_ended_append hended hmore
        have hlength := congrArg List.length hline
        rw [length_logLine, List.length_append, List.length_cons] at hlength
        have hinside : more = (entryBytes e).take more.length := by
          have htake := congrArg (List.take more.length) hline
          rw [List.take_left, logLine_eq, List.take_append_of_le_length (by omega)] at htake
          exact htake.symm
        rw [hinside] at hfeed
        exact absurd (List.mem_of_mem_take hfeed) (isLine_entryBytes e).1
    · cases more with
      | nil =>
        rw [hbrace, List.nil_append] at hafter
        exact (List.cons.inj hafter).1
      | cons c more =>
        obtain rfl := (List.cons.inj hafter).1
        exact ih hcontent hended

theorem Journal.no_return (h : Journal content) : carriageReturn ∉ content := by
  induction h with
  | empty => exact List.not_mem_nil
  | cut h length ih => exact fun hmem => ih (List.mem_of_mem_take hmem)
  | line h e ih =>
    rw [logLine_eq, List.mem_append, List.mem_append, not_or, not_or]
    exact ⟨ih, (isLine_entryBytes e).2, by decide⟩

/-! ## Reading on after a tail -/

theorem linesOf_append (h : Ended whole) (rest : List UInt8) :
    linesOf (whole ++ rest) = linesOf whole ++ linesOf rest := by
  have hfrom (init : List UInt8) : ∀ reversed, linesFrom reversed (init ++ lineFeed :: rest)
      = linesFrom reversed (init ++ [lineFeed]) ++ linesFrom [] rest := by
    induction init with
    | nil =>
      intro reversed
      rw [List.nil_append, List.nil_append, linesFrom, linesFrom, if_pos rfl, if_pos rfl]
      rfl
    | cons b init ih =>
      intro reversed
      rw [List.cons_append, List.cons_append, linesFrom, linesFrom]
      split
      · rw [ih]
        rfl
      · exact ih _
  rcases h with rfl | hlast
  · rfl
  · obtain ⟨init, rfl⟩ := List.getLast?_eq_some_iff.1 hlast
    rw [List.append_assoc]
    exact hfrom init []

theorem entriesOf?_append (h : Ended whole) (rest : List UInt8) :
    entriesOf? (whole ++ rest) = (do
      let kept ← entriesOf? whole
      let more ← entriesOf? rest
      return kept ++ more) := by
  rw [entriesOf?, linesOf_append h, List.mapM_append, entriesOf?, entriesOf?]
  cases (linesOf whole).mapM Text.Utf8.toString? with
  | none => rfl
  | some kept =>
    cases (linesOf rest).mapM Text.Utf8.toString? with
    | none => rfl
    | some more =>
      show some ((kept ++ more).filterMap entryOf?) = some _
      rw [List.filterMap_append]

/-- A text inside a string goes wrong at the first name of an entry. -/
theorem not_read_in_string {before : List Char} {l : Json.Lexer} {s : Json.PartialText}
    (hl : before.foldlM Json.Lexer.step {} = some l) (hmode : l.mode = .string s) (e : LogEntry) :
    Json.read? (before ++ e.toJson.compact) = none := by
  obtain ⟨toks, mode⟩ := l
  cases hmode
  have hstuck : e.toJson.compact.foldlM Json.Lexer.step ⟨toks, .string s⟩ = none := rfl
  rw [Json.read?, Json.tokens?, List.foldlM_append, hl, Option.bind_eq_bind, Option.bind_some,
    hstuck]
  rfl

/-- What has been begun spells nothing together with an entry. -/
theorem entryOf?_continued {cs : List Char} (e : LogEntry) :
    entryOf? (String.ofList ('\x7b' :: cs ++ e.toJson.compact)) = none := by
  have hread : Json.read? ('\x7b' :: cs ++ e.toJson.compact) = none := by
    rw [Option.eq_none_iff_forall_ne_some]
    intro v hread
    rcases Json.isSpace_of_read? e.spelled_toJson hread with hspace | ⟨l, s, hl, hmode⟩
    · exact absurd (hspace '\x7b' List.mem_cons_self) (by decide)
    · rw [not_read_in_string hl hmode] at hread
      cases hread
  rw [entryOf?]
  split
  · rfl
  · rw [Json.ofText?, String.toList_ofList, hread]
    rfl

/-- A line that has been begun and the entry that continues it are one line, which holds nothing. -/
theorem entriesOf?_continued {cs : List Char} (htail : IsLine tail)
    (hcs : Text.Utf8.decode tail = some ('\x7b' :: cs)) (e : LogEntry) (rest : List UInt8) :
    entriesOf? (tail ++ (logLine e ++ rest)) = entriesOf? rest := by
  have hline : IsLine (tail ++ entryBytes e) := by
    unfold IsLine
    rw [List.mem_append, List.mem_append, not_or, not_or]
    exact ⟨⟨htail.1, (isLine_entryBytes e).1⟩, htail.2, (isLine_entryBytes e).2⟩
  have htext : Text.Utf8.toString? (tail ++ entryBytes e)
      = some (String.ofList ('\x7b' :: cs ++ e.toJson.compact)) := by
    rw [Text.Utf8.toString?, Text.Utf8.decode_append hcs, entryBytes_eq, Text.Utf8.decode_encode]
    rfl
  have hsplit : tail ++ (logLine e ++ rest) = tail ++ entryBytes e ++ lineFeed :: rest := by
    rw [logLine_eq, List.append_assoc, List.append_assoc]
    rfl
  rw [hsplit, entriesOf?_cons hline, htext, Option.bind_eq_bind, Option.bind_some,
    entryOf?_continued]
  cases entriesOf? rest <;> rfl

/-- After a finished line all that is recorded is there. -/
theorem entriesOf?_ended (h : Ended content) (hlog : entriesOf? content = some log)
    (recorded : List LogEntry) :
    entriesOf? (content ++ recorded.flatMap logLine) = some (log ++ recorded) := by
  rw [entriesOf?_append h, hlog, entriesOf?_log]
  rfl

/-- After a line that was torn the first entry is lost, and maybe the torn one with it. -/
theorem entriesOf?_torn (hjournal : Journal content) (h : ¬ Ended content)
    (hlog : entriesOf? content = some log) (e : LogEntry) (more : List LogEntry) :
    ∃ kept, kept <+: log ∧
      entriesOf? (content ++ (e :: more).flatMap logLine) = some (kept ++ more) := by
  obtain ⟨whole, tail, rfl, hended, htail⟩ := exists_tail content
  have hne : tail ≠ [] := fun hnone => h ((ended_append hended htail).2 hnone)
  rw [entriesOf?_append hended, entriesOf?_unfinished htail, Option.bind_eq_bind,
    Option.bind_eq_some_iff] at hlog
  obtain ⟨kept, hkept, hlast⟩ := hlog
  rw [Option.bind_eq_some_iff] at hlast
  obtain ⟨last, htext, hlast⟩ := hlast
  obtain ⟨s, hs, -⟩ := Option.map_eq_some_iff.1 htext
  obtain ⟨cs, hcs, -⟩ := Option.map_eq_some_iff.1 hs
  -- the tail is a text that begins with a brace
  obtain ⟨ds, rfl⟩ : ∃ ds, cs = '\x7b' :: ds := by
    obtain ⟨b, bytes, rfl⟩ := List.exists_cons_of_ne_nil hne
    obtain rfl := hjournal.begins rfl hended
    rw [Text.Utf8.decode_one (by decide)] at hcs
    obtain ⟨ds, -, rfl⟩ := Option.map_eq_some_iff.1 hcs
    exact ⟨ds, rfl⟩
  have hreturn : carriageReturn ∉ tail :=
    fun hmem => hjournal.no_return (List.mem_append_right whole hmem)
  refine ⟨kept, ⟨last, Option.some.inj hlast⟩, ?_⟩
  rw [List.append_assoc, entriesOf?_append hended, hkept, List.flatMap_cons,
    entriesOf?_continued ⟨htail, hreturn⟩ hcs, entriesOf?_log]
  rfl

/-! ## Recording on after opening -/

variable {t : TaskTable} {p q : Place} {calls : List StoreCall}

/-- A store that has been opened, whatever its log looks like. -/
structure Opened (t : TaskTable) (p : Place) (content : List UInt8) : Prop where
  writable : Writable p
  log : LogHolds p content
  rows : ∃ rows, loaded [] rowsOf? (p.find? [snapshotName]) = .ok rows
  faithful : t.Faithful

theorem opened_answer {c : StoreCall} (h : Opened t p content) (hc : c.Faithful) :
    ∃ q, (answer t c).eval Place.answer p = (t.answer c, q) ∧
      Opened (t.answer c).2 q (content ++ (t.entries c).flatMap logLine) := by
  obtain ⟨q, hanswer⟩ := eval_writable h.writable t c
  refine ⟨q, hanswer, ?_⟩
  have hmay := mayRun_eval (answer t c) p
  rw [hanswer] at hmay
  have hfaithful := TaskTable.faithful_answer h.faithful hc
  have hlog := t.log_answer c
  rcases hresult : t.answer c with ⟨failure | result, next⟩
  · -- a call that is refused records nothing
    rw [hresult] at hmay hfaithful hlog
    obtain ⟨rfl, hunread⟩ := unread_of_error hmay
    have hnone : next.entries c = [] := List.append_cancel_left (hlog.symm.trans (by simp))
    rw [hnone, List.flatMap_nil, List.append_nil]
    refine ⟨writable_alikeBut h.writable hunread.alike, logHolds_sameLog h.log hunread.log, ?_,
      hfaithful⟩
    rw [hunread.alike.find?_eq snapshotName (by decide)]
    exact h.rows
  · rw [hresult] at hmay hfaithful
    obtain ⟨-, hwritten⟩ := written_ok hmay
    refine ⟨writable_alikeBut h.writable hwritten.alike, hwritten.log content h.log, ?_, hfaithful⟩
    rcases hwritten.snapshot with hnew | ⟨hsame, -⟩
    · refine ⟨next.list, ?_⟩
      rw [hnew, loaded, rowsOf?_snapshot hfaithful]
      rfl
    · rw [hsame]
      exact h.rows

theorem opened_exchanges (h : Opened t p content) (hcalls : ∀ c ∈ calls, c.Faithful) :
    ∃ q, (exchanges t calls).eval Place.answer p = (t.exchanges calls, q) ∧
      Opened (t.exchanges calls).2 q (content ++ (t.recorded calls).flatMap logLine) := by
  induction calls generalizing t p content with
  | nil =>
    refine ⟨p, rfl, ?_⟩
    show Opened t p (content ++ [])
    rw [List.append_nil]
    exact h
  | cons c more ih =>
    obtain ⟨hc, hmore⟩ := List.forall_mem_cons.1 hcalls
    obtain ⟨p', hanswer, hopened⟩ := opened_answer h hc
    obtain ⟨q, hrest, hopened⟩ := ih hopened hmore
    refine ⟨q, eval_exchanges_cons hanswer hrest, ?_⟩
    rw [TaskTable.recorded, List.flatMap_append, ← List.append_assoc]
    exact hopened

/-- What has been opened, and with what log. -/
theorem opened_of_eval (hopen : openTable.eval Place.answer p = (.ok t, p))
    (hdraft : p.find? [draftName] ≠ some .folder) (ht : t.Faithful) (hlog : LogHolds p content) :
    Opened t p content ∧ entriesOf? content = some t.log := by
  have hfolder : p.IsFolder := by
    cases p with
    | folder entries => exact ⟨entries, rfl⟩
    | blocked => cases hopen
    | absent =>
      rw [eval_openTable rfl, eval_load] at hopen
      cases (Prod.mk.inj hopen).2
  rw [eval_openTable_folder hfolder, loaded_log hlog] at hopen
  have hloaded := (Prod.mk.inj hopen).1
  cases hrows : loaded [] rowsOf? (p.find? [snapshotName]) with
  | error fault =>
    rw [hrows] at hloaded
    cases hloaded
  | ok rows =>
    rw [hrows] at hloaded
    cases hentries : entriesOf? content with
    | none =>
      rw [hentries] at hloaded
      cases hloaded
    | some log =>
      rw [hentries] at hloaded
      cases hloaded
      refine ⟨⟨⟨hfolder, ?_⟩, hlog, ⟨rows, hrows⟩, ht⟩, rfl⟩
      have hsnapshot : p.find? [snapshotName] ≠ some .folder := by
        intro hfound
        rw [hfound] at hrows
        cases hrows
      simp only [List.forall_mem_cons]
      exact ⟨hdraft, hsnapshot, log_not_folder hlog, nofun⟩

theorem Opened.reopens (h : Opened t p content) (hlog : entriesOf? content = some log) :
    ∃ t', openTable.eval Place.answer p = (.ok t', p) ∧ t'.log = log := by
  obtain ⟨rows, hrows⟩ := h.rows
  refine ⟨.ofParts rows log, ?_, rfl⟩
  rw [eval_openTable_folder h.writable.isFolder, hrows, loaded_log h.log, hlog]
  rfl

/--
Entries that are recorded after a store has been opened on a log that a crash has left are all there
when it is opened once more, if what had been left ended with a line. Otherwise the first of them is
lost, with whatever the torn line held.
-/
theorem recorded_after_crash (hjournal : Journal content) (hlog : LogHolds p content)
    (hopen : openTable.eval Place.answer p = (.ok t, p))
    (hdraft : p.find? [draftName] ≠ some .folder) (ht : t.Faithful)
    (hcalls : ∀ c ∈ calls, c.Faithful) :
    ∃ q t', (exchanges t calls).eval Place.answer p = (t.exchanges calls, q) ∧
      openTable.eval Place.answer q = (.ok t', q) ∧
      (t'.log = t.log ++ t.recorded calls ↔ t.recorded calls = [] ∨ Ended content) ∧
      (¬ Ended content → t.recorded calls ≠ [] →
        ∃ kept, kept <+: t.log ∧ t'.log = kept ++ (t.recorded calls).tail) := by
  obtain ⟨hopened, hentries⟩ := opened_of_eval hopen hdraft ht hlog
  obtain ⟨q, hexchanges, hopened⟩ := opened_exchanges hopened hcalls
  cases hrecorded : t.recorded calls with
  | nil =>
    rw [hrecorded, List.flatMap_nil, List.append_nil] at hopened
    obtain ⟨t', hreopened, hlog'⟩ := hopened.reopens hentries
    refine ⟨q, t', hexchanges, hreopened, ?_, fun _ hne => absurd rfl hne⟩
    rw [List.append_nil]
    exact ⟨fun _ => .inl rfl, fun _ => hlog'⟩
  | cons e more =>
    rw [hrecorded] at hopened
    by_cases hended : Ended content
    · obtain ⟨t', hreopened, hlog'⟩ := hopened.reopens (entriesOf?_ended hended hentries _)
      exact ⟨q, t', hexchanges, hreopened, ⟨fun _ => .inr hended, fun _ => hlog'⟩,
        fun h => absurd hended h⟩
    · obtain ⟨kept, hkept, hread⟩ := entriesOf?_torn hjournal hended hentries e more
      obtain ⟨t', hreopened, hlog'⟩ := hopened.reopens hread
      refine ⟨q, t', hexchanges, hreopened, ⟨fun hall => ?_, fun h => ?_⟩,
        fun _ _ => ⟨kept, hkept, hlog'⟩⟩
      · -- the log that is read is too short to hold them all
        have hlength := congrArg List.length (hlog'.symm.trans hall)
        have hshort := hkept.length_le
        rw [List.length_append, List.length_append, List.length_cons] at hlength
        omega
      · exact absurd (h.resolve_left nofun) hended

/-- What a store writes is such a log. -/
theorem journal_log (log : List LogEntry) : Journal (log.flatMap logLine) := by
  have hmore (content : List UInt8) (h : Journal content) :
      Journal (content ++ log.flatMap logLine) := by
    induction log generalizing content with
    | nil =>
      rw [List.flatMap_nil, List.append_nil]
      exact h
    | cons e more ih =>
      rw [List.flatMap_cons, ← List.append_assoc]
      exact ih _ (.line h e)
  exact hmore [] .empty

/-- A folder with nothing in it but a log. -/
def logFolder (content : List UInt8) : Place := .folder [([logName], .file content)]

theorem logHolds_logFolder (content : List UInt8) : LogHolds (logFolder content) content := .inl rfl

theorem eval_logFolder (hlog : entriesOf? content = some log) :
    openTable.eval Place.answer (logFolder content)
      = (.ok (.ofParts [] log), logFolder content) := by
  have hfolder : (logFolder content).IsFolder := ⟨_, rfl⟩
  rw [eval_openTable_folder hfolder, loaded_log (logHolds_logFolder content), hlog]
  rfl

theorem opened_logFolder (content : List UInt8) (log : List LogEntry) :
    Opened (.ofParts [] log) (logFolder content) content where
  writable := by
    refine ⟨⟨_, rfl⟩, ?_⟩
    simp only [List.forall_mem_cons]
    exact ⟨nofun, nofun, nofun, nofun⟩
  log := logHolds_logFolder content
  rows := ⟨[], rfl⟩
  faithful := fun _ hr => nomatch hr

/-- What has been recorded is there after a log that ends with a line. -/
theorem recorded_after_crash_finished :
    let p := logFolder (logLine accented)
    let t : TaskTable := .ofParts [] [accented]
    openTable.eval Place.answer p = (.ok t, p) ∧
    ∃ q t', (exchanges t [.appendLog accented]).eval Place.answer p
        = (t.exchanges [.appendLog accented], q) ∧
      openTable.eval Place.answer q = (.ok t', q) ∧ t'.log = [accented, accented] := by
  intro p t
  have hjournal := journal_log [accented]
  have hentries := entriesOf?_log [accented]
  rw [List.flatMap_singleton] at hjournal hentries
  have hended : Ended (logLine accented) := by
    rw [logLine_eq]
    exact .inr List.getLast?_concat
  have hopened := opened_logFolder (logLine accented) [accented]
  obtain ⟨q, t', hexchanges, hreopened, hall, -⟩ := recorded_after_crash
    hjournal hopened.log (eval_logFolder hentries)
    (hopened.writable.noFolder draftName List.mem_cons_self) hopened.faithful
    (List.forall_mem_singleton.2 (show (StoreCall.appendLog accented).Faithful from trivial))
  exact ⟨eval_logFolder hentries, q, t', hexchanges, hreopened, hall.2 (.inr hended)⟩

/--
Of a log only the last line feed is missing, and the store is opened with its entry. One more entry
is recorded, and when the store is opened once more, both are gone.
-/
theorem recorded_on_unfinished_line :
    let p := logFolder (entryBytes accented)
    let t : TaskTable := .ofParts [] [accented]
    Journal (entryBytes accented) ∧ openTable.eval Place.answer p = (.ok t, p) ∧
    ∃ q t', (exchanges t [.appendLog accented]).eval Place.answer p
        = (t.exchanges [.appendLog accented], q) ∧
      openTable.eval Place.answer q = (.ok t', q) ∧ t'.log = [] := by
  intro p t
  have hjournal : Journal (entryBytes accented) := by
    have hcut := (Journal.line .empty accented).cut (entryBytes accented).length
    rw [List.nil_append, logLine_eq, List.take_left] at hcut
    exact hcut
  have hfeed := (isLine_entryBytes accented).1
  have hentry : entriesOf? (entryBytes accented) = some [accented] := by
    rw [entriesOf?_unfinished hfeed, toString?_entryBytes, Option.map_some, entryOf?_compactText]
    rfl
  obtain ⟨q, hexchanges, hopened⟩ := opened_exchanges
    (opened_logFolder (entryBytes accented) [accented])
    (List.forall_mem_singleton.2 (show (StoreCall.appendLog accented).Faithful from trivial))
  -- both entries are on one line, and it is the only one
  have hread : entriesOf? (entryBytes accented ++ [accented].flatMap logLine) = some [] := by
    have hdecode : Text.Utf8.decode (entryBytes accented)
        = some ('\x7b' :: accented.toJson.compact.tail) := by
      rw [entryBytes_eq, Text.Utf8.decode_encode]
      rfl
    exact entriesOf?_continued (isLine_entryBytes accented) hdecode accented []
  obtain ⟨t', hreopened, hlog⟩ := hopened.reopens hread
  exact ⟨hjournal, eval_logFolder hentry, q, t', hexchanges, hreopened, hlog⟩

end FileStore

end BackgroundTasks
