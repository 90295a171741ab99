import BackgroundTasks.Proofs.Files.Deaths
import BackgroundTasks.Proofs.RoundTrip.Torn

/-!
# Logs that have been torn

A crash may cut the log anywhere. The lines before the cut are as they were, and of the line that is
cut a beginning is left. That beginning is the whole entry if only the line feed is missing, and
otherwise it spells nothing, since an object cannot be read before its last brace. So it would be
passed over, if every line did not have to be a text first: a cut through a character leaves a file
that is not read at all.
-/

namespace BackgroundTasks.FileStore

open Text.Utf8 (BetweenChars encode)

variable {line : List UInt8} {log more : List LogEntry} {cut : Nat}

/-! ## Lines -/

theorem linesOf_unfinished (h : lineFeed ∉ line) :
    linesOf line = if line.isEmpty then [] else [line] := by
  have hline := linesFrom_append h [] []
  rw [List.append_nil, List.append_nil] at hline
  rw [linesOf, hline, linesFrom, List.isEmpty_reverse, List.reverse_reverse]

/-- A line that is not finished holds an entry if it spells one. -/
theorem entriesOf?_unfinished (h : lineFeed ∉ line) :
    entriesOf? line = (Text.Utf8.toString? line).map fun s => (entryOf? s).toList := by
  rw [entriesOf?, linesOf_unfinished h]
  cases line with
  | nil => rfl
  | cons b rest =>
    rw [List.isEmpty_cons, if_neg Bool.false_ne_true, List.mapM_cons]
    cases Text.Utf8.toString? (b :: rest) with
    | none => rfl
    | some s =>
      show some (List.filterMap entryOf? [s]) = some (entryOf? s).toList
      rw [List.filterMap_cons]
      cases entryOf? s <;> rfl

theorem entriesOf?_cons (h : IsLine line) (rest : List UInt8) :
    entriesOf? (line ++ lineFeed :: rest) = (do
      let s ← Text.Utf8.toString? line
      let entries ← entriesOf? rest
      return (entryOf? s).toList ++ entries) := by
  rw [entriesOf?, linesOf_cons h, List.mapM_cons, entriesOf?]
  cases Text.Utf8.toString? line with
  | none => rfl
  | some s =>
    cases (linesOf rest).mapM Text.Utf8.toString? with
    | none => rfl
    | some lines =>
      show some (List.filterMap entryOf? (s :: lines)) = some ((entryOf? s).toList ++ _)
      rw [List.filterMap_cons]
      cases entryOf? s <;> rfl

theorem toString?_entryBytes (e : LogEntry) :
    Text.Utf8.toString? (entryBytes e) = some e.toJson.compactText :=
  Text.Utf8.toString?_ofString _

theorem entriesOf?_logLine (e : LogEntry) (rest : List UInt8) :
    entriesOf? (logLine e ++ rest) = (entriesOf? rest).map (e :: ·) := by
  have hsplit : logLine e ++ rest = entryBytes e ++ lineFeed :: rest := by
    rw [logLine_eq, List.append_assoc]
    rfl
  rw [hsplit, entriesOf?_cons (isLine_entryBytes e), toString?_entryBytes, Option.bind_eq_bind,
    Option.bind_some, entryOf?_compactText]
  cases entriesOf? rest <;> rfl

/-! ## Cuts -/

/-- The text of a log. -/
def logText (log : List LogEntry) : List Char := log.flatMap fun e => e.toJson.compact ++ ['\n']

/-- The entries whose text lies before a cut as a whole. -/
def wholeBefore : Nat → List LogEntry → List LogEntry
  | _, [] => []
  | cut, e :: more =>
    if (entryBytes e).length ≤ cut then e :: wholeBefore (cut - (logLine e).length) more else []

theorem entryBytes_eq (e : LogEntry) : entryBytes e = encode e.toJson.compact := by
  rw [entryBytes, Text.Utf8.ofString, Json.compactText, String.toList_ofList]

theorem logLine_eq_encode (e : LogEntry) : logLine e = encode (e.toJson.compact ++ ['\n']) := by
  rw [logLine_eq, entryBytes_eq, Text.Utf8.encode_append]
  rfl

theorem length_logLine (e : LogEntry) : (logLine e).length = (entryBytes e).length + 1 := by
  rw [logLine_eq, List.length_append, List.length_singleton]

theorem length_entryBytes_pos (e : LogEntry) : 0 < (entryBytes e).length := by
  rw [entryBytes_eq]
  exact Nat.succ_pos _

/-- A beginning of an entry is passed over. -/
theorem entryOf?_beginning {e : LogEntry} {before after : List Char}
    (heq : before ++ after = e.toJson.compact) (hne : after ≠ []) :
    entryOf? (String.ofList before) = none := by
  have hread : Json.read? before = none := Json.read?_prefix e.spelled_toJson heq hne
  rw [entryOf?]
  split
  · rfl
  · rw [Json.ofText?, String.toList_ofList, hread]
    rfl

/-- What is left of an entry that is cut between two characters. -/
theorem entriesOf?_cut_entry {e : LogEntry} (hcut : cut ≤ (entryBytes e).length)
    (h : BetweenChars e.toJson.compact cut) :
    entriesOf? ((entryBytes e).take cut)
      = some (if (entryBytes e).length ≤ cut then [e] else []) := by
  have hfeed : lineFeed ∉ (entryBytes e).take cut :=
    fun hmem => (isLine_entryBytes e).1 (List.mem_of_mem_take hmem)
  rw [entriesOf?_unfinished hfeed]
  obtain ⟨before, after, heq, hlength⟩ := h
  have hleft : (entryBytes e).take cut = encode before := by
    rw [entryBytes_eq, ← heq, Text.Utf8.encode_append, ← hlength, List.take_left]
  have htext : Text.Utf8.toString? (encode before) = some (String.ofList before) := by
    rw [Text.Utf8.toString?, Text.Utf8.decode_encode]
    rfl
  rw [hleft, htext, Option.map_some]
  have hsum : (entryBytes e).length = cut + (encode after).length := by
    rw [entryBytes_eq, ← heq, Text.Utf8.encode_append, List.length_append, hlength]
  by_cases hafter : after = []
  · subst hafter
    have hwhole : (entryBytes e).length ≤ cut := Nat.le_of_eq hsum
    rw [List.append_nil] at heq
    have hentry : entryOf? (String.ofList before) = some e := by
      rw [heq]
      exact entryOf?_compactText e
    rw [if_pos hwhole, hentry]
    rfl
  · have hshort : ¬ (entryBytes e).length ≤ cut := by
      intro hwhole
      exact hafter (Text.Utf8.eq_nil_of_length_encode (by omega))
    rw [if_neg hshort, entryOf?_beginning heq hafter]
    rfl

/-! A cut goes through the first entry, or it comes after its line. -/

section

variable {e : LogEntry}

theorem take_within (h : cut ≤ (entryBytes e).length) :
    ((e :: more).flatMap logLine).take cut = (entryBytes e).take cut := by
  rw [List.flatMap_cons, logLine_eq, List.append_assoc, List.take_append_of_le_length h]

theorem take_beyond (h : (logLine e).length ≤ cut) :
    ((e :: more).flatMap logLine).take cut
      = logLine e ++ (more.flatMap logLine).take (cut - (logLine e).length) := by
  rw [List.flatMap_cons, List.take_append, List.take_of_length_le h]

theorem betweenChars_within (h : cut ≤ (entryBytes e).length) :
    BetweenChars (logText (e :: more)) cut ↔ BetweenChars e.toJson.compact cut := by
  rw [entryBytes_eq] at h
  rw [logText, List.flatMap_cons, List.append_assoc]
  exact Text.Utf8.betweenChars_left h

theorem betweenChars_beyond (h : (logLine e).length ≤ cut) :
    BetweenChars (logText (e :: more)) cut
      ↔ BetweenChars (logText more) (cut - (logLine e).length) := by
  rw [logLine_eq_encode] at h ⊢
  exact Text.Utf8.betweenChars_right h

end

theorem wholeBefore_zero (log : List LogEntry) : wholeBefore 0 log = [] := by
  cases log with
  | nil => rfl
  | cons e more => rw [wholeBefore, if_neg (Nat.not_le.2 (length_entryBytes_pos e))]

/-- Cut between two characters, a log holds the entries that are whole. -/
theorem entriesOf?_take (hcut : cut ≤ (log.flatMap logLine).length)
    (h : BetweenChars (logText log) cut) :
    entriesOf? ((log.flatMap logLine).take cut) = some (wholeBefore cut log) := by
  induction log generalizing cut with
  | nil =>
    rw [List.flatMap_nil, List.take_nil]
    rfl
  | cons e more ih =>
    rw [List.flatMap_cons, List.length_append] at hcut
    have hlength := length_logLine e
    by_cases hline : (logLine e).length ≤ cut
    · have hmore := (betweenChars_beyond hline).1 h
      rw [take_beyond hline, entriesOf?_logLine, ih (by omega) hmore, wholeBefore,
        if_pos (by omega)]
      rfl
    · have hentry : cut ≤ (entryBytes e).length := by omega
      rw [take_within hentry, entriesOf?_cut_entry hentry ((betweenChars_within hentry).1 h),
        wholeBefore, Nat.sub_eq_zero_of_le (by omega), wholeBefore_zero]

/-- Cut through a character, a log is not read. -/
theorem entriesOf?_take_none (hcut : cut ≤ (log.flatMap logLine).length)
    (h : ¬ BetweenChars (logText log) cut) :
    entriesOf? ((log.flatMap logLine).take cut) = none := by
  induction log generalizing cut with
  | nil =>
    obtain rfl : cut = 0 := Nat.le_zero.1 hcut
    exact absurd ⟨[], [], rfl, rfl⟩ h
  | cons e more ih =>
    rw [List.flatMap_cons, List.length_append] at hcut
    have hlength := length_logLine e
    by_cases hline : (logLine e).length ≤ cut
    · have hmore := mt (betweenChars_beyond hline).2 h
      rw [take_beyond hline, entriesOf?_logLine, ih (by omega) hmore]
      rfl
    · have hentry : cut ≤ (entryBytes e).length := by omega
      have hcompact : ¬ BetweenChars e.toJson.compact cut :=
        fun hbetween => h ((betweenChars_within hentry).2 hbetween)
      have hfeed : lineFeed ∉ (entryBytes e).take cut :=
        fun hmem => (isLine_entryBytes e).1 (List.mem_of_mem_take hmem)
      rw [take_within hentry, entriesOf?_unfinished hfeed]
      rw [entryBytes_eq] at hentry ⊢
      rw [Text.Utf8.toString?, Text.Utf8.decode_take_encode hentry hcompact]
      rfl

/-! ## Opening what is left -/

variable {t : TaskTable} {p q : Place} {content : List UInt8}

theorem logHolds_cut (h : LogHolds p content) (cut : Nat) :
    LogHolds (Place.answer (.truncate logName cut) p).2 (content.take cut) := by
  rcases h with h | ⟨h, rfl⟩
  · exact .inl (find?_cut h cut)
  · have hnone : p.bytes? [logName] = none := by
      rw [Place.bytes?, h]
    refine .inr ⟨?_, List.take_nil⟩
    rw [Place.answer, hnone]
    exact h

/-- Opening a store whose log has been cut. -/
theorem eval_openTable_cut (h : Synced t p) (cut : Nat) :
    openTable.eval Place.answer (Place.answer (.truncate logName cut) p).2
      = ((entriesOf? ((t.log.flatMap logLine).take cut)).elim (.error .unreadable)
          fun log => .ok (.ofParts t.list log),
        (Place.answer (.truncate logName cut) p).2) := by
  have halike : Place.AlikeBut [logName] p (Place.answer (.truncate logName cut) p).2 :=
    alikeBut_answer (.truncate logName cut) p
  have hsnapshot := snapshotHolds_congr (halike.find?_eq snapshotName (by decide)) rfl h.snapshot
  rw [eval_openTable_folder (halike.isFolder h.isFolder), loaded_snapshot hsnapshot h.faithful,
    loaded_log (logHolds_cut h.log cut)]
  cases entriesOf? ((t.log.flatMap logLine).take cut) <;> rfl

/--
A log that is cut anywhere is opened with exactly the entries that are whole, if the cut goes
through no character; otherwise the store does not open.
-/
theorem opens_after_cut (hr : Reachable t p) (hcut : cut ≤ (t.log.flatMap logLine).length) :
    ((∃ t', openTable.eval Place.answer (Place.answer (.truncate logName cut) p).2
          = (.ok t', (Place.answer (.truncate logName cut) p).2) ∧
        t'.rows.Perm t.rows ∧ t'.log = wholeBefore cut t.log) ↔
      BetweenChars (logText t.log) cut) ∧
    (¬ BetweenChars (logText t.log) cut →
      openTable.eval Place.answer (Place.answer (.truncate logName cut) p).2
        = (.error .unreadable, (Place.answer (.truncate logName cut) p).2)) := by
  rw [eval_openTable_cut (synced_of_reachable hr)]
  by_cases hbetween : BetweenChars (logText t.log) cut
  · rw [entriesOf?_take hcut hbetween]
    refine ⟨⟨fun _ => hbetween, fun _ => ⟨_, rfl, ?_, rfl⟩⟩, fun h => absurd hbetween h⟩
    exact t.alike_ofParts.rows
  · rw [entriesOf?_take_none hcut hbetween]
    refine ⟨⟨?_, fun h => absurd h hbetween⟩, fun _ => rfl⟩
    rintro ⟨t', hopened, -, -⟩
    cases hopened

/-- An entry whose text has a character of two bytes. -/
def accented : LogEntry := ⟨.ofNat 1, 5, .succeeded, 1, some "café"⟩

/-- Only the line feed is cut off, and the entry is there. -/
theorem opens_after_cut_accented :
    let t := (TaskTable.empty.exchanges [.appendLog accented]).2
    let cut := (entryBytes accented).length
    cut ≤ (t.log.flatMap logLine).length ∧ ∃ p t', Reachable t p ∧
      openTable.eval Place.answer (Place.answer (.truncate logName cut) p).2
        = (.ok t', (Place.answer (.truncate logName cut) p).2) ∧ t'.log = [accented] := by
  intro t cut
  have hlog : t.log = [accented] := rfl
  have hcut : cut ≤ (t.log.flatMap logLine).length := by
    rw [hlog, List.flatMap_singleton, length_logLine]
    exact Nat.le_succ _
  obtain ⟨p, hr⟩ := reachable_exchanges .init [.appendLog accented]
    (List.forall_mem_singleton.2 trivial)
  have hbetween : BetweenChars (logText t.log) cut := by
    rw [hlog]
    refine (betweenChars_within (Nat.le_refl _)).2 ⟨accented.toJson.compact, [], rfl, ?_⟩
    rw [← entryBytes_eq]
  obtain ⟨t', hopened, -, hwhole⟩ := (opens_after_cut hr hcut).1.2 hbetween
  refine ⟨hcut, p, t', hr, hopened, ?_⟩
  rw [hwhole, hlog, wholeBefore, if_pos (Nat.le_refl _), wholeBefore]

/-- The cut goes through the last letter of the message, and the store does not open any more. -/
theorem cut_letter_keeps_store_shut :
    let t := (TaskTable.empty.exchanges [.appendLog accented]).2
    ∃ p, Reachable t p ∧ openTable.eval Place.answer (Place.answer (.truncate logName 128) p).2
      = (.error .unreadable, (Place.answer (.truncate logName 128) p).2) := by
  intro t
  obtain ⟨p, hr⟩ := reachable_exchanges .init [.appendLog accented]
    (List.forall_mem_singleton.2 trivial)
  refine ⟨p, hr, ?_⟩
  have hnone : entriesOf? ((t.log.flatMap logLine).take 128) = none := by decide +kernel
  rw [eval_openTable_cut (synced_of_reachable hr), hnone]
  rfl

end BackgroundTasks.FileStore
