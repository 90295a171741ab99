import BackgroundTasks.Proofs.Alike
import BackgroundTasks.Proofs.RoundTrip.Records
import BackgroundTasks.Store.Files

/-!
# What the files of a store hold

A snapshot is one text, and is read back as the listing it was written from. The log is a text of
lines: an entry is written without any control character, so no byte of it ends a line, and it
begins with a brace, so its line is not blank. The lines of the log are therefore its entries, one
for one and in their order.
-/

namespace BackgroundTasks.FileStore

/-! ## Lines -/

variable {line : List UInt8}

/-- Bytes that end no line. -/
def IsLine (line : List UInt8) : Prop := lineFeed ∉ line ∧ carriageReturn ∉ line

theorem finishLine_reverse (h : IsLine line) : finishLine line.reverse = line := by
  unfold finishLine
  split
  · next b rest heq =>
    have hb : b ≠ carriageReturn := by
      rintro rfl
      refine h.2 (List.mem_reverse.1 ?_)
      rw [heq]
      exact List.mem_cons_self
    rw [if_neg hb, List.reverse_reverse]
  · next heq => exact (List.reverse_eq_nil_iff.1 heq).symm

theorem linesFrom_append (h : lineFeed ∉ line) (reversed rest : List UInt8) :
    linesFrom reversed (line ++ rest) = linesFrom (line.reverse ++ reversed) rest := by
  induction line generalizing reversed with
  | nil => rfl
  | cons b more ih =>
    rw [List.mem_cons, not_or] at h
    rw [List.cons_append, linesFrom, if_neg (Ne.symm h.1), ih h.2, List.reverse_cons,
      List.append_assoc]
    rfl

/-- A line that is finished stands first, and the others follow. -/
theorem linesOf_cons (h : IsLine line) (rest : List UInt8) :
    linesOf (line ++ lineFeed :: rest) = line :: linesOf rest := by
  unfold linesOf
  rw [linesFrom_append h.1, List.append_nil, linesFrom, if_pos rfl, finishLine_reverse h]

/-! ## The log -/

/-- The bytes of an entry. -/
def entryBytes (e : LogEntry) : List UInt8 := Text.Utf8.ofString e.toJson.compactText

theorem isLine_entryBytes (e : LogEntry) : IsLine (entryBytes e) := by
  have hprintable := Json.printable_compact e.spelled_toJson
  -- a byte of that size is a character by itself, and no such character is written
  have hcontrol {b : UInt8} (hb : b.toNat < 0x20) : b ∉ entryBytes e := by
    intro hmem
    rw [entryBytes, Text.Utf8.ofString, Json.compactText, String.toList_ofList] at hmem
    have hnone : ∀ n < 0x20, ¬ 0x20 ≤ (Char.ofNat n).toNat := by decide
    exact hnone _ hb (hprintable _ (Text.Utf8.mem_of_mem_encode (by omega) hmem))
  exact ⟨hcontrol (by decide), hcontrol (by decide)⟩

theorem logLine_eq (e : LogEntry) : logLine e = entryBytes e ++ [lineFeed] := by
  unfold logLine entryBytes Text.Utf8.ofString
  rw [String.toList_append, Text.Utf8.encode_append]
  rfl

theorem linesOf_log (log : List LogEntry) : linesOf (log.flatMap logLine) = log.map entryBytes := by
  induction log with
  | nil => rfl
  | cons e more ih =>
    rw [List.flatMap_cons, logLine_eq, List.append_assoc, List.map_cons, ← ih]
    exact linesOf_cons (isLine_entryBytes e) _

/-- An entry is read from its line. -/
theorem entryOf?_compactText (e : LogEntry) : entryOf? e.toJson.compactText = some e := by
  have hblank : ¬ Text.allBlank e.toJson.compactText.toList = true := by
    rw [Json.compactText, String.toList_ofList]
    rintro h
    have hfirst := (List.all_eq_true.1 h) '\x7b' List.mem_cons_self
    revert hfirst
    decide
  rw [entryOf?, if_neg hblank, Json.ofText?_compactText e.spelled_toJson, Option.bind_some,
    e.ofJson?_toJson]

theorem mapM_entryBytes (log : List LogEntry) :
    (log.map entryBytes).mapM Text.Utf8.toString?
      = some (log.map fun e => e.toJson.compactText) := by
  induction log with
  | nil => rfl
  | cons e more ih =>
    rw [List.map_cons, List.mapM_cons, entryBytes, Text.Utf8.toString?_ofString, ih]
    rfl

theorem filterMap_entryOf? (log : List LogEntry) :
    (log.map fun e => e.toJson.compactText).filterMap entryOf? = log := by
  induction log with
  | nil => rfl
  | cons e more ih =>
    rw [List.map_cons, List.filterMap_cons, entryOf?_compactText]
    exact congrArg (e :: ·) ih

/-- A log holds the entries it was written from. -/
theorem entriesOf?_log (log : List LogEntry) : entriesOf? (log.flatMap logLine) = some log := by
  rw [entriesOf?, linesOf_log, mapM_entryBytes, Option.map_some, filterMap_entryOf?]

/-! ## The snapshot -/

/-- A snapshot holds the listing it was written from. -/
theorem rowsOf?_snapshot {t : TaskTable} (h : ∀ r ∈ t.rows, r.spec.Faithful) :
    rowsOf? (snapshot t) = some t.list := by
  have hspelled : (Json.array (t.list.map Row.toJson)).Spelled := by
    refine .array fun v hv => ?_
    obtain ⟨r, -, rfl⟩ := List.mem_map.1 hv
    exact r.spelled_toJson
  have hrows (rows : List Row) (hr : ∀ r ∈ rows, r.spec.Faithful) :
      (rows.map Row.toJson).mapM (Row.ofJson? (Json.nestingLimit - 1)) = some rows := by
    induction rows with
    | nil => rfl
    | cons r more ih =>
      obtain ⟨hfirst, hmore⟩ := List.forall_mem_cons.1 hr
      rw [List.map_cons, List.mapM_cons, Row.ofJson?_toJson hfirst, ih hmore]
      rfl
  unfold rowsOf? snapshot
  rw [Text.Utf8.toString?_ofString, Option.bind_eq_bind, Option.bind_some,
    Json.ofText?_prettyText hspelled, Option.bind_eq_bind, Option.bind_some, Json.list?]
  exact hrows t.list fun r hr => h r (List.mem_mergeSort.1 hr)

/-- The snapshot shows no more of a table than its answers do. -/
theorem snapshot_alike {t t' : TaskTable} (h : t.Alike t') : snapshot t' = snapshot t := by
  rw [snapshot, snapshot, h.list_eq]

end BackgroundTasks.FileStore
