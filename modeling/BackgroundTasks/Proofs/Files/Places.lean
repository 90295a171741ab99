import BackgroundTasks.Store.Place

/-!
# What a place holds

A file is put into a place under one name, and nothing else in the place is touched by it. All that
is known of a place from here on is what its names lead to, and whether there can be a folder at
all; the order in which a place keeps its entries never shows.
-/

namespace BackgroundTasks.Place

variable {p q r : Place} {name other : String} {bytes content : List UInt8}

/-! ## Looking entries up -/

theorem lookup_without (entries : List (Path × FolderEntry)) {path path' : Path}
    (hne : path' ≠ path) : (without entries path).lookup path' = entries.lookup path' := by
  induction entries with
  | nil => rfl
  | cons e rest ih =>
    unfold without at ih ⊢
    rw [List.filter_cons, List.lookup_cons]
    by_cases hpath : e.1 = path
    · have hother : (path' == e.1) = false := by simpa [hpath] using hne
      simp only [hpath, bne_self_eq_false, Bool.false_eq_true, if_false]
      rw [ih, ← hpath, hother]
    · rw [if_pos (by simpa using hpath), List.lookup_cons, ih]

theorem find?_folder_name (entries : List (Path × FolderEntry)) (name : String) :
    (folder entries).find? [name] = entries.lookup [name] := rfl

theorem bytes?_eq_some : p.bytes? [name] = some bytes ↔ p.find? [name] = some (.file bytes) := by
  unfold bytes?
  rcases p.find? [name] with _ | _ | _ <;> simp

/-! ## Putting a file into a place -/

theorem putFile?_eq_some :
    p.putFile? [name] bytes = some q ↔
      ∃ entries, p = folder entries ∧ entries.lookup [name] ≠ some .folder ∧
        q = folder (([name], .file bytes) :: without entries [name]) := by
  cases p with
  | absent => simp [putFile?]
  | blocked => simp [putFile?]
  | folder entries =>
    have hroom : (folder entries).hasRoom [name] = true := rfl
    rw [putFile?, hroom, find?_folder_name]
    by_cases hfolder : entries.lookup [name] = some .folder
    · simp [hfolder]
    · simp [hfolder, eq_comm]

/-- There is a folder. -/
def IsFolder (p : Place) : Prop := ∃ entries, p = folder entries

/-- In a folder a file can be put wherever there is none. -/
theorem exists_putFile? (hp : p.IsFolder) (hname : p.find? [name] ≠ some .folder)
    (bytes : List UInt8) : ∃ q, p.putFile? [name] bytes = some q := by
  obtain ⟨entries, rfl⟩ := hp
  exact ⟨_, putFile?_eq_some.2 ⟨entries, rfl, hname, rfl⟩⟩

theorem isFolder_of_find? {e : FolderEntry} (h : p.find? [name] = some e) : p.IsFolder := by
  cases p with
  | absent => cases h
  | blocked => cases h
  | folder entries => exact ⟨entries, rfl⟩

theorem isFolder_putFile? (h : p.putFile? [name] bytes = some q) : q.IsFolder := by
  obtain ⟨entries, -, -, rfl⟩ := putFile?_eq_some.1 h
  exact ⟨_, rfl⟩

theorem find?_putFile?_self (h : p.putFile? [name] bytes = some q) :
    q.find? [name] = some (.file bytes) := by
  obtain ⟨entries, -, -, rfl⟩ := putFile?_eq_some.1 h
  simp [find?_folder_name]

theorem find?_putFile?_other (h : p.putFile? [name] bytes = some q) (hne : other ≠ name) :
    q.find? [other] = p.find? [other] := by
  obtain ⟨entries, rfl, -, rfl⟩ := putFile?_eq_some.1 h
  have hpath : ([other] : Path) ≠ [name] := by simpa using hne
  rw [find?_folder_name, find?_folder_name, List.lookup_cons, lookup_without entries hpath]
  rw [beq_eq_false_iff_ne.2 hpath]

theorem not_folder_putFile? (h : p.putFile? [name] bytes = some q)
    (hfolder : q.find? [other] = some .folder) : p.find? [other] = some .folder := by
  by_cases hother : other = name
  · rw [hother, find?_putFile?_self h] at hfolder
    cases hfolder
  · rw [← find?_putFile?_other h hother, hfolder]

/-! ## Renaming a file -/

theorem rename?_eq_some {source target : String} :
    p.rename? [source] [target] = some q ↔
      ∃ entries content, p = folder entries ∧ p.bytes? [source] = some content ∧
        (folder (without entries [source])).putFile? [target] content = some q := by
  unfold rename?
  constructor
  · intro h
    split at h
    · next content entries hbytes => exact ⟨entries, content, rfl, hbytes, h⟩
    · cases h
  · rintro ⟨entries, content, rfl, hbytes, h⟩
    rw [hbytes]
    exact h

theorem exists_rename? {source target : String} (hsource : p.bytes? [source] = some bytes)
    (hne : target ≠ source) (htarget : p.find? [target] ≠ some .folder) :
    ∃ q, p.rename? [source] [target] = some q := by
  obtain ⟨entries, rfl⟩ := isFolder_of_find? (bytes?_eq_some.1 hsource)
  have htarget : (folder (without entries [source])).find? [target] ≠ some .folder := by
    rw [find?_folder_name, lookup_without entries (by simpa using hne)]
    exact htarget
  obtain ⟨q, hq⟩ := exists_putFile? ⟨_, rfl⟩ htarget bytes
  exact ⟨q, rename?_eq_some.2 ⟨entries, bytes, rfl, hsource, hq⟩⟩

theorem find?_rename?_target {source target : String} (hsource : p.bytes? [source] = some bytes)
    (h : p.rename? [source] [target] = some q) : q.find? [target] = some (.file bytes) := by
  obtain ⟨entries, content, rfl, hbytes, hput⟩ := rename?_eq_some.1 h
  rw [hsource] at hbytes
  cases hbytes
  exact find?_putFile?_self hput

theorem find?_rename?_other {source target : String}
    (h : p.rename? [source] [target] = some q) (hsource : other ≠ source)
    (htarget : other ≠ target) :
    q.find? [other] = p.find? [other] := by
  obtain ⟨entries, content, rfl, -, hput⟩ := rename?_eq_some.1 h
  rw [find?_putFile?_other hput htarget, find?_folder_name, find?_folder_name]
  exact lookup_without entries (by simpa using hsource)

/-! ## What stays -/

/--
Two places are alike in everything but what the given names lead to: one came from the other by
calls that concern those names alone, and no call makes a folder but the first.
-/
structure AlikeBut (names : List String) (p q : Place) : Prop where
  blocked_iff : q = .blocked ↔ p = .blocked
  isFolder : p.IsFolder → q.IsFolder
  find?_eq : ∀ other, other ∉ names → q.find? [other] = p.find? [other]
  noFolder : ∀ other, q.find? [other] = some .folder → p.find? [other] = some .folder

theorem AlikeBut.refl (names : List String) (p : Place) : AlikeBut names p p :=
  ⟨Iff.rfl, id, fun _ _ => rfl, fun _ => id⟩

theorem AlikeBut.trans {names : List String} (h : AlikeBut names p q) (h' : AlikeBut names q r) :
    AlikeBut names p r :=
  ⟨h'.blocked_iff.trans h.blocked_iff, fun hp => h'.isFolder (h.isFolder hp),
    fun other ho => (h'.find?_eq other ho).trans (h.find?_eq other ho),
    fun other ho => h.noFolder other (h'.noFolder other ho)⟩

theorem AlikeBut.mono {names more : List String} (h : AlikeBut names p q) (hsub : names ⊆ more) :
    AlikeBut more p q :=
  ⟨h.blocked_iff, h.isFolder, fun other ho => h.find?_eq other fun hmem => ho (hsub hmem),
    h.noFolder⟩

theorem alikeBut_putFile? (h : p.putFile? [name] bytes = some q) : AlikeBut [name] p q where
  blocked_iff := by
    obtain ⟨entries, rfl, -, rfl⟩ := putFile?_eq_some.1 h
    simp
  isFolder _ := isFolder_putFile? h
  find?_eq other ho := find?_putFile?_other h (by simpa using ho)
  noFolder _ ho := not_folder_putFile? h ho

theorem alikeBut_rename? {source target : String} (h : p.rename? [source] [target] = some q) :
    AlikeBut [source, target] p q := by
  obtain ⟨entries, content, rfl, hbytes, hput⟩ := rename?_eq_some.1 h
  have hput' := alikeBut_putFile? hput
  refine ⟨hput'.blocked_iff.trans (by simp), fun _ => isFolder_putFile? hput, fun other ho => ?_,
    fun other ho => ?_⟩
  · rw [List.mem_cons, List.mem_singleton, not_or] at ho
    exact find?_rename?_other h ho.1 ho.2
  · have hfolder := hput'.noFolder other ho
    rw [find?_folder_name] at hfolder ⊢
    by_cases hsource : other = source
    · -- what has been renamed is gone
      have hgone : (without entries [source]).lookup [source] = none := by
        rw [List.lookup_eq_none_iff]
        intro e he
        have he := bne_iff_ne.1 (List.mem_filter.1 he).2
        simpa using Ne.symm he
      rw [hsource, hgone] at hfolder
      cases hfolder
    · have hpath : ([other] : Path) ≠ [source] := by simpa using hsource
      rw [lookup_without entries hpath] at hfolder
      exact hfolder

/-! ## What a call does to a place -/

theorem changed_eq_some {p' : Option Place} : p.changed p' = (some (), q) ↔ p' = some q := by
  cases p' <;> simp [changed]

theorem changed_eq_none {p' : Option Place} : p.changed p' = (none, q) ↔ p' = none ∧ p = q := by
  cases p' <;> simp [changed]

end BackgroundTasks.Place
