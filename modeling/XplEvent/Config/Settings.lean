import Mathlib.Data.List.Find
import XplEvent.Config.Grammar

/-!
# What a configuration file is read for

The settings of a file are its sections with their names, and in each the
keys with their values. A line adds a section, or a pair to the last one.

The entries that `ConfReadScan` makes have more in them: marks, hashes, line
numbers and counts. They are valid in every configuration it returns
(`ConfReadScan_valid`), and of a valid one the value that is looked up is
that of the settings (`ConfReadValueBySectKey_eq`). A turn of the scan adds
to the settings what its line says (`scanTurn_says`).
-/

namespace XplEvent.Config

/-! ## Settings -/

/-- A section with its pairs. -/
structure Section where
  name : CString
  pairs : List (CString × CString)
deriving DecidableEq, Repr

abbrev Settings := List Section

def Section.addPair (sec : Section) (key value : CString) : Section :=
  { sec with pairs := sec.pairs ++ [(key, value)] }

/-- What a line adds. A pair in front of the first section is dropped. -/
def Settings.add (settings : Settings) : Content → Settings
  | .nothing => settings
  | .sect name => settings ++ [⟨name, []⟩]
  | .pair key value => settings.dropLast ++ (settings.getLast?.map (·.addPair key value)).toList
  | .bad => settings

/-- The first value for a key, in the first section of a name. -/
def Settings.lookup (settings : Settings) (name key : CString) : Option CString := do
  let sec ← settings.find? fun sec => sec.name = name
  let pair ← sec.pairs.find? fun pair => pair.1 = key
  return pair.2

/-- A pair is added to the last section. -/
theorem Settings.add_pair (settings : Settings) (sec : Section) (key value : CString) :
    Settings.add (settings ++ [sec]) (.pair key value) = settings ++ [sec.addPair key value] := by
  unfold Settings.add
  rw [List.dropLast_concat, List.getLast?_concat]
  rfl

/-! ## Entries -/

section

variable (UtilHash : CString → UInt32)

structure KeyEntry.Valid (ke : KeyEntry) : Prop where
  magic : ke.magic = KE_MAGIC
  hash : ke.hash = UtilHash ke.key

structure SectionEntry.Valid (se : SectionEntry) : Prop where
  magic : se.magic = SE_MAGIC
  hash : se.hash = UtilHash se.section_
  entry_count : se.entry_count = se.keys.length
  keys : ∀ ke ∈ se.keys, ke.Valid UtilHash

structure ConfigEntry.Valid (ce : ConfigEntry) : Prop where
  magic : ce.magic = CE_MAGIC
  sections : ∀ se ∈ ce.sections, se.Valid UtilHash

structure ScanState.Valid (s : ScanState) : Prop where
  first : s.se = none → s.before = []
  sections : ∀ se ∈ s.sections, se.Valid UtilHash

end

def SectionEntry.toSection (se : SectionEntry) : Section :=
  ⟨se.section_, se.keys.map fun ke => (ke.key, ke.value)⟩

def ConfigEntry.settings (ce : ConfigEntry) : Settings := ce.sections.map SectionEntry.toSection

def ScanState.settings (s : ScanState) : Settings := s.sections.map SectionEntry.toSection

variable {UtilHash : CString → UInt32}

/-! ## Looking up -/

/-- A key that is there is found by its hash. -/
theorem findKey_eq {keys : List KeyEntry} (h : ∀ ke ∈ keys, ke.Valid UtilHash) (key : CString) :
    findKey (UtilHash key) key keys = .ok (keys.find? fun ke => ke.key = key) := by
  induction keys with
  | nil => rfl
  | cons ke keys ih =>
    have hke := h ke List.mem_cons_self
    have hmagic : decide (ke.magic = KE_MAGIC) = true := decide_eq_true hke.magic
    rw [findKey, hmagic, ASSERT_FAIL_true, ok_bind]
    by_cases hkey : ke.key = key
    · rw [if_pos ⟨by rw [hke.hash, hkey], hkey⟩, List.find?_cons, decide_eq_true hkey]
      rfl
    · rw [if_neg fun hboth => hkey hboth.2, List.find?_cons, decide_eq_false hkey]
      exact ih fun ke' hke' => h ke' (List.mem_cons_of_mem ke hke')

theorem ConfReadFindSection_eq {ce : ConfigEntry} (h : ce.Valid UtilHash) (name : CString) :
    ConfReadFindSection UtilHash ce name = .ok (ce.sections.find? fun se => se.section_ = name) := by
  have hfind : (ce.sections.find? fun se => UtilHash name = se.hash ∧ se.section_ = name) =
      ce.sections.find? fun se => se.section_ = name := by
    apply List.find?_congr
    intro se hse
    apply decide_eq_decide.mpr
    constructor
    · exact And.right
    · exact fun hname => ⟨by rw [(h.sections se hse).hash, hname], hname⟩
  have hmagic : decide (ce.magic = CE_MAGIC) = true := decide_eq_true h.magic
  rw [ConfReadFindSection, hmagic, hfind]
  rfl

/-- **A look-up in a valid configuration** finds the value in the settings. -/
theorem ConfReadValueBySectKey_eq {ce : ConfigEntry} (h : ce.Valid UtilHash) (name key : CString) :
    ConfReadValueBySectKey UtilHash ce name key = .ok (ce.settings.lookup name key) := by
  have hsection : (ce.settings.find? fun sec => sec.name = name) =
      (ce.sections.find? fun se => se.section_ = name).map SectionEntry.toSection :=
    List.find?_map ..
  rw [ConfReadValueBySectKey, ConfReadKeyEntryBySectKey, ConfReadFindSection_eq h, ok_bind,
    Settings.lookup, hsection]
  cases hse : ce.sections.find? fun se => se.section_ = name with
  | none => rfl
  | some se =>
    have hvalid := h.sections se (List.mem_of_find?_eq_some hse)
    have hmagic : decide (se.magic = SE_MAGIC) = true := decide_eq_true hvalid.magic
    have hkey : (se.toSection.pairs.find? fun pair => pair.1 = key) =
        (se.keys.find? fun ke => ke.key = key).map fun ke => (ke.key, ke.value) :=
      List.find?_map ..
    show (ConfReadFindKey UtilHash se key >>= _) = Except.ok
      ((se.toSection.pairs.find? fun pair => pair.1 = key).bind _)
    rw [ConfReadFindKey, hmagic, ASSERT_FAIL_true, ok_bind, findKey_eq hvalid.keys, ok_bind, hkey]
    cases hke : se.keys.find? fun ke => ke.key = key with
    | none => rfl
    | some ke =>
      have hmagic' : decide (ke.magic = KE_MAGIC) = true :=
        decide_eq_true (hvalid.keys ke (List.mem_of_find?_eq_some hke)).magic
      show (ConfReadGetValue ke >>= _) = _
      rw [ConfReadGetValue, hmagic']
      rfl

/-! ## A turn of the scan -/

theorem ScanState.addSection_valid {s : ScanState} (h : s.Valid UtilHash) (name : CString) :
    (s.addSection UtilHash name).Valid UtilHash := by
  constructor
  · intro hnone
    cases hnone
  · intro se hse
    rcases List.mem_append.mp hse with hse | hse
    · exact h.sections se hse
    · rw [List.mem_singleton.mp hse]
      exact ⟨rfl, rfl, rfl, fun ke hke => (List.not_mem_nil hke).elim⟩

theorem ScanState.addKey_valid {s : ScanState} (h : s.Valid UtilHash) (key value : CString) :
    (s.addKey UtilHash key value).Valid UtilHash := by
  constructor
  · intro hnone
    exact h.first (Option.map_eq_none_iff.mp hnone)
  · intro se hse
    rcases List.mem_append.mp hse with hse | hse
    · exact h.sections se (List.mem_append_left _ hse)
    · obtain ⟨last, hlast, rfl⟩ := Option.map_eq_some_iff.mp (Option.mem_toList.mp hse)
      have hvalid := h.sections last (List.mem_append_right _ (Option.mem_toList.mpr hlast))
      refine ⟨hvalid.magic, hvalid.hash, ?_, ?_⟩
      · show last.entry_count + 1 = (last.keys ++ [_]).length
        rw [hvalid.entry_count, List.length_append, List.length_singleton]
      · intro ke hke
        rcases List.mem_append.mp hke with hke | hke
        · exact hvalid.keys ke hke
        · rw [List.mem_singleton.mp hke]
          exact ⟨rfl, rfl⟩

theorem ScanState.addKey_settings {s : ScanState} (h : s.Valid UtilHash) (key value : CString) :
    (s.addKey UtilHash key value).settings = s.settings.add (.pair key value) := by
  unfold ScanState.settings ScanState.sections ScanState.addKey
  cases hse : s.se with
  | none =>
    rw [h.first hse]
    rfl
  | some se =>
    rw [List.map_append, List.map_append]
    show s.before.map SectionEntry.toSection ++ [SectionEntry.toSection _] =
      Settings.add (s.before.map SectionEntry.toSection ++ [se.toSection]) (.pair key value)
    rw [Settings.add_pair]
    congr 2
    unfold SectionEntry.toSection
    rw [List.map_append]
    rfl

/-- The parse of a line that is not bad adds what it says, and leaves the
buffer and the line number. -/
theorem ScanState.apply_says {s : ScanState} (h : s.Valid UtilHash) {c : Content}
    (hc : c ≠ .bad) : ∃ s', s.apply UtilHash c = .ok s' ∧ s'.line = s.line ∧
      s'.linenum = s.linenum ∧ s'.settings = s.settings.add c ∧ s'.Valid UtilHash := by
  cases c with
  | nothing => exact ⟨s, rfl, rfl, rfl, rfl, h⟩
  | sect name =>
    exact ⟨s.addSection UtilHash name, rfl, rfl, rfl, List.map_append, addSection_valid h name⟩
  | pair key value =>
    exact ⟨s.addKey UtilHash key value, rfl, rfl, rfl, addKey_settings h key value,
      addKey_valid h key value⟩
  | bad => exact (hc rfl).elim

theorem ScanState.initial_valid : ScanState.initial.Valid UtilHash :=
  ⟨fun _ => rfl, fun _ hse => (List.not_mem_nil hse).elim⟩

/-- A turn of the scan, for a line that is in the buffer. -/
theorem scanTurn_load {s : ScanState} {read : CString} {line : LineBuf}
    (hload : s.line.load read = .ok line) : scanTurn UtilHash s read =
      (({ s with line := line } : ScanState).apply UtilHash (content line.string)).map
        fun s => { s with linenum := s.linenum + 1 } := by
  rw [scanTurn, hload]
  simp only [scanLine_eq]
  cases ScanState.apply UtilHash { s with line := line } (content line.string) with
  | ok s' => rfl
  | error stop => rfl

/-- A turn adds what the line says. -/
theorem scanTurn_says {s : ScanState} (h : s.Valid UtilHash) {read : CString} {line : LineBuf}
    (hload : s.line.load read = .ok line) (hc : content line.string ≠ .bad) : ∃ s',
    scanTurn UtilHash s read = .ok s' ∧ s'.line = line ∧ s'.linenum = s.linenum + 1 ∧
      s'.settings = s.settings.add (content line.string) ∧ s'.Valid UtilHash := by
  have hloaded : ({ s with line := line } : ScanState).Valid UtilHash := ⟨h.first, h.sections⟩
  obtain ⟨s', happly, hline, hlinenum, hsettings, hvalid⟩ :=
    ScanState.apply_says hloaded hc
  refine ⟨{ s' with linenum := s'.linenum + 1 }, ?_, hline, congrArg (· + 1) hlinenum, hsettings,
    ⟨hvalid.first, hvalid.sections⟩⟩
  rw [scanTurn_load hload, happly]
  rfl

/-- A turn stops at a bad line. -/
theorem scanTurn_bad {s : ScanState} {read : CString} {line : LineBuf}
    (hload : s.line.load read = .ok line) (hc : content line.string = .bad) :
    scanTurn UtilHash s read = .error (.syntaxError s.linenum) := by
  rw [scanTurn_load hload, hc]
  rfl

/-! ## A whole scan -/

theorem scanTurn_valid {s s' : ScanState} (h : s.Valid UtilHash) {read : CString}
    (hturn : scanTurn UtilHash s read = .ok s') : s'.Valid UtilHash := by
  cases hload : s.line.load read with
  | error f =>
    rw [scanTurn, hload] at hturn
    cases hturn
  | ok line =>
    by_cases hc : content line.string = .bad
    · rw [scanTurn_bad hload hc] at hturn
      cases hturn
    · obtain ⟨t, hturn', -, -, -, hvalid⟩ := scanTurn_says h hload hc
      rw [hturn'] at hturn
      cases hturn
      exact hvalid

theorem scan_valid {s s' : ScanState} (h : s.Valid UtilHash) {reads : List CString}
    (hscan : reads.foldlM (scanTurn UtilHash) s = .ok s') : s'.Valid UtilHash := by
  induction reads generalizing s with
  | nil =>
    cases hscan
    exact h
  | cons read reads ih =>
    rw [List.foldlM_cons] at hscan
    cases hturn : scanTurn UtilHash s read with
    | error stop =>
      rw [hturn] at hscan
      cases hscan
    | ok t =>
      rw [hturn] at hscan
      exact ih (scanTurn_valid h hturn) hscan

/-- A file that is read to its end gives what the scan has collected. -/
theorem ConfReadScan_ok {text : CString} {ferror : Bool} {s : ScanState}
    (hscan : (fgetsLines ferror [] text).foldlM (scanTurn UtilHash) .initial = .ok s) :
    ConfReadScan UtilHash (.text text ferror) =
      .ok (if ferror then ScanResult.CRE_IO else .config ⟨CE_MAGIC, s.sections⟩) := by
  rw [ConfReadScan, hscan]

/-- **Every configuration that is returned is valid.** -/
theorem ConfReadScan_valid {file : ConfigFile} {ce : ConfigEntry}
    (h : ConfReadScan UtilHash file = .ok (.config ce)) : ce.Valid UtilHash := by
  cases file with
  | missing => cases h
  | text text ferror =>
    cases hscan : (fgetsLines ferror [] text).foldlM (scanTurn UtilHash) .initial with
    | error stop =>
      rw [ConfReadScan, hscan] at h
      cases stop with
      | fault f => cases h
      | syntaxError linenum => cases h
    | ok s =>
      rw [ConfReadScan_ok hscan] at h
      cases ferror with
      | true => cases h
      | false =>
        cases h
        exact ⟨rfl, (scan_valid ScanState.initial_valid hscan).sections⟩

end XplEvent.Config
