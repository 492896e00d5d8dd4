import XplEvent.Config.Settings
import XplEvent.Lib.Stopping

/-!
# What a text is read as

A text has no NULs. The buffer then keeps no blanks from one line to the
next, and each line is read, or stops the scan, for itself: it has to find
room in the buffer with its blanks, and it must not be bad. The scan gives
the settings that the lines add up to, or says what the first line that
stops it does (`ConfReadScan_reading`).
-/

namespace XplEvent.Config

open Lib (Foretold firstStop firstStop_append firstStop_eq_none)

/-! ## Readings -/

/-- What a line that is read says. -/
def said (read : CString) : Content := content (unblanked (cutNul read))

/-- What a line stops the scan for. -/
inductive StopKind
  | fault (f : Fault)
  | syntaxError
deriving DecidableEq, Repr

def stopOf (read : CString) : Option StopKind :=
  if ¬ FitsLine read then some (.fault .outOfBounds)
  else if said read = .bad then some .syntaxError
  else none

/-- A result without its line numbers and hashes. -/
inductive Reading
  | failed
  | syntaxError
  | settings (s : Settings)
deriving DecidableEq, Repr

def ScanResult.reading : ScanResult → Reading
  | .CRE_FOPEN => .failed
  | ScanResult.CRE_IO => .failed
  | .CRE_SYNTAX _ => .syntaxError
  | .config ce => .settings ce.settings

/-- What the lines add to the settings. -/
def addLines (settings : Settings) (reads : List CString) : Settings :=
  reads.foldl (fun settings read => settings.add (said read)) settings

theorem addLines_cons (settings : Settings) (read : CString) (reads : List CString) :
    addLines settings (read :: reads) = addLines (settings.add (said read)) reads := rfl

theorem addLines_append (settings : Settings) (first second : List CString) :
    addLines settings (first ++ second) = addLines (addLines settings first) second :=
  List.foldl_append

/-- What lines are read as. -/
def readLines (ferror : Bool) (reads : List CString) : Except Fault Reading :=
  match firstStop stopOf reads with
  | some (.fault f) => .error f
  | some .syntaxError => .ok .syntaxError
  | none => .ok (if ferror then .failed else .settings (addLines [] reads))

def StopKind.result : StopKind → Except Fault Reading
  | .fault f => .error f
  | .syntaxError => .ok .syntaxError

theorem readLines_stops {reads : List CString} {k : StopKind}
    (h : firstStop stopOf reads = some k) (ferror : Bool) : readLines ferror reads = k.result := by
  unfold readLines
  rw [h]
  cases k with
  | fault f => rfl
  | syntaxError => rfl

theorem readLines_goes {reads : List CString} (h : firstStop stopOf reads = none)
    (ferror : Bool) : readLines ferror reads =
      .ok (if ferror then .failed else .settings (addLines [] reads)) := by
  unfold readLines
  rw [h]

/-! ## A text -/

/-- A line of a text, as `fgets` reads it. -/
structure IsRead (read : CString) : Prop where
  room : read.length < MAX_CONFIG_LINE
  text : 0 ∉ read

theorem fgetsLines_isRead {text : CString} (h : 0 ∉ text) (ferror : Bool) :
    ∀ read ∈ fgetsLines ferror [] text, IsRead read := by
  intro read hread
  refine ⟨fgetsLines_length (by decide) read hread, ?_⟩
  intro hnul
  have hmem : 0 ∈ (fgetsLines ferror [] text).flatten := List.mem_flatten.mpr ⟨read, hread, hnul⟩
  exact h ((fgetsLines_flatten [] text).subset hmem)

/-- A text that ends with its last line. -/
def WholeLines (text : CString) : Prop := text = [] ∨ ∃ front, text = front ++ [LF]

/-- Reading starts afresh behind whole lines. -/
theorem fgetsLines_whole {text : CString} (h : WholeLines text) (ferror : Bool)
    (rest : CString) : fgetsLines ferror [] (text ++ rest) =
      fgetsLines ferror [] text ++ fgetsLines ferror [] rest := by
  rcases h with rfl | ⟨front, rfl⟩
  · rfl
  · rw [List.append_assoc]
    exact fgetsLines_append [] front rest

/-! ## The scan of a text -/

variable {UtilHash : CString → UInt32}

/-- The states of a scan of a text. -/
structure Clean (UtilHash : CString → UInt32) (s : ScanState) : Prop where
  line : s.line.BlanksBelow 0
  valid : s.Valid UtilHash

theorem initial_clean : Clean UtilHash .initial :=
  ⟨LineBuf.zero_blanksBelow, ScanState.initial_valid⟩

def Stop.kind : Stop → StopKind
  | .fault f => .fault f
  | .syntaxError _ => .syntaxError

/-- A line that finds no room is read behind the end of the buffer. -/
theorem scanTurn_overrun {s : ScanState} (h : s.line.BlanksBelow 0) {read : CString}
    (hread : IsRead read) (hfits : ¬ FitsLine read) :
    scanTurn UtilHash s read = .error (.fault .outOfBounds) := by
  rw [scanTurn, LineBuf.load_error h hread.room hread.text hfits]

/-- A line that finds room is loaded for what it says. -/
theorem load_said {line : LineBuf} (h : line.BlanksBelow 0) {read : CString} (hread : IsRead read)
    (hfits : FitsLine read) : ∃ line', line.load read = .ok line' ∧
      content line'.string = said read ∧ line'.BlanksBelow 0 := by
  obtain ⟨line', hload, hstring, hclean⟩ := LineBuf.load_clean h hread.room hread.text hfits
  refine ⟨line', hload, ?_, hclean⟩
  rw [hstring, said, cutNul_eq_self hread.text]

theorem stopOf_eq_none {read : CString} :
    stopOf read = none ↔ FitsLine read ∧ said read ≠ .bad := by
  unfold stopOf
  by_cases hfits : FitsLine read
  · by_cases hbad : said read = .bad
    · simp [hfits, hbad]
    · simp [hfits, hbad]
  · simp [hfits]

/-- **A turn of the scan of a text is foretold by the line.** -/
theorem scanTurn_foretold : Foretold (scanTurn UtilHash) (Clean UtilHash) IsRead stopOf Stop.kind
    ScanState.settings (fun settings read => settings.add (said read)) where
  stops := by
    intro s read k hs hread hstop
    by_cases hfits : FitsLine read
    · obtain ⟨line, hload, hcontent, -⟩ := load_said hs.line hread hfits
      rw [stopOf, if_neg (not_not_intro hfits)] at hstop
      split at hstop
      · rename_i hbad
        cases hstop
        exact ⟨_, scanTurn_bad hload (hcontent.trans hbad), rfl⟩
      · cases hstop
    · rw [stopOf, if_pos hfits] at hstop
      cases hstop
      exact ⟨_, scanTurn_overrun hs.line hread hfits, rfl⟩
  goes := by
    intro s read hs hread hstop
    obtain ⟨hfits, hc⟩ := stopOf_eq_none.mp hstop
    obtain ⟨line, hload, hcontent, hline⟩ := load_said hs.line hread hfits
    rw [← hcontent] at hc
    obtain ⟨s', hturn, hline', -, hsettings, hvalid⟩ := scanTurn_says hs.valid hload hc
    refine ⟨s', hturn, ⟨hline' ▸ hline, hvalid⟩, ?_⟩
    rw [hsettings, hcontent]

/-- **A text is read as its lines are.** -/
theorem ConfReadScan_reading {text : CString} (h : 0 ∉ text) (ferror : Bool) :
    (ConfReadScan UtilHash (.text text ferror)).map ScanResult.reading =
      readLines ferror (fgetsLines ferror [] text) := by
  have hread := fgetsLines_isRead h ferror
  have hclean : Clean UtilHash .initial := initial_clean
  cases hstop : firstStop stopOf (fgetsLines ferror [] text) with
  | some k =>
    obtain ⟨stop, hscan, hkind⟩ := scanTurn_foretold.run_stops hread hstop hclean
    rw [readLines_stops hstop, ← hkind, ConfReadScan, hscan]
    cases stop with
    | fault f => rfl
    | syntaxError linenum => rfl
  | none =>
    obtain ⟨s, hscan, -, hsettings⟩ := scanTurn_foretold.run_goes hread hstop hclean
    rw [readLines_goes hstop, ConfReadScan_ok hscan]
    cases ferror with
    | true => rfl
    | false =>
      have hreading : Reading.settings s.settings = .settings (addLines [] (fgetsLines false [] text)) :=
        congrArg Reading.settings hsettings
      exact congrArg Except.ok hreading

end XplEvent.Config
