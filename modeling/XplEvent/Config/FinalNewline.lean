import XplEvent.Config.Reading

/-!
# A last line without a newline

The scanner looks for a newline where a line may end, and takes a NUL for
an error. So a last line that misses its newline is a syntax error, unless
it ends with a comment; if it is in error anyway, or an earlier line is, the
newline does not matter (`finalNewline_iff`).

Results are compared with their line numbers and hashes, and both scans
have to return one: a line that is too wide for the buffer is read behind
its end. Where reading ends with an error, a last line without its newline
is not scanned at all.
-/

namespace XplEvent.Config

open Lib (firstStop firstStop_eq_none)

/-- A text whose last line misses its newline. -/
structure Unterminated (earlier last : CString) : Prop where
  whole : WholeLines earlier
  nonempty : last ≠ []
  newline : LF ∉ last
  short : last.length ≤ 1000
  text : 0 ∉ earlier ++ last

/-- The room that a line takes, its blanks twice. -/
def width (read : CString) : Nat := read.length + read.countP isBlank

/-- Both scans return, and they return the same. -/
def SameResult (first second : Except Fault ScanResult) : Prop :=
  ∃ result, first = .ok result ∧ second = .ok result

/-- The newline does not matter: an earlier line is a syntax error; or none
stops the scan, the last line has room for the newline, and does not just
miss its end. If reading ends with an error, the line is scanned only with
the newline, and must not be bad then. -/
def NewlineInert (ferror : Bool) (earlier last : CString) : Prop :=
  firstStop stopOf (fgetsLines ferror [] earlier) = some .syntaxError ∨
    (firstStop stopOf (fgetsLines ferror [] earlier) = none ∧ width last < MAX_CONFIG_LINE ∧
      if ferror then said (last ++ [LF]) ≠ .bad else ¬ EndsOpen (unblanked last))

/-! ## The last turn -/

/-- What is returned behind the last turn. -/
def scanEnd (ferror : Bool) : Except Stop ScanState → Except Fault ScanResult
  | .error (.fault f) => .error f
  | .error (.syntaxError linenum) => .ok (.CRE_SYNTAX linenum)
  | .ok s => .ok (if ferror then ScanResult.CRE_IO else .config ⟨CE_MAGIC, s.sections⟩)

theorem scanEnd_ok (ferror : Bool) (s : ScanState) (linenum : Nat) :
    scanEnd ferror (.ok s) ≠ .ok (.CRE_SYNTAX linenum) := by
  intro heq
  cases ferror with
  | true => cases heq
  | false => cases heq

variable {UtilHash : CString → UInt32}

theorem ConfReadScan_end (text : CString) (ferror : Bool) :
    ConfReadScan UtilHash (.text text ferror) =
      scanEnd ferror ((fgetsLines ferror [] text).foldlM (scanTurn UtilHash) .initial) := rfl

/-- The parse of a line never leaves its bounds. -/
theorem scanEnd_apply_ok (UtilHash : CString → UInt32) (ferror : Bool) (s : ScanState)
    (c : Content) :
    ∃ result, scanEnd ferror (s.apply UtilHash c) = .ok result := by
  cases c with
  | nothing | sect _ | pair _ _ | bad => exact ⟨_, rfl⟩

theorem scanEnd_apply_ne_syntaxError {c : Content} (hc : c ≠ .bad) (ferror : Bool)
    (s : ScanState) (linenum : Nat) :
    scanEnd ferror (s.apply UtilHash c) ≠ .ok (.CRE_SYNTAX linenum) := by
  cases c with
  | nothing | sect _ | pair _ _ => exact scanEnd_ok ferror _ linenum
  | bad => exact (hc rfl).elim

/-- What the last turn returns depends on what its line says. -/
theorem scanEnd_turn {s : ScanState} (h : Clean UtilHash s) {read : CString} (hread : IsRead read)
    (ferror : Bool) : scanEnd ferror (scanTurn UtilHash s read) =
      if FitsLine read then scanEnd ferror (s.apply UtilHash (said read))
      else .error .outOfBounds := by
  by_cases hfits : FitsLine read
  · obtain ⟨line, hload, hcontent, -⟩ := load_said h.line hread hfits
    rw [if_pos hfits, scanTurn_load hload, hcontent]
    cases said read with
    | nothing | sect _ | pair _ _ | bad => rfl
  · rw [if_neg hfits, scanTurn_overrun h.line hread hfits]
    rfl

theorem fitsLine_iff {read : CString} : FitsLine read ↔ width read ≤ MAX_CONFIG_LINE := Iff.rfl

theorem width_newline (last : CString) : width (last ++ [LF]) = width last + 1 := by
  have hblanks : [LF].countP isBlank = 0 := rfl
  unfold width
  rw [List.length_append, List.countP_append, hblanks, List.length_singleton]
  omega

/-- What the last line says is the same with the newline, unless it only
misses its end. -/
theorem said_newline {last : CString} (h : 0 ∉ last) :
    said (last ++ [LF]) = said last ↔ ¬ EndsOpen (unblanked last) := by
  have h' : 0 ∉ last ++ [LF] := by
    rw [List.mem_append, not_or]
    exact ⟨h, by decide⟩
  have hnewline : unblanked [LF] = [LF] := rfl
  unfold said
  rw [cutNul_eq_self h, cutNul_eq_self h', unblanked_append, hnewline]
  exact content_newline

/-- The last turn returns the same with the newline and without. -/
theorem scanEnd_newline {s : ScanState} (h : Clean UtilHash s) {last : CString}
    (hread : IsRead last) (hread' : IsRead (last ++ [LF])) :
    SameResult (scanEnd false (scanTurn UtilHash s last))
        (scanEnd false (scanTurn UtilHash s (last ++ [LF]))) ↔
      width last < MAX_CONFIG_LINE ∧ ¬ EndsOpen (unblanked last) := by
  have hwidth := width_newline last
  rw [scanEnd_turn h hread, scanEnd_turn h hread']
  by_cases hlt : width last < MAX_CONFIG_LINE
  · -- both fit, and what they say decides
    rw [if_pos (fitsLine_iff.mpr (Nat.le_of_lt hlt)),
      if_pos (fitsLine_iff.mpr (by rw [hwidth]; exact hlt)), and_iff_right hlt]
    constructor
    · rintro ⟨result, hwithout, hwith⟩ hopen
      have hbad : said last = .bad := by
        rw [said, cutNul_eq_self hread.text]
        exact hopen.bad
      have hgood : said (last ++ [LF]) ≠ .bad := fun hbad' =>
        (said_newline hread.text).mp (hbad'.trans hbad.symm) hopen
      rw [hbad] at hwithout
      rw [← hwithout] at hwith
      exact scanEnd_apply_ne_syntaxError hgood false s s.linenum hwith
    · intro hopen
      rw [(said_newline hread.text).mpr hopen]
      obtain ⟨result, hresult⟩ := scanEnd_apply_ok UtilHash false s (said last)
      exact ⟨result, hresult, hresult⟩
  · -- the newline finds no room
    rw [if_neg fun hfits : FitsLine (last ++ [LF]) => by
      rw [fitsLine_iff, hwidth] at hfits
      exact hlt hfits]
    refine iff_of_false ?_ fun hinert => hlt hinert.1
    rintro ⟨result, -, hwith⟩
    cases hwith

/-- With an error behind it, the last line is scanned only with the
newline. -/
theorem scanEnd_newline_ferror {s : ScanState} (h : Clean UtilHash s) {last : CString}
    (hread' : IsRead (last ++ [LF])) :
    SameResult (scanEnd true (.ok s)) (scanEnd true (scanTurn UtilHash s (last ++ [LF]))) ↔
      width last < MAX_CONFIG_LINE ∧ said (last ++ [LF]) ≠ .bad := by
  have hfits : FitsLine (last ++ [LF]) ↔ width last < MAX_CONFIG_LINE := by
    rw [fitsLine_iff, width_newline]
    exact Nat.succ_le_iff
  rw [scanEnd_turn h hread', ← hfits]
  by_cases hlt : FitsLine (last ++ [LF])
  · rw [if_pos hlt, and_iff_right hlt]
    constructor
    · rintro ⟨result, hwithout, hwith⟩ hbad
      rw [hbad, ← hwithout] at hwith
      cases hwith
    · intro hgood
      refine ⟨ScanResult.CRE_IO, rfl, ?_⟩
      cases hsaid : said (last ++ [LF]) with
      | bad => exact (hgood hsaid).elim
      | nothing | sect name | pair key value => rfl
  · rw [if_neg hlt]
    refine iff_of_false ?_ fun hinert => hlt hinert.1
    rintro ⟨result, -, hwith⟩
    cases hwith

/-! ## The text -/

theorem Unterminated.reads {earlier last : CString} (h : Unterminated earlier last)
    (ferror : Bool) :
    fgetsLines ferror [] (earlier ++ last) =
        fgetsLines ferror [] earlier ++ (if ferror then [] else [last]) ∧
      fgetsLines ferror [] (earlier ++ last ++ [LF]) =
        fgetsLines ferror [] earlier ++ [last ++ [LF]] := by
  have hlen : ([] : CString).length + last.length + 1 < MAX_CONFIG_LINE := by
    have hshort := h.short
    show 0 + last.length + 1 < 1024
    omega
  constructor
  · have hne : ([] : CString) ++ last ≠ [] := h.nonempty
    rw [fgetsLines_whole h.whole, fgetsLines_last h.newline hne hlen]
    rfl
  · rw [List.append_assoc, fgetsLines_whole h.whole, fgetsLines_line h.newline hlen]
    rfl

theorem Unterminated.isRead {earlier last : CString} (h : Unterminated earlier last) :
    IsRead last ∧ IsRead (last ++ [LF]) := by
  have hshort := h.short
  have hnul := h.text
  rw [List.mem_append, not_or] at hnul
  refine ⟨⟨Nat.lt_of_le_of_lt hshort (by decide), hnul.2⟩, ?_, ?_⟩
  · rw [List.length_append, List.length_singleton]
    show last.length + 1 < 1024
    omega
  · rw [List.mem_append, not_or]
    exact ⟨hnul.2, by decide⟩

/-- A scan that has been stopped returns if it was for a syntax error. -/
theorem sameResult_stopped {stop : Stop} (ferror : Bool) :
    SameResult (scanEnd ferror (.error stop)) (scanEnd ferror (.error stop)) ↔
      stop.kind = .syntaxError := by
  cases stop with
  | fault f =>
    refine iff_of_false ?_ StopKind.noConfusion
    rintro ⟨result, hresult, -⟩
    cases hresult
  | syntaxError linenum => exact iff_of_true ⟨_, rfl, rfl⟩ rfl

/-- **A final newline does not matter exactly if** an earlier line is a
syntax error, or none stops the scan and the last line has room for the
newline and does not just miss its end. -/
theorem finalNewline_iff (UtilHash : CString → UInt32) (ferror : Bool) {earlier last : CString}
    (h : Unterminated earlier last) :
    SameResult (ConfReadScan UtilHash (.text (earlier ++ last) ferror))
        (ConfReadScan UtilHash (.text (earlier ++ last ++ [LF]) ferror)) ↔
      NewlineInert ferror earlier last := by
  obtain ⟨hreads, hreads'⟩ := h.reads ferror
  obtain ⟨hread, hread'⟩ := h.isRead
  have hnul := h.text
  rw [List.mem_append, not_or] at hnul
  have hearlier := fgetsLines_isRead hnul.1 ferror
  have hclean : Clean UtilHash .initial := initial_clean
  rw [ConfReadScan_end, ConfReadScan_end, hreads, hreads', List.foldlM_append, List.foldlM_append]
  unfold NewlineInert
  cases hstop : firstStop stopOf (fgetsLines ferror [] earlier) with
  | some k =>
    obtain ⟨stop, hscan, hkind⟩ := scanTurn_foretold.run_stops hearlier hstop hclean
    rw [hscan]
    show SameResult (scanEnd ferror (.error stop)) (scanEnd ferror (.error stop)) ↔ _
    rw [sameResult_stopped, hkind]
    simp
  | none =>
    obtain ⟨s, hscan, hs, -⟩ := scanTurn_foretold.run_goes hearlier hstop hclean
    have hturn : ∀ read, [read].foldlM (scanTurn UtilHash) s = scanTurn UtilHash s read := by
      intro read
      rw [List.foldlM_cons]
      cases scanTurn UtilHash s read with
      | error stop => rfl
      | ok s' => rfl
    rw [hscan, ok_bind, ok_bind, hturn]
    simp only [reduceCtorEq, false_or, true_and]
    cases ferror with
    | false =>
      show SameResult (scanEnd false ([last].foldlM (scanTurn UtilHash) s)) _ ↔ _
      rw [hturn]
      exact scanEnd_newline hs hread hread'
    | true => exact scanEnd_newline_ferror hs hread'

theorem finalNewline_comment :
    SameResult (ConfReadScan (fun _ => 0) (.text (cstr "[a]\n" ++ cstr "k=v#") false))
      (ConfReadScan (fun _ => 0) (.text (cstr "[a]\n" ++ cstr "k=v#" ++ [LF]) false)) := by
  have hopen : ¬ EndsOpen (unblanked (cstr "k=v#")) := by
    intro hopen
    exact absurd hopen.bad (by decide)
  exact (finalNewline_iff (fun _ => 0) false
    ⟨.inr ⟨cstr "[a]", rfl⟩, by decide, by decide, by decide, by decide⟩).mpr
      (.inr ⟨by decide, by decide, hopen⟩)

theorem finalNewline_section : Unterminated [] (cstr "[a]") ∧
    ¬ SameResult (ConfReadScan (fun _ => 0) (.text (cstr "[a]") false))
      (ConfReadScan (fun _ => 0) (.text (cstr "[a]" ++ [LF]) false)) := by
  refine ⟨⟨.inl rfl, by decide, by decide, by decide, by decide⟩, ?_⟩
  rintro ⟨result, hwithout, hwith⟩
  have hreading := congrArg (Except.map ScanResult.reading) (hwithout.trans hwith.symm)
  rw [ConfReadScan_reading (by decide), ConfReadScan_reading (by decide)] at hreading
  have hwithout : readLines false (fgetsLines false [] (cstr "[a]")) = .ok .syntaxError := by decide
  have hwith : readLines false (fgetsLines false [] (cstr "[a]" ++ [LF])) =
      .ok (.settings [⟨cstr "a", []⟩]) := by decide
  rw [hwithout, hwith] at hreading
  cases hreading

end XplEvent.Config
