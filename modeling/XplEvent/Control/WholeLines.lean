import XplEvent.Control.Session

/-!
# A control connection from read to read

Below the lines of a connection are the reads of its socket, with all the
timing there is. As long as no wait times out and no read fails in the
middle of a line, and no line has a NUL, the daemon does for the reads what
it does for the complete lines of the stream (`actsOnWholeLines`).

A wait that times out in the middle of a line does not close the
connection: `SocketReadLine` gives `NULL`, but a length that counts what it
has thrown away. What comes next is then taken for a line.
-/

namespace XplEvent.Control

open Lib (run EachStep)

/-- A connection, with the call of `SocketReadLine` that is under way. -/
abbrev Reading := ConnectionData × ReadState

/-- A connection over one read; `d` answers if it ends a call. -/
def readStep (conn : Option Reading) (input : Read × Answers) : Deed (Option Reading) :=
  match conn with
  | none => ([], .ok none)
  | some (cdp, s) =>
    match readTurn s input.1 with
    | .error f => ([], .error f)
    | .ok (.again s) => ([], .ok (some (cdp, s)))
    | .ok (.done result) =>
      match clientCommandListener cdp result input.2 with
      | (es, .error f) => (es, .error f)
      | (es, .ok conn) => (es, .ok (conn.map fun cdp => (cdp, .initial)))

/-- A new connection. -/
def accepted : Option Reading := some (⟨none⟩, .initial)

/-- The bytes that the client sends. -/
def streamOf (inputs : List (Read × Answers)) : CString :=
  inputs.filterMap fun input => match input.1 with
    | .byte c => some c
    | _ => none

/-- A line without its carriage returns. -/
def withoutCR (line : CString) : CString := line.filter (· ≠ 13)

/-- What was done for some lines, on a connection over reads: it may be in
the middle of the next line, or closed. -/
def DoneFor (whole : Deed (Option ConnectionData)) (log : Deed (Option Reading)) : Prop :=
  match whole.2 with
  | .error f => log = (whole.1, .error f)
  | .ok conn => log = (whole.1 ++ [.closed], .ok none) ∨
    ∃ cdp s, conn = some cdp ∧ log = (whole.1, .ok (some (cdp, s)))

/-- **Only whole lines are acted on**: what was done is what is done for
the first complete lines of the stream, and each string acted on is all of
its line. -/
def OnWholeLines (inputs : List (Read × Answers)) (log : Deed (Option Reading)) : Prop :=
  ∃ acted : List Input, acted.map Prod.fst <+: (Lib.lines LF (streamOf inputs)).map withoutCR ∧
    (∀ i ∈ acted, i.1 ≠ [] ∧ i.line = i.1) ∧ DoneFor (session (some ⟨none⟩) acted) log

/-- The step leaves no part of a line behind: no wait times out and no
read fails in the middle of a line, and the line it ends has no NUL. -/
def LeavesNoPart : Option Reading → Read × Answers → Prop
  | none, _ => True
  | some (_, s), (.EAGAIN selected, _) => selected = 0 → s.line = []
  | some (_, s), (.error, _) => s.line = []
  | some (_, s), (.byte c, _) => c = LF → 0 ∉ s.line
  | some _, _ => True

/-! ## A read at a time -/

/-- A read that goes on with the line. -/
theorem readStep_again {s : ReadState} (h : s.Fits) {r : Read} {line : CString}
    (hline : lineTurn s.line r = .again line) (cdp : ConnectionData) (d : Answers) :
    ∃ s', readStep (some (cdp, s)) (r, d) = ([], .ok (some (cdp, s'))) ∧ s'.line = line ∧
      s'.Fits := by
  obtain ⟨turn, hturn, hspec⟩ := readTurn_eq h r
  cases turn with
  | again s' =>
    rw [hline] at hspec
    obtain ⟨hagain, hfits⟩ := hspec
    refine ⟨s', ?_, (Lib.Turn.again.inj hagain).symm, hfits⟩
    simp only [readStep, hturn]
  | done result =>
    rw [hline] at hspec
    cases hspec

/-- A read that ends the call. -/
theorem readStep_done {s : ReadState} (h : s.Fits) {r : Read} {result : LineResult}
    (hline : lineTurn s.line r = .done result) (cdp : ConnectionData) (d : Answers) :
    readStep (some (cdp, s)) (r, d) = match listen (some cdp) (result, d) with
      | (es, .error f) => (es, .error f)
      | (es, .ok conn) => (es, .ok (conn.map fun cdp => (cdp, .initial))) := by
  obtain ⟨turn, hturn, hspec⟩ := readTurn_eq h r
  cases turn with
  | again s' =>
    rw [hline] at hspec
    cases hspec.1
  | done result' =>
    rw [hline] at hspec
    cases hspec
    simp only [readStep, hturn]
    rfl

/-- A call that ends with nothing closes the connection. -/
theorem readStep_closes {s : ReadState} (h : s.Fits) {r : Read} {line : Option CString}
    (hline : lineTurn s.line r = .done ⟨line, 0⟩) (cdp : ConnectionData) (d : Answers) :
    readStep (some (cdp, s)) (r, d) = ([.closed], .ok none) := by
  rw [readStep_done h hline]
  cases line with
  | none => rfl
  | some raw => rfl

/-- A call that ends with a line acts on it. -/
theorem readStep_acts {s : ReadState} (h : s.Fits) {r : Read}
    (hline : lineTurn s.line r = .done ⟨some s.line, s.line.length⟩) (hne : s.line ≠ [])
    (hnul : 0 ∉ s.line) (cdp : ConnectionData) (d : Answers) :
    readStep (some (cdp, s)) (r, d) = match actOn d cdp s.line with
      | (es, .error f) => (es, .error f)
      | (es, .ok cdp) => (es, .ok (some (cdp, .initial))) := by
  have hacts := listen_line (i := (s.line, d)) hne cdp
  have hcut : Input.line (s.line, d) = s.line := cutNul_eq_self hnul
  rw [hcut] at hacts
  have hresult : listen (some cdp) (⟨some s.line, s.line.length⟩, d) = _ := hacts
  rw [readStep_done h hline, hresult]
  rcases actOn d cdp s.line with ⟨es, f | cdp'⟩
  · rfl
  · rfl

theorem run_closed (inputs : List (Read × Answers)) :
    run readStep none inputs = ([], .ok none) := by
  induction inputs with
  | nil => rfl
  | cons input inputs ih =>
    rw [run]
    show ([] ++ (run readStep none inputs).1, (run readStep none inputs).2) = _
    rw [ih]
    rfl

/-! ## Read after read -/

/-- Some lines are acted on behind a part of one. -/
def ActedBehind (cdp : ConnectionData) (line stream : CString) (log : Deed (Option Reading)) :
    Prop :=
  ∃ acted : List Input, acted.map Prod.fst <+: Lib.lines LF (line ++ withoutCR stream) ∧
    (∀ i ∈ acted, i.1 ≠ [] ∧ i.line = i.1) ∧ DoneFor (session (some cdp) acted) log

/-- The connection is closed, or waits. -/
theorem ActedBehind.nothing {cdp : ConnectionData} (line stream : CString)
    {log : Deed (Option Reading)}
    (h : log = ([.closed], .ok none) ∨ ∃ s, log = ([], .ok (some (cdp, s)))) :
    ActedBehind cdp line stream log := by
  refine ⟨[], List.nil_prefix, fun i hi => absurd hi List.not_mem_nil, ?_⟩
  rcases h with hclosed | ⟨s, hs⟩
  · exact .inl hclosed
  · exact .inr ⟨cdp, s, rfl, hs⟩

theorem DoneFor.append {whole : Deed (Option ConnectionData)} {log : Deed (Option Reading)}
    (h : DoneFor whole log) (es : List Event) :
    DoneFor (es ++ whole.1, whole.2) (es ++ log.1, log.2) := by
  obtain ⟨events, f | conn⟩ := whole
  · have hlog : log = (events, .error f) := h
    rw [hlog]
    rfl
  · rcases h with hclosed | ⟨cdp, s, hconn, hopen⟩
    · refine .inl ?_
      rw [hclosed, List.append_assoc]
    · refine .inr ⟨cdp, s, hconn, ?_⟩
      rw [hopen]

/-- A complete line is acted on. -/
theorem ActedBehind.line {cdp : ConnectionData} {line stream : CString} {d : Answers}
    (hlf : LF ∉ line) (hne : line ≠ []) (hnul : 0 ∉ line) {log : Deed (Option Reading)}
    (h : match actOn d cdp line with
      | (es, .error f) => log = (es, .error f)
      | (es, .ok cdp') => ∃ rest, ActedBehind cdp' [] stream rest ∧ log = (es ++ rest.1, rest.2)) :
    ActedBehind cdp line (LF :: stream) log := by
  have hcut : Input.line (line, d) = line := cutNul_eq_self hnul
  have hlines : Lib.lines LF (line ++ withoutCR (LF :: stream)) =
      line :: Lib.lines LF (withoutCR stream) := Lib.lines_line hlf (withoutCR stream)
  have hsession := session_cons (i := (line, d)) hne cdp
  rw [hcut] at hsession
  rcases hact : actOn d cdp line with ⟨es, f | cdp'⟩
  · rw [hact] at h
    refine ⟨[(line, d)], ?_, ?_, ?_⟩
    · rw [hlines]
      exact List.cons_prefix_cons.mpr ⟨rfl, List.nil_prefix⟩
    · exact List.forall_mem_singleton.mpr ⟨hne, hcut⟩
    · simp only [hsession, hact]
      exact h
  · rw [hact] at h
    obtain ⟨rest, ⟨acted, hprefix, hacted, hdone⟩, rfl⟩ := h
    refine ⟨(line, d) :: acted, ?_, ?_, ?_⟩
    · rw [hlines]
      exact List.cons_prefix_cons.mpr ⟨rfl, hprefix⟩
    · exact List.forall_mem_cons.mpr ⟨⟨hne, hcut⟩, hacted⟩
    · simp only [hsession, hact]
      exact hdone.append es

/-- A carriage return is passed over. -/
theorem ActedBehind.skip {cdp : ConnectionData} {line stream : CString}
    {log : Deed (Option Reading)} (h : ActedBehind cdp line stream log) :
    ActedBehind cdp line (13 :: stream) log := h

/-- Another byte of the line. -/
theorem ActedBehind.more {cdp : ConnectionData} {line stream : CString} {c : CChar}
    {log : Deed (Option Reading)} (hcr : c ≠ 13) (h : ActedBehind cdp (line ++ [c]) stream log) :
    ActedBehind cdp line (c :: stream) log := by
  have hkept : withoutCR (c :: stream) = c :: withoutCR stream :=
    List.filter_cons_of_pos (decide_eq_true hcr)
  have hstream : (line ++ [c]) ++ withoutCR stream = line ++ withoutCR (c :: stream) := by
    rw [hkept, List.append_assoc]
    rfl
  unfold ActedBehind at h ⊢
  rw [← hstream]
  exact h

/-- A step that closes the connection. -/
theorem ActedBehind.closed {cdp : ConnectionData} {s : ReadState} {input : Read × Answers}
    (hstep : readStep (some (cdp, s)) input = ([.closed], .ok none))
    (inputs : List (Read × Answers)) (stream : CString) :
    ActedBehind cdp s.line stream (run readStep (some (cdp, s)) (input :: inputs)) := by
  apply ActedBehind.nothing
  left
  rw [run, hstep]
  show (_ ++ (run readStep none inputs).1, (run readStep none inputs).2) = _
  rw [run_closed]
  rfl

/-- What a byte does. -/
theorem readStep_byte {s : ReadState} (hs : s.Fits) (cdp : ConnectionData) (c : CChar) (d : Answers)
    (hpart : c = LF → 0 ∉ s.line) :
    (∃ s', readStep (some (cdp, s)) (.byte c, d) = ([], .ok (some (cdp, s'))) ∧ s'.Fits ∧
      ((c = 13 ∧ s'.line = s.line) ∨ (c ≠ 13 ∧ c ≠ LF ∧ s'.line = s.line ++ [c]))) ∨
    (c = LF ∧ s.line ≠ [] ∧ 0 ∉ s.line ∧ readStep (some (cdp, s)) (.byte c, d) =
      match actOn d cdp s.line with
      | (es, .error f) => (es, .error f)
      | (es, .ok cdp) => (es, .ok (some (cdp, .initial)))) ∨
    readStep (some (cdp, s)) (.byte c, d) = ([.closed], .ok none) := by
  by_cases hcr : c = 13
  · have hline : lineTurn s.line (.byte c) = .again s.line := if_pos hcr
    obtain ⟨s', hstep, hsame, hfits⟩ := readStep_again hs hline cdp d
    exact .inl ⟨s', hstep, hfits, .inl ⟨hcr, hsame⟩⟩
  by_cases hend : c = LF
  · have hline : lineTurn s.line (.byte c) = .done ⟨some s.line, s.line.length⟩ := by
      rw [lineTurn, if_neg hcr, if_neg fun hne => hne hend]
    by_cases hempty : s.line = []
    · right
      right
      have hclosed : lineTurn s.line (.byte c) = .done ⟨some [], 0⟩ := by
        rw [hline, hempty]
        rfl
      exact readStep_closes hs hclosed cdp d
    · have hnul := hpart hend
      exact .inr (.inl ⟨hend, hempty, hnul, readStep_acts hs hline hempty hnul cdp d⟩)
  · have hline : lineTurn s.line (.byte c) = .again (s.line ++ [c]) := by
      rw [lineTurn, if_neg hcr, if_pos hend]
    obtain ⟨s', hstep, hmore, hfits⟩ := readStep_again hs hline cdp d
    exact .inl ⟨s', hstep, hfits, .inr ⟨hcr, hend, hmore⟩⟩

/-- What any other read does: it leaves the line as it is, or it closes the
connection. -/
theorem readStep_other {s : ReadState} (hs : s.Fits) (cdp : ConnectionData) {r : Read}
    (hr : ∀ c, r ≠ .byte c) (d : Answers) (hpart : LeavesNoPart (some (cdp, s)) (r, d)) :
    (∃ s', readStep (some (cdp, s)) (r, d) = ([], .ok (some (cdp, s'))) ∧ s'.Fits ∧
      s'.line = s.line) ∨
    readStep (some (cdp, s)) (r, d) = ([.closed], .ok none) := by
  have hkeeps : lineTurn s.line r = .again s.line → ∃ s',
      readStep (some (cdp, s)) (r, d) = ([], .ok (some (cdp, s'))) ∧ s'.Fits ∧
        s'.line = s.line := by
    intro hline
    obtain ⟨s', hstep, hsame, hfits⟩ := readStep_again hs hline cdp d
    exact ⟨s', hstep, hfits, hsame⟩
  have hcloses : ∀ line, lineTurn s.line r = .done ⟨line, 0⟩ →
      readStep (some (cdp, s)) (r, d) = ([.closed], .ok none) :=
    fun line hline => readStep_closes hs hline cdp d
  cases r with
  | EINTR => exact .inl (hkeeps rfl)
  | EAGAIN selected =>
    by_cases hready : selected = 0
    · right
      apply hcloses none
      rw [lineTurn, if_neg fun hne => hne hready, hpart hready]
      rfl
    · exact .inl (hkeeps (if_pos hready))
  | error =>
    right
    apply hcloses none
    rw [lineTurn, show s.line = [] from hpart]
    rfl
  | eof => exact .inr (hcloses (some []) rfl)
  | byte c => exact absurd rfl (hr c)

/-- **The reads of a connection**: by induction on the reads, with the part
of a line that has been read. -/
theorem run_actedBehind {cdp : ConnectionData} {s : ReadState} (hs : s.Fits) (hlf : LF ∉ s.line)
    (inputs : List (Read × Answers)) (h : EachStep readStep LeavesNoPart (some (cdp, s)) inputs) :
    ActedBehind cdp s.line (streamOf inputs) (run readStep (some (cdp, s)) inputs) := by
  induction inputs generalizing cdp s with
  | nil => exact .nothing _ _ (.inr ⟨s, rfl⟩)
  | cons input inputs ih =>
    obtain ⟨r, d⟩ := input
    obtain ⟨hpart, hrest⟩ := h
    -- a step that goes on, whatever it makes of the line
    have hnext : ∀ s', readStep (some (cdp, s)) (r, d) = ([], .ok (some (cdp, s'))) → s'.Fits →
        LF ∉ s'.line → ActedBehind cdp s'.line (streamOf inputs)
          (run readStep (some (cdp, s)) ((r, d) :: inputs)) := by
      intro s' hstep hfits hlf'
      rw [hstep] at hrest
      rw [run, hstep]
      exact ih hfits hlf' hrest
    by_cases hbyte : ∃ c, r = .byte c
    · obtain ⟨c, rfl⟩ := hbyte
      show ActedBehind cdp s.line (c :: streamOf inputs) _
      rcases readStep_byte hs cdp c d hpart with
        ⟨s', hstep, hfits, ⟨rfl, hsame⟩ | ⟨hcr, hend, hmore⟩⟩ | ⟨rfl, hne, hnul, hstep⟩ | hstep
      · apply ActedBehind.skip
        rw [← hsame]
        apply hnext s' hstep hfits
        rw [hsame]
        exact hlf
      · apply ActedBehind.more hcr
        rw [← hmore]
        apply hnext s' hstep hfits
        rw [hmore, List.mem_append, List.mem_singleton, not_or]
        exact ⟨hlf, fun heq => hend heq.symm⟩
      · rw [hstep] at hrest
        rw [run, hstep]
        apply ActedBehind.line hlf hne hnul
        rcases hact : actOn d cdp s.line with ⟨es, f | cdp'⟩
        · rfl
        · rw [hact] at hrest
          exact ⟨_, ih initial_fits List.not_mem_nil hrest, rfl⟩
      · exact .closed hstep inputs _
    · have hnone : ∀ c, r ≠ .byte c := fun c hc => hbyte ⟨c, hc⟩
      have hstream : streamOf ((r, d) :: inputs) = streamOf inputs := by
        cases r with
        | byte c => exact absurd rfl (hnone c)
        | _ => rfl
      rw [hstream]
      rcases readStep_other hs cdp hnone d hpart with ⟨s', hstep, hfits, hsame⟩ | hstep
      · rw [← hsame]
        apply hnext s' hstep hfits
        rw [hsame]
        exact hlf
      · exact .closed hstep inputs _

/-- **Runs in which no part of a line is left behind act on whole lines
only.** A shorter run ends in every state on the way. -/
theorem actsOnWholeLines (inputs : List (Read × Answers))
    (h : EachStep readStep LeavesNoPart accepted inputs) :
    OnWholeLines inputs (run readStep accepted inputs) := by
  obtain ⟨acted, hprefix, hacted, hdone⟩ :=
    run_actedBehind initial_fits List.not_mem_nil inputs h
  refine ⟨acted, ?_, hacted, hdone⟩
  have hfilter : (Lib.lines LF (streamOf inputs)).map withoutCR =
      Lib.lines LF (withoutCR (streamOf inputs)) := (Lib.lines_filter (by decide) _).symm
  rw [hfilter]
  exact hprefix

/-- The reads of some bytes. -/
def bytesRead (stream : CString) : List (Read × Answers) :=
  stream.map fun c => (.byte c, ⟨some (cstr "a\n"), .PASS, .PASS, true⟩)

theorem wholeRequest_actedOn :
    OnWholeLines (bytesRead (cstr "rs:\r\n")) (run readStep accepted
      (bytesRead (cstr "rs:\r\n"))) := by
  apply actsOnWholeLines
  refine ⟨?_, ?_, ?_, ?_, ?_, trivial⟩
  · intro hend
    cases hend
  · intro hend
    cases hend
  · intro hend
    cases hend
  · intro hend
    cases hend
  · intro _
    decide

/-- A client that pauses for more than five seconds in the middle of a
line: what it sends then is a command. -/
def pausedReads : List (Read × Answers) :=
  bytesRead (cstr "sl:") ++ (.EAGAIN 0, ⟨none, .PASS, .PASS, true⟩) ::
    bytesRead (cstr "cl:schreload\n")

theorem pausedTail_executed :
    (run readStep accepted pausedReads).1 =
      [.command (cstr "schreload"), .schreload, .print (cstr "ok:\n")] ∧
    ¬ OnWholeLines pausedReads (run readStep accepted pausedReads) := by
  have hlog : run readStep accepted pausedReads =
      ([.command (cstr "schreload"), .schreload, .print (cstr "ok:\n")],
        .ok (some (⟨none⟩, .initial))) := rfl
  have hlines : (Lib.lines LF (streamOf pausedReads)).map withoutCR = [cstr "sl:cl:schreload"] := by
    have hstream : streamOf pausedReads = Lib.terminated LF [cstr "sl:cl:schreload"] := by decide
    rw [hstream, Lib.lines_terminated (by decide)]
    decide
  refine ⟨congrArg Prod.fst hlog, ?_⟩
  rintro ⟨acted, hprefix, -, hdone⟩
  -- the only line of the stream is one that the daemon passes over
  have hsession : session (some ⟨none⟩) acted = ([], .ok (some ⟨none⟩)) := by
    rw [hlines] at hprefix
    cases acted with
    | nil => rfl
    | cons i rest =>
      obtain ⟨line, d⟩ := i
      obtain ⟨hline, hrest⟩ := List.cons_prefix_cons.mp hprefix
      rw [show rest = [] from List.map_eq_nil_iff.mp (List.prefix_nil.mp hrest),
        show line = cstr "sl:cl:schreload" from hline]
      rfl
  rw [hsession, hlog] at hdone
  rcases hdone with hclosed | ⟨cdp, s, -, hopen⟩
  · cases hclosed
  · cases hopen

end XplEvent.Control
