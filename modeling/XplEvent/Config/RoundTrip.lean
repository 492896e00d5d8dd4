import XplEvent.Config.Reading

/-!
# A printed configuration is read back

Settings are printed with a line for each section and each pair. Empty lines
and comments may stand anywhere between them. The scan gives the settings
back, and the look-ups their values (`ConfReadScan_roundTrip`).

A comment may have blanks and a section or a pair has none, so the buffer has
blanks among its first characters only, and every line finds room in it.
-/

namespace XplEvent.Config

open Lib (Foretold firstStop_eq_none)

/-! ## Printing -/

/-- Characters that can stand in a line: no blanks, and no NUL. -/
def IsWord (text : CString) : Prop := ∀ c ∈ text, c ≠ 0 ∧ isBlank c = false

/-- A section that can be printed. -/
structure Section.Printable (sec : Section) : Prop where
  name : IsName sec.name ∧ IsWord sec.name
  keys : ∀ pair ∈ sec.pairs, IsKey pair.1 ∧ IsWord pair.1
  values : ∀ pair ∈ sec.pairs, IsValue pair.2 ∧ IsWord pair.2

/-- What the lines of a section say. -/
def Section.contents (sec : Section) : List Content :=
  .sect sec.name :: sec.pairs.map fun pair => .pair pair.1 pair.2

/-- An empty line, or a comment. -/
structure IsFiller (text : CString) : Prop where
  short : text.length < 500
  newline : LF ∉ text
  comment : ∀ c ∈ (unblanked text).head?, c = 35 ∨ c = 59

/-- A line of a printed file. -/
inductive PrintedLine
  | filler (text : CString)
  | said (c : Content)

def PrintedLine.text : PrintedLine → CString
  | filler text => text
  | said c => c.text

def PrintedLine.said? : PrintedLine → Option Content
  | filler _ => none
  | said c => some c

/-- Every line has its newline. -/
def fileText (lines : List PrintedLine) : CString := lines.flatMap fun l => l.text ++ [LF]

/-- A line that the scan can be given. -/
def PrintedLine.Allowed : PrintedLine → Prop
  | filler text => IsFiller text
  | said c => c.WellFormed ∧ IsWord c.text

/-! ## The lines of the file -/

/-- What is said well has no newline, and is read at once. -/
theorem Content.WellFormed.line {c : Content} (h : c.WellFormed) :
    LF ∉ c.text ∧ c.text.length + 2 ≤ 1000 := by
  cases c with
  | nothing => exact ⟨List.not_mem_nil, by decide⟩
  | sect name =>
    constructor
    · intro hmem
      rcases List.mem_cons.mp hmem with heq | hmem
      · exact absurd heq (by decide)
      rcases List.mem_append.mp hmem with hmem | hmem
      · exact h.closed LF hmem (by decide)
      · exact absurd (List.mem_singleton.mp hmem) (by decide)
    · have hshort : name.length + 1 < 128 := h.short
      show (name ++ [93]).length + 1 + 2 ≤ 1000
      rw [List.length_append, List.length_singleton]
      omega
  | pair key value =>
    constructor
    · intro hmem
      rcases List.mem_append.mp hmem with hmem | hmem
      · exact h.1.closed LF hmem (by decide)
      rcases List.mem_cons.mp hmem with heq | hmem
      · exact absurd heq (by decide)
      · exact h.2.closed LF hmem (by decide)
    · have hkey : key.length < 128 := h.1.short
      have hvalue : value.length < 768 := h.2.short
      show (key ++ 61 :: value).length + 2 ≤ 1000
      rw [List.length_append, List.length_cons]
      omega
  | bad => exact h.elim

theorem PrintedLine.Allowed.line {l : PrintedLine} (h : l.Allowed) :
    LF ∉ l.text ∧ l.text.length + 2 ≤ 1000 := by
  cases l with
  | filler text => exact ⟨h.newline, by have := h.short; show text.length + 2 ≤ 1000; omega⟩
  | said c => exact h.1.line

/-- Every line of the file is read at once. -/
theorem fgetsLines_fileText (ferror : Bool) {lines : List PrintedLine}
    (h : ∀ l ∈ lines, l.Allowed) :
    fgetsLines ferror [] (fileText lines) = lines.map fun l => l.text ++ [LF] := by
  induction lines with
  | nil => rfl
  | cons l lines ih =>
    obtain ⟨hLF, hlen⟩ := (h l List.mem_cons_self).line
    have hroom : ([] : CString).length + l.text.length + 1 < MAX_CONFIG_LINE := by
      show 0 + l.text.length + 1 < 1024
      omega
    have htext : fileText (l :: lines) = l.text ++ LF :: fileText lines := by
      rw [fileText, List.flatMap_cons, List.append_assoc]
      rfl
    rw [htext, fgetsLines_line hLF hroom, ih fun l' hl' => h l' (List.mem_cons_of_mem l hl')]
    rfl

/-! ## What the lines say -/

/-- A filler is the end of a line, also if the string ends at a NUL in the
comment. -/
theorem IsFiller.isEnd {text : CString} (h : IsFiller text) :
    IsEnd (unblanked (cutNul (text ++ [LF]))) := by
  have hcomment : ∀ {c : CChar}, c = 35 ∨ c = 59 → c ∈ cstr "#;\n" := by
    rintro c (rfl | rfl)
    · decide
    · decide
  have hhead := h.comment
  by_cases hnul : 0 ∈ text
  · obtain ⟨rest, htext, hnot⟩ := cutNul_append text hnul
    have hcut : cutNul (text ++ [LF]) = cutNul text := by
      have happend := congrArg (· ++ [LF]) htext
      simp only [List.append_assoc, List.cons_append] at happend
      rw [happend, cutNul_append_nul, cutNul_eq_self hnot]
    rw [htext, unblanked_append, unblanked_cons rfl] at hhead
    rw [hcut]
    cases hfront : unblanked (cutNul text) with
    | nil =>
      rw [hfront] at hhead
      rcases hhead 0 rfl with h0 | h0
      · exact absurd h0 (by decide)
      · exact absurd h0 (by decide)
    | cons c front =>
      rw [hfront] at hhead
      exact isEnd_cons.mpr (hcomment (hhead c rfl))
  · have hnul' : 0 ∉ text ++ [LF] := by
      rw [List.mem_append, not_or]
      exact ⟨hnul, by decide⟩
    have hnewline : unblanked [LF] = [LF] := rfl
    rw [cutNul_eq_self hnul', unblanked_append, hnewline]
    cases hfront : unblanked text with
    | nil => exact isEnd_cons.mpr (by decide)
    | cons c front =>
      rw [hfront] at hhead
      exact isEnd_cons.mpr (hcomment (hhead c rfl))

/-- What is said well has no blanks, nor has the newline. -/
theorem IsWord.newline {text : CString} (h : IsWord text) : IsWord (text ++ [LF]) := by
  intro c hc
  rcases List.mem_append.mp hc with hc | hc
  · exact h c hc
  · rw [List.mem_singleton.mp hc]
    decide

theorem IsWord.unblanked {text : CString} (h : IsWord text) : unblanked (cutNul text) = text := by
  rw [cutNul_eq_self fun h0 => (h 0 h0).1 rfl, unblanked_eq_self fun c hc => (h c hc).2]

theorem PrintedLine.Allowed.said_eq {l : PrintedLine} (h : l.Allowed) :
    Config.said (l.text ++ [LF]) = l.said?.getD .nothing := by
  cases l with
  | filler text => exact content_text (c := .nothing) trivial h.isEnd
  | said c =>
    show content (Config.unblanked (cutNul (c.text ++ [LF]))) = c
    rw [h.2.newline.unblanked]
    exact content_text h.1 (isEnd_cons.mpr (by decide))

/-- A line is loaded, also behind comments with blanks. -/
theorem PrintedLine.Allowed.load {l : PrintedLine} (h : l.Allowed) {line : LineBuf}
    (hbelow : line.BlanksBelow 500) : ∃ line', line.load (l.text ++ [LF]) = .ok line' ∧
      content line'.string = Config.said (l.text ++ [LF]) ∧ line'.BlanksBelow 500 := by
  have hread : (l.text ++ [LF]).length < MAX_CONFIG_LINE := by
    have hlen := h.line.2
    rw [List.length_append, List.length_singleton]
    show _ < 1024
    omega
  have hblanks : (∀ c ∈ (l.text ++ [LF]).drop 500, isBlank c = false) ∧
      ((cutNul (l.text ++ [LF])).length + 500 ≤ MAX_CONFIG_LINE ∨
        ∀ c ∈ l.text ++ [LF], isBlank c = false) := by
    cases l with
    | filler text =>
      have hshort : (text ++ [LF]).length ≤ 500 := by
        have hlen := h.short
        rw [List.length_append, List.length_singleton]
        omega
      have hle : (cutNul (text ++ [LF])).length ≤ (text ++ [LF]).length :=
        (List.takeWhile_sublist _).length_le
      constructor
      · show ∀ c ∈ (text ++ [LF]).drop 500, isBlank c = false
        rw [List.drop_of_length_le hshort]
        exact fun c hc => (List.not_mem_nil hc).elim
      · left
        show (cutNul (text ++ [LF])).length + 500 ≤ 1024
        omega
    | said c =>
      have hword := h.2.newline
      exact ⟨fun d hd => (hword d (List.mem_of_mem_drop hd)).2, .inr fun d hd => (hword d hd).2⟩
  obtain ⟨line', hload, hstring, hbelow'⟩ := LineBuf.load_below hbelow hread hblanks.1 hblanks.2
  refine ⟨line', hload, ?_, hbelow'⟩
  rw [hstring]
  rfl

/-- A turn for a printed line adds what it says. -/
theorem scanTurn_printed {UtilHash : CString → UInt32} : Foretold (scanTurn UtilHash)
    (fun s => s.line.BlanksBelow 500 ∧ s.Valid UtilHash)
    (fun read => ∃ l : PrintedLine, l.Allowed ∧ read = l.text ++ [LF])
    (fun _ => (none : Option StopKind)) Stop.kind ScanState.settings
    (fun settings read => settings.add (said read)) where
  stops := by
    intro s read k hs hread hstop
    cases hstop
  goes := by
    rintro s _ ⟨hbelow, hvalid⟩ ⟨l, hl, rfl⟩ -
    obtain ⟨line', hload, hcontent, hbelow'⟩ := hl.load hbelow
    have hc : content line'.string ≠ .bad := by
      rw [hcontent, hl.said_eq]
      cases l with
      | filler text => exact Content.noConfusion
      | said c =>
        rintro rfl
        exact hl.1
    obtain ⟨s', hturn, hline, -, hsettings, hvalid'⟩ := scanTurn_says hvalid hload hc
    exact ⟨s', hturn, ⟨hline ▸ hbelow', hvalid'⟩, by rw [hsettings, hcontent]⟩

/-- The lines add what was printed. -/
theorem addLines_printed {lines : List PrintedLine} (h : ∀ l ∈ lines, l.Allowed)
    (settings : Settings) : addLines settings (lines.map fun l => l.text ++ [LF]) =
      (lines.filterMap PrintedLine.said?).foldl Settings.add settings := by
  induction lines generalizing settings with
  | nil => rfl
  | cons l lines ih =>
    rw [List.map_cons, addLines_cons, (h l List.mem_cons_self).said_eq,
      ih fun l' hl' => h l' (List.mem_cons_of_mem l hl')]
    cases l with
    | filler text => rfl
    | said c => rfl

/-! ## Settings are read back -/

/-- The lines of a section add it to the settings. -/
theorem foldl_contents (settings : Settings) (sec : Section) :
    sec.contents.foldl Settings.add settings = settings ++ [sec] := by
  have hpairs : ∀ (pairs : List (CString × CString)) (last : Section),
      (pairs.map fun pair => Content.pair pair.1 pair.2).foldl Settings.add (settings ++ [last]) =
        settings ++ [⟨last.name, last.pairs ++ pairs⟩] := by
    intro pairs
    induction pairs with
    | nil =>
      intro last
      rw [List.append_nil]
      rfl
    | cons pair pairs ih =>
      intro last
      rw [List.map_cons, List.foldl_cons, Settings.add_pair, ih]
      show settings ++ [⟨last.name, last.pairs ++ [pair] ++ pairs⟩] = _
      rw [List.append_assoc]
      rfl
  exact hpairs sec.pairs ⟨sec.name, []⟩

theorem foldl_flatMap_contents (settings secs : Settings) :
    (secs.flatMap Section.contents).foldl Settings.add settings = settings ++ secs := by
  induction secs generalizing settings with
  | nil => exact (List.append_nil settings).symm
  | cons sec secs ih =>
    rw [List.flatMap_cons, List.foldl_append, foldl_contents, ih, List.append_assoc]
    rfl

/-- What a section is printed with can be given to the scan. -/
theorem Section.Printable.contents {sec : Section} (h : sec.Printable) :
    ∀ c ∈ sec.contents, c.WellFormed ∧ IsWord c.text := by
  intro c hc
  rcases List.mem_cons.mp hc with rfl | hc
  · refine ⟨h.name.1, ?_⟩
    intro d hd
    rcases List.mem_cons.mp hd with rfl | hd
    · decide
    rcases List.mem_append.mp hd with hd | hd
    · exact h.name.2 d hd
    · rw [List.mem_singleton.mp hd]
      decide
  · obtain ⟨pair, hpair, rfl⟩ := List.mem_map.mp hc
    refine ⟨⟨(h.keys pair hpair).1, (h.values pair hpair).1⟩, ?_⟩
    intro d hd
    rcases List.mem_append.mp hd with hd | hd
    · exact (h.keys pair hpair).2 d hd
    rcases List.mem_cons.mp hd with rfl | hd
    · decide
    · exact (h.values pair hpair).2 d hd

/-- **Printed settings are read back**, whatever empty lines and comments
are between their lines. -/
theorem ConfReadScan_roundTrip (UtilHash : CString → UInt32) {secs : Settings}
    {lines : List PrintedLine} (hsecs : ∀ sec ∈ secs, sec.Printable)
    (hfillers : ∀ text, .filler text ∈ lines → IsFiller text)
    (hlines : lines.filterMap PrintedLine.said? = secs.flatMap Section.contents) : ∃ ce,
    ConfReadScan UtilHash (.text (fileText lines) false) = .ok (.config ce) ∧
      ce.settings = secs ∧
      ce.sections.map SectionEntry.entry_count = secs.map (fun sec => sec.pairs.length) ∧
      ∀ name key, ConfReadValueBySectKey UtilHash ce name key = .ok (secs.lookup name key) := by
  have hallowed : ∀ l ∈ lines, l.Allowed := by
    intro l hl
    cases l with
    | filler text => exact hfillers text hl
    | said c =>
      have hc : c ∈ secs.flatMap Section.contents := by
        rw [← hlines]
        exact List.mem_filterMap.mpr ⟨.said c, hl, rfl⟩
      obtain ⟨sec, hsec, hc⟩ := List.mem_flatMap.mp hc
      exact (hsecs sec hsec).contents c hc
  have hreads : ∀ read ∈ lines.map (fun l => l.text ++ [LF]),
      ∃ l : PrintedLine, l.Allowed ∧ read = l.text ++ [LF] := by
    intro read hread
    obtain ⟨l, hl, rfl⟩ := List.mem_map.mp hread
    exact ⟨l, hallowed l hl, rfl⟩
  have hinitial : ScanState.initial.line.BlanksBelow 500 ∧ ScanState.initial.Valid UtilHash :=
    ⟨fun c hc => LineBuf.zero_blanksBelow c (List.mem_of_mem_drop hc), ScanState.initial_valid⟩
  obtain ⟨s, hscan, -, hadded⟩ := scanTurn_printed.run_goes hreads
    (firstStop_eq_none.mpr fun _ _ => rfl) hinitial
  rw [← fgetsLines_fileText false hallowed] at hscan
  have hsettings : s.settings = secs := by
    rw [hadded]
    show addLines [] (lines.map fun l => l.text ++ [LF]) = secs
    rw [addLines_printed hallowed, hlines, foldl_flatMap_contents]
    rfl
  have hconfig := ConfReadScan_ok hscan
  have hvalid := ConfReadScan_valid hconfig
  have hsecs' : ConfigEntry.settings ⟨CE_MAGIC, s.sections⟩ = secs := hsettings
  refine ⟨_, hconfig, hsecs', ?_, ?_⟩
  · rw [← hsecs', ConfigEntry.settings, List.map_map]
    apply List.map_congr_left
    intro se hse
    rw [(hvalid.sections se hse).entry_count]
    exact (List.length_map _).symm
  · intro name key
    rw [ConfReadValueBySectKey_eq hvalid, hsecs']

def sampleSettings : Settings := [⟨cstr "a", [(cstr "k", cstr "1")]⟩]

def sampleLines : List PrintedLine :=
  [.filler (cstr "# acl"), .said (.sect (cstr "a")), .filler [],
    .said (.pair (cstr "k") (cstr "1"))]

theorem ConfReadScan_roundTrip_sample : ∃ ce,
    ConfReadScan (fun _ => 0) (.text (fileText sampleLines) false) = .ok (.config ce) ∧
      ce.settings = sampleSettings ∧
      ce.sections.map SectionEntry.entry_count = [1] ∧
      ∀ name key, ConfReadValueBySectKey (fun _ => 0) ce name key =
        .ok (sampleSettings.lookup name key) := by
  have hword : ∀ {c : CChar}, c ≠ 0 ∧ isBlank c = false → IsWord [c] :=
    fun h => List.forall_mem_singleton.mpr h
  have hclosed : ∀ {c : CChar} {stopchrs : CString}, c ∉ stopchrs → ∀ d ∈ [c], d ∉ stopchrs :=
    fun h => List.forall_mem_singleton.mpr h
  have hsecs : ∀ sec ∈ sampleSettings, sec.Printable := by
    intro sec hsec
    rw [List.mem_singleton.mp hsec]
    refine ⟨⟨⟨by decide, hclosed (by decide)⟩, hword (by decide)⟩, ?_, ?_⟩
    · intro pair hpair
      rw [List.mem_singleton.mp hpair]
      exact ⟨⟨by decide, by decide, hclosed (by decide)⟩, hword (by decide)⟩
    · intro pair hpair
      rw [List.mem_singleton.mp hpair]
      exact ⟨⟨by decide, hclosed (by decide)⟩, hword (by decide)⟩
  have hfillers : ∀ text, .filler text ∈ sampleLines → IsFiller text := by
    intro text htext
    simp only [sampleLines, List.mem_cons, PrintedLine.filler.injEq, reduceCtorEq,
      List.not_mem_nil, or_false, false_or] at htext
    rcases htext with rfl | rfl
    · refine ⟨by decide, by decide, ?_⟩
      rintro c ⟨⟩
      exact .inl rfl
    · refine ⟨by decide, by decide, ?_⟩
      rintro c ⟨⟩
  exact ConfReadScan_roundTrip (fun _ => 0) hsecs hfillers rfl

end XplEvent.Config
