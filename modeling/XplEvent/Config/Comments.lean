import XplEvent.Config.Reading

/-!
# Comments

A line that starts with `#` or `;` should be as good as an empty one. The
scanner does not see lines, but what `fgets` reads at once: a comment that
is too long for the buffer is read in pieces, and a piece behind the first
one is scanned as a line of its own. `comment_inert_iff` says when the
comment is inert nevertheless; one that is read at once is, if it finds room
in the buffer with its blanks (`comment_atOnce`).

Line numbers are not compared: the pieces are counted as lines. Both scans
have to return: a line that is too wide for the buffer is read behind its
end.
-/

namespace XplEvent.Config

open Lib (firstStop firstStop_append firstStop_eq_none)

/-- A text, cut at a line that is a comment. -/
structure CommentLine (before comment after : CString) : Prop where
  whole : WholeLines before
  head : ∃ c ∈ comment.head?, c = 35 ∨ c = 59
  newline : LF ∉ comment
  next : after = [] ∨ ∃ rest, after = LF :: rest
  text : 0 ∉ before ++ comment ++ after

/-- What is read of the comment, with its newline. -/
def pieces (ferror : Bool) (comment after : CString) : List CString :=
  fgetsLines ferror [] (comment ++ after.take 1)

/-- What is read behind it. -/
def behind (ferror : Bool) (after : CString) : List CString := fgetsLines ferror [] after.tail

def NoSection (reads : List CString) : Prop := ∀ read ∈ reads, ∀ name, said read ≠ .sect name

/-- The pieces add nothing to what was read before: they say nothing, or
there is no section that their pairs could be put in. -/
def Silent (before pieces : List CString) : Prop :=
  (∀ piece ∈ pieces, said piece = .nothing) ∨ NoSection (before ++ pieces)

/-- The comment is as good as an empty line: an earlier line is a syntax
error, or none stops the scan; then either no piece does, and a later line is
a syntax error, or none stops the scan and the pieces are silent or nothing
is returned anyway; or the first piece that stops it is a syntax error, and
so is the first later line that would. -/
def Inert (ferror : Bool) (before pieces behind : List CString) : Prop :=
  firstStop stopOf before = some .syntaxError ∨ firstStop stopOf before = none ∧
    ((firstStop stopOf pieces = none ∧ (firstStop stopOf behind = some .syntaxError ∨
        firstStop stopOf behind = none ∧ (ferror = true ∨ Silent before pieces))) ∨
      (firstStop stopOf pieces = some .syntaxError ∧
        firstStop stopOf behind = some .syntaxError))

/-- Both are read, and as the same. -/
def ReadAlike (first second : Except Fault Reading) : Prop :=
  ∃ reading, first = .ok reading ∧ second = .ok reading

/-! ## What is added is seen -/

/-- The sections and pairs of the settings. -/
def Settings.weight : Settings → Nat
  | [] => 0
  | sec :: settings => sec.pairs.length + 1 + weight settings

/-- The number of things that a line says. -/
def Content.weight : Content → Nat
  | .nothing => 0
  | .sect _ => 1
  | .pair _ _ => 1
  | .bad => 0

def linesWeight : List CString → Nat
  | [] => 0
  | read :: reads => (said read).weight + linesWeight reads

theorem Settings.weight_append (first second : Settings) :
    Settings.weight (first ++ second) = first.weight + second.weight := by
  induction first with
  | nil => exact (Nat.zero_add _).symm
  | cons sec first ih =>
    rw [List.cons_append, weight, weight, ih]
    omega

theorem Settings.add_eq_nil {settings : Settings} {c : Content} :
    settings.add c = [] ↔ settings = [] ∧ ∀ name, c ≠ .sect name := by
  cases c with
  | nothing => exact ⟨fun h => ⟨h, fun _ => Content.noConfusion⟩, And.left⟩
  | bad => exact ⟨fun h => ⟨h, fun _ => Content.noConfusion⟩, And.left⟩
  | sect name =>
    constructor
    · intro h
      cases (List.append_eq_nil_iff.mp h).2
    · exact fun h => (h.2 name rfl).elim
  | pair key value =>
    constructor
    · intro h
      refine ⟨?_, fun _ => Content.noConfusion⟩
      obtain ⟨-, hlast⟩ := List.append_eq_nil_iff.mp h
      rw [Option.toList_eq_nil_iff, Option.map_eq_none_iff] at hlast
      exact List.getLast?_eq_none_iff.mp hlast
    · rintro ⟨rfl, -⟩
      rfl

/-- Everything that is said is added, if there is a section. -/
theorem Settings.weight_add {settings : Settings} (h : settings ≠ []) (c : Content) :
    (settings.add c).weight = settings.weight + c.weight := by
  cases c with
  | nothing => rfl
  | bad => rfl
  | sect name =>
    exact Settings.weight_append settings [⟨name, []⟩]
  | pair key value =>
    obtain ⟨front, sec, rfl⟩ : ∃ front sec, settings = front ++ [sec] :=
      ⟨_, _, (List.dropLast_concat_getLast h).symm⟩
    have hpairs : (sec.addPair key value).pairs.length = sec.pairs.length + 1 := by
      show (sec.pairs ++ [_]).length = _
      rw [List.length_append, List.length_singleton]
    have hsingle : ∀ sec : Section, Settings.weight [sec] = sec.pairs.length + 1 := fun _ => rfl
    rw [Settings.add_pair, weight_append, weight_append, hsingle, hsingle, hpairs, Content.weight]
    omega

theorem Settings.weight_add_le (settings : Settings) (c : Content) :
    (settings.add c).weight ≤ settings.weight + c.weight := by
  by_cases h : settings = []
  · subst h
    cases c with
    | nothing => exact Nat.le_refl 0
    | bad => exact Nat.le_refl 0
    | sect name => exact Nat.le_refl 1
    | pair key value => exact Nat.zero_le 1
  · exact Nat.le_of_eq (weight_add h c)

theorem Settings.add_weightless {c : Content} (h : c.weight = 0) (settings : Settings) :
    settings.add c = settings := by
  cases c with
  | nothing => rfl
  | bad => rfl
  | sect name => cases h
  | pair key value => cases h

theorem addLines_eq_nil {settings : Settings} {reads : List CString} :
    addLines settings reads = [] ↔ settings = [] ∧ NoSection reads := by
  induction reads generalizing settings with
  | nil => exact ⟨fun h => ⟨h, fun _ hread => (List.not_mem_nil hread).elim⟩, And.left⟩
  | cons read reads ih =>
    rw [addLines_cons, ih, Settings.add_eq_nil]
    unfold NoSection
    rw [List.forall_mem_cons, and_assoc]

theorem weight_addLines {settings : Settings} (h : settings ≠ []) (reads : List CString) :
    (addLines settings reads).weight = settings.weight + linesWeight reads := by
  induction reads generalizing settings with
  | nil => rfl
  | cons read reads ih =>
    have hadd : settings.add (said read) ≠ [] := fun hnil => h (Settings.add_eq_nil.mp hnil).1
    rw [addLines_cons, ih hadd, Settings.weight_add h, linesWeight, Nat.add_assoc]

theorem weight_addLines_le (settings : Settings) (reads : List CString) :
    (addLines settings reads).weight ≤ settings.weight + linesWeight reads := by
  induction reads generalizing settings with
  | nil => exact Nat.le_refl _
  | cons read reads ih =>
    have hadd := Settings.weight_add_le settings (said read)
    have hrest := ih (settings.add (said read))
    rw [addLines_cons, linesWeight]
    omega

theorem weight_pos {settings : Settings} (h : settings ≠ []) : 0 < settings.weight := by
  cases settings with
  | nil => exact (h rfl).elim
  | cons sec settings =>
    rw [Settings.weight]
    omega

theorem addLines_weightless {reads : List CString} (h : linesWeight reads = 0)
    (settings : Settings) : addLines settings reads = settings := by
  induction reads with
  | nil => rfl
  | cons read reads ih =>
    rw [linesWeight] at h
    rw [addLines_cons, Settings.add_weightless (by omega)]
    exact ih (by omega)

/-- What lines add is not made up for by the lines behind them. -/
theorem addLines_cancel {settings : Settings} {first second : List CString} :
    addLines (addLines settings first) second = addLines settings second ↔
      addLines settings first = settings := by
  constructor
  · intro heq
    by_cases h : settings = []
    · subst h
      by_cases hfirst : addLines [] first = []
      · exact hfirst
      · have hweight := congrArg Settings.weight heq
        have hle := weight_addLines_le [] second
        have hnil : Settings.weight [] = 0 := rfl
        have hpos := weight_pos hfirst
        rw [weight_addLines hfirst] at hweight
        omega
    · have hfirst : addLines settings first ≠ [] := fun hnil => h (addLines_eq_nil.mp hnil).1
      have hweight := congrArg Settings.weight heq
      rw [weight_addLines hfirst, weight_addLines h, weight_addLines h] at hweight
      exact addLines_weightless (by omega) settings
  · intro heq
    rw [heq]

/-- Lines have no weight if they say nothing. -/
theorem linesWeight_eq_zero {reads : List CString} (hgood : ∀ read ∈ reads, said read ≠ .bad) :
    linesWeight reads = 0 ↔ ∀ read ∈ reads, said read = .nothing := by
  have hweight : ∀ {c : Content}, c ≠ .bad → (c.weight = 0 ↔ c = .nothing) := by
    intro c hc
    cases c with
    | nothing => exact iff_of_true rfl rfl
    | sect name => exact iff_of_false Nat.one_ne_zero Content.noConfusion
    | pair key value => exact iff_of_false Nat.one_ne_zero Content.noConfusion
    | bad => exact (hc rfl).elim
  induction reads with
  | nil => exact ⟨fun _ _ hread => (List.not_mem_nil hread).elim, fun _ => rfl⟩
  | cons read reads ih =>
    rw [List.forall_mem_cons] at hgood ⊢
    rw [linesWeight, Nat.add_eq_zero_iff]
    exact and_congr (hweight hgood.1) (ih hgood.2)

/-- Lines without a bad one are silent exactly if they add nothing. -/
theorem addLines_eq_iff {before pieces : List CString}
    (hgood : ∀ piece ∈ pieces, said piece ≠ .bad) :
    addLines (addLines [] before) pieces = addLines [] before ↔ Silent before pieces := by
  have hsection : addLines [] (before ++ pieces) = [] ↔ NoSection (before ++ pieces) := by
    rw [addLines_eq_nil]
    exact and_iff_right rfl
  rw [addLines_append] at hsection
  constructor
  · intro heq
    by_cases hbefore : addLines [] before = []
    · exact .inr (hsection.mp (heq.trans hbefore))
    · have hweight := congrArg Settings.weight heq
      rw [weight_addLines hbefore] at hweight
      exact .inl ((linesWeight_eq_zero hgood).mp (by omega))
  · rintro (hnothing | hnone)
    · exact addLines_weightless ((linesWeight_eq_zero hgood).mpr hnothing) _
    · have hnil := hsection.mpr hnone
      rw [hnil, (addLines_eq_nil.mp hnil).1]

/-! ## Lines put in between -/

theorem StopKind.result_eq_ok {k : StopKind} {reading : Reading} :
    k.result = .ok reading ↔ k = .syntaxError ∧ reading = .syntaxError := by
  cases k with
  | fault f => simp [StopKind.result]
  | syntaxError => simp [StopKind.result, eq_comm]

/-- A scan that ends is no syntax error. -/
theorem ended_ne_syntaxError (ferror : Bool) (settings : Settings) :
    (if ferror then .failed else .settings settings) ≠ Reading.syntaxError := by
  cases ferror with
  | true => exact Reading.noConfusion
  | false => exact Reading.noConfusion

/-- What the lines are read as, if none stops the scan. -/
theorem readLines_insert_goes (ferror : Bool) {before pieces behind : List CString}
    (hbefore : firstStop stopOf before = none) (hpieces : firstStop stopOf pieces = none)
    (hbehind : firstStop stopOf behind = none) :
    readLines ferror (before ++ pieces ++ behind) = readLines ferror (before ++ behind) ↔
      ferror = true ∨ Silent before pieces := by
  have hwith : firstStop stopOf (before ++ pieces ++ behind) = none := by
    rw [firstStop_append, firstStop_append, hbefore, hpieces, hbehind]
    rfl
  have hwithout : firstStop stopOf (before ++ behind) = none := by
    rw [firstStop_append, hbefore, hbehind]
    rfl
  have hgood : ∀ piece ∈ pieces, said piece ≠ .bad := fun piece hpiece =>
    (stopOf_eq_none.mp (firstStop_eq_none.mp hpieces piece hpiece)).2
  have hsettings : addLines [] (before ++ pieces ++ behind) = addLines [] (before ++ behind) ↔
      Silent before pieces := by
    rw [addLines_append, addLines_append, addLines_append, addLines_cancel, addLines_eq_iff hgood]
  rw [readLines_goes hwith, readLines_goes hwithout, ← hsettings]
  cases ferror with
  | true => exact iff_of_true rfl (.inl rfl)
  | false =>
    constructor
    · intro heq
      exact .inr (Reading.settings.inj (Except.ok.inj heq))
    · rintro (hfalse | heq)
      · cases hfalse
      · rw [heq]

/-- A scan that is stopped is read as another that is. -/
theorem readAlike_stops {j k : StopKind} :
    ReadAlike j.result k.result ↔ j = .syntaxError ∧ k = .syntaxError := by
  constructor
  · rintro ⟨reading, hj, hk⟩
    exact ⟨(StopKind.result_eq_ok.mp hj).1, (StopKind.result_eq_ok.mp hk).1⟩
  · rintro ⟨rfl, rfl⟩
    exact ⟨.syntaxError, rfl, rfl⟩

/-- **Lines between others are inert exactly if** what they say is not seen:
the first line that stops the scan is a syntax error with them and without
them, or there is none, and they add nothing. -/
theorem readLines_insert_iff (ferror : Bool) (before pieces behind : List CString) :
    ReadAlike (readLines ferror (before ++ pieces ++ behind))
        (readLines ferror (before ++ behind)) ↔ Inert ferror before pieces behind := by
  have hwith : firstStop stopOf (before ++ pieces ++ behind) = ((firstStop stopOf before).or
      (firstStop stopOf pieces)).or (firstStop stopOf behind) := by
    rw [firstStop_append, firstStop_append]
  have hwithout := @firstStop_append _ _ stopOf before behind
  unfold Inert
  cases hbefore : firstStop stopOf before with
  | some k =>
    rw [hbefore] at hwith hwithout
    rw [readLines_stops hwith, readLines_stops hwithout, readAlike_stops]
    simp
  | none =>
    rw [hbefore] at hwith hwithout
    cases hpieces : firstStop stopOf pieces with
    | none =>
      rw [hpieces] at hwith
      cases hbehind : firstStop stopOf behind with
      | none =>
        -- nothing stops the scan, and the settings are compared
        have hsame := readLines_insert_goes ferror hbefore hpieces hbehind
        simp only [reduceCtorEq, false_or, true_and, and_false, or_false, ← hsame]
        constructor
        · rintro ⟨reading, hfirst, hsecond⟩
          exact hfirst.trans hsecond.symm
        · intro heq
          rw [hbehind] at hwithout
          rw [heq]
          exact ⟨_, readLines_goes hwithout ferror, readLines_goes hwithout ferror⟩
      | some k =>
        rw [hbehind] at hwith hwithout
        rw [readLines_stops hwith, readLines_stops hwithout, readAlike_stops]
        simp
    | some j =>
      rw [hpieces] at hwith
      rw [readLines_stops hwith]
      cases hbehind : firstStop stopOf behind with
      | none =>
        rw [hbehind] at hwithout
        rw [readLines_goes hwithout]
        refine iff_of_false ?_ (by simp)
        rintro ⟨reading, hstop, hend⟩
        obtain ⟨-, rfl⟩ := StopKind.result_eq_ok.mp hstop
        exact ended_ne_syntaxError ferror _ (Except.ok.inj hend)
      | some k =>
        rw [hbehind] at hwithout
        rw [readLines_stops hwithout, readAlike_stops]
        simp

/-! ## Comments -/

/-- A comment says nothing. -/
theorem said_comment {read : CString} (h : ∃ c ∈ read.head?, c = 35 ∨ c = 59) :
    said read = .nothing := by
  obtain ⟨c, hc, hcomment⟩ := h
  obtain ⟨rest, rfl⟩ := List.head?_eq_some_iff.mp hc
  have hend : ∀ {d : CChar}, d = 35 ∨ d = 59 → IsEnd (unblanked (cutNul (d :: rest))) := by
    rintro d (rfl | rfl)
    · rw [cutNul_cons (by decide), unblanked_cons rfl]
      exact isEnd_cons.mpr (by decide)
    · rw [cutNul_cons (by decide), unblanked_cons rfl]
      exact isEnd_cons.mpr (by decide)
  exact content_text (c := .nothing) trivial (hend hcomment)

/-- What is read of the text: the comment is in pieces. -/
theorem CommentLine.reads {before comment after : CString} (h : CommentLine before comment after)
    (ferror : Bool) : fgetsLines ferror [] (before ++ comment ++ after) =
      fgetsLines ferror [] before ++ pieces ferror comment after ++ behind ferror after := by
  rw [List.append_assoc, fgetsLines_whole h.whole, List.append_assoc]
  congr 1
  unfold pieces behind
  rcases h.next with rfl | ⟨rest, rfl⟩
  · rw [List.take_nil, List.append_nil]
    exact (List.append_nil _).symm
  · exact fgetsLines_append [] comment rest

/-- An empty line adds nothing. -/
theorem readLines_empty (ferror : Bool) (before behind : List CString) :
    readLines ferror (before ++ [[LF]] ++ behind) = readLines ferror (before ++ behind) := by
  have hempty : firstStop stopOf [[LF]] = none := by decide
  have hstops : firstStop stopOf (before ++ [[LF]] ++ behind) =
      firstStop stopOf (before ++ behind) := by
    rw [firstStop_append, firstStop_append, firstStop_append, hempty, Option.or_none]
  have hadds : addLines [] (before ++ [[LF]] ++ behind) = addLines [] (before ++ behind) := by
    rw [addLines_append, addLines_append, addLines_append]
    rfl
  unfold readLines
  rw [hstops, hadds]

/-- An empty line is not seen. -/
theorem CommentLine.readLines_emptied {before comment after : CString}
    (h : CommentLine before comment after) (ferror : Bool) :
    readLines ferror (fgetsLines ferror [] (before ++ after)) =
      readLines ferror (fgetsLines ferror [] before ++ behind ferror after) := by
  rw [fgetsLines_whole h.whole]
  rcases h.next with rfl | ⟨rest, rfl⟩
  · rfl
  · have hempty : fgetsLines ferror [] (LF :: rest) = [[LF]] ++ behind ferror (LF :: rest) :=
      fgetsLines_append [] [] rest
    rw [hempty, ← List.append_assoc]
    exact readLines_empty ferror _ _

/-- **A comment is as good as an empty line exactly if** its pieces are
inert where it stands. -/
theorem comment_inert_iff (UtilHash : CString → UInt32) (ferror : Bool)
    {before comment after : CString} (h : CommentLine before comment after) :
    ReadAlike
        ((ConfReadScan UtilHash (.text (before ++ comment ++ after) ferror)).map ScanResult.reading)
        ((ConfReadScan UtilHash (.text (before ++ after) ferror)).map ScanResult.reading) ↔
      Inert ferror (fgetsLines ferror [] before) (pieces ferror comment after)
        (behind ferror after) := by
  have hnul := h.text
  have hnul' : 0 ∉ before ++ after := by
    simp only [List.mem_append, not_or] at hnul ⊢
    exact ⟨hnul.1.1, hnul.2⟩
  rw [ConfReadScan_reading hnul, ConfReadScan_reading hnul', h.readLines_emptied, h.reads]
  exact readLines_insert_iff ferror _ _ _

/-- A comment that is read at once is inert if it finds room with its
blanks, and so do the other lines that are scanned. -/
theorem comment_atOnce {before comment after : CString} (h : CommentLine before comment after)
    (hlen : comment.length + 1 < MAX_CONFIG_LINE) (hfits : FitsLine (comment ++ after.take 1))
    {ferror : Bool} {earlier later : List CString}
    (hreturns : ∀ f, firstStop stopOf (earlier ++ later) ≠ some (.fault f)) :
    Inert ferror earlier (pieces ferror comment after) later := by
  -- the one piece says nothing, and an error may even end it
  have hpieces : ∀ piece ∈ pieces ferror comment after, piece = comment ++ after.take 1 := by
    have hroom : ([] : CString).length + comment.length + 1 < MAX_CONFIG_LINE := by
      show 0 + comment.length + 1 < _
      omega
    unfold pieces
    rcases h.next with rfl | ⟨rest, rfl⟩
    · have hne : ([] : CString) ++ comment ≠ [] := by
        obtain ⟨c, hc, -⟩ := h.head
        rintro rfl
        cases hc
      rw [List.take_nil, List.append_nil, fgetsLines_last h.newline hne hroom]
      cases ferror with
      | false => exact fun piece hpiece => List.mem_singleton.mp hpiece
      | true => exact fun piece hpiece => absurd hpiece List.not_mem_nil
    · rw [show (LF :: rest).take 1 = [LF] from rfl, fgetsLines_line h.newline hroom []]
      exact fun piece hpiece => List.mem_singleton.mp hpiece
  have hsaid : said (comment ++ after.take 1) = .nothing := by
    obtain ⟨c, hc, hcomment⟩ := h.head
    obtain ⟨rest, rfl⟩ := List.head?_eq_some_iff.mp hc
    exact said_comment ⟨c, rfl, hcomment⟩
  have hgoes : firstStop stopOf (pieces ferror comment after) = none := by
    apply firstStop_eq_none.mpr
    intro piece hpiece
    rw [hpieces piece hpiece]
    exact stopOf_eq_none.mpr ⟨hfits, by rw [hsaid]; exact Content.noConfusion⟩
  have hsilent : Silent earlier (pieces ferror comment after) := by
    refine .inl fun piece hpiece => ?_
    rw [hpieces piece hpiece]
    exact hsaid
  rw [firstStop_append] at hreturns
  unfold Inert
  cases hearlier : firstStop stopOf earlier with
  | some k =>
    rw [hearlier] at hreturns
    cases k with
    | fault f => exact (hreturns f rfl).elim
    | syntaxError => exact .inl rfl
  | none =>
    rw [hearlier] at hreturns
    refine .inr ⟨rfl, .inl ⟨hgoes, ?_⟩⟩
    cases hlater : firstStop stopOf later with
    | some k =>
      rw [hlater] at hreturns
      cases k with
      | fault f => exact (hreturns f rfl).elim
      | syntaxError => exact .inl rfl
    | none => exact .inr ⟨rfl, .inr hsilent⟩

theorem comment_inert_short :
    ReadAlike
      ((ConfReadScan (fun _ => 0)
        (.text (cstr "[a]\n" ++ cstr "# x" ++ cstr "\nk=v\n") false)).map ScanResult.reading)
      ((ConfReadScan (fun _ => 0) (.text (cstr "[a]\n" ++ cstr "\nk=v\n") false)).map
        ScanResult.reading) := by
  have hcomment : CommentLine (cstr "[a]\n") (cstr "# x") (cstr "\nk=v\n") :=
    ⟨.inr ⟨cstr "[a]", rfl⟩, ⟨35, rfl, .inl rfl⟩, by decide, .inr ⟨_, rfl⟩, by decide⟩
  exact (comment_inert_iff (fun _ => 0) false hcomment).mpr
    (comment_atOnce hcomment (by decide) (by decide) fun f => by
      rw [show firstStop stopOf _ = none from by decide]
      exact (Option.some_ne_none _).symm)

/-- A comment that fills the buffer. -/
def fullComment : CString := 35 :: List.replicate 1022 120

theorem fullComment_length : fullComment.length = 1023 := by
  rw [fullComment, List.length_cons, List.length_replicate]

theorem mem_fullComment {c : CChar} (h : c ∈ fullComment) : c = 35 ∨ c = 120 := by
  rcases List.mem_cons.mp h with rfl | h
  · exact .inl rfl
  · exact .inr (List.eq_of_mem_replicate h)

theorem fullComment_not_mem {c : CChar} (h35 : c ≠ 35) (h120 : c ≠ 120) : c ∉ fullComment := by
  intro h
  rcases mem_fullComment h with rfl | rfl
  · exact h35 rfl
  · exact h120 rfl

theorem fullComment_stopOf : stopOf fullComment = none := by
  have hblanks : fullComment.countP isBlank = 0 := by
    apply List.countP_eq_zero.mpr
    intro c hc
    rcases mem_fullComment hc with rfl | rfl
    · decide
    · decide
  have hfits : FitsLine fullComment := by
    unfold FitsLine
    rw [fullComment_length, hblanks]
    decide
  have hsaid : said fullComment = .nothing := said_comment ⟨35, rfl, .inl rfl⟩
  exact stopOf_eq_none.mpr ⟨hfits, by rw [hsaid]; exact Content.noConfusion⟩

/-- What stands behind the end of the buffer is read as a section. -/
theorem comment_not_inert : CommentLine [] (fullComment ++ cstr "[x]") [LF] ∧
    ¬ ReadAlike
      ((ConfReadScan (fun _ => 0) (.text ([] ++ (fullComment ++ cstr "[x]") ++ [LF]) false)).map
        ScanResult.reading)
      ((ConfReadScan (fun _ => 0) (.text ([] ++ [LF]) false)).map ScanResult.reading) := by
  have hnot : ∀ c : CChar, c ≠ 35 → c ≠ 120 → c ∉ cstr "[x]" → c ∉ fullComment ++ cstr "[x]" :=
    fun c h35 h120 hrest => by
      rw [List.mem_append, not_or]
      exact ⟨fullComment_not_mem h35 h120, hrest⟩
  have hnul : 0 ∉ [] ++ (fullComment ++ cstr "[x]") ++ [LF] := by
    rw [List.nil_append, List.mem_append, not_or]
    exact ⟨hnot 0 (by decide) (by decide) (by decide), by decide⟩
  have hcomment : CommentLine [] (fullComment ++ cstr "[x]") [LF] :=
    ⟨.inl rfl, ⟨35, rfl, .inl rfl⟩, hnot LF (by decide) (by decide) (by decide), .inr ⟨[], rfl⟩,
      hnul⟩
  have hpieces : fgetsLines false [] ([] ++ (fullComment ++ cstr "[x]") ++ [LF]) =
      [fullComment, cstr "[x]\n"] := by
    have hfull : ([] : CString).length + fullComment.length + 1 = MAX_CONFIG_LINE := by
      rw [fullComment_length]
      rfl
    rw [List.nil_append, List.append_assoc, fgetsLines_full
      (fullComment_not_mem (by decide) (by decide)) (List.cons_ne_nil _ _) hfull]
    rfl
  have hstop : firstStop stopOf [fullComment, cstr "[x]\n"] = none := by
    apply firstStop_eq_none.mpr
    intro read hread
    rcases List.mem_cons.mp hread with rfl | hread
    · exact fullComment_stopOf
    · rw [List.mem_singleton.mp hread]
      decide
  have hadd : addLines [] [fullComment, cstr "[x]\n"] = [⟨cstr "x", []⟩] := by
    rw [addLines_cons, said_comment ⟨35, rfl, .inl rfl⟩]
    decide
  refine ⟨hcomment, ?_⟩
  rw [ConfReadScan_reading hnul, ConfReadScan_reading (by decide), hpieces, readLines_goes hstop,
    hadd]
  rintro ⟨reading, hwith, hwithout⟩
  rw [← hwith] at hwithout
  exact absurd hwithout (by decide)

end XplEvent.Config
