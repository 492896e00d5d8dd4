import Mathlib.Data.List.TakeWhile
import XplEvent.Control.Receive

/-!
# An upload, line by line

`MonitorRecvScript` is given lines until it says that it is done. Here its
record is compared with what the lines say: the name is the one of the
first `sb:` line, the script is made of the `sl:` lines behind that one,
and the receiver is done at the first line that `Ends` the upload and at no
other (`receiveUntil_initial`). A script is at most `sizeLimit` characters
long and always inside its buffer, with its NUL.
-/

namespace XplEvent.Control

open Lib (terminated)

/-- `sb:`. -/
def isStart (line : CString) : Bool := strncmp (cstr "sb:") line 3

/-- What an `sl:` line adds to the script. -/
def payload? (line : CString) : Option CString :=
  if strncmp (cstr "sl:") line 3 then some (line.drop 3) else none

/-- There has been an `sb:` line. -/
def Started (lines : List CString) : Prop := ∃ start ∈ lines, isStart start = true

instance (lines : List CString) : Decidable (Started lines) :=
  inferInstanceAs (Decidable (∃ start ∈ lines, isStart start = true))

/-- The name on the first `sb:` line. -/
def uploadName (lines : List CString) : Option CString :=
  (lines.find? isStart).map (List.drop 3)

/-- The lines of the script: the `sl:` lines behind the first `sb:` line. -/
def uploadText (lines : List CString) : List CString :=
  (lines.dropWhile (!isStart ·)).tail.filterMap payload?

/-- The line finishes an upload. -/
def Finishes (before : List CString) (line : CString) : Prop :=
  3 ≤ line.length ∧ line.length ≤ 258 ∧ strncmp (cstr "se:") line 3 = true ∧ Started before

/-- The line ends an upload, with or without success: it has no length of
a line, it is an `er:` line, or it is behind an `sb:` line and is an `se:`
line or a line of the script that is too much. -/
def Ends (before : List CString) (line : CString) : Prop :=
  line.length < 3 ∨ line.length > 258 ∨ strncmp (cstr "er:") line 3 = true ∨
    (Started before ∧
      (strncmp (cstr "se:") line 3 = true ∨
        ∃ p, payload? line = some p ∧
          (terminated LF (uploadText before)).length + p.length ≥ sizeLimit))

/-- None of the lines ends the upload. -/
def Quiet (lines : List CString) : Prop :=
  ∀ before line after, lines = before ++ line :: after → ¬ Ends before line

/-- The receiver, given lines until it is done: its record, whether it is
done, and the lines it has not been given. -/
def receiveUntil : MonRcvInfo → List CString → Except Fault (MonRcvInfo × Bool × List CString)
  | ri, [] => .ok (ri, false, [])
  | ri, line :: rest => do
    let (ri, done) ← MonitorRecvScript ri line
    if done then return (ri, true, rest) else receiveUntil ri rest

/-- The record holds what the lines say, inside its buffer. -/
structure MonRcvInfo.Kept (ri : MonRcvInfo) (lines : List CString) : Prop where
  name : ri.name = uploadName lines
  holds : ri.Holds (uploadText lines)
  least : ri.scriptLen ≤ sizeLimit

/-- The receiver waits for another line. -/
structure MonRcvInfo.Received (ri : MonRcvInfo) (lines : List CString) : Prop where
  kept : ri.Kept lines
  state : ri.state = if Started lines then .RS_WAIT_LINE else .RS_IDLE

/-! ## What another line says -/

theorem uploadName_concat_of_mem {lines : List CString} (h : Started lines)
    (line : CString) : uploadName (lines ++ [line]) = uploadName lines := by
  obtain ⟨start, hfind⟩ := Option.isSome_iff_exists.mp (List.find?_isSome.mpr h)
  simp [uploadName, List.find?_append, hfind]

theorem uploadName_concat_of_not_mem {lines : List CString} (h : ¬ Started lines)
    (line : CString) :
    uploadName (lines ++ [line]) = if isStart line then some (line.drop 3) else none := by
  have hnone : lines.find? isStart = none := by
    apply List.find?_eq_none.mpr
    intro start hstart hs
    exact h ⟨start, hstart, hs⟩
  rw [uploadName, List.find?_append, hnone, Option.none_or, List.find?_singleton]
  split <;> rfl

theorem uploadText_of_not_mem {lines : List CString} (h : ¬ Started lines) :
    uploadText lines = [] := by
  have hall : lines.dropWhile (!isStart ·) = [] := by
    apply List.dropWhile_eq_nil_iff.mpr
    intro line hline
    simpa using fun hs => h ⟨line, hline, hs⟩
  rw [uploadText, hall]
  rfl

theorem uploadText_concat_of_mem {lines : List CString} (h : Started lines)
    (line : CString) : uploadText (lines ++ [line]) = uploadText lines ++ (payload? line).toList := by
  obtain ⟨start, hstart, hs⟩ := h
  have hne : lines.dropWhile (!isStart ·) ≠ [] := by
    intro hnil
    have hnot := List.dropWhile_eq_nil_iff.mp hnil start hstart
    simp [hs] at hnot
  unfold uploadText
  rw [List.dropWhile_append, if_neg (by simpa using hne), List.tail_append_of_ne_nil hne,
    List.filterMap_append]
  cases hp : payload? line with
  | none => simp [hp]
  | some p => simp [hp]

theorem uploadText_concat_of_not_mem {lines : List CString} (h : ¬ Started lines)
    (line : CString) :
    uploadText (lines ++ [line]) = [] := by
  have hall : lines.dropWhile (!isStart ·) = [] := by
    apply List.dropWhile_eq_nil_iff.mpr
    intro line hline
    simpa using fun hs => h ⟨line, hline, hs⟩
  unfold uploadText
  rw [List.dropWhile_append, hall]
  cases hs : isStart line with
  | true => simp [hs]
  | false => simp [hs]

theorem started_concat (lines : List CString) (line : CString) :
    Started (lines ++ [line]) ↔ Started lines ∨ isStart line = true := by
  simp [Started, or_and_right, exists_or]

/-! ## One line -/

/-- A record with an error keeps what it holds. -/
theorem MonRcvInfo.Kept.fail {ri : MonRcvInfo} {lines : List CString} (h : ri.Kept lines)
    (errMsg : CString) : (ri.fail errMsg).Kept lines :=
  ⟨h.name, h.holds.congr rfl rfl rfl rfl, h.least⟩

/-- A line of the script is kept, or is too much. -/
theorem receiveLine_kept {ri : MonRcvInfo} {before : List CString} (h : ri.Kept before)
    {p : CString} (hp : p.length ≤ 255) :
    if (terminated LF (uploadText before)).length + p.length ≥ sizeLimit then
      ∃ errMsg, receiveLine ri p = .ok (ri.fail errMsg, true)
    else ∃ ri', receiveLine ri p = .ok (ri', false) ∧ SamePlace ri ri' ∧
      ri'.Holds (uploadText before ++ [p]) ∧ ri'.scriptLen ≤ sizeLimit := by
  have hline := receiveLine_eq h.holds hp
  split
  · rename_i hfull
    have hlen : ri.scriptLen = (terminated LF (uploadText before)).length := by
      rw [h.holds.scriptLen, h.holds.script]
    unfold receiveLine
    rw [h.holds.scriptSizeLimit, hlen, if_pos hfull]
    exact ⟨_, rfl⟩
  · rename_i hfull
    rw [if_neg hfull] at hline
    obtain ⟨ri', hri', hplace, hholds⟩ := hline
    refine ⟨ri', hri', hplace, hholds, ?_⟩
    rw [hholds.scriptLen, hholds.script, terminated_concat]
    simp only [List.length_append, List.length_singleton]
    omega

/-- What the line does: it ends the upload, or it is taken in. -/
def Step (before : List CString) (line : CString) (ri' : MonRcvInfo) (done : Bool) : Prop :=
  if done then Ends before line ∧ ri'.Kept before ∧
    (ri'.state = .RS_FINISHED ↔ Finishes before line)
  else ¬ Ends before line ∧ ri'.Received (before ++ [line])

/-- A line before the name. -/
theorem step_idle {ri : MonRcvInfo} {before : List CString} (h : ri.Received before)
    (hs : ¬ Started before) {line : CString} (hlen : ¬ (line.length < 3 ∨ line.length > 258))
    (her : ¬ strncmp (cstr "er:") line 3 = true) :
    ∃ ri' done, MonitorRecvScript ri line = .ok (ri', done) ∧ Step before line ri' done := by
  have hstate := h.state
  rw [if_neg hs] at hstate
  have hnot : ¬ Ends before line := by
    rintro (hl | hl | hl | ⟨hl, -⟩)
    · exact hlen (.inl hl)
    · exact hlen (.inr hl)
    · exact her hl
    · exact hs hl
  have hname := uploadName_concat_of_not_mem hs line
  have htext := uploadText_concat_of_not_mem hs line
  have hholds := h.kept.holds
  rw [uploadText_of_not_mem hs] at hholds
  have hstarted := started_concat before line
  unfold MonitorRecvScript
  rw [if_neg hlen, if_neg her, hstate]
  cases hsb : isStart line with
  | true =>
    refine ⟨_, _, if_pos hsb, hnot, ⟨?_, ?_, h.kept.least⟩, ?_⟩
    · rw [hname, hsb, if_pos rfl]
    · rw [htext]
      exact hholds.congr rfl rfl rfl rfl
    · rw [if_pos (hstarted.mpr (.inr hsb))]
  | false =>
    refine ⟨_, _, if_neg (Bool.eq_false_iff.mp hsb), hnot, ⟨?_, ?_, h.kept.least⟩, ?_⟩
    · have hnone := h.kept.name
      rw [uploadName, List.find?_eq_none.mpr fun l hl hl' => hs ⟨l, hl, hl'⟩] at hnone
      rw [hname, hsb, hnone]
      rfl
    · rw [htext]
      exact hholds
    · rw [hstate, if_neg]
      rw [hstarted, hsb]
      simpa using hs

/-- A line behind the name. -/
theorem step_waiting {ri : MonRcvInfo} {before : List CString} (h : ri.Received before)
    (hs : Started before) {line : CString} (hlen : ¬ (line.length < 3 ∨ line.length > 258))
    (her : ¬ strncmp (cstr "er:") line 3 = true) :
    ∃ ri' done, MonitorRecvScript ri line = .ok (ri', done) ∧ Step before line ri' done := by
  have hstate := h.state
  rw [if_pos hs] at hstate
  have hname := uploadName_concat_of_mem hs line
  have htext := uploadText_concat_of_mem hs line
  have hstarted : Started (before ++ [line]) := (started_concat before line).mpr (.inl hs)
  unfold MonitorRecvScript
  rw [if_neg hlen, if_neg her, hstate]
  by_cases hse : strncmp (cstr "se:") line 3 = true
  · refine ⟨_, _, if_pos hse, .inr (.inr (.inr ⟨hs, .inl hse⟩)), ?_, ?_⟩
    · exact ⟨h.kept.name, h.kept.holds.congr rfl rfl rfl rfl, h.kept.least⟩
    · exact iff_of_true rfl ⟨by omega, by omega, hse, hs⟩
  · -- the upload goes on, unless a line of the script is too much
    have hends : Ends before line ↔ ∃ p, payload? line = some p ∧
        (terminated LF (uploadText before)).length + p.length ≥ sizeLimit := by
      constructor
      · rintro (hl | hl | hl | ⟨-, hl | hl⟩)
        · exact absurd (.inl hl) hlen
        · exact absurd (.inr hl) hlen
        · exact absurd hl her
        · exact absurd hl hse
        · exact hl
      · exact fun hl => .inr (.inr (.inr ⟨hs, .inr hl⟩))
    have hfinishes : ¬ Finishes before line := fun hl => hse hl.2.2.1
    unfold Step
    rw [hends]
    unfold payload? at htext ⊢
    by_cases hsl : strncmp (cstr "sl:") line 3 = true
    · have hp : (line.drop 3).length ≤ 255 := by
        rw [List.length_drop]
        omega
      have hline := receiveLine_kept h.kept hp
      simp only [if_pos hsl, Option.some.injEq, exists_eq_left'] at htext ⊢
      rw [if_neg hse]
      by_cases hfull : (terminated LF (uploadText before)).length + (line.drop 3).length ≥ sizeLimit
      · rw [if_pos hfull] at hline
        obtain ⟨errMsg, hfail⟩ := hline
        refine ⟨_, true, hfail, hfull, h.kept.fail errMsg, ?_⟩
        exact iff_of_false (by simp [MonRcvInfo.fail]) hfinishes
      · rw [if_neg hfull] at hline
        obtain ⟨ri', hri', ⟨hstate', hname'⟩, hholds, hleast⟩ := hline
        refine ⟨ri', false, hri', hfull, ⟨?_, ?_, hleast⟩, ?_⟩
        · rw [hname', h.kept.name, hname]
        · rw [htext]
          exact hholds
        · rw [hstate', hstate, if_pos hstarted]
    · simp only [if_neg hsl] at htext ⊢
      rw [if_neg hse]
      refine ⟨ri, false, rfl, by simp, ⟨?_, ?_, h.kept.least⟩, ?_⟩
      · rw [h.kept.name, hname]
      · rw [htext]
        simpa using h.kept.holds
      · rw [hstate, if_pos hstarted]

/-- **A line ends the upload or is taken in.** -/
theorem MonitorRecvScript_step {ri : MonRcvInfo} {before : List CString} (h : ri.Received before)
    (line : CString) :
    ∃ ri' done, MonitorRecvScript ri line = .ok (ri', done) ∧ Step before line ri' done := by
  by_cases hlen : line.length < 3 ∨ line.length > 258
  · refine ⟨_, true, if_pos hlen, ?_, h.kept.fail _, iff_of_false (by simp [MonRcvInfo.fail]) ?_⟩
    · rcases hlen with hlen | hlen
      · exact .inl hlen
      · exact .inr (.inl hlen)
    · rintro ⟨hl, hl', -⟩
      omega
  by_cases her : strncmp (cstr "er:") line 3 = true
  · refine ⟨_, true, (if_neg hlen).trans (if_pos her), .inr (.inr (.inl her)), h.kept.fail _, ?_⟩
    refine iff_of_false (by simp [MonRcvInfo.fail]) ?_
    rintro ⟨-, -, hse, -⟩
    rw [strncmp_ne her (by decide)] at hse
    cases hse
  by_cases hs : Started before
  · exact step_waiting h hs hlen her
  · exact step_idle h hs hlen her

/-! ## All lines -/

/-- What the receiver makes of the lines of an upload. -/
def Receives (lines : List CString) : Prop :=
  (Quiet lines ∧ ∃ ri, receiveUntil .initial lines = .ok (ri, false, []) ∧ ri.Received lines) ∨
  ∃ before line after, lines = before ++ line :: after ∧ Quiet before ∧ Ends before line ∧
    ∃ ri, receiveUntil .initial lines = .ok (ri, true, after) ∧ ri.Kept before ∧
      (ri.state = .RS_FINISHED ↔ Finishes before line)

theorem initial_received : MonRcvInfo.initial.Received [] := by
  refine ⟨⟨rfl, initial_represents.2, by decide⟩, ?_⟩
  rw [if_neg]
  · rfl
  · simp [Started]

theorem quiet_concat {before : List CString} {line : CString} (h : Quiet before)
    (hline : ¬ Ends before line) : Quiet (before ++ [line]) := by
  intro pre l post heq
  rcases List.eq_nil_or_concat post with rfl | ⟨post, last, rfl⟩
  · obtain ⟨rfl, hlast⟩ := List.append_inj' heq rfl
    cases hlast
    exact hline
  · rw [List.concat_eq_append, ← List.cons_append, ← List.append_assoc] at heq
    obtain ⟨hbefore, -⟩ := List.append_inj' heq rfl
    exact h pre l post hbefore

/-- The lines to come, behind some that have been taken in. -/
theorem receiveUntil_received (rest : List CString) {ri : MonRcvInfo} {taken : List CString}
    (h : ri.Received taken) (hq : Quiet taken) :
    (Quiet (taken ++ rest) ∧
      ∃ ri', receiveUntil ri rest = .ok (ri', false, []) ∧ ri'.Received (taken ++ rest)) ∨
    ∃ before line after, taken ++ rest = before ++ line :: after ∧ Quiet before ∧
      Ends before line ∧ ∃ ri', receiveUntil ri rest = .ok (ri', true, after) ∧ ri'.Kept before ∧
        (ri'.state = .RS_FINISHED ↔ Finishes before line) := by
  induction rest generalizing ri taken with
  | nil =>
    rw [List.append_nil]
    exact .inl ⟨hq, ri, rfl, h⟩
  | cons line rest ih =>
    obtain ⟨ri', done, hline, hstep⟩ := MonitorRecvScript_step h line
    rw [receiveUntil, hline]
    cases done with
    | true =>
      obtain ⟨hends, hkept, hfinished⟩ := hstep
      exact .inr ⟨taken, line, rest, rfl, hq, hends, ri', rfl, hkept, hfinished⟩
    | false =>
      obtain ⟨hnot, hreceived⟩ := hstep
      have hrest := ih hreceived (quiet_concat hq hnot)
      rw [List.append_assoc, List.singleton_append] at hrest
      exact hrest

/-- **An upload is received as it is sent**: the receiver is done at the
first line that ends it, and before that it has the name and the script
that the lines say. -/
theorem receiveUntil_initial (lines : List CString) : Receives lines := by
  have hnone : Quiet [] := by
    intro before line after heq
    simp at heq
  exact receiveUntil_received lines initial_received hnone

end XplEvent.Control
