import XplEvent.Control.Receive
import XplEvent.Control.Send

/-!
# A script over the wire and back

The stream that `MonitorSendScript` writes is cut into lines, and the
lines are given to `MonitorRecvScript` one by one. The script that is
received is the one that was sent if it has no empty line: the sender
takes the lines from `UtilSplitString`, which passes the empty ones over.
A name with a newline in it would be cut as well.
-/

namespace XplEvent.Control

/-- The script gets through: the receiver is done with the last line and
not before, and has the name and the script, character for character. -/
def GetsAcross (name script : CString) : Prop :=
  ∃ stream ri dones, MonitorSendScript script name = .ok stream ∧
    feed MonRcvInfo.initial (Lib.lines LF stream.flatten) = .ok (ri, dones ++ [true]) ∧
    (∀ done ∈ dones, done = false) ∧ ri.state = .RS_FINISHED ∧ ri.name = some name ∧
    ri.script = script

/-! ## What is sent -/

theorem lineKind_start {name : CString} (h : name.length ≤ 255) :
    lineKind (cstr "sb:" ++ name) = .start name := by
  have hlen : (cstr "sb:" ++ name).length = 3 + name.length := List.length_append
  rw [lineKind, if_neg (by omega)]
  rfl

theorem lineKind_text {line : CString} (h : line.length ≤ 255) :
    lineKind (cstr "sl:" ++ line) = .text line := by
  have hlen : (cstr "sl:" ++ line).length = 3 + line.length := List.length_append
  rw [lineKind, if_neg (by omega)]
  rfl

theorem lineKind_finish {name : CString} (h : name.length ≤ 255) :
    lineKind (cstr "se:" ++ name) = .finish := by
  have hlen : (cstr "se:" ++ name).length = 3 + name.length := List.length_append
  rw [lineKind, if_neg (by omega)]
  rfl

/-- The lines of a script that is sent. -/
def sentLines (name : CString) (text : List CString) : List CString :=
  (cstr "sb:" ++ name) :: (text.map (cstr "sl:" ++ ·) ++ [cstr "se:" ++ name])

theorem sentLines_kinds {name : CString} {text : List CString} (hname : name.length ≤ 255)
    (htext : ∀ line ∈ text, line.length ≤ 255) :
    (sentLines name text).map lineKind = .start name :: (text.map .text ++ [.finish]) := by
  have hmap : (text.map (cstr "sl:" ++ ·)).map lineKind = text.map .text := by
    rw [List.map_map]
    apply List.map_congr_left
    intro line hline
    exact lineKind_text (htext line hline)
  rw [sentLines, List.map_cons, List.map_append, List.map_singleton, hmap, lineKind_start hname,
    lineKind_finish hname]

/-- The stream of a script is its name and its lines with newlines, with
the empty lines left out. -/
theorem MonitorSendScript_stream (script name : CString) : ∃ stream,
    MonitorSendScript script name = .ok stream ∧
    stream.flatten = Lib.terminated LF (sentLines name (Lib.words LF script)) := by
  refine ⟨_, by rw [MonitorSendScript, Util.splitString_eq]; rfl, ?_⟩
  generalize Lib.words LF script = text
  have hlines : (text.map (printLine (cstr "sl:"))).flatten =
      Lib.terminated LF (text.map (cstr "sl:" ++ ·)) := by
    rw [Lib.terminated, List.flatMap_map, ← List.flatMap_def]
    rfl
  rw [sentLines, Lib.terminated_cons, Lib.terminated, List.flatMap_append, List.flatten_append,
    List.flatten_append, hlines]
  simp [printLine, Lib.terminated]

/-- A transfer takes its lines and is finished, if the script is not too
large. -/
theorem receiving_feed (name : CString) (text lines : List CString)
    (hsize : (Lib.terminated LF (text ++ lines)).length < sizeLimit) :
    (Transfer.receiving name text).feed (lines.map .text ++ [.finish]) =
      (.finished name (text ++ lines), List.replicate lines.length false ++ [true]) := by
  induction lines generalizing text with
  | nil =>
    rw [List.append_nil]
    rfl
  | cons line lines ih =>
    have hassoc : text ++ line :: lines = (text ++ [line]) ++ lines := by
      rw [List.append_assoc]
      rfl
    have hfits : ¬ (Lib.terminated LF text).length + line.length ≥ sizeLimit := by
      rw [hassoc, Lib.terminated, List.flatMap_append, List.length_append] at hsize
      have hline := congrArg List.length (terminated_concat text line)
      rw [List.length_append, List.length_append, Lib.terminated] at hline
      omega
    have hrest := ih (text ++ [line]) (by rw [← hassoc]; exact hsize)
    rw [List.map_cons, List.cons_append, Transfer.feed]
    simp only [Transfer.receive, if_neg hfits, hrest]
    rw [hassoc]
    rfl

/-- A transfer has got a name. -/
def Transfer.Named (name : CString) : Transfer → Prop
  | .waiting => False
  | .receiving name' _ => name' = name
  | .finished name' _ => name' = name
  | .failed => True

/-- A transfer keeps its name. -/
theorem receive_named {name : CString} {t : Transfer} (h : t.Named name) (kind : LineKind) :
    (t.receive kind).1.Named name := by
  cases t with
  | waiting => exact h.elim
  | receiving name' text =>
    cases kind with
    | text line =>
      simp only [Transfer.receive]
      split
      · trivial
      · exact h
    | malformed => trivial
    | terminate => trivial
    | start name => exact h
    | finish => exact h
    | other => exact h
  | finished name' text =>
    cases kind with
    | malformed => trivial
    | terminate => trivial
    | start name => exact h
    | text line => exact h
    | finish => exact h
    | other => exact h
  | failed =>
    cases kind with
    | malformed => trivial
    | terminate => trivial
    | start name => trivial
    | text line => trivial
    | finish => trivial
    | other => trivial

theorem feed_named {name : CString} {t : Transfer} (h : t.Named name) (kinds : List LineKind) :
    (t.feed kinds).1.Named name := by
  induction kinds generalizing t with
  | nil => exact h
  | cons kind kinds ih => exact ih (receive_named h kind)

/-! ## What is received -/

/-- A name without a newline gets across, and the script with its empty
lines left out. -/
theorem feed_sentLines {name : CString} {text : List CString} (hname : name.length ≤ 255)
    (htext : ∀ line ∈ text, line.length ≤ 255)
    (hsize : (Lib.terminated LF text).length < sizeLimit) :
    ∃ ri, feed MonRcvInfo.initial (sentLines name text) =
        .ok (ri, (false :: List.replicate text.length false) ++ [true]) ∧
      ri.state = .RS_FINISHED ∧ ri.name = some name ∧ ri.script = Lib.terminated LF text := by
  obtain ⟨ri, hfeed, hri⟩ := feed_represents initial_represents (sentLines name text)
  have hrun := receiving_feed name [] text hsize
  rw [List.nil_append] at hrun
  have hend : Transfer.waiting.feed ((sentLines name text).map lineKind) =
      (.finished name text, (false :: List.replicate text.length false) ++ [true]) := by
    rw [sentLines_kinds hname htext, Transfer.feed]
    simp only [Transfer.receive, hrun]
    rfl
  rw [hend] at hfeed hri
  exact ⟨ri, hfeed, hri.1, hri.2.1, hri.2.2.script⟩

/-- A name with a newline is cut at it. -/
theorem feed_cutName {a b : CString} (ha : LF ∉ a) (hlen : a.length ≤ 255) (rest : CString)
    {ri : MonRcvInfo} {dones : List Bool}
    (h : feed MonRcvInfo.initial (Lib.lines LF (cstr "sb:" ++ (a ++ LF :: b) ++ rest)) =
      .ok (ri, dones)) (hfinished : ri.state = .RS_FINISHED) : ri.name = some a := by
  have hprefix : LF ∉ cstr "sb:" ++ a := by
    rw [List.mem_append, not_or]
    exact ⟨by decide, ha⟩
  have hstream : cstr "sb:" ++ (a ++ LF :: b) ++ rest = (cstr "sb:" ++ a) ++ LF :: (b ++ rest) := by
    simp only [List.append_assoc, List.cons_append]
  rw [hstream, Lib.lines_line hprefix] at h
  obtain ⟨ri', hfeed, hri⟩ := feed_represents initial_represents
    ((cstr "sb:" ++ a) :: Lib.lines LF (b ++ rest))
  rw [hfeed] at h
  cases h
  rw [List.map_cons, lineKind_start hlen] at hri
  have hnamed : (Transfer.waiting.feed
      (.start a :: (Lib.lines LF (b ++ rest)).map lineKind)).1.Named a :=
    feed_named (t := .receiving a []) rfl _
  generalize (Transfer.waiting.feed (.start a :: (Lib.lines LF (b ++ rest)).map lineKind)).1 = t
    at hri hnamed
  cases t with
  | waiting => exact hnamed.elim
  | receiving name text =>
    have hwait := hri.1
    rw [hfinished] at hwait
    cases hwait
  | finished name text =>
    cases hnamed
    exact hri.2.1
  | failed =>
    have herror : ri.state = .RS_ERROR := hri
    rw [hfinished] at herror
    cases herror

theorem sentLines_clean {name : CString} {text : List CString} (hname : LF ∉ name)
    (htext : ∀ line ∈ text, LF ∉ line) : ∀ line ∈ sentLines name text, LF ∉ line := by
  have hpre : ∀ p : CString, LF ∉ p → ∀ l : CString, LF ∉ l → LF ∉ p ++ l := by
    intro p hp l hl
    rw [List.mem_append, not_or]
    exact ⟨hp, hl⟩
  intro line hline
  rcases List.mem_cons.mp hline with rfl | hline
  · exact hpre _ (by decide) _ hname
  · rcases List.mem_append.mp hline with hline | hline
    · obtain ⟨l, hl, rfl⟩ := List.mem_map.mp hline
      exact hpre _ (by decide) _ (htext l hl)
    · rw [List.mem_singleton.mp hline]
      exact hpre _ (by decide) _ hname

/-- Leaving lines out makes a text no longer. -/
theorem terminated_filter_length (p : CString → Bool) (text : List CString) :
    (Lib.terminated LF (text.filter p)).length ≤ (Lib.terminated LF text).length := by
  induction text with
  | nil => exact Nat.le_refl _
  | cons line text ih =>
    rw [Lib.terminated_cons, List.length_append, List.length_cons]
    by_cases hp : p line = true
    · rw [List.filter_cons_of_pos hp, Lib.terminated_cons, List.length_append, List.length_cons]
      omega
    · rw [List.filter_cons_of_neg hp]
      omega

/-- What is received of a script whose name has no newline. -/
theorem send_feed {name : CString} {text : List CString} (hname : LF ∉ name)
    (hlen : name.length ≤ 255) (htext : ∀ line ∈ text, LF ∉ line)
    (hlines : ∀ line ∈ text, line.length ≤ 255)
    (hsize : (Lib.terminated LF text).length < sizeLimit) {stream : List CString}
    (hsend : MonitorSendScript (Lib.terminated LF text) name = .ok stream) :
    ∃ ri, feed MonRcvInfo.initial (Lib.lines LF stream.flatten) =
        .ok (ri, (false :: List.replicate (text.filter (· ≠ [])).length false) ++ [true]) ∧
      ri.state = .RS_FINISHED ∧ ri.name = some name ∧
      ri.script = Lib.terminated LF (text.filter (· ≠ [])) := by
  obtain ⟨stream', hsend', hstream⟩ := MonitorSendScript_stream (Lib.terminated LF text) name
  rw [hsend] at hsend'
  cases hsend'
  have hkept : ∀ line ∈ text.filter (· ≠ []), line ∈ text :=
    fun line hline => (List.mem_filter.mp hline).1
  have hclean : ∀ line ∈ text.filter (· ≠ []), LF ∉ line :=
    fun line hline => htext line (hkept line hline)
  rw [hstream, Lib.words_terminated htext, Lib.lines_terminated (sentLines_clean hname hclean)]
  apply feed_sentLines hlen
  · exact fun line hline => hlines line (hkept line hline)
  · exact Nat.lt_of_le_of_lt (terminated_filter_length _ text) hsize

/-- **A script gets across** exactly when its name has no newline and the
script no empty line. -/
theorem getsAcross_iff {name script : CString} (hlen : name.length ≤ 255)
    (hend : script.getLast? = some LF) (hlines : ∀ line ∈ Lib.lines LF script, line.length ≤ 255)
    (hsize : script.length < 65536) :
    GetsAcross name script ↔ LF ∉ name ∧ [] ∉ Lib.lines LF script := by
  obtain ⟨text, htext, -, rfl⟩ := Lib.exists_terminated hend
  rw [Lib.lines_terminated htext] at hlines ⊢
  constructor
  · rintro ⟨stream, ri, dones, hsend, hfeed, -, hfinished, hri, hscript⟩
    have hname : LF ∉ name := by
      intro hmem
      obtain ⟨a, b, rfl, ha⟩ := List.eq_append_cons_of_mem hmem
      obtain ⟨stream', hsend', hstream⟩ :=
        MonitorSendScript_stream (Lib.terminated LF text) (a ++ LF :: b)
      rw [hsend] at hsend'
      cases hsend'
      rw [List.length_append, List.length_cons] at hlen
      rw [hstream, sentLines, Lib.terminated_cons] at hfeed
      have hcut := feed_cutName ha (by omega) _ hfeed hfinished
      rw [hri] at hcut
      have hshort := congrArg List.length (Option.some.inj hcut)
      rw [List.length_append, List.length_cons] at hshort
      omega
    refine ⟨hname, ?_⟩
    obtain ⟨ri', hfeed', -, -, hscript'⟩ := send_feed hname hlen htext hlines hsize hsend
    rw [hfeed'] at hfeed
    obtain ⟨rfl, -⟩ := Prod.mk.inj (Except.ok.inj hfeed)
    rw [hscript'] at hscript
    have hsame := congrArg (Lib.lines LF) hscript
    rw [Lib.lines_terminated htext, Lib.lines_terminated fun line hline =>
      htext line (List.mem_filter.mp hline).1] at hsame
    intro hempty
    rw [← hsame] at hempty
    exact of_decide_eq_true (List.mem_filter.mp hempty).2 rfl
  · rintro ⟨hname, hempty⟩
    obtain ⟨stream, hsend, -⟩ := MonitorSendScript_stream (Lib.terminated LF text) name
    obtain ⟨ri, hfeed, hfinished, hri, hscript⟩ := send_feed hname hlen htext hlines hsize hsend
    have hall : text.filter (· ≠ []) = text := by
      apply List.filter_eq_self.mpr
      intro line hline
      apply decide_eq_true
      rintro rfl
      exact hempty hline
    rw [hall] at hscript
    refine ⟨stream, ri, _, hsend, hfeed, ?_, hfinished, hri, hscript⟩
    intro done hdone
    rcases List.mem_cons.mp hdone with hdone | hdone
    · exact hdone
    · exact List.eq_of_mem_replicate hdone

/-- A script of two lines. -/
def sampleScript : CString := cstr "a\nb\n"

theorem lines_sampleScript : Lib.lines LF sampleScript = [cstr "a", cstr "b"] :=
  Lib.lines_terminated (show ∀ l ∈ [cstr "a", cstr "b"], LF ∉ l by decide)

theorem sampleScript_getsAcross : GetsAcross (cstr "s") sampleScript := by
  refine (getsAcross_iff (by decide) rfl ?_ (by decide)).mpr ⟨by decide, ?_⟩
  · rw [lines_sampleScript]
    decide
  · rw [lines_sampleScript]
    decide

/-- An empty line between two others is lost. -/
theorem emptyLine_lost : ¬ ∀ name script : CString, name ≠ [] → name.length ≤ 255 →
    script.getLast? = some LF → 13 ∉ script → 0 ∉ script →
    (∀ line ∈ Lib.lines LF script, line.length ≤ 255) → script.length < 65536 →
    GetsAcross name script := by
  intro h
  let text := [cstr "a", [], cstr "b"]
  have hlines : Lib.lines LF (Lib.terminated LF text) = text := Lib.lines_terminated (by decide)
  obtain ⟨stream, ri, dones, hsend, hfeed, -, -, -, hscript⟩ := h (cstr "s") (Lib.terminated LF text)
    (by decide) (by decide) rfl (by decide) (by decide) (by rw [hlines]; decide) (by decide)
  obtain ⟨ri', hfeed', -, -, hscript'⟩ :=
    send_feed (by decide) (by decide) (by decide) (by decide) (by decide) hsend
  rw [hfeed'] at hfeed
  obtain ⟨rfl, -⟩ := Prod.mk.inj (Except.ok.inj hfeed)
  rw [hscript'] at hscript
  exact absurd hscript (by decide)

end XplEvent.Control
