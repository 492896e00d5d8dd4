import XplEvent.Base
import XplEvent.Lib.Lines

/-!
# `MonitorRecvScript` — the receiver of a script

A script is sent as lines: `sb:` with its name, `sl:` with each of its
lines, `se:` at its end. The receiver takes one line at a time, keeps the
text in a buffer that it doubles as it fills up, and says when it is done.
The daemon receives uploads with it, the client downloads.

`Transfer` says what the receiver is for: a transfer waits for its name,
collects its lines, and is finished or has failed. The record of the
source represents a transfer, and the buffer is never written outside its
bounds.
-/

namespace XplEvent.Control

/-! ## The receiver -/

/-- `rs_state_t`. -/
inductive RsState
  | RS_IDLE
  | RS_WAIT_LINE
  | RS_FINISHED
  | RS_ERROR
deriving DecidableEq, Repr

/-- `MonRcvInfo_t`. The script is what the buffer holds before its
terminator. -/
structure MonRcvInfo where
  name : Option CString
  script : CString
  errMsg : Option CString
  scriptLen : Nat
  scriptBufSize : Nat
  scriptSizeLimit : Nat
  state : RsState
deriving DecidableEq, Repr

/-- The record as its two users set it up. -/
def MonRcvInfo.initial : MonRcvInfo where
  name := none
  script := []
  errMsg := none
  scriptLen := 0
  scriptBufSize := 2048
  scriptSizeLimit := 65536
  state := .RS_IDLE

/-- `strncmp`, as the test for equality. -/
def strncmp (s1 s2 : CString) (n : Nat) : Bool := s1.take n = s2.take n

/-- The record with an error. -/
def MonRcvInfo.fail (ri : MonRcvInfo) (errMsg : CString) : MonRcvInfo :=
  { ri with errMsg := some errMsg, state := .RS_ERROR }

/-- The buffer is doubled if a line of length `len` may not fit. -/
def MonRcvInfo.grow (ri : MonRcvInfo) (len : Nat) : MonRcvInfo :=
  if ri.scriptLen + len + 2 ≥ ri.scriptBufSize then
    { ri with scriptBufSize := 2 * ri.scriptBufSize }
  else ri

/-- `snprintf(ri->script + ri->scriptLen, len + 2, "%s\n", p)`, with the
length it returns added to `scriptLen`. -/
def MonRcvInfo.insertLine (ri : MonRcvInfo) (p : CString) : Except Fault MonRcvInfo :=
  if ri.scriptLen + (p.length + 2) ≤ ri.scriptBufSize then
    .ok { ri with
      script := ri.script ++ (p ++ [LF]), scriptLen := ri.scriptLen + (p.length + 1) }
  else .error .outOfBounds

/-- A line of the script. -/
def receiveLine (ri : MonRcvInfo) (p : CString) : Except Fault (MonRcvInfo × Bool) := do
  if ri.scriptLen + p.length ≥ ri.scriptSizeLimit then
    return (ri.fail (cstr "Script size exceeds limit of " ++ printDecimal ri.scriptSizeLimit ++
      cstr " bytes"), true)
  let ri ← (ri.grow p.length).insertLine p
  return (ri, false)

/-- `MonitorRecvScript`. -/
def MonitorRecvScript (ri : MonRcvInfo) (line : CString) : Except Fault (MonRcvInfo × Bool) :=
  if line.length < 3 ∨ line.length > 258 then
    .ok (ri.fail (cstr "Invalid line lingth: " ++ printDecimal line.length), true)
  else if strncmp (cstr "er:") line 3 then .ok (ri.fail (cstr "Receive terminated"), true)
  else match ri.state with
    | .RS_IDLE =>
      if strncmp (cstr "sb:") line 3 then
        .ok ({ ri with name := some (line.drop 3), state := .RS_WAIT_LINE }, false)
      else .ok (ri, false)
    | .RS_WAIT_LINE =>
      if strncmp (cstr "se:") line 3 then .ok ({ ri with state := .RS_FINISHED }, true)
      else if strncmp (cstr "sl:") line 3 then receiveLine ri (line.drop 3)
      else .ok (ri, false)
    | .RS_FINISHED => .ok (ri, true)
    | .RS_ERROR => .ok (ri, true)

/-! ## What a receiver is for -/

/-- What a line says. -/
inductive LineKind
  | malformed
  | terminate
  | start (name : CString)
  | text (line : CString)
  | finish
  | other
deriving DecidableEq, Repr

/-- A line by its length and its first three characters. -/
def lineKind (line : CString) : LineKind :=
  if line.length < 3 ∨ line.length > 258 then .malformed
  else if strncmp (cstr "er:") line 3 then .terminate
  else if strncmp (cstr "sb:") line 3 then .start (line.drop 3)
  else if strncmp (cstr "se:") line 3 then .finish
  else if strncmp (cstr "sl:") line 3 then .text (line.drop 3)
  else .other

/-- A transfer: waiting for its name, with its name and the lines that
have come, finished, or failed. -/
inductive Transfer
  | waiting
  | receiving (name : CString) (text : List CString)
  | finished (name : CString) (text : List CString)
  | failed
deriving DecidableEq, Repr

/-- The largest script. -/
def sizeLimit : Nat := 65536

/-- What a line makes of a transfer, and whether the transfer is over. -/
def Transfer.receive : Transfer → LineKind → Transfer × Bool
  | _, .malformed => (.failed, true)
  | _, .terminate => (.failed, true)
  | .waiting, .start name => (.receiving name [], false)
  | .waiting, _ => (.waiting, false)
  | .receiving name text, .finish => (.finished name text, true)
  | .receiving name text, .text line =>
    if (Lib.terminated LF text).length + line.length ≥ sizeLimit then (.failed, true)
    else (.receiving name (text ++ [line]), false)
  | .receiving name text, _ => (.receiving name text, false)
  | .finished name text, _ => (.finished name text, true)
  | .failed, _ => (.failed, true)

/-- The record holds a text. -/
structure MonRcvInfo.Holds (ri : MonRcvInfo) (text : List CString) : Prop where
  script : ri.script = Lib.terminated LF text
  scriptLen : ri.scriptLen = ri.script.length
  room : ri.scriptLen < ri.scriptBufSize
  scriptBufSize : 2048 ≤ ri.scriptBufSize
  scriptSizeLimit : ri.scriptSizeLimit = sizeLimit

/-- The transfer a record represents. -/
def MonRcvInfo.Represents (ri : MonRcvInfo) : Transfer → Prop
  | .waiting => ri.state = .RS_IDLE ∧ ri.Holds []
  | .receiving name text => ri.state = .RS_WAIT_LINE ∧ ri.name = some name ∧ ri.Holds text
  | .finished name text => ri.state = .RS_FINISHED ∧ ri.name = some name ∧ ri.Holds text
  | .failed => ri.state = .RS_ERROR

theorem initial_represents : MonRcvInfo.initial.Represents .waiting :=
  ⟨rfl, rfl, rfl, by decide, by decide, rfl⟩

theorem terminated_concat (text : List CString) (line : CString) :
    Lib.terminated LF (text ++ [line]) = Lib.terminated LF text ++ (line ++ [LF]) := by
  rw [Lib.terminated, List.flatMap_append]
  simp [Lib.terminated]

/-- Two records in the same place of a transfer. -/
def SamePlace (ri ri' : MonRcvInfo) : Prop := ri'.state = ri.state ∧ ri'.name = ri.name

/-- Once doubled, the buffer has room for a line that is not too long. -/
theorem grow_holds {ri : MonRcvInfo} {text : List CString} (h : ri.Holds text) {len : Nat}
    (hlen : len ≤ 255) : (ri.grow len).Holds text ∧ SamePlace ri (ri.grow len) ∧
      (ri.grow len).scriptLen + (len + 2) ≤ (ri.grow len).scriptBufSize := by
  have hroom := h.room
  have hleast := h.scriptBufSize
  unfold MonRcvInfo.grow
  split
  · refine ⟨⟨h.script, h.scriptLen, ?_, ?_, h.scriptSizeLimit⟩, ⟨rfl, rfl⟩, ?_⟩
    · show ri.scriptLen < 2 * ri.scriptBufSize
      omega
    · show 2048 ≤ 2 * ri.scriptBufSize
      omega
    · show ri.scriptLen + (len + 2) ≤ 2 * ri.scriptBufSize
      omega
  · exact ⟨h, ⟨rfl, rfl⟩, by omega⟩

theorem insertLine_holds {ri : MonRcvInfo} {text : List CString} (h : ri.Holds text) {p : CString}
    (hroom : ri.scriptLen + (p.length + 2) ≤ ri.scriptBufSize) : ∃ ri',
      ri.insertLine p = .ok ri' ∧ SamePlace ri ri' ∧ ri'.Holds (text ++ [p]) := by
  refine ⟨_, if_pos hroom, ⟨rfl, rfl⟩, ?_, ?_, ?_, h.scriptBufSize, h.scriptSizeLimit⟩
  · show ri.script ++ (p ++ [LF]) = _
    rw [terminated_concat, h.script]
  · show ri.scriptLen + (p.length + 1) = (ri.script ++ (p ++ [LF])).length
    rw [List.length_append, List.length_append, h.scriptLen]
    rfl
  · show ri.scriptLen + (p.length + 1) < ri.scriptBufSize
    omega

/-- A line of the script is refused over the limit, and kept else. -/
theorem receiveLine_eq {ri : MonRcvInfo} {text : List CString} (h : ri.Holds text) {p : CString}
    (hp : p.length ≤ 255) :
    if (Lib.terminated LF text).length + p.length ≥ sizeLimit then
      ∃ ri', receiveLine ri p = .ok (ri', true) ∧ ri'.state = .RS_ERROR
    else ∃ ri', receiveLine ri p = .ok (ri', false) ∧ SamePlace ri ri' ∧
      ri'.Holds (text ++ [p]) := by
  have hlen : ri.scriptLen = (Lib.terminated LF text).length := by rw [h.scriptLen, h.script]
  unfold receiveLine
  rw [h.scriptSizeLimit, ← hlen]
  by_cases hfull : ri.scriptLen + p.length ≥ sizeLimit
  · rw [if_pos hfull, if_pos hfull]
    exact ⟨_, rfl, rfl⟩
  · rw [if_neg hfull, if_neg hfull]
    obtain ⟨hgrown, hplace, hroom⟩ := grow_holds h hp
    obtain ⟨ri', hinsert, hplace', hholds⟩ := insertLine_holds hgrown hroom
    refine ⟨ri', ?_, ⟨hplace'.1.trans hplace.1, hplace'.2.trans hplace.2⟩, hholds⟩
    simp only [hinsert]
    rfl

/-- A line starts with no more than one of two different prefixes. -/
theorem strncmp_ne {s1 s1' line : CString} {n : Nat} (h : strncmp s1 line n = true)
    (hne : s1.take n ≠ s1'.take n) : strncmp s1' line n = false := by
  unfold strncmp at h ⊢
  apply decide_eq_false
  intro h'
  exact hne ((of_decide_eq_true h).trans h'.symm)

theorem MonRcvInfo.Holds.congr {ri ri' : MonRcvInfo} {text : List CString} (h : ri.Holds text)
    (hs : ri'.script = ri.script) (hl : ri'.scriptLen = ri.scriptLen)
    (hb : ri'.scriptBufSize = ri.scriptBufSize) (hm : ri'.scriptSizeLimit = ri.scriptSizeLimit) :
    ri'.Holds text :=
  ⟨hs.trans h.script, by rw [hl, hs, h.scriptLen], by rw [hl, hb]; exact h.room,
    by rw [hb]; exact h.scriptBufSize, hm.trans h.scriptSizeLimit⟩

/-- A line that ends the transfer with an error, whatever its place. -/
theorem receive_failed {kind : LineKind} (h : kind = .malformed ∨ kind = .terminate) (t : Transfer) :
    t.receive kind = (.failed, true) := by
  rcases h with rfl | rfl
  · cases t with
    | waiting => rfl
    | receiving name text => rfl
    | finished name text => rfl
    | failed => rfl
  · cases t with
    | waiting => rfl
    | receiving name text => rfl
    | finished name text => rfl
    | failed => rfl

/-- What the line of a kind makes of the record and of the transfer. -/
def Agrees (ri : MonRcvInfo) (t : Transfer) (line : CString) (kind : LineKind) : Prop :=
  ∃ ri', MonitorRecvScript ri line = .ok (ri', (t.receive kind).2) ∧
    ri'.Represents (t.receive kind).1

theorem waiting_agrees {ri : MonRcvInfo} (h : ri.Represents .waiting) {line : CString}
    (hlen : ¬ (line.length < 3 ∨ line.length > 258)) (her : ¬ strncmp (cstr "er:") line 3 = true) :
    Agrees ri .waiting line (lineKind line) := by
  unfold Agrees MonitorRecvScript lineKind
  rw [if_neg hlen, if_neg hlen, if_neg her, if_neg her]
  simp only [h.1]
  by_cases hsb : strncmp (cstr "sb:") line 3 = true
  · rw [if_pos hsb, if_pos hsb]
    exact ⟨_, rfl, rfl, rfl, h.2.congr rfl rfl rfl rfl⟩
  · rw [if_neg hsb, if_neg hsb]
    -- every other line is passed over
    split
    · exact ⟨ri, rfl, h⟩
    · split
      · exact ⟨ri, rfl, h⟩
      · exact ⟨ri, rfl, h⟩

theorem receiving_agrees {ri : MonRcvInfo} {name : CString} {text : List CString}
    (h : ri.Represents (.receiving name text)) {line : CString}
    (hlen : ¬ (line.length < 3 ∨ line.length > 258)) (her : ¬ strncmp (cstr "er:") line 3 = true) :
    Agrees ri (.receiving name text) line (lineKind line) := by
  obtain ⟨hstate, hname, hholds⟩ := h
  unfold Agrees MonitorRecvScript lineKind
  rw [if_neg hlen, if_neg hlen, if_neg her, if_neg her]
  simp only [hstate]
  by_cases hse : strncmp (cstr "se:") line 3 = true
  · have hsb : ¬ strncmp (cstr "sb:") line 3 = true :=
      Bool.eq_false_iff.mp (strncmp_ne hse (by decide))
    rw [if_pos hse, if_neg hsb, if_pos hse]
    exact ⟨_, rfl, rfl, hname, hholds.congr rfl rfl rfl rfl⟩
  · by_cases hsl : strncmp (cstr "sl:") line 3 = true
    · have hsb : ¬ strncmp (cstr "sb:") line 3 = true :=
        Bool.eq_false_iff.mp (strncmp_ne hsl (by decide))
      rw [if_neg hse, if_pos hsl, if_neg hsb, if_neg hse, if_pos hsl]
      have hp : (line.drop 3).length ≤ 255 := by
        rw [List.length_drop]
        omega
      have hline := receiveLine_eq hholds hp
      simp only [Transfer.receive]
      by_cases hfull : (Lib.terminated LF text).length + (line.drop 3).length ≥ sizeLimit
      · rw [if_pos hfull] at hline ⊢
        exact hline
      · rw [if_neg hfull] at hline ⊢
        obtain ⟨ri', hri', ⟨hstate', hname'⟩, hholds'⟩ := hline
        exact ⟨ri', hri', hstate'.trans hstate, hname'.trans hname, hholds'⟩
    · rw [if_neg hse, if_neg hsl, if_neg hse, if_neg hsl]
      split
      · exact ⟨ri, rfl, hstate, hname, hholds⟩
      · exact ⟨ri, rfl, hstate, hname, hholds⟩

/-- A transfer that is over stays so. -/
theorem over_agrees {ri : MonRcvInfo} {t : Transfer} (h : ri.Represents t)
    (hover : ri.state = .RS_FINISHED ∨ ri.state = .RS_ERROR)
    (ht : ∀ kind, kind ≠ .malformed → kind ≠ .terminate → t.receive kind = (t, true))
    {line : CString} (hlen : ¬ (line.length < 3 ∨ line.length > 258))
    (her : ¬ strncmp (cstr "er:") line 3 = true) : Agrees ri t line (lineKind line) := by
  have hkind : lineKind line ≠ .malformed ∧ lineKind line ≠ .terminate := by
    unfold lineKind
    rw [if_neg hlen, if_neg her]
    repeat' split
    all_goals exact ⟨nofun, nofun⟩
  unfold Agrees MonitorRecvScript
  rw [if_neg hlen, if_neg her, ht _ hkind.1 hkind.2]
  rcases hover with hstate | hstate
  · simp only [hstate]
    exact ⟨ri, rfl, h⟩
  · simp only [hstate]
    exact ⟨ri, rfl, h⟩

/-- **The receiver is a transfer**: a line makes of the record what it
makes of the transfer that the record represents, and the buffer is kept
within its bounds. -/
theorem MonitorRecvScript_represents {ri : MonRcvInfo} {t : Transfer} (h : ri.Represents t)
    (line : CString) : ∃ ri',
      MonitorRecvScript ri line = .ok (ri', (t.receive (lineKind line)).2) ∧
      ri'.Represents (t.receive (lineKind line)).1 := by
  by_cases hlen : line.length < 3 ∨ line.length > 258
  · have hkind : lineKind line = .malformed := if_pos hlen
    rw [hkind, receive_failed (.inl rfl), MonitorRecvScript, if_pos hlen]
    exact ⟨_, rfl, rfl⟩
  by_cases her : strncmp (cstr "er:") line 3 = true
  · have hkind : lineKind line = .terminate := by
      rw [lineKind, if_neg hlen, if_pos her]
    rw [hkind, receive_failed (.inr rfl), MonitorRecvScript, if_neg hlen, if_pos her]
    exact ⟨_, rfl, rfl⟩
  have hkept : ∀ t : Transfer, (∃ name text, t = .finished name text) ∨ t = .failed →
      ∀ kind, kind ≠ .malformed → kind ≠ .terminate → t.receive kind = (t, true) := by
    intro t ht kind hmalformed hterminate
    cases kind with
    | malformed => exact absurd rfl hmalformed
    | terminate => exact absurd rfl hterminate
    | start name => rcases ht with ⟨name, text, rfl⟩ | rfl <;> rfl
    | text line => rcases ht with ⟨name, text, rfl⟩ | rfl <;> rfl
    | finish => rcases ht with ⟨name, text, rfl⟩ | rfl <;> rfl
    | other => rcases ht with ⟨name, text, rfl⟩ | rfl <;> rfl
  cases t with
  | waiting => exact waiting_agrees h hlen her
  | receiving name text => exact receiving_agrees h hlen her
  | finished name text => exact over_agrees h (.inl h.1) (hkept _ (.inl ⟨name, text, rfl⟩)) hlen her
  | failed => exact over_agrees h (.inr h) (hkept _ (.inr rfl)) hlen her

/-! ## Lines one by one -/

/-- The receiver, given lines one by one: where it ends, and what it
returned for each. -/
def feed : MonRcvInfo → List CString → Except Fault (MonRcvInfo × List Bool)
  | ri, [] => .ok (ri, [])
  | ri, line :: rest => do
    let (ri, done) ← MonitorRecvScript ri line
    let (ri, dones) ← feed ri rest
    return (ri, done :: dones)

/-- A transfer, given lines one by one. -/
def Transfer.feed : Transfer → List LineKind → Transfer × List Bool
  | t, [] => (t, [])
  | t, kind :: rest =>
    let (t, done) := t.receive kind
    let (t, dones) := t.feed rest
    (t, done :: dones)

theorem Transfer.feed_cons (t : Transfer) (kind : LineKind) (kinds : List LineKind) :
    t.feed (kind :: kinds) = (((t.receive kind).1.feed kinds).1,
      (t.receive kind).2 :: ((t.receive kind).1.feed kinds).2) := rfl

theorem feed_represents {ri : MonRcvInfo} {t : Transfer} (h : ri.Represents t)
    (lines : List CString) : ∃ ri',
      feed ri lines = .ok (ri', (t.feed (lines.map lineKind)).2) ∧
      ri'.Represents (t.feed (lines.map lineKind)).1 := by
  induction lines generalizing ri t with
  | nil => exact ⟨ri, rfl, h⟩
  | cons line lines ih =>
    obtain ⟨ri₁, hline, h₁⟩ := MonitorRecvScript_represents h line
    obtain ⟨ri₂, hrest, h₂⟩ := ih h₁
    refine ⟨ri₂, ?_, h₂⟩
    rw [feed, hline]
    show (feed ri₁ lines >>= fun r => pure (r.1, _ :: r.2)) = _
    rw [hrest]
    rfl

/-- A line before the name that is passed over. -/
def LineKind.BeforeName : LineKind → Prop
  | .malformed => False
  | .terminate => False
  | .start _ => False
  | _ => True

/-- A line behind the name that does not end the transfer of itself. -/
def LineKind.InBody : LineKind → Prop
  | .malformed => False
  | .terminate => False
  | .finish => False
  | _ => True

/-- The line of the script. -/
def LineKind.line? : LineKind → Option CString
  | .text line => some line
  | _ => none

/-- The lines run over a line with the name to a line with the end, with
the lines of the text between them. -/
def Uploaded (kinds : List LineKind) (name : CString) (text : List CString) : Prop :=
  ∃ pre mid, kinds = pre ++ .start name :: (mid ++ [.finish]) ∧ (∀ kind ∈ pre, kind.BeforeName) ∧
    (∀ kind ∈ mid, kind.InBody) ∧ text = mid.filterMap LineKind.line?

/-- Done with the last line, and not before. -/
def doneAtLast (n : Nat) : List Bool := List.replicate n false ++ [true]

theorem doneAtLast_true {n : Nat} {dones : List Bool} (h : true :: dones = doneAtLast n) :
    dones = [] := by
  cases n with
  | zero => exact (List.cons.inj h).2
  | succ n => cases (List.cons.inj h).1

theorem doneAtLast_false {n : Nat} {dones : List Bool} (h : false :: dones = doneAtLast n) :
    ∃ m, dones = doneAtLast m := by
  cases n with
  | zero => cases (List.cons.inj h).1
  | succ n => exact ⟨n, (List.cons.inj h).2⟩

theorem feed_length (t : Transfer) (kinds : List LineKind) :
    (t.feed kinds).2.length = kinds.length := by
  induction kinds generalizing t with
  | nil => rfl
  | cons kind kinds ih => exact congrArg (· + 1) (ih _)

theorem failed_feed (kinds : List LineKind) : (Transfer.failed.feed kinds).1 = .failed := by
  induction kinds with
  | nil => rfl
  | cons kind kinds ih =>
    cases kind with
    | malformed => exact ih
    | terminate => exact ih
    | start name => exact ih
    | text line => exact ih
    | finish => exact ih
    | other => exact ih

/-- What a line makes of a transfer that has its name. -/
theorem receiving_cases (name : CString) (text : List CString) (kind : LineKind) :
    (kind = .finish ∧ (Transfer.receiving name text).receive kind = (.finished name text, true)) ∨
    (Transfer.receiving name text).receive kind = (.failed, true) ∨
    (kind.InBody ∧ (Transfer.receiving name text).receive kind =
      (.receiving name (text ++ kind.line?.toList), false)) := by
  have hnone : text ++ (none : Option CString).toList = text := List.append_nil text
  cases kind with
  | malformed => exact .inr (.inl rfl)
  | terminate => exact .inr (.inl rfl)
  | start name' =>
    refine .inr (.inr ⟨trivial, ?_⟩)
    show _ = (Transfer.receiving name (text ++ (none : Option CString).toList), false)
    rw [hnone]
    rfl
  | finish => exact .inl ⟨rfl, rfl⟩
  | other =>
    refine .inr (.inr ⟨trivial, ?_⟩)
    show _ = (Transfer.receiving name (text ++ (none : Option CString).toList), false)
    rw [hnone]
    rfl
  | text line =>
    right
    simp only [Transfer.receive]
    split
    · exact .inl rfl
    · exact .inr ⟨trivial, rfl⟩

/-- A transfer that has its name is finished by the first line of its end. -/
theorem receiving_finished {name name' : CString} {text text' : List CString}
    {kinds : List LineKind} {n : Nat}
    (h : (Transfer.receiving name text).feed kinds = (.finished name' text', doneAtLast n)) :
    name' = name ∧ ∃ mid, kinds = mid ++ [.finish] ∧ (∀ kind ∈ mid, kind.InBody) ∧
      text' = text ++ mid.filterMap LineKind.line? := by
  induction kinds generalizing text n with
  | nil => cases (Prod.mk.inj h).1
  | cons kind kinds ih =>
    rw [Transfer.feed] at h
    rcases receiving_cases name text kind with ⟨rfl, hfinish⟩ | hfailed | ⟨hbody, hmore⟩
    · rw [hfinish] at h
      obtain ⟨hend, hdones⟩ := Prod.mk.inj h
      have hlast := List.length_eq_zero_iff.mpr (doneAtLast_true hdones)
      rw [feed_length] at hlast
      rw [List.length_eq_zero_iff.mp hlast] at hend ⊢
      cases hend
      exact ⟨rfl, [], rfl, fun _ hk => absurd hk List.not_mem_nil, (List.append_nil _).symm⟩
    · rw [hfailed] at h
      have hend := (Prod.mk.inj h).1
      rw [failed_feed] at hend
      cases hend
    · rw [hmore] at h
      obtain ⟨hend, hdones⟩ := Prod.mk.inj h
      obtain ⟨m, hm⟩ := doneAtLast_false hdones
      obtain ⟨rfl, mid, rfl, hmid, rfl⟩ := ih (Prod.ext hend hm)
      refine ⟨rfl, kind :: mid, rfl, ?_, ?_⟩
      · intro k hk
        rcases List.mem_cons.mp hk with rfl | hk
        · exact hbody
        · exact hmid k hk
      · rw [List.append_assoc]
        congr 1
        cases hline : kind.line? with
        | none => rw [List.filterMap_cons_none hline]; rfl
        | some line => rw [List.filterMap_cons_some hline]; rfl

/-- What a line makes of a transfer that waits for its name. -/
theorem waiting_cases (kind : LineKind) :
    (∃ name, kind = .start name ∧ Transfer.waiting.receive kind = (.receiving name [], false)) ∨
    Transfer.waiting.receive kind = (.failed, true) ∨
    (kind.BeforeName ∧ Transfer.waiting.receive kind = (.waiting, false)) := by
  cases kind with
  | malformed => exact .inr (.inl rfl)
  | terminate => exact .inr (.inl rfl)
  | start name => exact .inl ⟨name, rfl, rfl⟩
  | text line => exact .inr (.inr ⟨trivial, rfl⟩)
  | finish => exact .inr (.inr ⟨trivial, rfl⟩)
  | other => exact .inr (.inr ⟨trivial, rfl⟩)

/-- **A transfer is finished by an upload**: lines from a name to an end. -/
theorem waiting_finished {name : CString} {text : List CString} {kinds : List LineKind} {n : Nat}
    (h : Transfer.waiting.feed kinds = (.finished name text, doneAtLast n)) :
    Uploaded kinds name text := by
  induction kinds generalizing n with
  | nil => cases (Prod.mk.inj h).1
  | cons kind kinds ih =>
    rw [Transfer.feed] at h
    rcases waiting_cases kind with ⟨name', rfl, hstart⟩ | hfailed | ⟨hbefore, hwait⟩
    · rw [hstart] at h
      obtain ⟨hend, hdones⟩ := Prod.mk.inj h
      obtain ⟨m, hm⟩ := doneAtLast_false hdones
      obtain ⟨rfl, mid, rfl, hmid, rfl⟩ := receiving_finished (Prod.ext hend hm)
      exact ⟨[], mid, rfl, fun _ hk => absurd hk List.not_mem_nil, hmid, rfl⟩
    · rw [hfailed] at h
      have hend := (Prod.mk.inj h).1
      rw [failed_feed] at hend
      cases hend
    · rw [hwait] at h
      obtain ⟨hend, hdones⟩ := Prod.mk.inj h
      obtain ⟨m, hm⟩ := doneAtLast_false hdones
      obtain ⟨pre, mid, rfl, hpre, hmid, htext⟩ := ih (Prod.ext hend hm)
      refine ⟨kind :: pre, mid, rfl, ?_, hmid, htext⟩
      intro k hk
      rcases List.mem_cons.mp hk with rfl | hk
      · exact hbefore
      · exact hpre k hk

/-- A transfer that is done is finished or has failed. -/
theorem receive_done {t : Transfer} {kind : LineKind} (h : (t.receive kind).2 = true) :
    (∃ name text, (t.receive kind).1 = .finished name text) ∨ (t.receive kind).1 = .failed := by
  cases t with
  | waiting =>
    rcases waiting_cases kind with ⟨name, -, hstart⟩ | hfailed | ⟨-, hwait⟩
    · rw [hstart] at h
      cases h
    · exact .inr (by rw [hfailed])
    · rw [hwait] at h
      cases h
  | receiving name text =>
    rcases receiving_cases name text kind with ⟨-, hfinish⟩ | hfailed | ⟨-, hmore⟩
    · exact .inl ⟨name, text, by rw [hfinish]⟩
    · exact .inr (by rw [hfailed])
    · rw [hmore] at h
      cases h
  | finished name text =>
    cases kind with
    | malformed => exact .inr rfl
    | terminate => exact .inr rfl
    | start name' => exact .inl ⟨name, text, rfl⟩
    | text line => exact .inl ⟨name, text, rfl⟩
    | finish => exact .inl ⟨name, text, rfl⟩
    | other => exact .inl ⟨name, text, rfl⟩
  | failed =>
    have hfailed := failed_feed [kind]
    exact .inr hfailed

end XplEvent.Control
