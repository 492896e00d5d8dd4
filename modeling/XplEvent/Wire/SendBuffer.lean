import XplEvent.Lib.Memory
import XplEvent.Wire.RoundTrip

/-!
# The transmit buffer of a message

`appendText`, `formatMessage` and `sendMessage` on the buffer itself: the
`MSG_MAX_SIZE` characters `createSendableMessage` allocates, and the count
of those in use. A store outside the buffer is a fault. `writeTexts_refines`
says that this is the list of `Wire/Format` with a terminator behind it;
that each piece has its own test for room comes to one test of the whole
text (`formatMessage_buffer`).

The lengths are numbers without a bound. A string of the source is in
memory `talloc` has given it, which is less than an `int` can count, and
so the sum in `appendText` does not wrap.
-/

namespace XplEvent.Wire

open Lib (Memory)

/-- The two fields of `xplMessage_t` that make up the transmit buffer. -/
structure TxBuff where
  txBuff : Memory CChar MSG_MAX_SIZE
  txBuffBytesWritten : Nat

namespace TxBuff

/-- `memcpy` into the buffer, and a single store. -/
def store (b : TxBuff) (offset : Nat) (s : CString) : Except Fault TxBuff :=
  match b.txBuff.write offset s with
  | some txBuff => .ok { b with txBuff := txBuff }
  | none => .error .outOfBounds

/-- `appendText`; the flag is its result. -/
def appendText (b : TxBuff) (theString : CString) : Except Fault (Bool × TxBuff) :=
  if b.txBuffBytesWritten + theString.length ≥ MSG_MAX_SIZE then .ok (false, b)
  else do
    let b ← b.store b.txBuffBytesWritten theString
    let b := { b with txBuffBytesWritten := b.txBuffBytesWritten + theString.length }
    let b ← b.store b.txBuffBytesWritten [0]
    return (true, b)

/-- A sequence of `WRITE_TEXT`, up to the first that returns `FALSE`. -/
def writeTexts : List (Option CString) → TxBuff → Except Fault (Bool × TxBuff)
  | [], b => .ok (true, b)
  | theString :: texts, b => do
    let (fits, b) ← b.appendText (← deref theString)
    if fits then writeTexts texts b else return (false, b)

/-- `formatMessage`. -/
def formatMessage (xm : XplMessage) (b : TxBuff) : Except Fault (Bool × TxBuff) :=
  let b := { b with txBuffBytesWritten := 0 }
  match xm.messageType.text with
  | none => .error .assertion
  | some type_ => do
    let (fits, b) ← writeTexts (some type_ :: messageTexts xm) b
    if fits then
      let b ← b.store b.txBuffBytesWritten [0]
      return (true, b)
    else return (false, b)

/-- `sendRawMessage`: the characters handed to `sendto`, and whether it
took them all. -/
def sendRawMessage (sendto : CString → Int) (b : TxBuff) : Bool × List CString :=
  let text := b.txBuff.front b.txBuffBytesWritten
  (sendto text = b.txBuffBytesWritten, [text])

/-- `sendMessage`: its result, and what is transmitted. -/
def sendMessage (sendto : CString → Int) (xm : XplMessage) (b : TxBuff) :
    Except Fault (Bool × List CString) := do
  let (fits, b) ← formatMessage xm b
  if fits then return b.sendRawMessage sendto else return (false, [])

/-! ## The buffer as a list -/

/-- The text in the buffer. -/
def text (b : TxBuff) : CString := b.txBuff.front b.txBuffBytesWritten

/-- The count leaves room for a terminator. -/
def HasRoom (b : TxBuff) : Prop := b.txBuffBytesWritten < MSG_MAX_SIZE

/-- A terminator stands behind the text. -/
def Terminated (b : TxBuff) : Prop := b.txBuff.cells[b.txBuffBytesWritten]? = some 0

theorem text_length {b : TxBuff} (h : b.HasRoom) : b.text.length = b.txBuffBytesWritten :=
  b.txBuff.front_length (Nat.le_of_lt h)

/-- The terminator is stored and the text stays. -/
theorem store_nul {b : TxBuff} (h : b.HasRoom) :
    ∃ b', b.store b.txBuffBytesWritten [0] = .ok b' ∧
      b'.txBuffBytesWritten = b.txBuffBytesWritten ∧ b'.text = b.text ∧ b'.Terminated := by
  have hfits : b.txBuffBytesWritten + [(0 : CChar)].length ≤ MSG_MAX_SIZE := Nat.succ_le_of_lt h
  obtain ⟨m, hwrite, hfront⟩ := b.txBuff.write_ok hfits
  have hlen : b.text.length = b.txBuffBytesWritten := text_length h
  refine ⟨{ b with txBuff := m }, by rw [store, hwrite], rfl, ?_, ?_⟩
  · exact Memory.front_of_front hfront hlen
  · exact Memory.getElem?_of_front hfront hlen

/-- What a step on the buffer has to do with the same step on the text:
it fails alike, and its buffer has room and holds the text. -/
def Refines (o : Except Fault (Option CString)) (r : Except Fault (Bool × TxBuff)) : Prop :=
  match o with
  | .error e => r = .error e
  | .ok none => ∃ b, r = .ok (false, b) ∧ b.HasRoom
  | .ok (some text) => ∃ b, r = .ok (true, b) ∧ b.HasRoom ∧ b.text = text

theorem appendText_refines {b : TxBuff} (h : b.HasRoom) (theString : CString) :
    Refines (.ok (Wire.appendText b.text theString)) (b.appendText theString) := by
  unfold Wire.appendText appendText
  rw [text_length h]
  by_cases hfull : b.txBuffBytesWritten + theString.length ≥ MSG_MAX_SIZE
  · rw [if_pos hfull, if_pos hfull]
    exact ⟨b, rfl, h⟩
  · rw [if_neg hfull, if_neg hfull]
    obtain ⟨m, hwrite, hfront⟩ := b.txBuff.write_ok (Nat.le_of_not_ge hfull)
    let b₁ : TxBuff := ⟨m, b.txBuffBytesWritten + theString.length⟩
    have hroom : b₁.HasRoom := Nat.lt_of_not_ge hfull
    obtain ⟨b₂, hstore, hcount, htext, -⟩ := store_nul hroom
    refine ⟨b₂, ?_, ?_, htext.trans hfront⟩
    · rw [store, hwrite, ok_bind]
      simp only
      rw [hstore, ok_bind]
      rfl
    · rw [HasRoom, hcount]
      exact hroom

/-- **Writing to the buffer is writing to the text in it**: no store
leaves the buffer, whichever piece does not fit. -/
theorem writeTexts_refines (texts : List (Option CString)) {b : TxBuff} (h : b.HasRoom) :
    Refines (Wire.writeTexts texts b.text) (writeTexts texts b) := by
  induction texts generalizing b with
  | nil => exact ⟨b, rfl, h, rfl⟩
  | cons t texts ih =>
    cases t with
    | none => rfl
    | some theString =>
      have hstep := appendText_refines h theString
      rw [Wire.writeTexts, writeTexts]
      simp only [deref_some, ok_bind]
      cases happend : Wire.appendText b.text theString with
      | none =>
        rw [happend] at hstep
        obtain ⟨b', hb', hroom⟩ := hstep
        rw [hb', ok_bind]
        exact ⟨b', rfl, hroom⟩
      | some txBuff =>
        rw [happend] at hstep
        obtain ⟨b', hb', hroom, rfl⟩ := hstep
        rw [hb', ok_bind]
        exact ih hroom

theorem formatMessage_refines (xm : XplMessage) (b : TxBuff) :
    Refines (Wire.formatMessage xm) (formatMessage xm b) ∧
      ∀ b', formatMessage xm b = .ok (true, b') → b'.Terminated := by
  let b₀ : TxBuff := { b with txBuffBytesWritten := 0 }
  have hroom : b₀.HasRoom := Nat.succ_pos _
  unfold Wire.formatMessage formatMessage
  cases xm.messageType.text with
  | none =>
    refine ⟨rfl, fun b' h => ?_⟩
    cases h
  | some type_ =>
    have hwrite := writeTexts_refines (some type_ :: messageTexts xm) hroom
    have hempty : b₀.text = [] := rfl
    rw [hempty] at hwrite
    simp only
    cases hwritten : Wire.writeTexts (some type_ :: messageTexts xm) [] with
    | error e =>
      rw [hwritten] at hwrite
      rw [show writeTexts _ b₀ = .error e from hwrite]
      refine ⟨rfl, fun b' h => ?_⟩
      cases h
    | ok o =>
      rw [hwritten] at hwrite
      cases o with
      | none =>
        obtain ⟨b₁, hb₁, hroom₁⟩ := hwrite
        rw [hb₁, ok_bind]
        refine ⟨⟨b₁, rfl, hroom₁⟩, fun b' h => ?_⟩
        cases h
      | some out =>
        obtain ⟨b₁, hb₁, hroom₁, rfl⟩ := hwrite
        obtain ⟨b₂, hstore, hcount, htext, hnul⟩ := store_nul hroom₁
        rw [hb₁, ok_bind]
        simp only [if_true]
        rw [hstore, ok_bind]
        refine ⟨⟨b₂, rfl, ?_, htext⟩, fun b' h => ?_⟩
        · rw [HasRoom, hcount]
          exact hroom₁
        · cases h
          exact hnul

end TxBuff

/-! ## One test for the whole text -/

/-- The text of a message that has one: the message type, hop, source and
target, then the schema and the pairs, each block in its braces. -/
def IsText (xm : XplMessage) (text : CString) : Prop :=
  ∃ type_, xm.messageType.text = some type_ ∧ xm.Complete ∧
    text = blockText type_ xm.headerPairs ++ blockText xm.schemaText xm.nvList

theorem IsText.unique {xm : XplMessage} {text text' : CString} (h : IsText xm text)
    (h' : IsText xm text') : text = text' := by
  obtain ⟨type_, htype, -, rfl⟩ := h
  obtain ⟨type_', htype', -, rfl⟩ := h'
  rw [htype] at htype'
  cases htype'
  rfl

/-- Only a text that is `NULL` makes the writing fail. -/
theorem writeTexts_error {texts : List (Option CString)} {txBuff : CString} {e : Fault}
    (h : writeTexts texts txBuff = .error e) : e = .nullDeref ∧ none ∈ texts := by
  induction texts generalizing txBuff with
  | nil => cases h
  | cons t texts ih =>
    cases t with
    | none =>
      cases h
      exact ⟨rfl, List.mem_cons_self⟩
    | some theString =>
      rw [writeTexts] at h
      simp only [deref_some, ok_bind] at h
      split at h
      · cases h
      · exact (ih h).imp_right (List.mem_cons_of_mem _)

/-- A message that has a text does not fail, and no message overruns its
buffer. -/
theorem formatMessage_error {xm : XplMessage} {e : Fault} (h : formatMessage xm = .error e) :
    e ≠ .outOfBounds ∧ ∀ text, ¬ IsText xm text := by
  unfold formatMessage at h
  split at h
  · rename_i htype
    cases h
    refine ⟨fun he => Fault.noConfusion he, ?_⟩
    rintro text ⟨type_, htype', -, -⟩
    rw [htype] at htype'
    cases htype'
  · obtain ⟨rfl, hnone⟩ := writeTexts_error h
    refine ⟨fun he => Fault.noConfusion he, ?_⟩
    rintro text ⟨type_, -, hcomplete, -⟩
    rcases List.mem_cons.mp hnone with hnone | hnone
    · cases hnone
    · exact Bool.noConfusion (List.all_eq_true.mp hcomplete.texts none hnone)

/-- What `formatMessage` and `sendMessage` do with a message and its
buffer. -/
structure FormatsExactly (xm : XplMessage) (b : TxBuff) : Prop where
  returns : ∀ text, IsText xm text → ∃ fits b', b.formatMessage xm = .ok (fits, b')
  inBounds : b.formatMessage xm ≠ .error .outOfBounds
  hasRoom : ∀ fits b', b.formatMessage xm = .ok (fits, b') → b'.HasRoom
  fits_iff : ∀ fits b', b.formatMessage xm = .ok (fits, b') →
    (fits = true ↔ ∃ text, IsText xm text ∧ text.length < MSG_MAX_SIZE)
  holds : ∀ b', b.formatMessage xm = .ok (true, b') → ∀ text, IsText xm text →
    b'.text = text ∧ b'.txBuffBytesWritten = text.length ∧ b'.Terminated
  sends : ∀ sendto sent out, b.sendMessage sendto xm = .ok (sent, out) →
    (∃ text, IsText xm text ∧ text.length < MSG_MAX_SIZE ∧ out = [text]) ∨
      (¬ ∃ text, IsText xm text ∧ text.length < MSG_MAX_SIZE) ∧ sent = false ∧ out = []

/-- The three outcomes of `formatMessage`. -/
theorem formatMessage_outcome (xm : XplMessage) (b : TxBuff) :
    (∃ e, b.formatMessage xm = .error e ∧ e ≠ .outOfBounds ∧ ∀ text, ¬ IsText xm text) ∨
    (∃ b', b.formatMessage xm = .ok (false, b') ∧ b'.HasRoom ∧
      ¬ ∃ text, IsText xm text ∧ text.length < MSG_MAX_SIZE) ∨
    ∃ b', b.formatMessage xm = .ok (true, b') ∧ b'.HasRoom ∧ b'.Terminated ∧
      IsText xm b'.text ∧ b'.text.length < MSG_MAX_SIZE := by
  obtain ⟨hrefines, hnul⟩ := b.formatMessage_refines xm
  cases hformat : formatMessage xm with
  | error e =>
    rw [hformat] at hrefines
    exact .inl ⟨e, hrefines, formatMessage_error hformat⟩
  | ok o =>
    rw [hformat] at hrefines
    cases o with
    | none =>
      obtain ⟨b', hb', hroom⟩ := hrefines
      refine .inr (.inl ⟨b', hb', hroom, ?_⟩)
      rintro ⟨text, ⟨type_, htype, hcomplete, rfl⟩, hlen⟩
      rw [formatMessage_eq hcomplete htype hlen] at hformat
      cases hformat
    | some out =>
      obtain ⟨b', hb', hroom, rfl⟩ := hrefines
      have hlen : b'.text.length < MSG_MAX_SIZE := by
        rw [TxBuff.text_length hroom]
        exact hroom
      exact .inr (.inr ⟨b', hb', hroom, hnul b' hb', formatMessage_ok hformat, hlen⟩)

/-- **A message is formatted and sent exactly when its whole text is
shorter than the buffer**, as that text and nothing else, and no store
leaves the buffer. -/
theorem formatMessage_buffer (xm : XplMessage) (b : TxBuff) : FormatsExactly xm b := by
  have hsend : ∀ sendto, b.sendMessage sendto xm =
      b.formatMessage xm >>= fun r => if r.1 then .ok (r.2.sendRawMessage sendto)
        else .ok (false, []) := fun _ => rfl
  rcases formatMessage_outcome xm b with ⟨e, hb, he, hnot⟩ | ⟨b', hb, hroom, hnot⟩ |
    ⟨b', hb, hroom, hnul, htext, hlen⟩
  · have hfails : ∀ fits b', b.formatMessage xm ≠ .ok (fits, b') := by
      intro fits b' h
      rw [hb] at h
      cases h
    exact {
      returns := fun text htext => absurd htext (hnot text)
      inBounds := fun h => he (Except.error.inj (hb.symm.trans h))
      hasRoom := fun fits b' h => absurd h (hfails fits b')
      fits_iff := fun fits b' h => absurd h (hfails fits b')
      holds := fun b' h => absurd h (hfails true b')
      sends := by
        intro sendto sent out h
        rw [hsend, hb] at h
        cases h }
  · have hfalse : ∀ fits b'', b.formatMessage xm = .ok (fits, b'') → fits = false ∧ b'' = b' := by
      intro fits b'' h
      rw [hb] at h
      cases h
      exact ⟨rfl, rfl⟩
    exact {
      returns := fun _ _ => ⟨false, b', hb⟩
      inBounds := fun h => by rw [hb] at h; cases h
      hasRoom := fun fits b'' h => (hfalse fits b'' h).2 ▸ hroom
      fits_iff := fun fits b'' h =>
        iff_of_false (fun ht => Bool.noConfusion ((hfalse fits b'' h).1.symm.trans ht)) hnot
      holds := fun b'' h => Bool.noConfusion (hfalse true b'' h).1
      sends := by
        intro sendto sent out h
        rw [hsend, hb] at h
        cases h
        exact .inr ⟨hnot, rfl, rfl⟩ }
  · have htrue : ∀ fits b'', b.formatMessage xm = .ok (fits, b'') → fits = true ∧ b'' = b' := by
      intro fits b'' h
      rw [hb] at h
      cases h
      exact ⟨rfl, rfl⟩
    exact {
      returns := fun _ _ => ⟨true, b', hb⟩
      inBounds := fun h => by rw [hb] at h; cases h
      hasRoom := fun fits b'' h => (htrue fits b'' h).2 ▸ hroom
      fits_iff := fun fits b'' h => iff_of_true (htrue fits b'' h).1 ⟨b'.text, htext, hlen⟩
      holds := by
        intro b'' h text htext'
        obtain ⟨-, rfl⟩ := htrue true b'' h
        obtain rfl := htext.unique htext'
        exact ⟨rfl, (TxBuff.text_length hroom).symm, hnul⟩
      sends := by
        intro sendto sent out h
        rw [hsend, hb] at h
        cases h
        exact .inl ⟨b'.text, htext, hlen, rfl⟩ }

end XplEvent.Wire
