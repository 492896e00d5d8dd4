import Mathlib.Algebra.Group.Nat.Defs
import XplEvent.Control.WholeLines

/-!
# The lines that `SocketReadLine` cuts a stream into

Between the bytes of a stream come interrupts and waits. As long as no wait
times out, successive calls return the lines of the stream without their
carriage returns, and at its end an empty line: what is left without a
newline is thrown away (`readLines_eq_lines`).

`lsize` is an `int` that is doubled: from 80 on, the last doubling that does
not overflow comes with 671088638 bytes of a line, and the next one would
come with 1342177278. Lines shorter than `2 ^ 30` bytes do not get there.
-/

namespace XplEvent.Control

open Lib (lines)

def INT_MAX : Nat := 2147483647

/-- A turn where `lsize` is an `int`: if doubling it overflows, there is no
buffer to write in. -/
def readTurnInt (s : ReadState) (r : Read) : Except Fault (Lib.Turn ReadState LineResult) :=
  if s.extend.lsize > INT_MAX then .error .outOfBounds else readTurn s r

/-- Successive calls of `SocketReadLine`, for what the reads of the socket
give. A call that is not ended by them returns nothing yet. -/
def readLines : ReadState → List Read → Except Fault (List LineResult)
  | _, [] => .ok []
  | s, r :: reads => do
    match ← readTurnInt s r with
    | .again s => readLines s reads
    | .done result =>
      let results ← readLines .initial reads
      return result :: results

/-- The bytes that are read. -/
def bytesOf (reads : List Read) : CString :=
  reads.filterMap fun
    | .byte c => some c
    | _ => none

/-- A byte, or what delays the next one. -/
def Read.GoesOn : Read → Prop
  | .byte _ => True
  | .EINTR => True
  | .EAGAIN selected => selected ≠ 0
  | .eof => False
  | .error => False

/-- What a call returns for a line. -/
def LineResult.ofLine (line : CString) : LineResult := ⟨some (withoutCR line), (withoutCR line).length⟩

/-! ## The size of the buffer -/

/-- The buffer has been doubled no more than the line asked for. -/
def ReadState.Doubled (s : ReadState) : Prop :=
  ∃ k, s.lsize = 80 * 2 ^ k ∧ (k = 0 ∨ 80 * 2 ^ (k - 1) ≤ s.line.length + 2)

theorem initial_doubled : ReadState.initial.Doubled := ⟨0, rfl, .inl rfl⟩

theorem ReadState.Doubled.extend {s : ReadState} (h : s.Doubled) : s.extend.Doubled := by
  obtain ⟨k, hsize, hline⟩ := h
  unfold ReadState.extend
  split
  · refine ⟨k + 1, ?_, .inr ?_⟩
    · show 2 * s.lsize = 80 * 2 ^ (k + 1)
      rw [hsize, Nat.pow_succ]
      omega
    · show 80 * 2 ^ k ≤ s.line.length + 2
      omega
  · exact ⟨k, hsize, hline⟩

/-- A line below `2 ^ 30` bytes has a buffer whose size is an `int`. -/
theorem ReadState.Doubled.lsize_le {s : ReadState} (h : s.Doubled) (hlen : s.line.length < 2 ^ 30) :
    s.lsize ≤ INT_MAX := by
  obtain ⟨k, hsize, hline⟩ := h
  have hk : k ≤ 24 := by
    refine Nat.le_of_not_lt fun hk => ?_
    have hpow : 2 ^ 24 ≤ 2 ^ (k - 1) := Nat.pow_le_pow_right (by decide) (by omega)
    omega
  have hpow : 2 ^ k ≤ 2 ^ 24 := Nat.pow_le_pow_right (by decide) hk
  rw [hsize, INT_MAX]
  omega

/-! ## The lines -/

/-- The line that has been begun is no longer than one of the stream. -/
theorem exists_segment {line : CString} (h : LF ∉ line) (s : CString) :
    ∃ l ∈ (line ++ s).splitOn LF, line.length ≤ l.length := by
  by_cases hs : LF ∈ s
  · obtain ⟨l, s', rfl, hl⟩ := List.eq_append_cons_of_mem hs
    have hfirst : LF ∉ line ++ l := fun hmem => (List.mem_append.mp hmem).elim h hl
    refine ⟨line ++ l, ?_, ?_⟩
    · rw [← List.append_assoc, List.splitOn_append_cons_self_of_not_mem hfirst]
      exact List.mem_cons_self
    · rw [List.length_append]
      exact Nat.le_add_right ..
  · have hall : LF ∉ line ++ s := fun hmem => (List.mem_append.mp hmem).elim h hs
    refine ⟨line ++ s, ?_, ?_⟩
    · rw [List.splitOn_eq_singleton hall]
      exact List.mem_singleton_self _
    · rw [List.length_append]
      exact Nat.le_add_right ..

/-- A turn that goes on keeps the size of the buffer, and what is in it. -/
theorem readTurn_again {s s' : ReadState} {r : Read} (h : readTurn s r = .ok (.again s')) :
    s'.lsize = s.extend.lsize ∧ s.extend.line.length ≤ s'.line.length := by
  unfold readTurn at h
  cases r with
  | EINTR =>
    cases h
    exact ⟨rfl, Nat.le_refl _⟩
  | EAGAIN selected =>
    simp only at h
    split at h
    · cases h
      exact ⟨rfl, Nat.le_refl _⟩
    · cases h
  | error => cases h
  | eof => cases h
  | byte c =>
    simp only at h
    split at h
    · cases h
      exact ⟨rfl, Nat.le_refl _⟩
    · split at h
      · obtain ⟨line, hput, h⟩ := bind_ok h
        cases h
        unfold bufPut at hput
        split at hput
        · cases hput
          exact ⟨rfl, by rw [List.length_append]; exact Nat.le_add_right ..⟩
        · cases hput
      · obtain ⟨line, -, h⟩ := bind_ok h
        cases h

/-- The buffer of a line that is not too long is as large as it should be. -/
structure ReadState.Ready (s : ReadState) : Prop where
  fits : s.Fits
  doubled : s.Doubled
  short : s.line.length < 2 ^ 30

theorem ReadState.Ready.readTurnInt {s : ReadState} (h : s.Ready) (r : Read) :
    Control.readTurnInt s r = readTurn s r := by
  obtain ⟨hline, -, -⟩ := ReadState.extend_spec h.fits
  exact if_neg (Nat.not_lt.mpr (h.doubled.extend.lsize_le (hline ▸ h.short)))

/-- A turn that goes on with the line. -/
theorem ReadState.Ready.again {s : ReadState} (h : s.Ready) {r : Read} {line : CString}
    (hline : lineTurn s.line r = .again line) :
    ∃ s', Control.readTurnInt s r = .ok (.again s') ∧ s'.line = line ∧ s'.Fits ∧ s'.Doubled := by
  obtain ⟨turn, hturn, hspec⟩ := readTurn_eq h.fits r
  cases turn with
  | done result =>
    rw [hline] at hspec
    cases hspec
  | again s' =>
    rw [hline] at hspec
    obtain ⟨hsame, hgrown⟩ := readTurn_again hturn
    obtain ⟨k, hk, hshort⟩ := h.doubled.extend
    refine ⟨s', (h.readTurnInt r).trans hturn, (Lib.Turn.again.inj hspec.1).symm, hspec.2, k,
      hsame.trans hk, hshort.imp_right fun hle => ?_⟩
    omega

/-- A turn that ends the call. -/
theorem ReadState.Ready.done {s : ReadState} (h : s.Ready) {r : Read} {result : LineResult}
    (hline : lineTurn s.line r = .done result) :
    Control.readTurnInt s r = .ok (.done result) := by
  obtain ⟨turn, hturn, hspec⟩ := readTurn_eq h.fits r
  rw [h.readTurnInt, hturn]
  cases turn with
  | done result' =>
    rw [hline] at hspec
    cases hspec
    rfl
  | again s' =>
    rw [hline] at hspec
    cases hspec.1

theorem withoutCR_cons {c : CChar} (h : c ≠ 13) (text : CString) :
    withoutCR (c :: text) = c :: withoutCR text :=
  List.filter_cons_of_pos (decide_eq_true h)

/-- The lines of the stream are below `2 ^ 30` bytes, and so is what follows
the last newline. -/
def Short (text : CString) : Prop := ∀ l ∈ text.splitOn LF, l.length < 2 ^ 30

theorem Short.line {line s : CString} (h : Short (line ++ s)) (hline : LF ∉ line) :
    line.length < 2 ^ 30 := by
  obtain ⟨l, hl, hle⟩ := exists_segment hline s
  exact Nat.lt_of_le_of_lt hle (h l hl)

/-- A call has read the beginning of a line, and `text` is left of the
stream. -/
structure ReadState.Begun (s : ReadState) (text : CString) : Prop where
  fits : s.Fits
  doubled : s.Doubled
  unended : LF ∉ s.line
  short : Short (s.line ++ text)

theorem ReadState.Begun.ready {s : ReadState} {text : CString} (h : s.Begun text) : s.Ready :=
  ⟨h.fits, h.doubled, h.short.line h.unended⟩

/-- A call that has read nothing. -/
theorem initial_begun {text : CString} (h : Short text) : ReadState.initial.Begun text :=
  ⟨initial_fits, initial_doubled, List.not_mem_nil, h⟩

/-- A turn that goes on moves what it has read from the stream to the line. -/
theorem ReadState.Begun.again {s : ReadState} {text text' line : CString} (h : s.Begun text)
    {r : Read} (hturn : lineTurn s.line r = .again line) (hline : LF ∉ line)
    (htext : s.line ++ text = line ++ text') :
    ∃ s', Control.readTurnInt s r = .ok (.again s') ∧ s'.line = line ∧ s'.Begun text' := by
  obtain ⟨s', hrun, rfl, hfits, hdoubled⟩ := h.ready.again hturn
  exact ⟨s', hrun, rfl, hfits, hdoubled, hline, htext ▸ h.short⟩

/-- Behind a newline another line begins. -/
theorem ReadState.Begun.next {s : ReadState} {text : CString} (h : s.Begun (LF :: text)) :
    ReadState.initial.Begun text := by
  apply initial_begun
  intro l hl
  apply h.short l
  rw [List.splitOn_append_cons_self_of_not_mem h.unended]
  exact List.mem_cons_of_mem _ hl

/-- **The calls cut the stream into lines**, for a call that has read the
beginning of one. -/
theorem readLines_eq {s : ReadState} {reads tail : List Read}
    (h : s.Begun (withoutCR (bytesOf reads))) (hreads : ∀ r ∈ reads, r.GoesOn)
    {out : List LineResult} (htail : ∀ s : ReadState, s.Ready → readLines s tail = .ok out) :
    readLines s (reads ++ tail) =
      .ok ((lines LF (s.line ++ withoutCR (bytesOf reads))).map (fun l => ⟨some l, l.length⟩) ++
        out) := by
  induction reads generalizing s with
  | nil =>
    have hnone : lines LF (s.line ++ withoutCR (bytesOf [])) = [] := by
      rw [show withoutCR (bytesOf []) = [] from rfl, List.append_nil]
      exact Lib.lines_of_not_mem h.unended
    rw [hnone]
    exact htail s h.ready
  | cons r reads ih =>
    have hbehind : ∀ r ∈ reads, r.GoesOn := fun r' hr' => hreads r' (List.mem_cons_of_mem r hr')
    -- A read that goes on with the line.
    have hagain : ∀ line : CString, lineTurn s.line r = .again line → LF ∉ line →
        s.line ++ withoutCR (bytesOf (r :: reads)) = line ++ withoutCR (bytesOf reads) →
        readLines s (r :: (reads ++ tail)) =
          .ok ((lines LF (s.line ++ withoutCR (bytesOf (r :: reads)))).map
            (fun l => ⟨some l, l.length⟩) ++ out) := by
      intro line hturn hline htext
      obtain ⟨s', hrun, rfl, hbegun⟩ := h.again hturn hline htext
      rw [readLines, hrun, ok_bind, htext]
      exact ih hbegun hbehind
    cases r with
    | EINTR => exact hagain s.line rfl h.unended rfl
    | EAGAIN selected =>
      exact hagain s.line (if_pos (hreads _ List.mem_cons_self)) h.unended rfl
    | eof => exact (hreads _ List.mem_cons_self).elim
    | error => exact (hreads _ List.mem_cons_self).elim
    | byte c =>
      by_cases hcr : c = 13
      · subst hcr
        exact hagain s.line rfl h.unended rfl
      have hbytes : withoutCR (bytesOf (.byte c :: reads)) = c :: withoutCR (bytesOf reads) :=
        withoutCR_cons hcr (bytesOf reads)
      by_cases hlf : c = LF
      · subst hlf
        rw [hbytes] at h ⊢
        have hturn : lineTurn s.line (.byte LF) = .done ⟨some s.line, s.line.length⟩ := rfl
        rw [List.cons_append, readLines, h.ready.done hturn, ok_bind, Lib.lines_line h.unended]
        simp only [ih h.next hbehind]
        rfl
      · refine hagain (s.line ++ [c]) ?_ ?_ ?_
        · rw [lineTurn, if_neg hcr, if_pos hlf]
        · intro hmem
          rcases List.mem_append.mp hmem with hmem | hmem
          · exact h.unended hmem
          · exact hlf (List.mem_singleton.mp hmem).symm
        · rw [hbytes, List.append_assoc]
          rfl

/-- **Line framing.** However the bytes of a stream are delayed, successive
calls return its complete lines in order, without their carriage returns and
with the number of bytes kept, and at the end of the stream an empty line.
No byte is written outside the buffer. -/
theorem readLines_eq_lines {reads : List Read} (hreads : ∀ r ∈ reads, r.GoesOn)
    (hshort : Short (withoutCR (bytesOf reads))) :
    readLines .initial reads = .ok ((lines LF (bytesOf reads)).map LineResult.ofLine) ∧
      readLines .initial (reads ++ [.eof]) =
        .ok ((lines LF (bytesOf reads)).map LineResult.ofLine ++ [⟨some [], 0⟩]) := by
  have hlines : (lines LF (withoutCR (bytesOf reads))).map
      (fun l => (⟨some l, l.length⟩ : LineResult)) =
        (lines LF (bytesOf reads)).map LineResult.ofLine := by
    unfold withoutCR
    rw [Lib.lines_filter (by decide), List.map_map]
    rfl
  have hcut : ∀ {tail out}, (∀ s : ReadState, s.Ready → readLines s tail = .ok out) →
      readLines .initial (reads ++ tail) =
        .ok ((lines LF (bytesOf reads)).map LineResult.ofLine ++ out) := by
    intro tail out htail
    rw [← hlines]
    exact readLines_eq (initial_begun hshort) hreads htail
  constructor
  · have hopen : readLines .initial (reads ++ []) =
        .ok ((lines LF (bytesOf reads)).map LineResult.ofLine ++ []) := hcut fun _ _ => rfl
    rwa [List.append_nil, List.append_nil] at hopen
  · apply hcut
    intro s hs
    rw [readLines, hs.done (show lineTurn s.line .eof = .done ⟨some [], 0⟩ from rfl)]
    rfl

/-- A line in two parts, and the beginning of another. -/
theorem readLines_eq_lines_sample :
    let reads : List Read :=
      [.byte 97, .EINTR, .byte 13, .EAGAIN 1, .byte LF, .byte 98]
    readLines .initial reads = .ok [⟨some [97], 1⟩] ∧
      readLines .initial (reads ++ [.eof]) = .ok [⟨some [97], 1⟩, ⟨some [], 0⟩] := by
  refine readLines_eq_lines ?_ ?_
  · simp [Read.GoesOn]
  · have hsplit : List.splitOn LF [97, LF, 98] = [[97], [98]] := by decide
    show ∀ l ∈ List.splitOn LF [97, LF, 98], l.length < 2 ^ 30
    rw [hsplit]
    simp

end XplEvent.Control
