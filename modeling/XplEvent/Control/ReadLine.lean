import XplEvent.Base
import XplEvent.Lib.Lines
import XplEvent.Lib.Loop

/-!
# `SocketReadLine` — lines of a socket

A line is read one byte at a time. What each `read` of the socket gives is
the input: a byte, the end of the stream, an interrupt, nothing yet, with
what `select` says of the five seconds after it, or an error. A call ends
with a line, with an empty line at the end of the stream, or with `NULL`;
`*length` is then what had been stored.

The line buffer is doubled as it fills up and is never written outside its
bounds. `lsize` is taken to be unbounded: talloc refuses an array long
before an `int` overflows.
-/

namespace XplEvent.Control

open Lib (Turn)

/-- What a `read` of one byte gives. `selected` is the result of the
`select` behind it. -/
inductive Read
  | byte (c : CChar)
  | eof
  | EINTR
  | EAGAIN (selected : Int)
  | error
deriving DecidableEq, Repr

/-- What `SocketReadLine` gives: the stored bytes or `NULL`, and
`*length`. -/
structure LineResult where
  line : Option CString
  length : Nat
deriving DecidableEq, Repr

/-- `SocketWaitReadReady`: only a `select` that times out is a failure. -/
def SocketWaitReadReady (selected : Int) : PassFail := if selected ≠ 0 then .PASS else .FAIL

/-- The variables of the loop. `*length` is the length of `line`. -/
structure ReadState where
  line : CString
  lsize : Nat
deriving Repr

def ReadState.initial : ReadState := ⟨[], 80⟩

/-- Double the buffer size and re-allocate. -/
def ReadState.extend (s : ReadState) : ReadState :=
  if s.line.length ≥ s.lsize - 2 then { s with lsize := 2 * s.lsize } else s

/-- A turn of the loop. -/
def readTurn (s : ReadState) (r : Read) : Except Fault (Turn ReadState LineResult) := do
  let s := s.extend
  match r with
  | .EINTR => return .again s
  | .EAGAIN selected =>
    match SocketWaitReadReady selected with
    | .PASS => return .again s
    | .FAIL => return .done ⟨none, s.line.length⟩
  | .error => return .done ⟨none, s.line.length⟩
  | .byte c =>
    if c = 13 then return .again s
    else if c ≠ LF then
      let line ← bufPut s.lsize s.line c
      return .again { s with line := line }
    else
      let line ← bufEnd s.lsize s.line
      return .done ⟨some line, line.length⟩
  | .eof => return .done ⟨some [], 0⟩

/-- A turn, without the buffer. -/
def lineTurn (line : CString) : Read → Turn CString LineResult
  | .EINTR => .again line
  | .EAGAIN selected => if selected ≠ 0 then .again line else .done ⟨none, line.length⟩
  | .error => .done ⟨none, line.length⟩
  | .byte c =>
    if c = 13 then .again line
    else if c ≠ LF then .again (line ++ [c])
    else .done ⟨some line, line.length⟩
  | .eof => .done ⟨some [], 0⟩

/-- What the calls of `SocketReadLine` give, one after the other. -/
def results : CString → List Read → List LineResult
  | _, [] => []
  | line, r :: reads =>
    match lineTurn line r with
    | .again line => results line reads
    | .done result => result :: results [] reads

/-- There is room for a byte and the terminator. -/
def ReadState.Fits (s : ReadState) : Prop := 80 ≤ s.lsize ∧ s.line.length + 2 ≤ s.lsize

theorem initial_fits : ReadState.initial.Fits := ⟨Nat.le_refl 80, by decide⟩

/-- A buffer that is extended has room for another byte. -/
theorem ReadState.extend_spec {s : ReadState} (h : s.Fits) : s.extend.line = s.line ∧
    s.extend.Fits ∧ s.line.length + 3 ≤ s.extend.lsize := by
  obtain ⟨hleast, hroom⟩ := h
  unfold ReadState.extend
  split
  · refine ⟨rfl, ⟨?_, ?_⟩, ?_⟩
    · show 80 ≤ 2 * s.lsize
      omega
    · show s.line.length + 2 ≤ 2 * s.lsize
      omega
    · show s.line.length + 3 ≤ 2 * s.lsize
      omega
  · exact ⟨rfl, ⟨hleast, hroom⟩, by omega⟩

/-- **A turn reads what it reads without a buffer**, and keeps the buffer
within its bounds. -/
theorem readTurn_eq {s : ReadState} (h : s.Fits) (r : Read) :
    ∃ turn, readTurn s r = .ok turn ∧
      match turn with
      | .again s' => lineTurn s.line r = .again s'.line ∧ s'.Fits
      | .done result => lineTurn s.line r = .done result := by
  obtain ⟨hline, hfits, hroom⟩ := ReadState.extend_spec h
  unfold readTurn lineTurn
  cases r with
  | EINTR => exact ⟨_, rfl, by rw [hline], hfits⟩
  | EAGAIN selected =>
    simp only [SocketWaitReadReady]
    split
    · rename_i hready
      split at hready
      · exact ⟨_, rfl, by rw [if_pos ‹_›, hline], hfits⟩
      · cases hready
    · rename_i hready
      split at hready
      · cases hready
      · exact ⟨_, rfl, by rw [if_neg ‹_›, hline]⟩
  | error => exact ⟨_, rfl, by rw [hline]⟩
  | byte c =>
    simp only
    by_cases hcr : c = 13
    · rw [if_pos hcr, if_pos hcr]
      exact ⟨_, rfl, by rw [hline], hfits⟩
    · rw [if_neg hcr, if_neg hcr]
      have hput : s.extend.line.length < s.extend.lsize := by
        rw [hline]
        omega
      by_cases hlf : c ≠ LF
      · rw [if_pos hlf, if_pos hlf, bufPut_ok hput]
        refine ⟨_, rfl, by rw [hline], hfits.1, ?_⟩
        show (s.extend.line ++ [c]).length + 2 ≤ s.extend.lsize
        rw [List.length_append, hline]
        exact hroom
      · rw [if_neg hlf, if_neg hlf, bufEnd_ok hput]
        exact ⟨_, rfl, by rw [hline]⟩
  | eof => exact ⟨_, rfl, rfl⟩

end XplEvent.Control
