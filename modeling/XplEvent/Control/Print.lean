import XplEvent.Base
import XplEvent.Lib.Loop

/-!
# `SocketPrintf` — a text written to a socket

The text is offered to `write` until the socket has taken it. What each
`write` gives is the input: a count, which is at most what was offered, an
interrupt, no room yet, with what `select` says of the five seconds after
it, or an error.

After a count that falls short the pointer goes forward by what was offered
and not by what was taken. It is then at the terminator, and the next
`write` has nothing to write and says so: the rest of the text is lost, and
the call returns `PASS` (`printLoop_eq`).
-/

namespace XplEvent.Control

open Lib (Turn)

/-- What a `write` gives. `selected` is the result of the `select` behind
it. -/
inductive Write
  | count (n : Nat)
  | EINTR
  | EAGAIN (selected : Int)
  | error
deriving DecidableEq, Repr

/-- `SocketWaitWriteReady`: only a `select` that times out is a failure. -/
def SocketWaitWriteReady (selected : Int) : PassFail := if selected ≠ 0 then .PASS else .FAIL

/-- `strlen(sp)`, with `sp` an offset into the string. -/
def strlenAt (string : CString) (sp : Nat) : Except Fault Nat :=
  if sp ≤ string.length then .ok (string.length - sp) else .error .outOfBounds

/-- The pointer, and what the socket has taken. -/
structure PrintState where
  sp : Nat
  accepted : CString
deriving DecidableEq, Repr

/-- The result of `SocketPrintf`, and what the socket has taken. -/
structure PrintResult where
  res : PassFail
  accepted : CString
deriving DecidableEq, Repr

/-- A turn of the loop. -/
def printTurn (string : CString) (s : PrintState) (w : Write) :
    Except Fault (Turn PrintState PrintResult) := do
  let len ← strlenAt string s.sp
  match w with
  | .EINTR => return .again s
  | .EAGAIN selected =>
    match SocketWaitWriteReady selected with
    | .PASS => return .again s
    | .FAIL => return .done ⟨.FAIL, s.accepted⟩
  | .error => return .done ⟨.FAIL, s.accepted⟩
  | .count n =>
    let res := min n len
    let accepted := s.accepted ++ (string.drop s.sp).take res
    if res = len then return .done ⟨.PASS, accepted⟩
    else return .again ⟨s.sp + len, accepted⟩

/-- The loop. `none` when it is still writing behind the last result. -/
def printLoop (string : CString) : PrintState → List Write → Except Fault (Option PrintResult)
  | _, [] => .ok none
  | s, w :: ws => do
    match ← printTurn string s w with
    | .again s => printLoop string s ws
    | .done result => return some result

/-- `SocketPrintf`, for the formatted string. Nothing is written to a
negative socket. -/
def SocketPrintf (socket : Int) (string : CString) (ws : List Write) :
    Except Fault (Option PrintResult) :=
  if socket ≥ 0 then printLoop string ⟨0, []⟩ ws else .ok (some ⟨.PASS, []⟩)

/-! ## What the results come to -/

/-- The loop goes round again as it was. -/
def Write.retried : Write → Bool
  | .EINTR => true
  | .EAGAIN selected => SocketWaitWriteReady selected = .PASS
  | _ => false

/-- The results that are not retried. -/
def settling (ws : List Write) : List Write := ws.filter fun w => !w.retried

/-- What the results behind a count that falls short come to: there is
nothing left to write. -/
def printedBehind (taken : CString) : List Write → Option PrintResult
  | [] => none
  | .count _ :: _ => some ⟨.PASS, taken⟩
  | _ :: _ => some ⟨.FAIL, taken⟩

/-- What the results that are not retried come to. -/
def printed (string : CString) : List Write → Option PrintResult
  | [] => none
  | .count n :: ws =>
    if string.length ≤ n then some ⟨.PASS, string⟩ else printedBehind (string.take n) ws
  | _ :: _ => some ⟨.FAIL, []⟩

theorem strlenAt_ok {string : CString} {sp : Nat} (h : sp ≤ string.length) :
    strlenAt string sp = .ok (string.length - sp) := if_pos h

theorem printTurn_retried {string : CString} {s : PrintState} (h : s.sp ≤ string.length)
    {w : Write} (hw : w.retried = true) : printTurn string s w = .ok (.again s) := by
  rw [printTurn, strlenAt_ok h]
  cases w with
  | EINTR => rfl
  | EAGAIN selected =>
    have hready : SocketWaitWriteReady selected = .PASS := of_decide_eq_true hw
    simp only [ok_bind, hready]
    rfl
  | count n => cases hw
  | error => cases hw

/-- A result that is neither retried nor a count ends the loop. -/
theorem printTurn_failed {string : CString} {s : PrintState} (h : s.sp ≤ string.length)
    {w : Write} (hw : w.retried = false) (hcount : ∀ n, w ≠ .count n) :
    printTurn string s w = .ok (.done ⟨.FAIL, s.accepted⟩) := by
  rw [printTurn, strlenAt_ok h]
  cases w with
  | EINTR => cases hw
  | EAGAIN selected =>
    have hready : SocketWaitWriteReady selected = .FAIL := by
      cases hwait : SocketWaitWriteReady selected with
      | PASS => exact absurd hwait (of_decide_eq_false hw)
      | FAIL => rfl
    simp only [ok_bind, hready]
    rfl
  | count n => exact absurd rfl (hcount n)
  | error => rfl

/-- A count: either all that is left is taken, or the pointer goes to the
end. -/
theorem printTurn_count {string : CString} {s : PrintState} (h : s.sp ≤ string.length) (n : Nat) :
    printTurn string s (.count n) = .ok
      (if string.length - s.sp ≤ n then .done ⟨.PASS, s.accepted ++ string.drop s.sp⟩
        else .again ⟨string.length, s.accepted ++ (string.drop s.sp).take n⟩) := by
  rw [printTurn, strlenAt_ok h, ok_bind]
  by_cases hn : string.length - s.sp ≤ n
  · have hmin : min n (string.length - s.sp) = string.length - s.sp := Nat.min_eq_right hn
    have hall : (string.drop s.sp).take (string.length - s.sp) = string.drop s.sp :=
      List.take_of_length_le (Nat.le_of_eq List.length_drop)
    simp only [hmin, hall, if_true, if_pos hn]
    rfl
  · have hmin : min n (string.length - s.sp) = n := Nat.min_eq_left (Nat.le_of_not_le hn)
    have hne : n ≠ string.length - s.sp := fun heq => hn (Nat.le_of_eq heq.symm)
    have hend : s.sp + (string.length - s.sp) = string.length := by omega
    simp only [hmin, if_neg hne, if_neg hn, hend]
    rfl

theorem printLoop_again {string : CString} {s s' : PrintState} {w : Write}
    (h : printTurn string s w = .ok (.again s')) (ws : List Write) :
    printLoop string s (w :: ws) = printLoop string s' ws := by
  rw [printLoop, h]
  rfl

theorem printLoop_done {string : CString} {s : PrintState} {w : Write} {result : PrintResult}
    (h : printTurn string s w = .ok (.done result)) (ws : List Write) :
    printLoop string s (w :: ws) = .ok (some result) := by
  rw [printLoop, h]
  rfl

/-- Behind the terminator the pointer stays in the string, whatever is
retried. -/
theorem printLoop_settling {string : CString} {s : PrintState} (h : s.sp ≤ string.length)
    (ws : List Write) : printLoop string s (settling ws) = printLoop string s ws := by
  induction ws generalizing s with
  | nil => rfl
  | cons w ws ih =>
    cases hw : w.retried with
    | true =>
      have hskip : settling (w :: ws) = settling ws := List.filter_cons_of_neg (by simp [hw])
      rw [hskip, printLoop_again (printTurn_retried h hw), ih h]
    | false =>
      have hkeep : settling (w :: ws) = w :: settling ws := List.filter_cons_of_pos (by simp [hw])
      rw [hkeep]
      by_cases hcount : ∃ n, w = .count n
      · obtain ⟨n, rfl⟩ := hcount
        have hturn := printTurn_count h n
        split at hturn
        · rw [printLoop_done hturn, printLoop_done hturn]
        · rw [printLoop_again hturn, printLoop_again hturn, ih (Nat.le_refl string.length)]
      · have hturn := printTurn_failed h hw fun n heq => hcount ⟨n, heq⟩
        rw [printLoop_done hturn, printLoop_done hturn]

/-- With the pointer at the terminator nothing more is taken. -/
theorem printLoop_behind {string taken : CString} {ws : List Write}
    (h : ∀ w ∈ ws, w.retried = false) :
    printLoop string ⟨string.length, taken⟩ ws = .ok (printedBehind taken ws) := by
  have hend : (⟨string.length, taken⟩ : PrintState).sp ≤ string.length := Nat.le_refl string.length
  rcases ws with _ | ⟨w, ws⟩
  · rfl
  · have hw := h w List.mem_cons_self
    cases w with
    | count n =>
      have hturn := printTurn_count hend n
      rw [if_pos (by simp), List.drop_length, List.append_nil] at hturn
      exact printLoop_done hturn ws
    | EINTR => cases hw
    | EAGAIN selected => exact printLoop_done (printTurn_failed hend hw fun n => by simp) ws
    | error => exact printLoop_done (printTurn_failed hend hw fun n => by simp) ws

/-- **What the loop does**: the first count that falls short is the last
that takes anything. -/
theorem printLoop_eq (string : CString) (ws : List Write) :
    printLoop string ⟨0, []⟩ ws = .ok (printed string (settling ws)) := by
  have hstart : (⟨0, []⟩ : PrintState).sp ≤ string.length := Nat.zero_le string.length
  have hsettled : ∀ w ∈ settling ws, w.retried = false := by
    intro w hw
    simpa using (List.mem_filter.mp hw).2
  rw [← printLoop_settling hstart]
  generalize settling ws = results at hsettled ⊢
  rcases results with _ | ⟨w, rest⟩
  · rfl
  · have hw := hsettled w List.mem_cons_self
    cases w with
    | count n =>
      have hturn := printTurn_count hstart n
      show _ = Except.ok (if string.length ≤ n then some ⟨.PASS, string⟩ else
        printedBehind (string.take n) rest)
      split at hturn
      · rename_i hn
        rw [if_pos (by simpa using hn)]
        exact printLoop_done hturn rest
      · rename_i hn
        rw [if_neg (by simpa using hn), printLoop_again hturn]
        exact printLoop_behind fun v hv => hsettled v (List.mem_cons_of_mem _ hv)
    | EINTR => cases hw
    | EAGAIN selected => exact printLoop_done (printTurn_failed hstart hw fun n => by simp) rest
    | error => exact printLoop_done (printTurn_failed hstart hw fun n => by simp) rest

/-! ## When nothing is lost -/

/-- Whenever `PASS` is returned, the socket has taken the string. -/
def LosesNothing (socket : Int) (string : CString) (ws : List Write) : Prop :=
  ∀ accepted, SocketPrintf socket string ws = .ok (some ⟨.PASS, accepted⟩) → accepted = string

/-- The socket takes a part of the string, and the next `write` that is not
retried does not fail. -/
def TakenInParts (string : CString) (ws : List Write) : Prop :=
  ∃ n m rest, settling ws = .count n :: .count m :: rest ∧ n < string.length

/-- **A string is lost in part exactly when it is taken in parts.** -/
theorem losesNothing_iff {socket : Int} (h : 0 ≤ socket) (string : CString) (ws : List Write) :
    LosesNothing socket string ws ↔ ¬ TakenInParts string ws := by
  unfold LosesNothing TakenInParts
  rw [SocketPrintf, if_pos h, printLoop_eq]
  constructor
  · rintro hpass ⟨n, m, rest, hws, hn⟩
    have hshort : printed string (settling ws) = some ⟨.PASS, string.take n⟩ := by
      rw [hws]
      exact if_neg (Nat.not_le_of_lt hn)
    have htaken := congrArg List.length (hpass (string.take n) (congrArg Except.ok hshort))
    rw [List.length_take] at htaken
    omega
  · intro hparts accepted hpass
    have hprinted : printed string (settling ws) = some ⟨.PASS, accepted⟩ := Except.ok.inj hpass
    unfold printed at hprinted
    split at hprinted
    · cases hprinted
    · rename_i n rest hws
      split at hprinted
      · cases hprinted
        rfl
      · rename_i hn
        unfold printedBehind at hprinted
        split at hprinted
        · cases hprinted
        · rename_i m rest'
          exact absurd ⟨n, m, rest', hws, Nat.lt_of_not_le hn⟩ hparts
        · cases hprinted
    · cases hprinted

/-- An interrupt and a full buffer do no harm to a text that is then taken
whole. -/
theorem losesNothing_retried : LosesNothing 3 (cstr "ok:\n")
    [.EINTR, .EAGAIN 1, .count 4] := by
  refine (losesNothing_iff (by decide) _ _).mpr ?_
  rintro ⟨n, m, rest, hws, -⟩
  cases hws

/-- Two characters of four are taken, and `PASS` is returned. -/
theorem losesNothing_fails : ¬ LosesNothing 3 (cstr "ok:\n") [.count 2, .count 0] := by
  intro h
  have hshort := h (cstr "ok") rfl
  cases hshort

end XplEvent.Control
