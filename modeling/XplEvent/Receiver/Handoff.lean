import XplEvent.Lib.Monitor
import XplEvent.Receiver.Queue

/-!
# The hand-off of datagrams

The receiver thread queues datagrams and the main thread takes them, in any
order of the calls. The main thread gets what a plain queue would give it,
as long as no string that it takes is empty: `UtilMoveString` asserts that
there is something to move.
-/

namespace XplEvent.Receiver

open Lib (run EachStep)

/-- A call of one of the two threads. -/
inductive Call
  /-- `rq` is the address that talloc gives. -/
  | rxIncomingAction (rq : Addr) (received : Option CString)
  | XplrxDQRawString
deriving DecidableEq, Repr

/-- A call, with what `XplrxDQRawString` returns as its log. -/
def callStep (xh : RxHead) : Call → List (Option CString) × Except Fault RxHead
  | .rxIncomingAction rq received => ([], rxIncomingAction xh rq received)
  | .XplrxDQRawString =>
    match XplrxDQRawString xh with
    | .error f => ([], .error f)
    | .ok (xh, res) => ([res], .ok xh)

/-- talloc gives memory that is not in use. -/
def Allocates (xh : RxHead) : Call → Prop
  | .rxIncomingAction rq (some _) => xh.rxQEPool rq = none
  | _ => True

/-- What a plain queue gives. -/
def fifo : List CString → List Call → List (Option CString)
  | _, [] => []
  | queue, .rxIncomingAction _ received :: calls =>
    fifo (queue ++ (received.map arrival).toList) calls
  | queue, .XplrxDQRawString :: calls => queue.head? :: fifo queue.tail calls

/-- **The hand-off works**: no call fails, and each string comes out once,
in the order of the arrivals. -/
def HandsOff (calls : List Call) : Prop :=
  ∃ xh, run callStep .initial calls = (fifo [] calls, .ok xh)

/-- No string that is taken from the queue is empty. -/
def TakesNoEmpty : List CString → List Call → Prop
  | _, [] => True
  | queue, .rxIncomingAction _ received :: calls =>
    TakesNoEmpty (queue ++ (received.map arrival).toList) calls
  | queue, .XplrxDQRawString :: calls => queue.head? ≠ some [] ∧ TakesNoEmpty queue.tail calls

/-! ## A call at a time -/

/-- `XplrxDQRawString` gives what a plain queue gives, unless it is the
empty string. -/
theorem XplrxDQRawString_describes {xh : RxHead} {queue : List CString} (h : xh.Describes queue) :
    if queue.head? = some [] then XplrxDQRawString xh = .error .assertion
    else ∃ xh', XplrxDQRawString xh = .ok (xh', queue.head?) ∧ xh'.Describes queue.tail := by
  obtain ⟨xh', htaken, hdescribes, -⟩ := rxDQRawString_describes h
  unfold XplrxDQRawString
  simp only [h.magic, decide_true, ASSERT_FAIL_true, ok_bind, htaken]
  cases queue with
  | nil =>
    rw [if_neg (show ([] : List CString).head? ≠ some [] from nofun)]
    exact ⟨xh', rfl, hdescribes⟩
  | cons s queue =>
    rw [List.head?_cons]
    by_cases hs : s = []
    · rw [if_pos (congrArg some hs), hs]
      rfl
    · rw [if_neg fun heq => hs (Option.some.inj heq)]
      have hmove : UtilMoveString s 0 = .ok s := UtilMoveString_ok (List.length_pos_iff.mpr hs)
      simp only [hmove]
      exact ⟨xh', rfl, hdescribes⟩

/-- A call that returns. -/
theorem run_calls_iff {xh xh' : RxHead} {call : Call} {es : List (Option CString)}
    (h : callStep xh call = (es, .ok xh')) (calls : List Call) (outs : List (Option CString)) :
    (∃ xh₁, run callStep xh (call :: calls) = (es ++ outs, .ok xh₁)) ↔
      ∃ xh₁, run callStep xh' calls = (outs, .ok xh₁) := by
  rw [Lib.run_cons_eq h]
  refine exists_congr fun xh₁ => ?_
  constructor
  · intro heq
    exact Prod.ext (List.append_cancel_left (Prod.mk.inj heq).1) (Prod.mk.inj heq).2
  · intro heq
    rw [heq]

/-- **The calls are those of a plain queue**, by induction on the calls,
with the queue that the header describes. -/
theorem run_calls {xh : RxHead} {queue : List CString} (h : xh.Describes queue) (calls : List Call)
    (halloc : EachStep callStep Allocates xh calls) :
    (∃ xh', run callStep xh calls = (fifo queue calls, .ok xh')) ↔ TakesNoEmpty queue calls := by
  induction calls generalizing xh queue with
  | nil => exact iff_of_true ⟨xh, rfl⟩ trivial
  | cons call calls ih =>
    obtain ⟨hfree, hrest⟩ := halloc
    cases call with
    | rxIncomingAction rq received =>
      cases received with
      | none =>
        have hstep : callStep xh (.rxIncomingAction rq none) = ([], .ok xh) :=
          congrArg (Prod.mk []) (rxIncomingAction_error h.magic rq)
        rw [hstep] at hrest
        unfold fifo TakesNoEmpty
        rw [show queue ++ ((none : Option CString).map arrival).toList = queue from
          List.append_nil queue]
        exact (run_calls_iff hstep calls _).trans (ih h hrest)
      | some datagram =>
        obtain ⟨xh', hin, hdescribes, -⟩ := rxIncomingAction_describes h hfree datagram
        have hstep : callStep xh (.rxIncomingAction rq (some datagram)) = ([], .ok xh') :=
          congrArg (Prod.mk []) hin
        rw [hstep] at hrest
        exact (run_calls_iff hstep calls _).trans (ih hdescribes hrest)
    | XplrxDQRawString =>
      have htaken := XplrxDQRawString_describes h
      unfold fifo TakesNoEmpty
      by_cases hempty : queue.head? = some []
      · rw [if_pos hempty] at htaken
        refine iff_of_false ?_ fun htakes => htakes.1 hempty
        rintro ⟨xh', hrun⟩
        rw [run, callStep, htaken] at hrun
        cases (Prod.mk.inj hrun).2
      · rw [if_neg hempty] at htaken
        obtain ⟨xh', htaken, hdescribes⟩ := htaken
        have hstep : callStep xh .XplrxDQRawString = ([queue.head?], .ok xh') := by
          rw [callStep, htaken]
        rw [hstep] at hrest
        exact (run_calls_iff hstep calls _).trans
          ((ih hdescribes hrest).trans (iff_and_self.mpr fun _ => hempty))

/-- **The hand-off works exactly if no empty string is taken.** -/
theorem handsOff_iff (calls : List Call) (h : EachStep callStep Allocates .initial calls) :
    HandsOff calls ↔ TakesNoEmpty [] calls :=
  run_calls initial_describes calls h

/-- Two datagrams, the second one cut at its NUL. -/
def sampleCalls : List Call :=
  [.rxIncomingAction 1 (some (cstr "xpl-stat")), .rxIncomingAction 2 (some (cstr "a\x00b")),
    .XplrxDQRawString, .XplrxDQRawString, .XplrxDQRawString]

theorem sampleCalls_handOff : HandsOff sampleCalls := by
  refine (handsOff_iff sampleCalls ⟨rfl, rfl, trivial, trivial, trivial, trivial⟩).mpr ?_
  exact ⟨by decide, by decide, by decide, trivial⟩

/-- An empty datagram ends the process. -/
def emptyCalls : List Call := [.rxIncomingAction 1 (some []), .XplrxDQRawString]

theorem emptyDatagram_kills : EachStep callStep Allocates .initial emptyCalls ∧
    (run callStep .initial emptyCalls).2 = .error .assertion ∧ ¬ HandsOff emptyCalls := by
  have hrun : (run callStep .initial emptyCalls).2 = .error .assertion := rfl
  refine ⟨⟨rfl, trivial, trivial⟩, hrun, ?_⟩
  rintro ⟨xh, hok⟩
  rw [hok] at hrun
  cases hrun

end XplEvent.Receiver
