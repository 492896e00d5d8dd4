import XplEvent.Lib.Monitor
import XplEvent.Receiver.Queue

/-!
# The ready event

The receiver thread adds to the counter of the ready event with each
datagram it queues. The main thread clears the counter and then empties the
queue, with datagrams coming in between its steps. No datagram is left in
the queue without a wake-up to come.
-/

namespace XplEvent.Receiver

open Lib (run EachStep watch)

/-- The header that the threads share, and where the main thread is: in the
loop of `rxReadyAction`, or waiting for the ready event. -/
structure Threads where
  xh : RxHead
  draining : Bool

/-- The threads, once the receiver is set up. -/
def Threads.initial : Threads := ⟨.initial, false⟩

/-- A step of one of the two threads. -/
inductive Move
  /-- `rq` is the address that talloc gives. -/
  | rxIncomingAction (rq : Addr) (received : Option CString)
  /-- The `read` of `rxReadyAction`. -/
  | readReady
  /-- The test of its loop. -/
  | rxDQRawString
deriving DecidableEq, Repr

/-- What happens to a string. -/
inductive Passing
  | queued (s : CString)
  | dequeued (s : CString)
deriving DecidableEq, Repr

/-- A step. A `read` of a counter that is zero fails. -/
def moveStep (t : Threads) : Move → List Passing × Except Fault Threads
  | .rxIncomingAction rq received =>
    match rxIncomingAction t.xh rq received with
    | .error f => ([], .error f)
    | .ok xh => ((received.map fun datagram => .queued (arrival datagram)).toList,
        .ok { t with xh := xh })
  | .readReady =>
    match t.draining, t.xh.rxReadyFD with
    | false, some (_ + 1) => ([], .ok ⟨{ t.xh with rxReadyFD := some 0 }, true⟩)
    | _, _ => ([], .ok t)
  | .rxDQRawString =>
    match t.draining with
    | false => ([], .ok t)
    | true =>
      match rxDQRawString t.xh with
      | .error f => ([], .error f)
      | .ok (xh, none) => ([], .ok ⟨xh, false⟩)
      | .ok (xh, some s) => ([.dequeued s], .ok ⟨xh, true⟩)

/-- talloc gives memory that is not in use. -/
def MoveAllocates (t : Threads) : Move → Prop
  | .rxIncomingAction rq (some _) => t.xh.rxQEPool rq = none
  | _ => True

/-! ## What the threads keep -/

/-- The strings that are queued. -/
def queuedIn (log : List Passing) : List CString :=
  log.filterMap fun passing => match passing with
    | .queued s => some s
    | .dequeued _ => none

/-- The strings that are dequeued. -/
def dequeuedIn (log : List Passing) : List CString :=
  log.filterMap fun passing => match passing with
    | .queued _ => none
    | .dequeued s => some s

/-- **The header describes the queue, and a wake-up is to come** if the
main thread waits while there is something in it. -/
structure Threads.Keep (t : Threads) (queue : List CString) : Prop where
  describes : t.xh.Describes queue
  defined : ∃ count, t.xh.rxReadyFD = some count
  awake : t.draining = false → queue ≠ [] → ∃ n, t.xh.rxReadyFD = some (n + 1)

/-- A queue, as it follows the log: first in, first out. -/
def follow (queue : List CString) : Passing → Option (List CString)
  | .queued s => some (queue ++ [s])
  | .dequeued s => if queue.head? = some s then some queue.tail else none

/-- What a queue has followed. -/
theorem watch_follow {queue queue' : List CString} {log : List Passing}
    (h : watch follow queue log = some queue') :
    queue ++ queuedIn log = dequeuedIn log ++ queue' := by
  induction log generalizing queue with
  | nil =>
    cases h
    exact List.append_nil _
  | cons passing log ih =>
    rw [Lib.watch_cons] at h
    cases passing with
    | queued s =>
      have hrest := ih h
      rw [List.append_assoc] at hrest
      exact hrest
    | dequeued s =>
      obtain ⟨queue₁, hstep, hrest⟩ := Option.bind_eq_some_iff.mp h
      rw [follow] at hstep
      split at hstep
      · rename_i hhead
        cases hstep
        obtain ⟨rest, rfl⟩ := List.head?_eq_some_iff.mp hhead
        show s :: (rest ++ queuedIn log) = s :: (dequeuedIn log ++ queue')
        rw [← ih hrest]
        rfl
      · cases hstep

/-! ## A step at a time -/

theorem moveStep_incoming {t : Threads} {queue : List CString} (h : t.Keep queue) {rq : Addr}
    {datagram : CString} (hrq : t.xh.rxQEPool rq = none) : ∃ t',
      moveStep t (.rxIncomingAction rq (some datagram)) = ([.queued (arrival datagram)], .ok t') ∧
      t'.Keep (queue ++ [arrival datagram]) := by
  obtain ⟨xh', hin, hdescribes, hsignals⟩ := rxIncomingAction_describes h.describes hrq datagram
  obtain ⟨count, hcount⟩ := h.defined
  obtain ⟨n, hn⟩ := hsignals count hcount
  refine ⟨{ t with xh := xh' }, ?_, hdescribes, ⟨n + 1, hn⟩, fun _ _ => ⟨n, hn⟩⟩
  simp only [moveStep, hin]
  rfl

/-- The counter is cleared only on the way into the loop. -/
theorem moveStep_readReady {t : Threads} {queue : List CString} (h : t.Keep queue) :
    ∃ t', moveStep t .readReady = ([], .ok t') ∧ t'.Keep queue := by
  obtain ⟨xh, draining⟩ := t
  obtain ⟨count, hcount⟩ := h.defined
  have hcount' : xh.rxReadyFD = some count := hcount
  cases draining with
  | true => exact ⟨_, by simp only [moveStep], h⟩
  | false =>
    cases count with
    | zero => exact ⟨_, by simp only [moveStep, hcount'], h⟩
    | succ n =>
      refine ⟨⟨{ xh with rxReadyFD := some 0 }, true⟩, by simp only [moveStep, hcount'], ?_⟩
      have hdescribes := h.describes
      exact ⟨⟨hdescribes.magic, hdescribes.links, hdescribes.numRxEntries⟩, ⟨0, rfl⟩, nofun⟩

/-- The loop is left when the queue is empty. -/
theorem moveStep_rxDQRawString {t : Threads} {queue : List CString} (h : t.Keep queue) :
    ∃ log queue' t', moveStep t .rxDQRawString = (log, .ok t') ∧
      watch follow queue log = some queue' ∧ t'.Keep queue' := by
  obtain ⟨xh, draining⟩ := t
  cases draining with
  | false => exact ⟨[], queue, _, by simp only [moveStep], rfl, h⟩
  | true =>
    obtain ⟨xh', htaken, hdescribes, hready⟩ := rxDQRawString_describes h.describes
    have hdefined : ∃ count, xh'.rxReadyFD = some count := by
      rw [hready]
      exact h.defined
    cases queue with
    | nil =>
      refine ⟨[], [], ⟨xh', false⟩, ?_, rfl, hdescribes, hdefined, fun _ hne => absurd rfl hne⟩
      simp only [moveStep, htaken, List.head?_nil]
    | cons s queue =>
      refine ⟨[.dequeued s], queue, ⟨xh', true⟩, ?_, ?_, hdescribes, hdefined, nofun⟩
      · simp only [moveStep, htaken, List.head?_cons]
      · rw [Lib.watch_cons, follow, if_pos (List.head?_cons ..)]
        rfl

/-- A step keeps what the threads keep. -/
theorem moveStep_keeps (t : Threads) (queue : List CString) (move : Move) (h : t.Keep queue)
    (halloc : MoveAllocates t move) : ∃ queue' t',
      watch follow queue (moveStep t move).1 = some queue' ∧ (moveStep t move).2 = .ok t' ∧
      t'.Keep queue' := by
  cases move with
  | rxIncomingAction rq received =>
    cases received with
    | none =>
      have hstep : moveStep t (.rxIncomingAction rq none) = ([], .ok t) := by
        simp only [moveStep, rxIncomingAction_error h.describes.magic]
        rfl
      rw [hstep]
      exact ⟨queue, t, rfl, rfl, h⟩
    | some datagram =>
      obtain ⟨t', hstep, hkeep⟩ := moveStep_incoming h halloc
      rw [hstep]
      exact ⟨_, t', rfl, rfl, hkeep⟩
  | readReady =>
    obtain ⟨t', hstep, hkeep⟩ := moveStep_readReady h
    rw [hstep]
    exact ⟨queue, t', rfl, rfl, hkeep⟩
  | rxDQRawString =>
    obtain ⟨log, queue', t', hstep, hwatch, hkeep⟩ := moveStep_rxDQRawString h
    rw [hstep]
    exact ⟨queue', t', hwatch, rfl, hkeep⟩

theorem initial_keep : Threads.initial.Keep [] :=
  ⟨initial_describes, ⟨0, rfl⟩, fun _ hne => absurd rfl hne⟩

/-- **No string is lost, and no wake-up.** In every run the strings come
out in the order of their arrival, and what is left is what the header
describes. A shorter run ends in every state on the way. -/
theorem noWakeUp_lost (moves : List Move) (h : EachStep moveStep MoveAllocates .initial moves) :
    ∃ log t queue, run moveStep .initial moves = (log, .ok t) ∧
      queuedIn log = dequeuedIn log ++ queue ∧ t.Keep queue := by
  obtain ⟨queue, t, hwatch, hresult, hkeep⟩ := Lib.run_returns moveStep_keeps initial_keep h
  exact ⟨_, t, queue, Prod.ext rfl hresult, watch_follow hwatch, hkeep⟩

/-- A datagram that comes in between the `read` and the loop, and one that
comes in before the queue is found empty. -/
def sampleMoves : List Move :=
  [.rxIncomingAction 1 (some (cstr "a")), .readReady, .rxIncomingAction 2 (some (cstr "b")),
    .rxDQRawString, .rxDQRawString, .rxIncomingAction 1 (some (cstr "c")), .rxDQRawString,
    .rxDQRawString]

theorem sampleMoves_lose_nothing : ∃ log t queue,
    run moveStep .initial sampleMoves = (log, .ok t) ∧
      queuedIn log = dequeuedIn log ++ queue ∧ t.Keep queue :=
  noWakeUp_lost sampleMoves ⟨rfl, trivial, rfl, trivial, trivial, rfl, trivial, trivial, trivial⟩

end XplEvent.Receiver
