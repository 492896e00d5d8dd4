import XplEvent.Lib.Monitor
import XplEvent.Receiver.Queue

/-!
# The end of the receiver

The main thread asks the receiver thread to end, and then reads the ready
event until there is something in it: that is taken for the dying gasp of
the thread, and the header is destroyed. But each datagram signals the same
event, and the gasp comes before the exit. `destroysBehindExit_iff` says
which reads come in time.

A thread that works on a header that is destroyed follows `NULL`.
-/

namespace XplEvent.Receiver

open Lib (run EachStep Accepts watch)

/-! ## The two threads -/

def XHCM_TERM_REQUEST : Int := 0x55

/-- Where the receiver thread is: it polls, or it is in `rxControlAction`,
or it has exited. -/
inductive RxPhase
  | polling
  /-- `val` has been copied. -/
  | control (val : Int)
  | terminating
  | gasped
  | exited
deriving DecidableEq, Repr

/-- Where the main thread is: in its loop, or in `XplRXDestroy`. -/
inductive MainPhase
  | running
  | requested
  | polling (termCount : Nat)
  | destroyed
deriving DecidableEq, Repr

/-- What the threads share, and where they are. The two descriptors are the
counters of an `eventfd`. -/
structure Handshake where
  rxReadyFD : Nat
  rxControlFD : Nat
  rxControlVal : Int
  rx : RxPhase
  main : MainPhase
deriving DecidableEq, Repr

/-- The threads as `XplRXInit` leaves them. -/
def Handshake.initial : Handshake := ⟨0, 0, 0, .polling, .running⟩

/-- A step of the receiver thread. -/
inductive RxTurn
  | rxIncomingAction
  | rxControlAction
  | readControl
  | rxSendReady
  | pthread_exit
deriving DecidableEq, Repr

/-- A step of the main thread. -/
inductive MainTurn
  | readReady
  | XplrxSendControlMsg
  | writeControl
  | readGasp
deriving DecidableEq, Repr

inductive Turn
  | rx (turn : RxTurn)
  | main (turn : MainTurn)
deriving DecidableEq, Repr

/-- What counts for the end of the receiver. -/
inductive EndEvent
  /-- `XHCM_TERM_REQUEST` is handled. -/
  | handled
  | exited
  | destroyRX
deriving DecidableEq, Repr

/-- A step of the receiver thread, where it has come to it. -/
def rxTurn (s : Handshake) (turn : RxTurn) : List EndEvent × Handshake :=
  match s.rx, turn with
  | .polling, .rxIncomingAction =>
    ([], { s with rxReadyFD := (eventWrite s.rxReadyFD).getD s.rxReadyFD })
  | .polling, .rxControlAction =>
    if s.rxControlFD ≠ 0 then ([], { s with rx := .control s.rxControlVal }) else ([], s)
  | .control val, .readControl =>
    if s.rxControlFD = 0 then ([], { s with rx := .polling })
    else if val = XHCM_TERM_REQUEST then
      ([.handled], { s with rxControlFD := 0, rx := .terminating })
    else ([], { s with rxControlFD := 0, rx := .polling })
  | .terminating, .rxSendReady =>
    ([], { s with rxReadyFD := (eventWrite s.rxReadyFD).getD s.rxReadyFD, rx := .gasped })
  | .gasped, .pthread_exit => ([.exited], { s with rx := .exited })
  | _, _ => ([], s)

/-- A step of the main thread, where it has come to it. The header is
destroyed at once when a `read` succeeds; the tenth that fails is fatal. -/
def mainTurn (s : Handshake) (turn : MainTurn) : List EndEvent × Except Fault Handshake :=
  match s.main, turn with
  | .running, .readReady => ([], .ok { s with rxReadyFD := 0 })
  | .running, .XplrxSendControlMsg =>
    ([], .ok { s with rxControlVal := XHCM_TERM_REQUEST, main := .requested })
  | .requested, .writeControl =>
    match eventWrite s.rxControlFD with
    | some count => ([], .ok { s with rxControlFD := count, main := .polling 0 })
    | none => ([], .error .fatal)
  | .polling termCount, .readGasp =>
    if s.rxReadyFD ≠ 0 then ([.destroyRX], .ok { s with rxReadyFD := 0, main := .destroyed })
    else if termCount + 1 < 10 then ([], .ok { s with main := .polling (termCount + 1) })
    else ([], .error .fatal)
  | _, _ => ([], .ok s)

/-- A step of one of the threads. -/
def turnStep (s : Handshake) : Turn → List EndEvent × Except Fault Handshake
  | .rx turn =>
    if s.main = .destroyed ∧ s.rx ≠ .exited then ([], .error .nullDeref)
    else ((rxTurn s turn).1, .ok (rxTurn s turn).2)
  | .main turn => mainTurn s turn

/-! ## What the handshake is for -/

/-- How far the thread has ended. -/
inductive Ended
  | running
  | handled
  | exited
deriving DecidableEq, Repr

/-- The header is destroyed behind the exit of the thread, which is behind
the request. -/
def endsInOrder : Ended → EndEvent → Option Ended
  | .running, .handled => some .handled
  | .handled, .exited => some .exited
  | .exited, .destroyRX => some .exited
  | _, _ => none

/-- **The header is destroyed only once the receiver thread has handled the
request and exited.** -/
def DestroysBehindExit (turns : List Turn) : Prop :=
  Accepts endsInOrder .running (run turnStep .initial turns).1

/-- The `read` comes in time: the thread has exited, or it has not sent its
dying gasp and no datagram has left a signal. -/
def ReadsInTime (s : Handshake) : Turn → Prop
  | .main .readGasp => ∀ termCount, s.main = .polling termCount →
    s.rx = .exited ∨ s.rx ≠ .gasped ∧ s.rxReadyFD = 0
  | _ => True

/-! ## A step at a time -/

/-- How far the thread has ended, by where it is. -/
def RxPhase.ended : RxPhase → Ended
  | .polling => .running
  | .control _ => .running
  | .terminating => .handled
  | .gasped => .handled
  | .exited => .exited

/-- The thread has taken the request. -/
def RxPhase.Asked : RxPhase → Prop
  | .polling => False
  | .control val => val = XHCM_TERM_REQUEST
  | _ => True

/-- Nothing ends before the request, and the dying gasp is there to be read
until it is. -/
structure Handshake.Orderly (s : Handshake) : Prop where
  value : s.main = .running → s.rxControlVal ≠ XHCM_TERM_REQUEST
  thread : s.main = .running → ¬ s.rx.Asked
  gasp : s.rx = .gasped → s.main ≠ .destroyed → s.rxReadyFD ≠ 0

theorem initial_orderly : Handshake.initial.Orderly :=
  ⟨fun _ => by decide, fun _ hasked => hasked, nofun⟩

/-- The condition is met, and the log and the state go on in order. -/
def GoesOn (s : Handshake) (turn : Turn) : Prop :=
  ReadsInTime s turn ∧ ∃ ended, watch endsInOrder s.rx.ended (turnStep s turn).1 = some ended ∧
    ∀ s', (turnStep s turn).2 = .ok s' → s'.Orderly ∧ ended = s'.rx.ended

/-- A step of the receiver thread, with what it logs. -/
def KeepsOrder (s : Handshake) (step : List EndEvent × Handshake) : Prop :=
  ∃ ended, watch endsInOrder s.rx.ended step.1 = some ended ∧ step.2.Orderly ∧
    ended = step.2.rx.ended

/-- The control event is read: the thread ends if it has been asked to. -/
theorem readControl_orderly {ready control : Nat} {val copied : Int} {main : MainPhase}
    (h : Handshake.Orderly ⟨ready, control, val, .control copied, main⟩) :
    KeepsOrder ⟨ready, control, val, .control copied, main⟩
      (rxTurn ⟨ready, control, val, .control copied, main⟩ .readControl) := by
  by_cases hctl : control = 0
  · rw [show rxTurn ⟨ready, control, val, .control copied, main⟩ .readControl =
      ([], ⟨ready, control, val, .polling, main⟩) from if_pos hctl]
    exact ⟨_, rfl, ⟨h.value, fun _ => id, nofun⟩, rfl⟩
  by_cases hval : copied = XHCM_TERM_REQUEST
  · rw [show rxTurn ⟨ready, control, val, .control copied, main⟩ .readControl =
      ([.handled], ⟨ready, 0, val, .terminating, main⟩) from (if_neg hctl).trans (if_pos hval)]
    exact ⟨_, rfl, ⟨h.value, fun hmain => absurd hval (h.thread hmain), nofun⟩, rfl⟩
  · rw [show rxTurn ⟨ready, control, val, .control copied, main⟩ .readControl =
      ([], ⟨ready, 0, val, .polling, main⟩) from (if_neg hctl).trans (if_neg hval)]
    exact ⟨_, rfl, ⟨h.value, fun _ => id, nofun⟩, rfl⟩

/-- The receiver thread goes on in order, whatever it does. -/
theorem rxTurn_orderly {s : Handshake} (h : s.Orderly) (turn : RxTurn) :
    KeepsOrder s (rxTurn s turn) := by
  have hidle : rxTurn s turn = ([], s) → KeepsOrder s (rxTurn s turn) := by
    intro hstep
    rw [hstep]
    exact ⟨_, rfl, h, rfl⟩
  obtain ⟨ready, control, val, rx, main⟩ := s
  cases rx with
  | polling =>
    cases turn with
    | rxIncomingAction => exact ⟨_, rfl, ⟨h.value, h.thread, nofun⟩, rfl⟩
    | rxControlAction =>
      by_cases hctl : control = 0
      · exact hidle (if_neg fun hne => hne hctl)
      · rw [show rxTurn ⟨ready, control, val, .polling, main⟩ .rxControlAction =
          ([], ⟨ready, control, val, .control val, main⟩) from if_pos hctl]
        exact ⟨_, rfl, ⟨h.value, h.value, nofun⟩, rfl⟩
    | _ => exact hidle rfl
  | control copied =>
    cases turn with
    | readControl => exact readControl_orderly h
    | _ => exact hidle rfl
  | terminating =>
    cases turn with
    | rxSendReady =>
      obtain ⟨n, hn⟩ := eventWrite_pos ready
      refine ⟨_, rfl, ⟨h.value, h.thread, fun _ _ => ?_⟩, rfl⟩
      show (eventWrite ready).getD ready ≠ 0
      rw [hn]
      exact Nat.succ_ne_zero n
    | _ => exact hidle rfl
  | gasped =>
    cases turn with
    | pthread_exit => exact ⟨_, rfl, ⟨h.value, h.thread, nofun⟩, rfl⟩
    | _ => exact hidle rfl
  | exited => exact hidle (by cases turn <;> rfl)

/-- A step of the main thread that logs nothing. -/
theorem GoesOn.silent {s s' : Handshake} {turn : Turn} (hcond : ReadsInTime s turn)
    (hstep : turnStep s turn = ([], .ok s')) (hrx : s'.rx = s.rx) (h : s'.Orderly) :
    GoesOn s turn := by
  refine ⟨hcond, s.rx.ended, by rw [hstep]; rfl, fun s'' hs'' => ?_⟩
  rw [hstep] at hs''
  cases hs''
  exact ⟨h, by rw [hrx]⟩

/-- A step of the main thread that ends the process. -/
theorem GoesOn.fatal {s : Handshake} {turn : Turn} (hcond : ReadsInTime s turn)
    (hstep : turnStep s turn = ([], .error .fatal)) : GoesOn s turn := by
  refine ⟨hcond, s.rx.ended, by rw [hstep]; rfl, fun s' hs' => ?_⟩
  rw [hstep] at hs'
  cases hs'

/-- The `read` of the dying gasp: it destroys the header exactly if there
is something to read. -/
theorem readGasp_orderly {s : Handshake} (h : s.Orderly) {termCount : Nat}
    (hmain : s.main = .polling termCount) :
    (¬ ReadsInTime s (.main .readGasp) ∧
      watch endsInOrder s.rx.ended (turnStep s (.main .readGasp)).1 = none) ∨
    GoesOn s (.main .readGasp) := by
  obtain ⟨ready, control, val, rx, main⟩ := s
  cases hmain
  have hcond : ReadsInTime ⟨ready, control, val, rx, .polling termCount⟩ (.main .readGasp) ↔
      rx = .exited ∨ rx ≠ .gasped ∧ ready = 0 := by
    constructor
    · intro hreads
      exact hreads termCount rfl
    · intro hin n _
      exact hin
  by_cases hready : ready = 0
  · right
    have hgasp : rx ≠ .gasped := fun heq => h.gasp heq nofun hready
    by_cases hcount : termCount + 1 < 10
    · exact .silent (hcond.mpr (.inr ⟨hgasp, hready⟩))
        ((if_neg fun hne => hne hready).trans (if_pos hcount)) rfl
        ⟨nofun, nofun, fun heq _ => absurd heq hgasp⟩
    · exact .fatal (hcond.mpr (.inr ⟨hgasp, hready⟩))
        ((if_neg fun hne => hne hready).trans (if_neg hcount))
  · have hstep : turnStep ⟨ready, control, val, rx, .polling termCount⟩ (.main .readGasp) =
        ([.destroyRX], .ok ⟨0, control, val, rx, .destroyed⟩) := if_pos hready
    by_cases hexited : rx = .exited
    · right
      refine ⟨hcond.mpr (.inl hexited), .exited, ?_, fun s' hs' => ?_⟩
      · rw [hstep, hexited]
        rfl
      · rw [hstep] at hs'
        cases hs'
        exact ⟨⟨nofun, nofun, fun _ hne => absurd rfl hne⟩, by rw [hexited]; rfl⟩
    · left
      refine ⟨fun hreads => ?_, ?_⟩
      · rcases hcond.mp hreads with hex | ⟨-, hzero⟩
        · exact hexited hex
        · exact hready hzero
      · rw [hstep]
        cases rx with
        | exited => exact absurd rfl hexited
        | _ => rfl

/-- Before the request. -/
theorem running_orderly {s : Handshake} (h : s.Orderly) (hmain : s.main = .running)
    (turn : MainTurn) : GoesOn s (.main turn) := by
  obtain ⟨ready, control, val, rx, main⟩ := s
  cases hmain
  have hgasp : rx ≠ .gasped := by
    rintro rfl
    exact h.thread rfl trivial
  cases turn with
  | readReady => exact .silent trivial rfl rfl ⟨h.value, h.thread, fun heq _ => absurd heq hgasp⟩
  | XplrxSendControlMsg =>
    exact .silent trivial rfl rfl ⟨nofun, nofun, fun heq _ => absurd heq hgasp⟩
  | writeControl => exact .silent trivial rfl rfl h
  | readGasp => exact .silent nofun rfl rfl h

/-- Between the request and its signal. -/
theorem requested_orderly {s : Handshake} (h : s.Orderly) (hmain : s.main = .requested)
    (turn : MainTurn) : GoesOn s (.main turn) := by
  obtain ⟨ready, control, val, rx, main⟩ := s
  cases hmain
  cases turn with
  | writeControl =>
    cases hwrite : eventWrite control with
    | some count =>
      have hstep : turnStep ⟨ready, control, val, rx, .requested⟩ (.main .writeControl) =
          ([], .ok ⟨ready, count, val, rx, .polling 0⟩) := by
        simp only [turnStep, mainTurn, hwrite]
      exact .silent trivial hstep rfl ⟨nofun, nofun, fun heq _ => h.gasp heq nofun⟩
    | none => exact .fatal trivial (by simp only [turnStep, mainTurn, hwrite])
  | readGasp => exact .silent nofun rfl rfl h
  | _ => exact .silent trivial rfl rfl h

/-- **A step goes on in order exactly if it reads in time.** -/
theorem turnStep_orderly {s : Handshake} (h : s.Orderly) (turn : Turn) :
    (¬ ReadsInTime s turn ∧ watch endsInOrder s.rx.ended (turnStep s turn).1 = none) ∨
      GoesOn s turn := by
  cases turn with
  | rx turn =>
    right
    by_cases hfreed : s.main = .destroyed ∧ s.rx ≠ .exited
    · refine ⟨trivial, s.rx.ended, ?_, fun s' hs' => ?_⟩
      · rw [turnStep, if_pos hfreed]
        rfl
      · rw [turnStep, if_pos hfreed] at hs'
        cases hs'
    · obtain ⟨ended, hwatch, horderly, hended⟩ := rxTurn_orderly h turn
      refine ⟨trivial, ended, ?_, fun s' hs' => ?_⟩
      · rw [turnStep, if_neg hfreed]
        exact hwatch
      · rw [turnStep, if_neg hfreed] at hs'
        cases hs'
        exact ⟨horderly, hended⟩
  | main turn =>
    cases hmain : s.main with
    | running => exact .inr (running_orderly h hmain turn)
    | requested => exact .inr (requested_orderly h hmain turn)
    | polling termCount =>
      cases turn with
      | readGasp => exact readGasp_orderly h hmain
      | _ => exact .inr (.silent trivial (by simp only [turnStep, mainTurn, hmain]) rfl h)
    | destroyed =>
      right
      have hidle : turnStep s (.main turn) = ([], .ok s) := by
        cases turn <;> simp only [turnStep, mainTurn, hmain]
      refine .silent ?_ hidle rfl h
      cases turn with
      | readGasp =>
        intro termCount hpolling
        rw [hmain] at hpolling
        cases hpolling
      | _ => trivial

/-- **The header is destroyed behind the exit of the thread exactly if each
`read` of the dying gasp comes in time.** -/
theorem destroysBehindExit_iff (turns : List Turn) :
    DestroysBehindExit turns ↔ EachStep turnStep ReadsInTime .initial turns := by
  refine Lib.accepts_run_iff (R := fun s ended => s.Orderly ∧ ended = s.rx.ended) ?_
    ⟨initial_orderly, rfl⟩ turns
  rintro s ended turn ⟨h, rfl⟩
  exact turnStep_orderly h turn

/-- A datagram comes in before the request, and its signal is taken for the
dying gasp. -/
def earlyTurns : List Turn :=
  [.rx .rxIncomingAction, .main .XplrxSendControlMsg, .main .writeControl, .main .readGasp]

theorem earlyTurns_destroy :
    run turnStep .initial earlyTurns = ([.destroyRX], .ok ⟨0, 1, 85, .polling, .destroyed⟩) ∧
      ¬ DestroysBehindExit earlyTurns := by
  have hrun : run turnStep .initial earlyTurns =
      ([.destroyRX], .ok ⟨0, 1, 85, .polling, .destroyed⟩) := by decide
  refine ⟨hrun, ?_⟩
  rintro ⟨ended, hreads⟩
  rw [hrun] at hreads
  cases hreads

end XplEvent.Receiver
