import XplEvent.Control.Listener
import XplEvent.Lib.Monitor

/-!
# A control connection from line to line

The lines of a connection make up segments: single lines outside of a
transfer, and transfers, from the request to the line that ends it. What
the daemon does for the connection is what it does for the segments, one
after the other. A script is saved at the end of an upload and at no other
time, and each transfer that ends gets one reply.

A command that ends the process ends the connection with it; the lines
behind it are not read.
-/

namespace XplEvent.Control

open Lib (run)

/-- The bytes of a line, and the answers of the rest of the daemon. -/
abbrev Input := CString × Answers

/-- The string that is acted on. -/
def Input.line (i : Input) : CString := cutNul i.1

/-- What `SocketReadLine` gives for a line. -/
def Input.result (i : Input) : LineResult × Answers := (⟨some i.1, i.1.length⟩, i.2)

/-- What `SocketReadLine` gives at the end of the stream. -/
def endOfStream (d : Answers) : LineResult × Answers := (⟨some [], 0⟩, d)

/-- A connection over some lines. -/
def session (conn : Option ConnectionData) (inputs : List Input) : Deed (Option ConnectionData) :=
  run listen conn (inputs.map Input.result)

/-- An event that is no part of a transfer. -/
def Event.Outside : Event → Prop
  | .received _ => False
  | .receiveScript => False
  | .DBIRScript _ _ => False
  | .closed => False
  | _ => True

/-- A request to receive a script. -/
def Input.Requests (i : Input) : Prop := strncmp (cstr "rs:") i.line 3 = true

/-- What the lines say. -/
def kinds (inputs : List Input) : List LineKind := inputs.map fun i => lineKind i.line

/-- A segment of a connection. -/
inductive Segment
  | command (i : Input)
  | upload (request : Input) (body : List Input) (last : Input) (name : CString)
      (text : List CString)
  | failure (request : Input) (body : List Input) (last : Input)

def Segment.inputs : Segment → List Input
  | .command i => [i]
  | .upload request body last _ _ => request :: (body ++ [last])
  | .failure request body last => request :: (body ++ [last])

/-- What is done for a line outside of a transfer. -/
def Input.commandEvents (i : Input) : List Event := (commandLine i.2 i.line).1

/-- Each line of a transfer is given to the receiver. -/
def receivedEvents (inputs : List Input) : List Event := inputs.map fun i => .received i.line

/-- The reply to an upload. -/
def uploadReply : PassFail → CString
  | .PASS => cstr "ok:\n"
  | .FAIL => cstr "er:Could not save script\n"

/-- What is done for a segment. -/
def Segment.events : Segment → List Event
  | .command i => i.commandEvents
  | .upload _ body last name text => .receiveScript :: (receivedEvents (body ++ [last]) ++
    [.DBIRScript name (Lib.terminated LF text), .print (uploadReply last.2.saved)])
  | .failure _ body last => .receiveScript :: (receivedEvents (body ++ [last]) ++
    [.print (cstr "er:Script receive error\n")])

/-- What a segment is: a line that does not start a transfer and does not
touch one; an upload of a script; or a transfer that its last line ends
with an error. -/
def Segment.Valid : Segment → Prop
  | .command i => ¬ i.Requests ∧ ∀ e ∈ i.commandEvents, e.Outside
  | .upload request body last name text => request.Requests ∧
    Uploaded (kinds (body ++ [last])) name text ∧
    Transfer.waiting.feed (kinds (body ++ [last])) = (.finished name text, doneAtLast body.length)
  | .failure request body last => request.Requests ∧
    Transfer.waiting.feed (kinds (body ++ [last])) = (.failed, doneAtLast body.length)

/-- What follows the last segment: nothing, a transfer that has not come
to its end, or a command that ends the process and lines that are not
read. -/
inductive Rest
  | idle
  | opened (request : Input) (body : List Input)
  | crashed (i : Input) (unread : List Input)

def Rest.inputs : Rest → List Input
  | .idle => []
  | .opened request body => request :: body
  | .crashed i unread => i :: unread

def Rest.events : Rest → List Event
  | .idle => []
  | .opened _ body => .receiveScript :: receivedEvents body
  | .crashed i _ => i.commandEvents

def Rest.Valid : Rest → Prop
  | .idle => True
  | .opened request body => request.Requests ∧
    (Transfer.waiting.feed (kinds body)).2 = List.replicate body.length false
  | .crashed i _ => ¬ i.Requests ∧ (∀ e ∈ i.commandEvents, e.Outside) ∧
    ∃ f, (commandLine i.2 i.line).2 = .error f

/-- What is left of the connection: a receiver only within a transfer. -/
def Rest.Leaves (rest : Rest) (result : Except Fault (Option ConnectionData)) : Prop :=
  match rest with
  | .idle => result = .ok (some ⟨none⟩)
  | .opened _ body => ∃ ri, result = .ok (some ⟨some ri⟩) ∧
    ri.Represents (Transfer.waiting.feed (kinds body)).1
  | .crashed _ _ => ∃ f, result = .error f

/-- The end of the stream: the connection is closed, with the receiver if
there is one. -/
def closedAfter : Deed (Option ConnectionData) → Deed (Option ConnectionData)
  | (es, .error f) => (es, .error f)
  | (es, .ok _) => (es ++ [.closed], .ok none)

/-- What the daemon does for a connection over some lines is what it does
for their segments. -/
def KeepsProtocol (inputs : List Input) (log : Deed (Option ConnectionData)) : Prop :=
  ∃ (segments : List Segment) (rest : Rest), (∀ s ∈ segments, Segment.Valid s) ∧ rest.Valid ∧
    inputs = segments.flatMap Segment.inputs ++ rest.inputs ∧
    log.1 = segments.flatMap Segment.events ++ rest.events ∧ rest.Leaves log.2

/-! ## A line outside of a transfer -/

/-- A request for a transfer sets up a receiver. -/
theorem commandLine_requests {i : Input} (h : i.Requests) :
    commandLine i.2 i.line = ([.receiveScript], .ok ⟨some .initial⟩) := by
  have hcl : strncmp (cstr "cl:") i.line 3 = false := strncmp_ne h (by decide)
  have hss : strncmp (cstr "ss:") i.line 3 = false := strncmp_ne h (by decide)
  unfold commandLine
  rw [hcl, hss, if_neg Bool.false_ne_true, if_neg Bool.false_ne_true]
  exact if_pos h

theorem clientCommand_outside (d : Answers) (argv0 : CString) (args : List CString) :
    ∀ e ∈ (clientCommand d argv0 args).1, e.Outside := by
  intro e he
  unfold clientCommand at he
  repeat' split at he
  all_goals simp only [List.mem_singleton, List.not_mem_nil] at he
  all_goals
    subst he
    trivial

theorem interpretClientCommand_outside (d : Answers) (cl : CString) :
    ∀ e ∈ (interpretClientCommand d cl).1, e.Outside := by
  intro e he
  unfold interpretClientCommand at he
  rw [Util.splitString_eq] at he
  cases hwords : Lib.words 32 cl with
  | nil =>
    rw [hwords] at he
    cases he
  | cons argv0 args =>
    have hout := clientCommand_outside d argv0 args
    rw [hwords] at he
    simp only at he
    rcases hcommand : clientCommand d argv0 args with ⟨es, f | res⟩
    · rw [hcommand] at he hout
      exact hout e he
    · rw [hcommand] at he hout
      rcases List.mem_append.mp he with he | he
      · exact hout e he
      · cases List.mem_singleton.mp he
        trivial

/-- Every other line leaves the connection outside of a transfer, if it
leaves it. -/
theorem commandLine_outside {i : Input} (h : ¬ i.Requests) :
    (∀ e ∈ i.commandEvents, e.Outside) ∧
      ((commandLine i.2 i.line).2 = .ok ⟨none⟩ ∨ ∃ f, (commandLine i.2 i.line).2 = .error f) := by
  unfold Input.commandEvents commandLine
  split
  · have hout := interpretClientCommand_outside i.2 (i.line.drop 3)
    rcases hcommand : interpretClientCommand i.2 (i.line.drop 3) with ⟨es, f | res⟩
    · rw [hcommand] at hout
      exact ⟨List.forall_mem_cons.mpr ⟨trivial, hout⟩, .inr ⟨f, rfl⟩⟩
    · rw [hcommand] at hout
      exact ⟨List.forall_mem_cons.mpr ⟨trivial, hout⟩, .inl rfl⟩
  · split
    · cases i.2.fetched with
      | none =>
        refine ⟨List.forall_mem_cons.mpr ⟨trivial, ?_⟩, .inl rfl⟩
        exact List.forall_mem_singleton.mpr trivial
      | some theScript =>
        simp only
        rcases MonitorSendScript theScript (i.line.drop 3) with f | stream
        · exact ⟨List.forall_mem_singleton.mpr trivial, .inr ⟨f, rfl⟩⟩
        · refine ⟨List.forall_mem_cons.mpr ⟨trivial, ?_⟩, .inl rfl⟩
          intro e he
          obtain ⟨text, -, rfl⟩ := List.mem_map.mp he
          trivial
    · have hrs : ¬ strncmp (cstr "rs:") i.line 3 = true := h
      rw [if_neg hrs]
      exact ⟨fun e he => absurd he List.not_mem_nil, .inl rfl⟩

/-! ## A line at a time -/

/-- A line that is not empty is acted on. -/
theorem listen_line {i : Input} (h : i.1 ≠ []) (cdp : ConnectionData) :
    listen (some cdp) i.result = match actOn i.2 cdp i.line with
      | (es, .error f) => (es, .error f)
      | (es, .ok cdp) => (es, .ok (some cdp)) := by
  have hlen : i.1.length ≠ 0 := fun hlen => h (List.length_eq_zero_iff.mp hlen)
  unfold listen clientCommandListener Input.result Input.line
  simp only [if_pos hlen, if_neg hlen]
  rcases actOn i.2 cdp (cutNul i.1) with ⟨es, f | cdp'⟩
  · rfl
  · rfl

/-- It leaves the connection open. -/
theorem session_cons {i : Input} (h : i.1 ≠ []) (cdp : ConnectionData) (inputs : List Input) :
    session (some cdp) (i :: inputs) = match actOn i.2 cdp i.line with
      | (es, .error f) => (es, .error f)
      | (es, .ok cdp) => (es ++ (session (some cdp) inputs).1, (session (some cdp) inputs).2) := by
  unfold session
  rw [List.map_cons, run, listen_line h]
  rcases actOn i.2 cdp i.line with ⟨es, f | cdp'⟩
  · rfl
  · rfl

/-- The end of a transfer, by what it represents. -/
theorem processScript_finished {ri : MonRcvInfo} {name : CString} {text : List CString}
    (h : ri.Represents (.finished name text)) (d : Answers) : processScript d ri =
      ([.DBIRScript name (Lib.terminated LF text), .print (uploadReply d.saved)], .ok ⟨none⟩) := by
  obtain ⟨hstate, hname, hholds⟩ := h
  unfold processScript
  rw [hstate, hname, hholds.script]
  cases d.saved with
  | PASS => rfl
  | FAIL => rfl

theorem processScript_failed {ri : MonRcvInfo} (h : ri.Represents .failed) (d : Answers) :
    processScript d ri = ([.print (cstr "er:Script receive error\n")], .ok ⟨none⟩) := by
  have hstate : ri.state = .RS_ERROR := h
  unfold processScript
  rw [hstate]
  rfl

/-- What is done for a transfer that ends. -/
def endEvents (t : Transfer) (d : Answers) : List Event :=
  match t with
  | .finished name text =>
    [.DBIRScript name (Lib.terminated LF text), .print (uploadReply d.saved)]
  | _ => [.print (cstr "er:Script receive error\n")]

/-- What is done for the end of a transfer. -/
theorem processScript_eq {ri : MonRcvInfo} {t : Transfer} {kind : LineKind}
    (h : ri.Represents (t.receive kind).1) (hdone : (t.receive kind).2 = true) (d : Answers) :
    processScript d ri = (endEvents (t.receive kind).1 d, .ok ⟨none⟩) := by
  rcases receive_done hdone with ⟨name, text, hfinished⟩ | hfailed
  · rw [hfinished] at h ⊢
    exact processScript_finished h d
  · rw [hfailed] at h ⊢
    exact processScript_failed h d

/-- A line of a transfer. -/
theorem scriptLine_eq {ri : MonRcvInfo} {t : Transfer} (h : ri.Represents t) (d : Answers)
    (line : CString) :
    if (t.receive (lineKind line)).2 then
      scriptLine d ri line =
        (.received line :: endEvents (t.receive (lineKind line)).1 d, .ok ⟨none⟩)
    else ∃ ri', scriptLine d ri line = ([.received line], .ok ⟨some ri'⟩) ∧
      ri'.Represents (t.receive (lineKind line)).1 := by
  obtain ⟨ri', hline, hri'⟩ := MonitorRecvScript_represents h line
  unfold scriptLine
  rw [hline]
  cases hdone : (t.receive (lineKind line)).2 with
  | true =>
    rw [if_pos rfl]
    show (Event.received line :: (processScript d ri').1, (processScript d ri').2) = _
    rw [processScript_eq hri' hdone d]
  | false =>
    rw [if_neg Bool.false_ne_true]
    exact ⟨ri', rfl, hri'⟩

theorem kinds_cons (i : Input) (inputs : List Input) :
    kinds (i :: inputs) = lineKind i.line :: kinds inputs := rfl

/-- **The lines of a transfer**: it goes on to the end of the lines, or
one of them ends it. -/
theorem session_transfer {ri : MonRcvInfo} {t : Transfer} (h : ri.Represents t)
    (inputs : List Input) (hne : ∀ i ∈ inputs, i.1 ≠ []) :
    (∃ ri', (t.feed (kinds inputs)).2 = List.replicate inputs.length false ∧
      ri'.Represents (t.feed (kinds inputs)).1 ∧
      session (some ⟨some ri⟩) inputs = (receivedEvents inputs, .ok (some ⟨some ri'⟩))) ∨
    (∃ body last rest, inputs = body ++ last :: rest ∧
      (t.feed (kinds (body ++ [last]))).2 = doneAtLast body.length ∧
      ((∃ name text, (t.feed (kinds (body ++ [last]))).1 = .finished name text) ∨
        (t.feed (kinds (body ++ [last]))).1 = .failed) ∧
      session (some ⟨some ri⟩) inputs =
        (receivedEvents (body ++ [last]) ++ endEvents (t.feed (kinds (body ++ [last]))).1 last.2 ++
          (session (some ⟨none⟩) rest).1, (session (some ⟨none⟩) rest).2)) := by
  induction inputs generalizing ri t with
  | nil => exact .inl ⟨ri, rfl, h, rfl⟩
  | cons i inputs ih =>
    have hline := scriptLine_eq h i.2 i.line
    rw [session_cons (hne i List.mem_cons_self)]
    unfold actOn
    cases hdone : (t.receive (lineKind i.line)).2 with
    | true =>
      rw [hdone, if_pos rfl] at hline
      refine .inr ⟨[], i, inputs, rfl, ?_, receive_done hdone, ?_⟩
      · show [(t.receive (lineKind i.line)).2] = [true]
        rw [hdone]
      · simp only [hline]
        rfl
    | false =>
      rw [hdone, if_neg Bool.false_ne_true] at hline
      obtain ⟨ri', hkept, hri'⟩ := hline
      simp only [hkept]
      rcases ih hri' (fun j hj => hne j (List.mem_cons_of_mem i hj)) with
        ⟨ri'', hdones, hri'', hrun⟩ | ⟨body, last, rest, rfl, hdones, hend, hrun⟩
      · refine .inl ⟨ri'', ?_, ?_, ?_⟩
        · rw [kinds_cons, Transfer.feed_cons, hdone, hdones]
          rfl
        · rw [kinds_cons, Transfer.feed_cons]
          exact hri''
        · rw [hrun]
          rfl
      · refine .inr ⟨i :: body, last, rest, rfl, ?_, ?_, ?_⟩
        · rw [List.cons_append, kinds_cons, Transfer.feed_cons, hdone, hdones]
          rfl
        · rw [List.cons_append, kinds_cons, Transfer.feed_cons]
          exact hend
        · rw [hrun]
          rfl

/-! ## Segment by segment -/

/-- A segment in front of a connection that keeps the protocol. -/
theorem KeepsProtocol.cons {segment : Segment} {inputs : List Input}
    {log : Deed (Option ConnectionData)} (h : segment.Valid) (hrest : KeepsProtocol inputs log) :
    KeepsProtocol (segment.inputs ++ inputs) (segment.events ++ log.1, log.2) := by
  obtain ⟨segments, rest, hsegments, hvalid, hinputs, hevents, hleaves⟩ := hrest
  refine ⟨segment :: segments, rest, ?_, hvalid, ?_, ?_, hleaves⟩
  · exact List.forall_mem_cons.mpr ⟨h, hsegments⟩
  · rw [hinputs, List.flatMap_cons, List.append_assoc]
  · show segment.events ++ log.1 = _
    rw [hevents, List.flatMap_cons, List.append_assoc]

/-- What follows the last segment. -/
theorem Rest.keepsProtocol (rest : Rest) (h : rest.Valid)
    (result : Except Fault (Option ConnectionData)) (hleaves : rest.Leaves result) : KeepsProtocol rest.inputs (rest.events, result) :=
  ⟨[], rest, fun _ hs => absurd hs List.not_mem_nil, h, rfl, rfl, hleaves⟩

/-- A transfer that ends, in front of a connection that keeps the
protocol. -/
theorem KeepsProtocol.transfer {request last : Input} {body inputs : List Input}
    {log : Deed (Option ConnectionData)} {t : Transfer} (hrs : request.Requests)
    (hfeed : Transfer.waiting.feed (kinds (body ++ [last])) = (t, doneAtLast body.length))
    (hend : (∃ name text, t = .finished name text) ∨ t = .failed)
    (hrest : KeepsProtocol inputs log) :
    KeepsProtocol (request :: (body ++ last :: inputs))
      (.receiveScript :: (receivedEvents (body ++ [last]) ++ endEvents t last.2 ++ log.1),
        log.2) := by
  rcases hend with ⟨name, text, rfl⟩ | rfl
  · have hvalid : (Segment.upload request body last name text).Valid :=
      ⟨hrs, waiting_finished hfeed, hfeed⟩
    simpa [Segment.inputs, Segment.events, endEvents] using hrest.cons hvalid
  · have hvalid : (Segment.failure request body last).Valid := ⟨hrs, hfeed⟩
    simpa [Segment.inputs, Segment.events, endEvents] using hrest.cons hvalid

/-- A line outside of a transfer, in front of a connection that keeps the
protocol: it may end the process. -/
theorem KeepsProtocol.command {i : Input} {inputs : List Input}
    {log : Deed (Option ConnectionData)} (hrs : ¬ i.Requests) (hrest : KeepsProtocol inputs log) :
    KeepsProtocol (i :: inputs) (match (commandLine i.2 i.line).2 with
      | .error f => (i.commandEvents, .error f)
      | .ok _ => (i.commandEvents ++ log.1, log.2)) := by
  obtain ⟨hout, -⟩ := commandLine_outside hrs
  cases hresult : (commandLine i.2 i.line).2 with
  | error f =>
    have hvalid : (Rest.crashed i inputs).Valid := ⟨hrs, hout, f, hresult⟩
    exact (Rest.crashed i inputs).keepsProtocol hvalid (.error f) ⟨f, rfl⟩
  | ok cdp =>
    have hvalid : (Segment.command i).Valid := ⟨hrs, hout⟩
    exact hrest.cons hvalid

/-- **Every connection keeps the protocol**, by induction on the number of
its lines: a transfer may take several. -/
theorem session_keepsProtocol (inputs : List Input) (hne : ∀ i ∈ inputs, i.1 ≠ []) :
    KeepsProtocol inputs (session (some ⟨none⟩) inputs) := by
  induction hn : inputs.length using Nat.strongRecOn generalizing inputs with
  | ind n ih =>
    cases inputs with
    | nil => exact Rest.idle.keepsProtocol trivial _ rfl
    | cons i inputs =>
      obtain ⟨hi, hinputs⟩ := List.forall_mem_cons.mp hne
      rw [session_cons hi]
      show KeepsProtocol (i :: inputs) (match commandLine i.2 i.line with
        | (es, .error f) => (es, .error f)
        | (es, .ok cdp) => (es ++ (session (some cdp) inputs).1, (session (some cdp) inputs).2))
      by_cases hrs : i.Requests
      · rw [commandLine_requests hrs]
        rcases session_transfer initial_represents inputs hinputs with
          ⟨ri, hdones, hri, hrun⟩ | ⟨body, last, rest, rfl, hdones, hend, hrun⟩
        · simp only [hrun]
          exact (Rest.opened i inputs).keepsProtocol ⟨hrs, hdones⟩ _ ⟨ri, rfl, hri⟩
        · have hshorter : rest.length < n := by
            rw [← hn, List.length_cons, List.length_append, List.length_cons]
            omega
          have hrest := ih rest.length hshorter rest
            (fun j hj => hinputs j (List.mem_append_right body (List.mem_cons_of_mem last hj))) rfl
          simp only [hrun]
          exact hrest.transfer hrs (Prod.ext rfl hdones) hend
      · have hrest := (ih inputs.length (by rw [← hn]; exact Nat.lt_succ_self _) inputs hinputs
          rfl).command hrs
        obtain ⟨-, hidle | ⟨f, hf⟩⟩ := commandLine_outside hrs
        · rw [hidle] at hrest
          rw [show commandLine i.2 i.line = (i.commandEvents, .ok ⟨none⟩) from Prod.ext rfl hidle]
          exact hrest
        · rw [hf] at hrest
          rw [show commandLine i.2 i.line = (i.commandEvents, .error f) from Prod.ext rfl hf]
          exact hrest

/-- A connection that keeps the protocol is open behind its last line. -/
theorem Rest.Leaves.isOpen {rest : Rest} {conn : Option ConnectionData}
    (h : rest.Leaves (.ok conn)) : ∃ cdp, conn = some cdp := by
  cases rest with
  | idle => exact ⟨⟨none⟩, Except.ok.inj h⟩
  | opened request body =>
    obtain ⟨ri, hri, -⟩ := h
    exact ⟨⟨some ri⟩, Except.ok.inj hri⟩
  | crashed i unread =>
    obtain ⟨f, hf⟩ := h
    cases hf

/-- The stream ends behind lines that leave the connection open. -/
theorem session_end {inputs : List Input}
    (h : KeepsProtocol inputs (session (some ⟨none⟩) inputs)) (d : Answers) :
    run listen (some ⟨none⟩) (inputs.map Input.result ++ [endOfStream d]) =
      closedAfter (session (some ⟨none⟩) inputs) := by
  obtain ⟨-, rest, -, -, -, -, hleaves⟩ := h
  unfold session at hleaves ⊢
  rw [Lib.run_append_eq]
  rcases hrun : run listen (some ⟨none⟩) (inputs.map Input.result) with ⟨es, f | conn⟩
  · rfl
  · rw [hrun] at hleaves
    obtain ⟨cdp, rfl⟩ := hleaves.isOpen
    rfl

/-- **The control connection, from its first line to its end.** -/
theorem connection_keepsProtocol (inputs : List Input) (hne : ∀ i ∈ inputs, i.1 ≠ []) :
    KeepsProtocol inputs (session (some ⟨none⟩) inputs) ∧ ∀ d,
      run listen (some ⟨none⟩) (inputs.map Input.result ++ [endOfStream d]) =
        closedAfter (session (some ⟨none⟩) inputs) := by
  have hkeeps := session_keepsProtocol inputs hne
  exact ⟨hkeeps, session_end hkeeps⟩

/-- An upload, and a command behind it. -/
def sampleInputs : List Input :=
  [cstr "rs:", cstr "sb:s", cstr "sl:cl:exec s", cstr "se:s", cstr "ss:s"].map fun line =>
    (line, ⟨some (cstr "cl:exec s\n"), .PASS, .PASS, true⟩)

theorem sampleInputs_keepProtocol : (∀ i ∈ sampleInputs, i.1 ≠ []) ∧
    KeepsProtocol sampleInputs (session (some ⟨none⟩) sampleInputs) := by
  have hne : ∀ i ∈ sampleInputs, i.1 ≠ [] := by decide
  exact ⟨hne, (connection_keepsProtocol sampleInputs hne).1⟩

end XplEvent.Control
