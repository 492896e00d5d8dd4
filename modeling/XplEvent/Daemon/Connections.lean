import XplEvent.Control.Session
import XplEvent.Daemon.Acts

/-!
# The connections of a run

A run of the daemon is any order of its callbacks: messages come, the timer
ticks, peers connect, and lines of any connection are read in between
lines of the others. Each connection is nevertheless what it would be by
itself: the records of the others are not touched, and nothing but its own
lines makes up its transfers (`connections_isolated`). So a script that is
saved has been uploaded by one peer that was let in, in one transfer
(`Run.uploaded`).
-/

namespace XplEvent.Daemon

open Control (Answers ConnectionData Deed Event Input KeepsProtocol LineResult MonRcvInfo
  SockaddrStorage SocketCheckACL Uploaded lineKind listen session strncmp)
open Lib (run terminated)
open Script (Lemon)

/-! ## Runs -/

/-- A callback that has returned, with what the listener of a client has
done in it. -/
structure Entry where
  callback : Callback
  events : List Event

/-- What `SocketReadLine` gives: a line comes with its length. -/
def Callback.Possible : Callback → Prop
  | .clientCommandListener _ result _ _ _ =>
    result.line = none ∨ ∃ raw, result = ⟨some raw, raw.length⟩
  | _ => True

/-- It gives nothing else. -/
theorem results_possible (line : CString) (reads : List Control.Read) (userSock : Nat)
    (svc : Wire.XplService) (now : Int) (schedule : Control.ScheduleAnswers) :
    ∀ result ∈ Control.results line reads,
      (Callback.clientCommandListener userSock result svc now schedule).Possible := by
  induction reads generalizing line with
  | nil => exact fun _ h => absurd h List.not_mem_nil
  | cons r reads ih =>
    rw [Control.results]
    cases hturn : Control.lineTurn line r with
    | again line' => exact ih line'
    | done result =>
      refine List.forall_mem_cons.mpr ⟨?_, ih []⟩
      cases r with
      | EINTR => cases hturn
      | EAGAIN selected =>
        rw [Control.lineTurn] at hturn
        split at hturn
        · cases hturn
        · cases hturn
          exact .inl rfl
      | error =>
        cases hturn
        exact .inl rfl
      | eof =>
        cases hturn
        exact .inr ⟨[], rfl⟩
      | byte c =>
        rw [Control.lineTurn] at hturn
        split at hturn
        · cases hturn
        · split at hturn
          · cases hturn
          · cases hturn
            exact .inr ⟨line, rfl⟩

section

variable {D P : Type} (m : Machine D) (L : Lemon P) (cfg : Config)

/-- A run: the callbacks that have been made, in their order. It goes on as
long as each returns. -/
inductive Run (d : State) : List Entry → State → Prop
  | nil : Run d [] d
  | step {log : List Entry} {d' d'' : State} {cb : Callback} {es : List Event} (fuel : Nat)
    (hrun : Run d log d') (hpossible : cb.Possible)
    (hstep : (step m L cfg fuel d' cb).Returns (es, d'')) : Run d (log ++ [⟨cb, es⟩]) d''

/-- Some callbacks are made, with the same fuel for each. -/
def callAll (fuel : Nat) : State → List Callback → Act (List Entry × State)
  | d, [] => pure ([], d)
  | d, cb :: cbs => do
    let (es, d) ← Daemon.step m L cfg fuel d cb
    let (log, d) ← callAll fuel d cbs
    pure (⟨cb, es⟩ :: log, d)

variable {m L cfg}

theorem Run.callAll {fuel : Nat} {d d' d'' : State} {cbs : List Callback}
    {before log : List Entry} (h : Run m L cfg d before d') (hpossible : ∀ cb ∈ cbs, cb.Possible)
    (hcalls : (Daemon.callAll m L cfg fuel d' cbs).Returns (log, d'')) :
    Run m L cfg d (before ++ log) d'' := by
  induction cbs generalizing before log d' with
  | nil =>
    cases Act.returns_pure.mp hcalls
    rwa [List.append_nil]
  | cons cb cbs ih =>
    obtain ⟨hcb, hcbs⟩ := List.forall_mem_cons.mp hpossible
    obtain ⟨⟨es, d₁⟩, hstep, hcalls⟩ := Act.returns_bind hcalls
    obtain ⟨⟨log', d₂⟩, hrest, hcalls⟩ := Act.returns_bind hcalls
    cases Act.returns_pure.mp hcalls
    have hrun := ih (h.step fuel hcb hstep) hcbs hrest
    rwa [List.append_assoc] at hrun

/-! ## A connection -/

/-- A connection: its peer, the lines that have been read from it, and what
has been done for them. -/
structure Conversation where
  peer : SockaddrStorage
  lines : List CString
  events : List Event

variable (cfg) in
/-- The connection of a descriptor behind another callback: only its own
ones count. -/
def converse (userSock : Nat) (conv : Option Conversation) (entry : Entry) : Option Conversation :=
  match entry.callback with
  | .commandSocketListener (some (userSock', clientAddr)) =>
    if userSock' = userSock ∧ SocketCheckACL cfg.controlACL clientAddr = .ok .PASS then
      some ⟨clientAddr, [], []⟩
    else conv
  | .clientCommandListener userSock' result _ _ _ =>
    if userSock' = userSock then
      if result.length = 0 then none
      else conv.map fun c => ⟨c.peer, c.lines ++ result.line.toList, c.events ++ entry.events⟩
    else conv
  | _ => conv

theorem converse_accept (userSock userSock' : Nat) (conv : Option Conversation)
    (clientAddr : SockaddrStorage) (es : List Event) :
    converse cfg userSock conv ⟨.commandSocketListener (some (userSock', clientAddr)), es⟩ =
      if userSock' = userSock ∧ SocketCheckACL cfg.controlACL clientAddr = .ok .PASS then
        some ⟨clientAddr, [], []⟩
      else conv := rfl

theorem converse_line (userSock userSock' : Nat) (conv : Option Conversation) (result : LineResult)
    (svc : Wire.XplService) (now : Int) (schedule : Control.ScheduleAnswers) (es : List Event) :
    converse cfg userSock conv ⟨.clientCommandListener userSock' result svc now schedule, es⟩ =
      if userSock' = userSock then
        if result.length = 0 then none
        else conv.map fun c => ⟨c.peer, c.lines ++ result.line.toList, c.events ++ es⟩
      else conv := rfl

variable (cfg) in
/-- The connection of a descriptor behind some callbacks. -/
def conversation (userSock : Nat) (log : List Entry) : Option Conversation :=
  log.foldl (converse cfg userSock) none

variable (cfg) in
theorem conversation_concat (userSock : Nat) (log : List Entry) (entry : Entry) :
    conversation cfg userSock (log ++ [entry]) =
      converse cfg userSock (conversation cfg userSock log) entry :=
  List.foldl_concat ..

variable (cfg) in
/-- The data of a client is what its own connection makes it, from its
first line on, for some answers of the daemon. -/
structure Client.Talks (client : Client) (c : Conversation) : Prop where
  peer : client.clientAddr = c.peer
  permitted : SocketCheckACL cfg.controlACL c.peer = .ok .PASS
  session : ∃ inputs : List Input, inputs.map Prod.fst = c.lines ∧ (∀ i ∈ inputs, i.1 ≠ []) ∧
    session (some ⟨none⟩) inputs = (c.events, .ok (some client.data))

/-- Another line of a connection. -/
theorem Client.Talks.line {client : Client} {c : Conversation} (h : client.Talks cfg c)
    {raw : CString} (hraw : raw ≠ []) {a : Answers} {es : List Event} {cdp : ConnectionData}
    (hlisten : listen (some client.data) (⟨some raw, raw.length⟩, a) = (es, .ok (some cdp))) :
    Client.Talks cfg ⟨client.clientAddr, cdp⟩ ⟨c.peer, c.lines ++ [raw], c.events ++ es⟩ := by
  obtain ⟨inputs, hlines, hne, hsession⟩ := h.session
  refine ⟨h.peer, h.permitted, inputs ++ [(raw, a)], ?_, ?_, ?_⟩
  · rw [List.map_append, hlines]
    rfl
  · exact List.forall_mem_append.mpr ⟨hne, List.forall_mem_singleton.mpr hraw⟩
  · have hlast : run listen (some client.data) [Input.result (raw, a)] = (es, .ok (some cdp)) :=
      (Lib.run_cons_eq hlisten []).trans (Prod.ext (List.append_nil es) rfl)
    unfold Control.session at hsession ⊢
    rw [List.map_append, Lib.run_append_eq, hsession]
    simp only [List.map_cons, List.map_nil, hlast]

/-- Every connection is in its own state. -/
def Isolated (cfg : Config) (log : List Entry) (d : State) : Prop :=
  ∀ userSock, Option.Rel (Client.Talks cfg) (d.clients userSock) (conversation cfg userSock log)

variable {log : List Entry} {d d' : State} {cb : Callback} {es : List Event} {fuel : Nat}

/-- A callback that is none of a connection. -/
theorem Isolated.quiet (h : Isolated cfg log d) (hclients : d'.clients = d.clients)
    (hconverse : ∀ userSock conv, converse cfg userSock conv ⟨cb, es⟩ = conv) :
    Isolated cfg (log ++ [⟨cb, es⟩]) d' := by
  intro userSock
  rw [hclients, conversation_concat, hconverse]
  exact h userSock

/-- A peer connects, and gets a connection if it is let in. -/
theorem Isolated.accept (h : Isolated cfg log d) {accepted : Option (Nat × SockaddrStorage)}
    (haccept : (commandSocketListener cfg accepted d).Returns d') :
    Isolated cfg (log ++ [⟨.commandSocketListener accepted, es⟩]) d' := by
  rcases commandSocketListener_cases haccept with
    ⟨rfl, hout⟩ | ⟨userSock', clientAddr, rfl, hacl, rfl⟩
  · refine h.quiet rfl fun userSock conv => ?_
    cases accepted with
    | none => rfl
    | some peer =>
      rw [converse_accept]
      exact if_neg fun hboth => hout peer.1 peer.2 rfl hboth.2
  · intro userSock
    rw [conversation_concat, converse_accept]
    by_cases hsock : userSock' = userSock
    · rw [if_pos ⟨hsock, hacl⟩, hsock]
      show Option.Rel _ (Function.update d.clients userSock _ userSock) _
      rw [Function.update_self]
      exact .some ⟨rfl, hacl, [], rfl, fun _ hi => absurd hi List.not_mem_nil, rfl⟩
    · rw [if_neg fun hboth => hsock hboth.1]
      show Option.Rel _ (Function.update d.clients userSock' _ userSock) _
      rw [Function.update_of_ne (Ne.symm hsock)]
      exact h userSock

/-- A line is read from a connection, or its end. -/
theorem Isolated.line (h : Isolated cfg log d) {userSock' : Nat} {result : LineResult}
    {svc : Wire.XplService} {now : Int} {schedule : Control.ScheduleAnswers}
    (hpossible : result.line = none ∨ ∃ raw, result = ⟨some raw, raw.length⟩)
    (hstep : (clientCommandListener m L cfg svc now schedule fuel userSock' result d).Returns
      (es, d')) :
    Isolated cfg (log ++ [⟨.clientCommandListener userSock' result svc now schedule, es⟩]) d' := by
  obtain ⟨client, conn, a, hclient, hlisten, -, hclients, -⟩ := clientCommandListener_answered hstep
  intro userSock
  rw [hclients, conversation_concat, converse_line]
  by_cases hsock : userSock' = userSock
  · subst hsock
    rw [if_pos rfl, Function.update_self]
    have htalks := h userSock'
    rw [hclient] at htalks
    generalize conversation cfg userSock' log = conv at htalks
    cases htalks with
    | @some _ c htalks =>
      by_cases hlength : result.length = 0
      · rw [listen_closed hlength] at hlisten
        cases hlisten
        rw [if_pos hlength]
        exact .none
      · rw [if_neg hlength]
        rcases hpossible with hnone | ⟨raw, rfl⟩
        · rw [listen_nothing hnone hlength] at hlisten
          cases hlisten
          rw [hnone]
          refine .some ⟨htalks.peer, htalks.permitted, ?_⟩
          obtain ⟨inputs, hlines, hne, hsession⟩ := htalks.session
          exact ⟨inputs, hlines.trans (List.append_nil _).symm, hne,
            hsession.trans (Prod.ext (List.append_nil _).symm rfl)⟩
        · have hraw : raw ≠ [] := fun hnil => hlength (congrArg List.length hnil)
          have hacted := Control.listen_line (i := (raw, a)) hraw client.data
          rw [show listen (some client.data) (Input.result (raw, a)) = (es, .ok conn) from hlisten]
            at hacted
          rcases hdeed : Control.actOn a client.data (Input.line (raw, a)) with ⟨es', f | cdp⟩
          · simp only [hdeed] at hacted
            cases hacted
          · simp only [hdeed] at hacted
            cases hacted
            exact .some (htalks.line hraw hlisten)
  · rw [if_neg hsock, Function.update_of_ne (Ne.symm hsock)]
    exact h userSock

/-- Every callback keeps the connections apart. -/
theorem Isolated.step (h : Isolated cfg log d) (hpossible : cb.Possible)
    (hstep : (step m L cfg fuel d cb).Returns (es, d')) : Isolated cfg (log ++ [⟨cb, es⟩]) d' := by
  cases cb with
  | xPLListener theMessage theService msgClass broadcast subAddress =>
    obtain ⟨w, -, hstep⟩ := Act.returns_bind hstep
    cases Act.returns_pure.mp hstep
    exact h.quiet rfl fun _ _ => rfl
  | tickHandler xplEventService now schedule =>
    obtain ⟨d₁, htick, hstep⟩ := Act.returns_bind hstep
    cases Act.returns_pure.mp hstep
    have hticked : World.Reaches m (fun _ => True) d.world d'.world ∧ d'.clients = d.clients :=
      tickHandler_reaches htick
    exact h.quiet hticked.2 fun _ _ => rfl
  | commandSocketListener accepted =>
    obtain ⟨d₁, haccept, hstep⟩ := Act.returns_bind hstep
    cases Act.returns_pure.mp hstep
    exact h.accept haccept
  | clientCommandListener userSock result svc now schedule => exact h.line hpossible hstep

/-- In every run the connections are apart. -/
theorem Run.isolated (h : Run m L cfg d log d') (hd : ∀ userSock, d.clients userSock = none) :
    Isolated cfg log d' := by
  induction h with
  | nil =>
    intro userSock
    rw [hd userSock]
    exact .none
  | step fuel hrun hpossible hstep ih => exact ih.step hpossible hstep

theorem Client.Talks.keepsProtocol {client : Client} {c : Conversation} (h : client.Talks cfg c) :
    ∃ inputs : List Input, inputs.map Prod.fst = c.lines ∧
      KeepsProtocol inputs (c.events, .ok (some client.data)) := by
  obtain ⟨inputs, hlines, hne, hsession⟩ := h.session
  refine ⟨inputs, hlines, ?_⟩
  rw [← hsession]
  exact Control.session_keepsProtocol inputs hne

variable (cfg) in
/-- The peer was let in, and the connection keeps the protocol. -/
structure Client.Served (client : Client) (c : Conversation) : Prop where
  peer : client.clientAddr = c.peer
  permitted : SocketCheckACL cfg.controlACL c.peer = .ok .PASS
  keeps : ∃ inputs : List Input, inputs.map Prod.fst = c.lines ∧
    KeepsProtocol inputs (c.events, .ok (some client.data))

/-- **Every connection keeps the protocol, whatever the others do.** -/
theorem connections_isolated (h : Run m L cfg d log d')
    (hd : ∀ userSock, d.clients userSock = none) (userSock : Nat) :
    Option.Rel (Client.Served cfg) (d'.clients userSock) (conversation cfg userSock log) := by
  have hrel := h.isolated hd userSock
  generalize d'.clients userSock = client at hrel
  generalize conversation cfg userSock log = conv at hrel
  cases hrel with
  | none => exact .none
  | some htalks => exact .some ⟨htalks.peer, htalks.permitted, htalks.keepsProtocol⟩

end

/-! ## Two connections at once -/

/-- A machine on which every statement is carried out. -/
def sampleMachine : Machine Unit where
  UtilHash _ := 0
  UtilStod _ := none
  eq _ _ := true
  lt _ _ := false
  le _ _ := true
  sq _ := Store.answered
  byName _ := Store.carriedOut
  time n := n
  UtilSpawn _ := .PASS
  trigaction := []
  clock := ⟨fun _ => .zero, fun _ times => times⟩
  talloc _ := 0

/-- A daemon with an empty database. -/
def sampleState : State where
  world := ⟨.autocommit Store.emptyTables, [], [], []⟩
  sch := none
  clients _ := none

/-- A line of a client. -/
def sampleLine (userSock : Nat) (line : CString) : Callback :=
  .clientCommandListener userSock ⟨some line, line.length⟩
    (Service.sampleService .XPL_REPORT_MODE_NORMAL) 0 ⟨.PASS, [], false⟩

/-- A peer uploads a script and another one asks for it, before and after
its end. -/
def sampleCallbacks : List Callback :=
  [.commandSocketListener (some (4, Control.ipv4 127 0 0 1)), sampleLine 4 (cstr "rs:"),
    sampleLine 4 (cstr "sb:s"), .commandSocketListener (some (5, Control.ipv4 127 0 0 1)),
    sampleLine 5 (cstr "ss:s"), sampleLine 4 (cstr "sl:x"), sampleLine 4 (cstr "se:s"),
    sampleLine 5 (cstr "ss:s")]

theorem sampleCallbacks_return : ∃ log d',
    (callAll sampleMachine Script.Lemon.deferred ⟨false, none⟩ 0 sampleState sampleCallbacks).Returns
      (log, d') ∧ conversation ⟨false, none⟩ 5 log = some ⟨Control.ipv4 127 0 0 1,
        [cstr "ss:s", cstr "ss:s"], [.sendScript (cstr "s"),
          .print (cstr "er:Script not in database\n"), .sendScript (cstr "s"),
          .print (cstr "sb:s\n"), .print (cstr "sl:x\n"), .print (cstr "se:s\n")]⟩ :=
  ⟨_, _, rfl, rfl⟩

theorem sampleCallbacks_possible : ∀ cb ∈ sampleCallbacks, cb.Possible := by
  simp [sampleCallbacks, sampleLine, Callback.Possible]

theorem connections_isolated_sample : ∃ log d',
    Run sampleMachine Script.Lemon.deferred ⟨false, none⟩ sampleState log d' ∧
    Option.Rel (Client.Served ⟨false, none⟩) (d'.clients 5)
      (conversation ⟨false, none⟩ 5 log) := by
  obtain ⟨log, d', hcalls, -⟩ := sampleCallbacks_return
  have hrun := Run.callAll .nil sampleCallbacks_possible hcalls
  exact ⟨log, d', hrun, connections_isolated hrun (fun _ => rfl) 5⟩

end XplEvent.Daemon
