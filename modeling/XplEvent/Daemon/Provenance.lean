import XplEvent.Daemon.Connections

/-!
# Where everything comes from

However SQLite answers, and in every run: a script that the database holds
was there at the beginning, or a peer that was let in has uploaded it in
one transfer; and the daemon runs no other script. A row of the logs is
that of a message. A variable is written, a message sent and a process
started only while a script is running, which was fetched before and was
there or had been uploaded by then (`daemon_comesFrom`).
-/

namespace XplEvent.Daemon

open Control (Event Input KeepsProtocol Segment SocketCheckACL Uploaded lineKind strncmp)
open Lib (terminated)
open Script (Lemon)
open Store (Allowed Tables Write escapeQuotes)

/-! ## The uploads of a connection -/

/-- A script that is saved for a connection is that of one of its uploads. -/
theorem uploaded_of_keepsProtocol {inputs : List Input}
    {log : Control.Deed (Option Control.ConnectionData)} (h : KeepsProtocol inputs log)
    {name script : CString} (hsaved : .DBIRScript name script ∈ log.1) :
    ∃ request body last text, (Segment.upload request body last name text).Valid ∧
      request :: (body ++ [last]) <:+: inputs ∧ script = terminated LF text := by
  obtain ⟨segments, rest, hsegments, hrest, hinputs, hevents, -⟩ := h
  rw [hevents] at hsaved
  rcases List.mem_append.mp hsaved with hsaved | hsaved
  · obtain ⟨segment, hsegment, hsaved⟩ := List.mem_flatMap.mp hsaved
    have hvalid := hsegments segment hsegment
    cases segment with
    | command i => exact (hvalid.2 _ hsaved).elim
    | failure request body last => simp [Segment.events, Control.receivedEvents] at hsaved
    | upload request body last name' text =>
      have hscript : name = name' ∧ script = terminated LF text := by
        simpa [Segment.events, Control.receivedEvents] using hsaved
      obtain ⟨rfl, rfl⟩ := hscript
      refine ⟨request, body, last, text, hvalid, ?_, rfl⟩
      obtain ⟨before, after, hsplit⟩ := List.append_of_mem hsegment
      rw [hinputs, hsplit]
      refine ⟨before.flatMap Segment.inputs, after.flatMap Segment.inputs ++ rest.inputs, ?_⟩
      simp [Segment.inputs]
  · cases rest with
    | idle => cases hsaved
    | opened request body => simp [Control.Rest.events, Control.receivedEvents] at hsaved
    | crashed i unread => exact (hrest.2.1 _ hsaved).elim

section

variable {D P : Type} {m : Machine D} {L : Lemon P} {cfg : Config} {log : List Entry}
  {d d' : State}

/-- A peer that was let in has uploaded the script: the lines of one
transfer of its connection are the name and the text. -/
def Uploads (cfg : Config) (log : List Entry) (row : Store.Script) : Prop :=
  ∃ before userSock c request body text, before <+: log ∧
    conversation cfg userSock before = some c ∧ SocketCheckACL cfg.controlACL c.peer = .ok .PASS ∧
    request :: body <:+: c.lines ∧ strncmp (cstr "rs:") (cutNul request) 3 = true ∧
    Uploaded (body.map fun raw => lineKind (cutNul raw)) row.scriptname text ∧
    row.scriptcode = escapeQuotes (terminated LF text)

/-- The lines of an upload. -/
theorem Client.Talks.uploads {client : Client} {c : Conversation} (h : client.Talks cfg c)
    {userSock : Nat} (hconv : conversation cfg userSock log = some c) {name script : CString}
    (hsaved : .DBIRScript name script ∈ c.events) :
    Uploads cfg log ⟨name, escapeQuotes script⟩ := by
  obtain ⟨inputs, hlines, hkeeps⟩ := h.keepsProtocol
  obtain ⟨request, body, last, text, ⟨hrequest, huploaded, -⟩, hinfix, rfl⟩ :=
    uploaded_of_keepsProtocol hkeeps hsaved
  refine ⟨log, userSock, c, request.1, (body ++ [last]).map Prod.fst, text, List.prefix_rfl, hconv,
    h.permitted, ?_, hrequest, ?_, rfl⟩
  · rw [← hlines]
    exact hinfix.map Prod.fst
  · rw [List.map_map]
    exact huploaded

/-- A script that is saved in a callback has been uploaded by then. -/
theorem Run.uploads {cb : Callback} {es : List Event} {fuel : Nat} {d'' : State}
    (hrun : Run m L cfg d log d') (hd : ∀ userSock, d.clients userSock = none)
    (hpossible : cb.Possible) (hstep : (Daemon.step m L cfg fuel d' cb).Returns (es, d''))
    {name script : CString} (hwrites : cb.Writes es (.DBIRScript name script)) :
    Uploads cfg (log ++ [⟨cb, es⟩]) ⟨name, escapeQuotes script⟩ := by
  have hbefore := hrun.isolated hd
  have hafter := (Run.step fuel hrun hpossible hstep).isolated hd
  cases hwrites with
  | @upload userSock result svc now schedule _ _ _ hsaved =>
    obtain ⟨client, conn, a, hclient, hlisten, -, -, -⟩ := clientCommandListener_answered hstep
    by_cases hlength : result.length = 0
    · rw [listen_closed hlength] at hlisten
      cases hlisten
      simp at hsaved
    · have hconv := conversation_concat cfg userSock log
        ⟨.clientCommandListener userSock result svc now schedule, es⟩
      rw [converse_line, if_pos rfl, if_neg hlength] at hconv
      have hbefore := hbefore userSock
      have hafter := hafter userSock
      rw [hclient] at hbefore
      generalize conversation cfg userSock log = conv at hbefore hconv
      cases hbefore with
      | some hbefore =>
        rw [Option.map_some] at hconv
        rw [hconv] at hafter
        generalize d''.clients userSock = client' at hafter
        cases hafter with
        | some hafter => exact hafter.uploads hconv (List.mem_append_right _ hsaved)

/-! ## What the calls have put there -/

/-- What a run may have put into the tables, over what was there at the
beginning: each row is that of a call. -/
def origin (cfg : Config) (a : Allowed) (log : List Entry) (calls : List DBCall) : Allowed where
  nvstate r := a.nvstate r ∨ ∃ now key value res,
    .wrote (.DBWriteNVState now key value) res ∈ calls ∧ r = ⟨key, some value, now⟩
  triglog r := a.triglog r ∨ ∃ entry ∈ log, ∃ nvpairs, r.nvpairs = some nvpairs ∧
    entry.callback.Writes entry.events (.DBUpdateTrigLog r.timestamp r.source r.schema nvpairs)
  hbeatlog r := a.hbeatlog r ∨ ∃ entry ∈ log,
    entry.callback.Writes entry.events (.DBUpdateHeartbeatLog r.timestamp r.source)
  scripts r := a.scripts r ∨ Uploads cfg log r ∧ ∃ name script res,
    .wrote (.DBIRScript name script) res ∈ calls ∧ r = ⟨name, escapeQuotes script⟩

theorem Uploads.mono {row : Store.Script} (h : Uploads cfg log row) (entry : Entry) :
    Uploads cfg (log ++ [entry]) row := by
  obtain ⟨before, userSock, c, request, body, text, hbefore, hrest⟩ := h
  exact ⟨before, userSock, c, request, body, text, hbefore.trans (List.prefix_append _ _), hrest⟩

theorem origin_entry (cfg : Config) (a : Allowed) (log : List Entry) (calls : List DBCall)
    (entry : Entry) :
    (origin cfg a log calls).Within (origin cfg a (log ++ [entry]) calls) where
  nvstate _ hr := hr
  triglog _ hr := hr.imp_right fun ⟨entry', hmem, hrow⟩ =>
    ⟨entry', List.mem_append_left _ hmem, hrow⟩
  hbeatlog _ hr := hr.imp_right fun ⟨entry', hmem, hrow⟩ =>
    ⟨entry', List.mem_append_left _ hmem, hrow⟩
  scripts _ hr := hr.imp_right (.imp_left (·.mono entry))

theorem origin_call (cfg : Config) (a : Allowed) (log : List Entry) (calls : List DBCall)
    (call : DBCall) :
    (origin cfg a log calls).Within (origin cfg a log (calls ++ [call])) where
  nvstate _ hr := hr.imp_right fun ⟨now, key, value, res, hmem, hrow⟩ =>
    ⟨now, key, value, res, List.mem_append_left _ hmem, hrow⟩
  triglog _ hr := hr
  hbeatlog _ hr := hr
  scripts _ hr := hr.imp_right (.imp_right fun ⟨name, script, res, hmem, hrow⟩ =>
    ⟨name, script, res, List.mem_append_left _ hmem, hrow⟩)

/-! ## What holds of the outside -/

/-- A call that a script makes. -/
def DBCall.OfScript : DBCall → Prop
  | .wrote (.DBWriteNVState _ _ _) _ => True
  | .readNVState _ _ => True
  | _ => False

/-- A script is running behind the calls: it was fetched, it was there at
the beginning or had been uploaded by then, and the calls since are its
own. -/
def Running (cfg : Config) (a : Allowed) (log : List Entry) (calls : List DBCall) : Prop :=
  ∃ before fetch since code row, calls = before ++ fetch :: since ∧ fetch.script = some code ∧
    (origin cfg a log before).scripts row ∧ row.scriptcode = code ∧ ∀ c ∈ since, c.OfScript

/-- A call behind others is right: a variable is written by a script, and
the script that is fetched was there or had been uploaded. -/
structure DBCall.From (cfg : Config) (a : Allowed) (log : List Entry) (before : List DBCall)
    (call : DBCall) : Prop where
  nvstate : ∀ now key value res, call = .wrote (.DBWriteNVState now key value) res →
    Running cfg a log before
  script : ∀ code, call.script = some code →
    ∃ row, (origin cfg a log before).scripts row ∧ row.scriptcode = code

/-- The outside has nothing but what comes from somewhere: the rows are
those of calls, and variables are written, messages are sent and processes
are started while a script is running. -/
structure World.From (cfg : Config) (a : Allowed) (log : List Entry) (w : World) : Prop where
  rows : w.db.All (Tables.Within (origin cfg a log w.calls))
  calls : ∀ before call after, w.calls = before ++ call :: after → call.From cfg a log before
  sent : ∀ p ∈ w.sent, ∃ before, before <+: w.calls ∧ before.length = p.1 ∧
    Running cfg a log before
  spawned : ∀ p ∈ w.spawned, ∃ before, before <+: w.calls ∧ before.length = p.1 ∧
    Running cfg a log before

theorem Running.entry {a : Allowed} {calls : List DBCall} (h : Running cfg a log calls)
    (entry : Entry) : Running cfg a (log ++ [entry]) calls := by
  obtain ⟨before, fetch, since, code, row, hcalls, hscript, hrow, hrest⟩ := h
  exact ⟨before, fetch, since, code, row, hcalls, hscript,
    (origin_entry cfg a log before entry).scripts row hrow, hrest⟩

/-- Of a script that is running, another call. -/
theorem Running.concat {a : Allowed} {calls : List DBCall} {call : DBCall}
    (h : Running cfg a log calls) (hcall : call.OfScript) :
    Running cfg a log (calls ++ [call]) := by
  obtain ⟨before, fetch, since, code, row, rfl, hscript, hrow, hcode, hsince⟩ := h
  refine ⟨before, fetch, since ++ [call], code, row, ?_, hscript, hrow, hcode,
    List.forall_mem_append.mpr ⟨hsince, List.forall_mem_singleton.mpr hcall⟩⟩
  rw [List.append_assoc, List.cons_append]

theorem DBCall.From.entry {a : Allowed} {before : List DBCall} {call : DBCall}
    (h : call.From cfg a log before) (entry : Entry) :
    call.From cfg a (log ++ [entry]) before where
  nvstate now key value res hcall := (h.nvstate now key value res hcall).entry entry
  script code hcode := by
    obtain ⟨row, hrow, rfl⟩ := h.script code hcode
    exact ⟨row, (origin_entry cfg a log before entry).scripts row hrow, rfl⟩

theorem World.From.entry {a : Allowed} {w : World} (h : w.From cfg a log) (entry : Entry) :
    w.From cfg a (log ++ [entry]) where
  rows := h.rows.imp fun _ hd => hd.mono (origin_entry cfg a log w.calls entry)
  calls before call after hsplit := (h.calls before call after hsplit).entry entry
  sent p hp := by
    obtain ⟨before, hbefore, hlength, hrun⟩ := h.sent p hp
    exact ⟨before, hbefore, hlength, hrun.entry entry⟩
  spawned p hp := by
    obtain ⟨before, hbefore, hlength, hrun⟩ := h.spawned p hp
    exact ⟨before, hbefore, hlength, hrun.entry entry⟩

/-! ## Every act keeps it -/

/-- Another call of `db.c`. -/
theorem World.From.call {a : Allowed} {w w' : World} {call : DBCall} (h : w.From cfg a log)
    (hcalls : w'.calls = w.calls ++ [call])
    (hrows : w'.db.All (Tables.Within (origin cfg a log w'.calls)))
    (hcall : call.From cfg a log w.calls) (hsent : w'.sent = w.sent)
    (hspawned : w'.spawned = w.spawned) : w'.From cfg a log where
  rows := hrows
  calls := by
    rw [hcalls]
    exact forall_split_concat h.calls hcall
  sent p hp := by
    rw [hsent] at hp
    obtain ⟨before, hbefore, hrest⟩ := h.sent p hp
    rw [hcalls]
    exact ⟨before, hbefore.trans (List.prefix_append _ _), hrest⟩
  spawned p hp := by
    rw [hspawned] at hp
    obtain ⟨before, hbefore, hrest⟩ := h.spawned p hp
    rw [hcalls]
    exact ⟨before, hbefore.trans (List.prefix_append _ _), hrest⟩

/-- The rows that are there may be there behind another call. -/
theorem World.From.rows_call {a : Allowed} {w : World} (h : w.From cfg a log) (call : DBCall) :
    w.db.All (Tables.Within (origin cfg a log (w.calls ++ [call]))) :=
  h.rows.imp fun _ hd => hd.mono (origin_call cfg a log w.calls call)

theorem World.From.write {a : Allowed} {w : World} (h : w.From cfg a log) {write : Write}
    (hwrite : ∀ res, (origin cfg a log (w.calls ++ [.wrote write res])).Permits write)
    (hnv : ∀ now key value, write = .DBWriteNVState now key value → Running cfg a log w.calls) :
    (w.write m write).2.From cfg a log := by
  refine h.call rfl (Write.exec_within (h.rows_call _) (hwrite _) _) ⟨?_, ?_⟩ rfl rfl
  · rintro now key value res hcall
    exact hnv now key value (DBCall.wrote.inj hcall).1
  · exact fun _ hcode => nomatch hcode

theorem World.From.DBReadNVState {a : Allowed} {w : World} (h : w.From cfg a log)
    (key : CString) : (w.DBReadNVState m key).2.From cfg a log :=
  h.call rfl (Store.readRow_all _ key (h.rows_call _))
    ⟨fun _ _ _ _ hcall => (nomatch hcall), fun _ hcode => nomatch hcode⟩ rfl rfl

theorem World.From.DBFetchScript {a : Allowed} {w : World} (h : w.From cfg a log)
    (scriptName : CString) : (w.DBFetchScript m scriptName).2.From cfg a log := by
  refine h.call rfl (Store.readRow_all _ scriptName (h.rows_call _))
    ⟨fun _ _ _ _ hcall => (nomatch hcall), fun code hcode => ?_⟩ rfl rfl
  obtain ⟨d, hd, row, hrow, -, hvalue⟩ := Store.readRow_found h.rows hcode
  exact ⟨row, hd.scripts row hrow, Option.some.inj hvalue⟩

theorem World.From.DBFetchScriptByTag {a : Allowed} {w : World} (h : w.From cfg a log)
    (tagSubAddr : CString) : (w.DBFetchScriptByTag m tagSubAddr).2.From cfg a log := by
  refine h.call rfl (Store.DBFetchScriptByTag_all _ _ _ tagSubAddr (h.rows_call _))
    ⟨fun _ _ _ _ hcall => (nomatch hcall), fun code hcode => ?_⟩ rfl rfl
  obtain ⟨d, hd, row, hrow, rfl⟩ := Store.DBFetchScriptByTag_found h.rows hcode
  exact ⟨row, hd.scripts row hrow, rfl⟩

/-- A script has just been fetched. -/
theorem World.From.running {a : Allowed} {w : World} (h : w.From cfg a log)
    (hfetched : w.script.isSome = true) : Running cfg a log w.calls := by
  obtain ⟨code, hcode⟩ := Option.isSome_iff_exists.mp hfetched
  obtain ⟨call, hlast, hcall⟩ := Option.bind_eq_some_iff.mp hcode
  obtain ⟨before, hcalls⟩ := List.getLast?_eq_some_iff.mp hlast
  obtain ⟨row, hrow, hcode⟩ := (h.calls before call [] hcalls).script code hcall
  exact ⟨before, call, [], code, row, hcalls, hcall, hrow, hcode,
    fun _ hmem => absurd hmem List.not_mem_nil⟩

/-- A script acts outside while it is running. -/
theorem World.From.script {a : Allowed} {w w' : World} {es : List Script.Event}
    (h : w.From cfg a log) (hfetched : w.script.isSome = true)
    (hacts : Script.Acts (World.env m) es w w') : w'.From cfg a log := by
  have hkept := hacts.keeps (fun w => w.From cfg a log ∧ Running cfg a log w.calls) ?_ ?_ ?_ ?_
    ⟨h, h.running hfetched⟩
  · exact hkept.1
  · rintro key w ⟨hw, hrun⟩
    exact ⟨hw.DBReadNVState key, hrun.concat trivial⟩
  · rintro key value w ⟨hw, hrun⟩
    refine ⟨hw.write (fun res => ?_) fun _ _ _ _ => hrun, hrun.concat trivial⟩
    exact .inr ⟨_, key, value, res, List.mem_concat_self, rfl⟩
  · rintro command w ⟨hw, hrun⟩
    refine ⟨⟨hw.rows, hw.calls, hw.sent, fun p hp => ?_⟩, hrun⟩
    rcases List.mem_append.mp hp with hp | hp
    · exact hw.spawned p hp
    · cases List.mem_singleton.mp hp
      exact ⟨w.calls, List.prefix_rfl, rfl, hrun⟩
  · rintro msg w ⟨hw, hrun⟩
    refine ⟨⟨hw.rows, hw.calls, fun p hp => ?_, hw.spawned⟩, hrun⟩
    rcases List.mem_append.mp hp with hp | hp
    · exact hw.sent p hp
    · cases List.mem_singleton.mp hp
      exact ⟨w.calls, List.prefix_rfl, rfl, hrun⟩

/-- Every act keeps it, if the rows that are written are allowed and no
variable is among them. -/
theorem World.Reaches.from {a : Allowed} {writes : Write → Prop} {w w' : World}
    (hwrites : ∀ write, writes write → (∀ calls res,
      (origin cfg a log (calls ++ [.wrote write res])).Permits write) ∧
      ∀ now key value, write ≠ .DBWriteNVState now key value)
    (h : World.Reaches m writes w w') (hw : w.From cfg a log) : w'.From cfg a log := by
  induction h with
  | refl => exact hw
  | tail _ hact ih =>
    cases hact with
    | write write hwrite =>
      obtain ⟨hpermits, hnv⟩ := hwrites write hwrite
      exact ih.write (hpermits _) fun now key value heq => absurd heq (hnv now key value)
    | DBFetchScript scriptName => exact ih.DBFetchScript scriptName
    | DBFetchScriptByTag tagSubAddr => exact ih.DBFetchScriptByTag tagSubAddr
    | script hfetched hacts => exact ih.script hfetched hacts

/-! ## Over a run -/

/-- The daemon has been started. -/
structure State.Started (a : Allowed) (d : State) : Prop where
  clients : ∀ userSock, d.clients userSock = none
  rows : d.world.db.All (Tables.Within a)
  calls : d.world.calls = []
  sent : d.world.sent = []
  spawned : d.world.spawned = []

theorem State.Started.from {a : Allowed} (hd : d.Started a) : d.world.From cfg a [] where
  rows := hd.rows.imp fun _ h => ⟨fun r hr => .inl (h.nvstate r hr),
    fun r hr => .inl (h.triglog r hr), fun r hr => .inl (h.hbeatlog r hr),
    fun r hr => .inl (h.scripts r hr)⟩
  calls before call after hsplit := by
    rw [hd.calls] at hsplit
    exact absurd hsplit.symm (List.append_ne_nil_of_right_ne_nil _ (List.cons_ne_nil _ _))
  sent p hp := by
    rw [hd.sent] at hp
    cases hp
  spawned p hp := by
    rw [hd.spawned] at hp
    cases hp

/-- **Everything comes from somewhere**: in every run, and however SQLite
answers, the scripts that are there and the scripts that have been fetched
were there at the beginning or have been uploaded by a peer that was let
in; the rows of the logs are those of messages; and each variable that was
written, each message that was sent and each process that was started was
so behind the fetch of such a script, with no other fetch in between. -/
theorem daemon_comesFrom {a : Allowed} (h : Run m L cfg d log d') (hd : d.Started a) :
    d'.world.From cfg a log := by
  induction h with
  | nil => exact hd.from
  | @step log d' d'' cb es fuel hrun hpossible hstep ih =>
    refine (step_reaches hstep).from (fun write hwrite => ?_) (ih.entry ⟨cb, es⟩)
    have hmem : (⟨cb, es⟩ : Entry) ∈ log ++ [⟨cb, es⟩] := List.mem_concat_self
    cases write with
    | DBWriteNVState now key value => cases hwrite
    | DBUpdateTrigLog now source schema nvpairs =>
      exact ⟨fun _ _ => .inr ⟨_, hmem, nvpairs, rfl, hwrite⟩, fun _ _ _ => Write.noConfusion⟩
    | DBUpdateHeartbeatLog now source =>
      exact ⟨fun _ _ => .inr ⟨_, hmem, hwrite⟩, fun _ _ _ => Write.noConfusion⟩
    | DBIRScript name script =>
      refine ⟨fun calls res => .inr ⟨hrun.uploads hd.clients hpossible hstep hwrite, ?_⟩,
        fun _ _ _ => Write.noConfusion⟩
      exact ⟨name, script, res, List.mem_concat_self, rfl⟩

end

/-- Nothing is allowed. -/
def noRows : Allowed := ⟨fun _ => False, fun _ => False, fun _ => False, fun _ => False⟩

theorem sampleState_started : sampleState.Started noRows := by
  have hrows : Store.emptyTables.Within noRows := by
    constructor <;> exact fun _ hr => absurd hr List.not_mem_nil
  exact ⟨fun _ => rfl, .of_autocommit hrows, rfl, rfl, rfl⟩

theorem daemon_comesFrom_sample : ∃ log d',
    Run sampleMachine Script.Lemon.deferred ⟨false, none⟩ sampleState log d' ∧
    d'.world.From ⟨false, none⟩ noRows log := by
  obtain ⟨log, d', hcalls, -⟩ := sampleCallbacks_return
  have hrun := Run.callAll .nil sampleCallbacks_possible hcalls
  exact ⟨log, d', hrun, daemon_comesFrom hrun sampleState_started⟩

end XplEvent.Daemon
