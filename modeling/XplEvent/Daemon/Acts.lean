import Mathlib.Logic.Relation
import XplEvent.Control.Session
import XplEvent.Daemon.Callbacks
import XplEvent.Daemon.Recall

/-!
# What a callback does outside

A callback that returns has acted on the outside by a sequence of acts: a
row is written, a script is fetched, or a script that has been fetched is
run. Which rows it writes depends on the callback (`Callback.Writes`).
Nothing else leads out: no process is started and no message is sent but
by a script that was fetched (`step_acts`).
-/

namespace XplEvent.Daemon

open Control (Answers ConnectionData Deed Event LineResult MonRcvInfo ScheduleAnswers
  SockaddrStorage SocketCheckACL strncmp)
open Scheduler (SchedInfo)
open Script (Lemon Mode ParserExecFunction ParserExecPcode Unassigned XplGetMessageSchema
  XplGetMessageSourceTagComponents makeSource snprintf)
open Store (Write)
open Wire (XPLMessageClass XplMessage XplService)

/-! ## Acts that return -/

/-- The function returns. -/
def Act.Returns {α : Type} (x : Act α) (a : α) : Prop := x.run = some (.ok a)

section

variable {α β : Type}

theorem Act.returns_of {x : Except Fault α} {a : α} : (Act.of x).Returns a ↔ x = .ok a := by
  constructor
  · exact fun h => Option.some.inj h
  · exact fun h => congrArg some h

theorem Act.returns_pure {a b : α} : (pure a : Act α).Returns b ↔ a = b := by
  constructor
  · intro h
    cases h
    rfl
  · rintro rfl
    rfl

/-- A sequence taken apart. -/
theorem Act.returns_bind {x : Act α} {f : α → Act β} {b : β} (h : (x >>= f).Returns b) :
    ∃ a, x.Returns a ∧ (f a).Returns b := by
  unfold Act.Returns at h ⊢
  rw [ExceptT.run_bind] at h
  rcases hx : x.run with _ | f' | a
  · rw [hx] at h
    cases h
  · rw [hx] at h
    cases h
  · rw [hx] at h
    exact ⟨a, rfl, h⟩

theorem Act.not_returns_error {f : Fault} {a : α} : ¬ (Act.of (.error f)).Returns a :=
  fun h => nomatch h

theorem Act.not_returns_none {a : α} : ¬ Act.Returns (ExceptT.mk none) a := fun h => nomatch h

/-- What every turn of a loop keeps. -/
theorem Act.foldlM_keeps (Inv : β → Prop) {f : β → α → Act β}
    (hstep : ∀ b a b', Inv b → (f b a).Returns b' → Inv b') {as : List α} {b b' : β}
    (h : (as.foldlM f b).Returns b') (hb : Inv b) : Inv b' := by
  induction as generalizing b with
  | nil =>
    cases Act.returns_pure.mp h
    exact hb
  | cons a as ih =>
    obtain ⟨b₁, hturn, hrest⟩ := Act.returns_bind h
    exact ih hrest (hstep b a b₁ hb hturn)

end

/-! ## The acts -/

/-- The script that a call gives. -/
def DBCall.script : DBCall → Option CString
  | .fetchedScript _ script => script
  | .fetchedScriptByTag _ script => script
  | .wrote _ _ => none
  | .readNVState _ _ => none

/-- The script that the last call has given. -/
def World.script (w : World) : Option CString := w.calls.getLast?.bind DBCall.script

section

variable {D : Type} (m : Machine D)

/-- An act: a row is written, a script is fetched, or the script that has
just been fetched is run. -/
inductive World.Act (P : Write → Prop) : World → World → Prop
  | write (w : World) (write : Write) (hwrite : P write) : Act P w (w.write m write).2
  | DBFetchScript (w : World) (scriptName : CString) : Act P w (w.DBFetchScript m scriptName).2
  | DBFetchScriptByTag (w : World) (tagSubAddr : CString) :
    Act P w (w.DBFetchScriptByTag m tagSubAddr).2
  | script {w w' : World} {es : List Script.Event} (hfetched : w.script.isSome = true)
    (hacts : Script.Acts (World.env m) es w w') : Act P w w'

/-- Acts, one after the other. -/
abbrev World.Reaches (P : Write → Prop) : World → World → Prop :=
  Relation.ReflTransGen (World.Act m P)

end

/-- The rows that a callback writes itself, with what the listener of a
client does in it. -/
inductive Callback.Writes : Callback → List Event → Write → Prop
  | heartbeat {theMessage : XplMessage} {theService : XplService} {subAddress : Unassigned}
    {es : List Event} {vendor device instanceId : CString} (now : Int)
    (hconfirmed : theService.discoveryState = .XPL_HUB_CONFIRMED)
    (htype : theMessage.messageType = .XPL_MESSAGE_STATUS)
    (hsource : XplGetMessageSourceTagComponents theMessage = .ok (vendor, device, instanceId)) :
    Writes (.xPLListener theMessage theService .XPL_MSG_CLASS_HEARTBEAT true subAddress) es
      (.DBUpdateHeartbeatLog now
        (snprintf 63 (vendor ++ cstr "-" ++ device ++ cstr "." ++ instanceId)))
  | trigger {theMessage : XplMessage} {theService : XplService} {msgClass : XPLMessageClass}
    {subAddress : Unassigned} {es : List Event}
    {vendor device instanceId schemaClass schemaType nvpairs : CString} (now : Int)
    (sub : Option CString) (hconfirmed : theService.discoveryState = .XPL_HUB_CONFIRMED)
    (htype : theMessage.messageType = .XPL_MESSAGE_TRIGGER)
    (hsource : XplGetMessageSourceTagComponents theMessage = .ok (vendor, device, instanceId))
    (hschema : XplGetMessageSchema theMessage = .ok (schemaClass, schemaType))
    (hnvpairs : XplGetMessageNameValuesAsString theMessage = .ok nvpairs) :
    Writes (.xPLListener theMessage theService msgClass true subAddress) es
      (.DBUpdateTrigLog now (makeSource vendor device instanceId sub)
        (schemaClass ++ cstr "." ++ schemaType) nvpairs)
  | upload {userSock : Nat} {result : LineResult} {svc : XplService} {now : Int}
    {schedule : ScheduleAnswers} {es : List Event} {name script : CString}
    (hsaved : .DBIRScript name script ∈ es) :
    Writes (.clientCommandListener userSock result svc now schedule) es (.DBIRScript name script)

/-! ## Scripts -/

section

variable {D P : Type} {m : Machine D} {L : Lemon P} {cfg : Config} {svc : XplService} {fuel : Nat}
  {writes : Write → Prop}

theorem trigExec_returns {xm : XplMessage} {script : CString} {w : World} {st : Script.Store World}
    (h : (trigExec m L cfg svc xm script fuel w).Returns st) :
    ∃ es, Script.Acts (World.env m) es w st.world := by
  unfold trigExec at h
  split at h
  · exact absurd h Act.not_returns_none
  · exact absurd h Act.not_returns_error
  · rename_i res st' hexec
    split at h
    · exact absurd h Act.not_returns_error
    · cases Act.returns_of.mp h
      obtain ⟨es, -, hacts⟩ := Script.trigExec_acts hexec
      exact ⟨es, hacts⟩

theorem execPcode_returns {code : List Script.Pcode} {w w' : World} {res : PassFail}
    (h : (execPcode m cfg svc code fuel w).Returns (res, w')) :
    ∃ es, Script.Acts (World.env m) es w w' := by
  unfold execPcode at h
  split at h
  · exact absurd h Act.not_returns_none
  · rename_i res' st hexec
    obtain ⟨es, -, hacts⟩ := Script.exec_acts Script.ParserExecFunction_acts hexec
    split at h
    · exact absurd h Act.not_returns_error
    · split at h
      · exact absurd h Act.not_returns_error
      · cases Act.returns_of.mp h
        exact ⟨es, hacts⟩

theorem parseAndExecScript_returns {hcl : CString} {w w' : World} {res : PassFail}
    (h : (parseAndExecScript m L cfg svc hcl fuel w).Returns (res, w')) :
    ∃ es, Script.Acts (World.env m) es w w' := by
  unfold parseAndExecScript at h
  split at h
  · exact absurd h Act.not_returns_error
  · split at h
    · exact absurd h Act.not_returns_error
    · cases Act.returns_of.mp h
      exact ⟨[], .nil⟩
  · obtain ⟨⟨_, w₁⟩, hexec, h⟩ := Act.returns_bind h
    cases Act.returns_pure.mp h
    exact execPcode_returns hexec

/-- A script is fetched. -/
theorem World.DBFetchScript_reaches (w : World) (scriptName : CString) :
    World.Reaches m writes w (w.DBFetchScript m scriptName).2 :=
  .single (.DBFetchScript w scriptName)

theorem World.DBFetchScript_script (w : World) (scriptName : CString) :
    (w.DBFetchScript m scriptName).2.script = (w.DBFetchScript m scriptName).1 := by
  unfold World.script World.DBFetchScript
  rw [List.getLast?_concat]
  rfl

theorem World.DBFetchScriptByTag_script (w : World) (tagSubAddr : CString) :
    (w.DBFetchScriptByTag m tagSubAddr).2.script = (w.DBFetchScriptByTag m tagSubAddr).1 := by
  unfold World.script World.DBFetchScriptByTag
  rw [List.getLast?_concat]
  rfl

/-- The script fetched is run. -/
theorem World.Reaches.script {w w' w'' : World} {script : CString}
    (h : World.Reaches m writes w w') (hfetched : w'.script = some script)
    (hacts : ∃ es, Script.Acts (World.env m) es w' w'') : World.Reaches m writes w w'' := by
  obtain ⟨es, hacts⟩ := hacts
  exact h.tail (.script (Option.isSome_of_eq_some hfetched) hacts)

/-! ## A message of the network -/

theorem logHeartBeatMessage_reaches {xm : XplMessage} {w w' : World}
    (h : (logHeartBeatMessage m xm w).Returns w')
    (hwrites : ∀ vendor device instanceId now,
      XplGetMessageSourceTagComponents xm = .ok (vendor, device, instanceId) →
      writes (.DBUpdateHeartbeatLog now
        (snprintf 63 (vendor ++ cstr "-" ++ device ++ cstr "." ++ instanceId)))) :
    World.Reaches m writes w w' := by
  obtain ⟨⟨vendor, device, instanceId⟩, hsource, h⟩ := Act.returns_bind h
  cases Act.returns_pure.mp h
  exact .single (.write w _ (hwrites vendor device instanceId _ (Act.returns_of.mp hsource)))

/-- The script `preprocess` is run, and its result is read. -/
theorem subAddress_reaches {xm : XplMessage} {script : CString} {w w' : World}
    {st : Script.Store World} (hreach : World.Reaches m writes w w')
    (hfetched : w'.script = some script)
    (h : (trigExec m L cfg svc xm script fuel w').Returns st) :
    World.Reaches m writes w (Script.ParserHashGetValue (World.env m) (scriptMode svc) st
      (cstr "result") (cstr "subaddress")).2.world := by
  obtain ⟨es, hacts⟩ := trigExec_returns h
  obtain ⟨es', -, hread⟩ := Script.ParserHashGetValue_acts (World.env m) (scriptMode svc) st
    (cstr "result") (cstr "subaddress")
  exact hreach.script hfetched ⟨es ++ es', hacts.trans hread⟩

/-- The script for a tag is run. -/
theorem scriptByTag_reaches {xm : XplMessage} {source source' : CString} {w w' w'' : World}
    (hreach : World.Reaches m writes w w')
    (h : Act.Returns (let (script, w) := w'.DBFetchScriptByTag m source
      match script with
      | none => pure (source, w)
      | some script => do
        let st ← trigExec m L cfg svc xm script fuel w
        pure (source, st.world)) (source', w'')) :
    World.Reaches m writes w w'' ∧ source' = source := by
  have hbyTag : World.Reaches m writes w (w'.DBFetchScriptByTag m source).2 :=
    hreach.tail (.DBFetchScriptByTag w' source)
  have hscript := World.DBFetchScriptByTag_script (m := m) w' source
  revert h hbyTag hscript
  rcases w'.DBFetchScriptByTag m source with ⟨_ | script, w₁⟩
  · intro h hbyTag hscript
    cases Act.returns_pure.mp h
    exact ⟨hbyTag, rfl⟩
  · intro h hbyTag hscript
    obtain ⟨st, hexec, hrest⟩ := Act.returns_bind h
    cases Act.returns_pure.mp hrest
    exact ⟨hbyTag.script hscript (trigExec_returns hexec), rfl⟩

/-- The tag of a message starts with its source. -/
theorem checkTriggerMessage_reaches {subAddress : Unassigned} {xm : XplMessage} {source : CString}
    {w w' : World}
    (h : (checkTriggerMessage m L cfg svc subAddress xm fuel w).Returns (source, w')) :
    World.Reaches m writes w w' ∧ ∃ vendor device instanceId sub,
      XplGetMessageSourceTagComponents xm = .ok (vendor, device, instanceId) ∧
      source = makeSource vendor device instanceId sub := by
  obtain ⟨⟨vendor, device, instanceId⟩, hsource, hcheck⟩ := Act.returns_bind h
  obtain ⟨schema, -, hcheck⟩ := Act.returns_bind hcheck
  have hsource := Act.returns_of.mp hsource
  have hfetch : World.Reaches m writes w (w.DBFetchScript m (cstr "preprocess")).2 :=
    w.DBFetchScript_reaches (cstr "preprocess")
  have hscript := World.DBFetchScript_script (m := m) w (cstr "preprocess")
  revert hcheck hfetch hscript
  rcases w.DBFetchScript m (cstr "preprocess") with ⟨_ | script, w₁⟩
  · intro hcheck hfetch hscript
    obtain ⟨sub, -, hmade⟩ := Act.returns_bind hcheck
    obtain ⟨made, hmade, hrest⟩ := Act.returns_bind hmade
    cases Act.returns_pure.mp hmade
    obtain ⟨hreach, rfl⟩ := scriptByTag_reaches hfetch hrest
    exact ⟨hreach, vendor, device, instanceId, sub, hsource, rfl⟩
  · intro hcheck hfetch hscript
    obtain ⟨st, hexec, hmade⟩ := Act.returns_bind hcheck
    obtain ⟨made, hmade, hrest⟩ := Act.returns_bind hmade
    cases Act.returns_pure.mp hmade
    obtain ⟨hreach, rfl⟩ := scriptByTag_reaches (subAddress_reaches hfetch hscript hexec) hrest
    exact ⟨hreach, vendor, device, instanceId, _, hsource, rfl⟩

theorem logTriggerMessage_reaches {xm : XplMessage} {source : CString} {w w' : World}
    (h : (logTriggerMessage m xm source w).Returns w')
    (hwrites : ∀ schemaClass schemaType nvpairs now,
      XplGetMessageSchema xm = .ok (schemaClass, schemaType) →
      XplGetMessageNameValuesAsString xm = .ok nvpairs →
      writes (.DBUpdateTrigLog now source (schemaClass ++ cstr "." ++ schemaType) nvpairs)) :
    World.Reaches m writes w w' := by
  obtain ⟨⟨schemaClass, schemaType⟩, hschema, h⟩ := Act.returns_bind h
  obtain ⟨nvpairs, hnvpairs, h⟩ := Act.returns_bind h
  cases Act.returns_pure.mp h
  exact .single (.write w _ (hwrites schemaClass schemaType nvpairs _ (Act.returns_of.mp hschema)
    (Act.returns_of.mp hnvpairs)))

theorem xPLListener_reaches {xm : XplMessage} {theService : XplService}
    {msgClass : XPLMessageClass} {broadcast : Bool} {subAddress : Unassigned} {es : List Event}
    {w w' : World}
    (h : (xPLListener m L cfg xm theService msgClass broadcast subAddress fuel w).Returns w') :
    World.Reaches m (Callback.Writes (.xPLListener xm theService msgClass broadcast subAddress) es)
      w w' := by
  unfold xPLListener at h
  by_cases hconfirmed : theService.discoveryState = .XPL_HUB_CONFIRMED
  · rw [if_neg (not_not_intro hconfirmed)] at h
    cases broadcast with
    | false =>
      cases Act.returns_pure.mp h
      exact .refl
    | true =>
      rw [if_pos rfl] at h
      obtain ⟨schema, hschema, hrest⟩ := Act.returns_bind h
      by_cases hheartbeat : xm.messageType = .XPL_MESSAGE_STATUS ∧
          msgClass = .XPL_MSG_CLASS_HEARTBEAT
      · rw [if_pos hheartbeat] at hrest
        obtain ⟨htype, rfl⟩ := hheartbeat
        exact logHeartBeatMessage_reaches hrest fun vendor device instanceId now hsource =>
          .heartbeat now hconfirmed htype hsource
      · rw [if_neg hheartbeat] at hrest
        by_cases htype : xm.messageType = .XPL_MESSAGE_TRIGGER
        · rw [if_pos htype] at hrest
          obtain ⟨⟨source, w₁⟩, hcheck, hlog⟩ := Act.returns_bind hrest
          obtain ⟨hreach, vendor, device, instanceId, sub, hsource, rfl⟩ :=
            checkTriggerMessage_reaches hcheck
          exact hreach.trans (logTriggerMessage_reaches hlog
            fun schemaClass schemaType nvpairs now hschema hnvpairs =>
              .trigger now sub hconfirmed htype hsource hschema hnvpairs)
        · rw [if_neg htype] at hrest
          cases Act.returns_pure.mp hrest
          exact .refl
  · rw [if_pos hconfirmed] at h
    cases Act.returns_pure.mp h
    exact .refl

/-! ## The timer -/

theorem schedulerExec_reaches {call : Scheduler.SchedCall} {w w' : World}
    (h : (schedulerExec m L cfg svc fuel w call).Returns w') : World.Reaches m writes w w' := by
  unfold schedulerExec at h
  have hfetch : World.Reaches m writes w (w.DBFetchScript m call.execParam).2 :=
    w.DBFetchScript_reaches call.execParam
  have hscript := World.DBFetchScript_script (m := m) w call.execParam
  revert h hfetch hscript
  rcases w.DBFetchScript m call.execParam with ⟨_ | script, w₁⟩
  · intro h hfetch hscript
    cases Act.returns_pure.mp h
    exact hfetch
  · intro h hfetch hscript
    obtain ⟨⟨res, w₂⟩, hexec, h⟩ := Act.returns_bind h
    cases Act.returns_pure.mp h
    exact hfetch.script hscript (parseAndExecScript_returns hexec)

/-- The timer leaves the connections as they are. -/
theorem tickHandler_reaches {xplEventService : Option XplService} {now : Int}
    {schedule : ScheduleAnswers} {d d' : State}
    (h : (tickHandler m L cfg xplEventService now schedule fuel d).Returns d') :
    World.Reaches m writes d.world d'.world ∧ d'.clients = d.clients := by
  unfold tickHandler at h
  split at h
  · cases Act.returns_pure.mp h
    exact ⟨.refl, rfl⟩
  · rename_i svc
    split at h
    · cases Act.returns_pure.mp h
      exact ⟨.refl, rfl⟩
    · split at h
      · obtain ⟨sch, -, h⟩ := Act.returns_bind h
        cases Act.returns_pure.mp h
        exact ⟨.refl, rfl⟩
      · split at h
        · exact absurd h Act.not_returns_error
        · obtain ⟨w, hcalls, h⟩ := Act.returns_bind h
          cases Act.returns_pure.mp h
          refine ⟨?_, rfl⟩
          exact Act.foldlM_keeps (World.Reaches m writes d.world)
            (fun w call w' hw hcall => hw.trans (schedulerExec_reaches hcall)) hcalls .refl

/-! ## A line of a client -/

/-- The name of the script that a command asks for. -/
def execName (argv : List CString) : Option CString :=
  if argv.head? = some (cstr "exec") then argv.tail.head? else none

/-- The name of the script that a line outside of a transfer asks for. -/
def askedFor (line : CString) : Option CString :=
  if strncmp (cstr "cl:") line 3 then execName (Lib.words 32 (line.drop 3))
  else if strncmp (cstr "ss:") line 3 then some (line.drop 3)
  else none

/-- The scripts behind some events: one that is reported as saved is there,
with its quotes doubled. -/
def saved (scripts : CString → Option CString) : List Event → CString → Option CString
  | .DBIRScript name script :: .print reply :: es =>
    saved (if reply = cstr "ok:\n" then
      Function.update scripts name (some (Store.escapeQuotes script)) else scripts) es
  | _ :: es => saved scripts es
  | [] => scripts

/-- Events outside of a transfer save nothing. -/
theorem saved_outside {scripts : CString → Option CString} {es : List Event}
    (h : ∀ e ∈ es, e.Outside) : saved scripts es = scripts := by
  induction es with
  | nil => rfl
  | cons e es ih =>
    obtain ⟨he, hes⟩ := List.forall_mem_cons.mp h
    cases e with
    | DBIRScript name script => exact he.elim
    | _ => exact ih hes

theorem saved_closed (scripts : CString → Option CString) (es : List Event) :
    saved scripts (es ++ [.closed]) = saved scripts es := by
  fun_induction saved scripts es with
  | case1 scripts name script reply es ih => exact ih
  | case2 scripts e es hnot ih =>
    rw [List.cons_append, saved]
    · exact ih
    · intro name script reply es' he hes
      cases es with
      | nil => cases hes
      | cons e' es =>
        cases hes
        exact hnot name script reply es he rfl
  | case3 scripts => rfl

variable (m) in
/-- A part of the listener of a client has returned: it has done what the
control connection does, as the rest of the daemon has answered. A script
that was asked for is the one that is stored, and those that it says have
been saved. -/
structure Answered {α : Type} (asked : Option CString) (deed : Answers → Deed α) (es : List Event)
    (res : α) (d d' : State) : Prop where
  answers : ∃ a, deed a = (es, .ok res) ∧
    ∀ scripts, m.Reliable → d.world.Holds scripts →
      (∀ name, asked = some name → a.fetched = scripts name) ∧ d'.world.Holds (saved scripts es)
  reaches : ∀ writes : Write → Prop, (∀ name script, .DBIRScript name script ∈ es →
    writes (.DBIRScript name script)) → World.Reaches m writes d.world d'.world
  clients : d'.clients = d.clients

variable {now : Int} {schedule : ScheduleAnswers} {es : List Event} {d d' : State}

/-- Nothing is done outside. -/
theorem Answered.inside {α : Type} {deed : Answers → Deed α} {res : α} {sch : Option SchedInfo}
    (h : ∃ a, deed a = (es, .ok res)) (hes : ∀ scripts, saved scripts es = scripts) :
    Answered m none deed es res d { d with sch := sch } := by
  obtain ⟨a, ha⟩ := h
  refine ⟨⟨a, ha, fun scripts _ hd => ⟨fun _ hname => (nomatch hname), ?_⟩⟩, fun _ _ => .refl, rfl⟩
  rw [hes]
  exact hd

theorem runCommand_answered {argv0 : CString} {args : List CString} {res : PassFail}
    (h : (runCommand m L cfg svc now schedule fuel argv0 args d).Returns (es, res, d')) :
    Answered m (execName (argv0 :: args)) (fun a => Control.clientCommand a argv0 args) es res
      d d' := by
  unfold runCommand at h
  unfold Control.clientCommand execName
  by_cases hexec : argv0 = cstr "exec"
  · rw [if_pos hexec] at h
    rw [List.head?_cons, if_pos (congrArg some hexec), List.tail_cons]
    simp only [if_pos hexec]
    cases args with
    | nil =>
      cases Act.returns_pure.mp h
      exact .inside ⟨⟨none, .FAIL, .FAIL, false⟩, rfl⟩ fun _ => rfl
    | cons name args =>
      dsimp only at h
      have hreach : ∀ writes, World.Reaches m writes d.world (d.world.DBFetchScript m name).2 :=
        fun writes => d.world.DBFetchScript_reaches name
      have hscript := World.DBFetchScript_script (m := m) d.world name
      have hholds := fun scripts (hm : m.Reliable) (hw : d.world.Holds scripts) =>
        hw.DBFetchScript hm name
      revert h hreach hscript hholds
      rcases d.world.DBFetchScript m name with ⟨_ | script, w⟩
      · intro h hreach hscript hholds
        cases Act.returns_pure.mp h
        refine ⟨⟨⟨none, .FAIL, .FAIL, false⟩, rfl, fun scripts hm hw => ?_⟩,
          fun writes _ => hreach writes, rfl⟩
        obtain ⟨hafter, hfetched⟩ := hholds scripts hm hw
        exact ⟨fun _ hname => hfetched.trans (congrArg scripts (Option.some.inj hname)), hafter⟩
      · intro h hreach hscript hholds
        obtain ⟨⟨res', w'⟩, hrun, hrest⟩ := Act.returns_bind h
        cases Act.returns_pure.mp hrest
        refine ⟨⟨⟨some script, res', .FAIL, false⟩, rfl, fun scripts hm hw => ?_⟩,
          fun writes _ => (hreach writes).script hscript (parseAndExecScript_returns hrun), rfl⟩
        obtain ⟨hafter, hfetched⟩ := hholds scripts hm hw
        obtain ⟨es, hacts⟩ := parseAndExecScript_returns hrun
        exact ⟨fun _ hname => hfetched.trans (congrArg scripts (Option.some.inj hname)),
          hafter.script hm hacts⟩
  · rw [if_neg hexec] at h
    rw [List.head?_cons, if_neg fun h => hexec (Option.some.inj h)]
    simp only [if_neg hexec]
    by_cases hreload : argv0 = cstr "schreload"
    · rw [if_pos hreload] at h
      simp only [if_pos hreload]
      obtain ⟨sch, -, h⟩ := Act.returns_bind h
      obtain ⟨sch, -, h⟩ := Act.returns_bind h
      obtain ⟨sch, -, h⟩ := Act.returns_bind h
      obtain ⟨sch, -, h⟩ := Act.returns_bind h
      cases Act.returns_pure.mp h
      exact .inside ⟨⟨none, .FAIL, .FAIL, true⟩, rfl⟩ fun _ => rfl
    · rw [if_neg hreload] at h
      simp only [if_neg hreload]
      cases Act.returns_pure.mp h
      exact .inside ⟨⟨none, .FAIL, .FAIL, false⟩, rfl⟩ fun _ => rfl

theorem interpretClientCommand_answered {cl : CString}
    (h : (interpretClientCommand m L cfg svc now schedule fuel cl d).Returns (es, d')) :
    ∃ res, Answered m (execName (Lib.words 32 cl)) (fun a => Control.interpretClientCommand a cl)
      es res d d' := by
  obtain ⟨argv, hargv, h⟩ := Act.returns_bind h
  have hargv := Act.returns_of.mp hargv
  unfold Control.interpretClientCommand
  rw [Util.splitString_eq] at hargv ⊢
  cases hargv
  cases hwords : Lib.words 32 cl with
  | nil =>
    rw [hwords] at h
    exact absurd h Act.not_returns_error
  | cons argv0 args =>
    rw [hwords] at h
    obtain ⟨⟨es', res, d₁⟩, hrun, h⟩ := Act.returns_bind h
    cases Act.returns_pure.mp h
    obtain ⟨⟨a, ha, hstored⟩, hreaches, hclients⟩ := runCommand_answered hrun
    -- what a command does is outside of a transfer
    have hout := Control.clientCommand_outside a argv0 args
    rw [ha] at hout
    have hsaved : ∀ scripts, saved scripts (es' ++ [.print (Control.commandReply res)]) =
        saved scripts es' := by
      intro scripts
      rw [saved_outside hout]
      exact saved_outside (List.forall_mem_append.mpr ⟨hout, List.forall_mem_singleton.mpr trivial⟩)
    refine ⟨res, ⟨a, by simp only [ha], fun scripts hm hw => ?_⟩, fun writes hwrites => ?_, hclients⟩
    · rw [hsaved]
      exact hstored scripts hm hw
    · exact hreaches writes fun name script hsaved =>
        hwrites name script (List.mem_append_left _ hsaved)

theorem commandLine_answered {line : CString} {cdp : ConnectionData}
    (h : (commandLine m L cfg svc now schedule fuel line d).Returns (es, cdp, d')) :
    Answered m (askedFor line) (fun a => Control.commandLine a line) es cdp d d' := by
  unfold commandLine at h
  unfold Control.commandLine askedFor
  by_cases hcl : strncmp (cstr "cl:") line 3 = true
  · rw [if_pos hcl] at h ⊢
    simp only [if_pos hcl]
    obtain ⟨⟨es', d₁⟩, hrun, h⟩ := Act.returns_bind h
    cases Act.returns_pure.mp h
    obtain ⟨res, ⟨a, ha, hstored⟩, hreaches, hclients⟩ := interpretClientCommand_answered hrun
    refine ⟨⟨a, by simp only [ha], hstored⟩, fun writes hwrites => ?_, hclients⟩
    exact hreaches writes fun name script hsaved =>
      hwrites name script (List.mem_cons_of_mem _ hsaved)
  · rw [if_neg hcl] at h ⊢
    simp only [if_neg hcl]
    by_cases hss : strncmp (cstr "ss:") line 3 = true
    · rw [if_pos hss] at h ⊢
      simp only [if_pos hss]
      have hreach : ∀ writes, World.Reaches m writes d.world
          (d.world.DBFetchScript m (line.drop 3)).2 :=
        fun writes => d.world.DBFetchScript_reaches (line.drop 3)
      have hholds := fun scripts (hm : m.Reliable) (hw : d.world.Holds scripts) =>
        hw.DBFetchScript hm (line.drop 3)
      revert h hreach hholds
      rcases d.world.DBFetchScript m (line.drop 3) with ⟨_ | theScript, w⟩
      · intro h hreach hholds
        cases Act.returns_pure.mp h
        refine ⟨⟨⟨none, .FAIL, .FAIL, false⟩, rfl, fun scripts hm hw => ?_⟩,
          fun writes _ => hreach writes, rfl⟩
        obtain ⟨hafter, hfetched⟩ := hholds scripts hm hw
        exact ⟨fun _ hname => hfetched.trans (congrArg scripts (Option.some.inj hname)), hafter⟩
      · intro h hreach hholds
        obtain ⟨stream, hstream, h⟩ := Act.returns_bind h
        cases Act.returns_pure.mp h
        refine ⟨⟨⟨some theScript, .FAIL, .FAIL, false⟩, ?_, fun scripts hm hw => ?_⟩,
          fun writes _ => hreach writes, rfl⟩
        · simp only [Act.returns_of.mp hstream]
        · obtain ⟨hafter, hfetched⟩ := hholds scripts hm hw
          have hprints : ∀ e ∈ Event.sendScript (line.drop 3) :: stream.map Event.print,
              e.Outside := by
            refine List.forall_mem_cons.mpr ⟨trivial, fun e he => ?_⟩
            obtain ⟨text, -, rfl⟩ := List.mem_map.mp he
            trivial
          rw [saved_outside hprints]
          exact ⟨fun _ hname => hfetched.trans (congrArg scripts (Option.some.inj hname)), hafter⟩
    · rw [if_neg hss] at h ⊢
      simp only [if_neg hss]
      by_cases hrs : strncmp (cstr "rs:") line 3 = true
      · rw [if_pos hrs] at h
        simp only [if_pos hrs]
        cases Act.returns_pure.mp h
        exact .inside ⟨⟨none, .FAIL, .FAIL, false⟩, rfl⟩ fun _ => rfl
      · rw [if_neg hrs] at h
        simp only [if_neg hrs]
        cases Act.returns_pure.mp h
        exact .inside ⟨⟨none, .FAIL, .FAIL, false⟩, rfl⟩ fun _ => rfl

theorem processScript_answered {ri : MonRcvInfo} {cdp : ConnectionData}
    (h : (processScript m ri d).Returns (es, cdp, d')) :
    Answered m none (fun a => Control.processScript a ri) es cdp d d' := by
  unfold processScript at h
  unfold Control.processScript
  by_cases hstate : ri.state ≠ .RS_ERROR
  · rw [if_pos hstate] at h
    simp only [if_pos hstate]
    obtain ⟨name, hname, h⟩ := Act.returns_bind h
    cases hri : ri.name with
    | none =>
      rw [hri] at hname
      exact absurd hname Act.not_returns_error
    | some name' =>
      rw [hri] at hname
      cases Act.returns_of.mp hname
      have hwrite : ∀ writes : Write → Prop, writes (.DBIRScript name ri.script) →
          World.Reaches m writes d.world (d.world.DBIRScript m name ri.script).2 :=
        fun writes hwrites => .single (.write d.world _ hwrites)
      have hholds := fun scripts (hm : m.Reliable) (hw : d.world.Holds scripts) =>
        hw.DBIRScript hm name ri.script
      revert h hwrite hholds
      rcases d.world.DBIRScript m name ri.script with ⟨res, w⟩
      intro h hwrite hholds
      cases Act.returns_pure.mp h
      refine ⟨⟨⟨none, .FAIL, res, false⟩, rfl, fun scripts hm hw => ?_⟩,
        fun writes hwrites => hwrite writes (hwrites _ _ List.mem_cons_self), rfl⟩
      refine ⟨fun _ hname => (nomatch hname), ?_⟩
      have hafter := hholds scripts hm hw
      cases res with
      | PASS => exact hafter
      | FAIL => exact hafter
  · rw [if_neg hstate] at h
    simp only [if_neg hstate]
    cases Act.returns_pure.mp h
    exact .inside ⟨⟨none, .FAIL, .FAIL, false⟩, rfl⟩ fun _ => rfl

theorem scriptLine_answered {ri : MonRcvInfo} {line : CString} {cdp : ConnectionData}
    (h : (scriptLine m ri line d).Returns (es, cdp, d')) :
    Answered m none (fun a => Control.scriptLine a ri line) es cdp d d' := by
  obtain ⟨⟨ri', done⟩, hline, h⟩ := Act.returns_bind h
  unfold Control.scriptLine
  rw [Act.returns_of.mp hline]
  cases done with
  | false =>
    cases Act.returns_pure.mp h
    exact .inside ⟨⟨none, .FAIL, .FAIL, false⟩, rfl⟩ fun _ => rfl
  | true =>
    obtain ⟨⟨es', cdp', d₁⟩, hend, h⟩ := Act.returns_bind h
    cases Act.returns_pure.mp h
    obtain ⟨⟨a, ha, hstored⟩, hreaches, hclients⟩ := processScript_answered hend
    refine ⟨⟨a, by simp only [ha], hstored⟩, fun writes hwrites => ?_, hclients⟩
    exact hreaches writes fun name script hsaved =>
      hwrites name script (List.mem_cons_of_mem _ hsaved)

/-- The name of the script that a line of a connection asks for. -/
def asks (cdp : ConnectionData) (line : CString) : Option CString :=
  match cdp.rcvInfo with
  | none => askedFor line
  | some _ => none

theorem actOn_answered {line : CString} {cdp cdp' : ConnectionData}
    (h : (actOn m L cfg svc now schedule fuel cdp line d).Returns (es, cdp', d')) :
    Answered m (asks cdp line) (fun a => Control.actOn a cdp line) es cdp' d d' := by
  unfold actOn at h
  unfold Control.actOn asks
  cases hri : cdp.rcvInfo with
  | none =>
    rw [hri] at h
    exact commandLine_answered h
  | some ri =>
    rw [hri] at h
    exact scriptLine_answered h

/-- What the control connection does for the line that has been read. -/
def lineDeed (result : LineResult) (cdp : ConnectionData) (a : Answers) : Deed ConnectionData :=
  match result.line with
  | none => ([], .ok cdp)
  | some raw => if result.length ≠ 0 then Control.actOn a cdp (cutNul raw) else ([], .ok cdp)

theorem listen_eq {result : LineResult} {cdp cdp' : ConnectionData} {a : Answers}
    {es₁ : List Event} (h : lineDeed result cdp a = (es₁, .ok cdp')) :
    Control.listen (some cdp) (result, a) =
      if result.length = 0 then (es₁ ++ [.closed], .ok none) else (es₁, .ok (some cdp')) := by
  unfold Control.listen Control.clientCommandListener
  unfold lineDeed at h
  cases hline : result.line with
  | none =>
    rw [hline] at h
    cases h
    rfl
  | some raw =>
    simp only [hline] at h ⊢
    rw [h]

/-- Without a length the connection is closed. -/
theorem listen_closed {result : LineResult} (hlength : result.length = 0) (cdp : ConnectionData)
    (a : Answers) : Control.listen (some cdp) (result, a) = ([.closed], .ok none) := by
  have hdeed : lineDeed result cdp a = ([], .ok cdp) := by
    unfold lineDeed
    cases result.line with
    | none => rfl
    | some raw => exact if_neg (not_not_intro hlength)
  rw [listen_eq hdeed, if_pos hlength]
  rfl

/-- Without a line nothing is done. -/
theorem listen_nothing {result : LineResult} (hline : result.line = none)
    (hlength : result.length ≠ 0) (cdp : ConnectionData) (a : Answers) :
    Control.listen (some cdp) (result, a) = ([], .ok (some cdp)) := by
  have hdeed : lineDeed result cdp a = ([], .ok cdp) := by
    rw [lineDeed, hline]
  rw [listen_eq hdeed, if_neg hlength]

/-- The name of the script that is asked for with what has been read. -/
def askedIn (result : LineResult) (cdp : ConnectionData) : Option CString :=
  match result.line with
  | none => none
  | some raw => if result.length ≠ 0 then asks cdp (cutNul raw) else none

/-- **The listener of a client does what the control connection does**: the
record of its own connection goes on as that one's, and no other is
touched. -/
theorem clientCommandListener_answered {userSock : Nat} {result : LineResult}
    (h : (clientCommandListener m L cfg svc now schedule fuel userSock result d).Returns (es, d')) :
    ∃ client conn a, d.clients userSock = some client ∧
      Control.listen (some client.data) (result, a) = (es, .ok conn) ∧
      (∀ scripts, m.Reliable → d.world.Holds scripts →
        (∀ name, askedIn result client.data = some name → a.fetched = scripts name) ∧
          d'.world.Holds (saved scripts es)) ∧
      d'.clients = Function.update d.clients userSock
        (conn.map fun data => ⟨client.clientAddr, data⟩) ∧
      World.Reaches m (Callback.Writes (.clientCommandListener userSock result svc now schedule) es)
        d.world d'.world := by
  obtain ⟨client, hclient, h⟩ := Act.returns_bind h
  have hclient : d.clients userSock = some client := by
    cases hsome : d.clients userSock with
    | none =>
      rw [hsome] at hclient
      exact absurd hclient Act.not_returns_error
    | some client' =>
      rw [hsome] at hclient
      exact congrArg some (Except.ok.inj (Act.returns_of.mp hclient))
  have hidle : Answered m none (fun _ => ([], .ok client.data)) [] client.data d d :=
    .inside ⟨⟨none, .FAIL, .FAIL, false⟩, rfl⟩ fun _ => rfl
  -- a line is acted on, or there is none
  obtain ⟨es₁, cdp, d₁, hacted, hrest⟩ : ∃ es₁ cdp d₁,
      Answered m (askedIn result client.data) (lineDeed result client.data) es₁ cdp d d₁ ∧
      Act.Returns (if result.length = 0 then
          pure (es₁ ++ [.closed], { d₁ with clients := Function.update d₁.clients userSock none })
        else
          pure (es₁, { d₁ with
            clients := Function.update d₁.clients userSock (some ⟨client.clientAddr, cdp⟩) }))
        (es, d') := by
    unfold lineDeed askedIn
    cases hline : result.line with
    | none =>
      rw [hline] at h
      obtain ⟨acted, hacted, hrest⟩ := Act.returns_bind h
      cases Act.returns_pure.mp hacted
      exact ⟨_, _, _, hidle, hrest⟩
    | some raw =>
      rw [hline] at h
      by_cases hlength : result.length ≠ 0
      · simp only [if_pos hlength] at h ⊢
        obtain ⟨⟨es₁, cdp, d₁⟩, hacted, hrest⟩ := Act.returns_bind h
        exact ⟨es₁, cdp, d₁, actOn_answered hacted, hrest⟩
      · simp only [if_neg hlength] at h ⊢
        obtain ⟨acted, hacted, hrest⟩ := Act.returns_bind h
        cases Act.returns_pure.mp hacted
        exact ⟨_, _, _, hidle, hrest⟩
  obtain ⟨⟨a, ha, hstored⟩, hreaches, hclients⟩ := hacted
  have hlisten := listen_eq ha
  by_cases hlength : result.length = 0
  · rw [if_pos hlength] at hrest hlisten
    cases Act.returns_pure.mp hrest
    refine ⟨client, none, a, hclient, hlisten, fun scripts hm hw => ?_,
      congrArg (Function.update · userSock none) hclients, ?_⟩
    · rw [saved_closed]
      exact hstored scripts hm hw
    · exact hreaches _ fun name script hsaved => .upload (List.mem_append_left _ hsaved)
  · rw [if_neg hlength] at hrest hlisten
    cases Act.returns_pure.mp hrest
    exact ⟨client, some cdp, a, hclient, hlisten, hstored,
      congrArg (Function.update · userSock (some ⟨client.clientAddr, cdp⟩)) hclients,
      hreaches _ fun name script hsaved => .upload hsaved⟩

/-! ## Every callback -/

/-- A peer that connects is let in, and has a connection then, or is not. -/
theorem commandSocketListener_cases {accepted : Option (Nat × SockaddrStorage)}
    (h : (commandSocketListener cfg accepted d).Returns d') :
    (d' = d ∧ ∀ userSock clientAddr, accepted = some (userSock, clientAddr) →
      SocketCheckACL cfg.controlACL clientAddr ≠ .ok .PASS) ∨
    ∃ userSock clientAddr, accepted = some (userSock, clientAddr) ∧
      SocketCheckACL cfg.controlACL clientAddr = .ok .PASS ∧
      d' = { d with clients :=
        Function.update d.clients userSock (some ⟨clientAddr, ⟨none⟩⟩) } := by
  unfold commandSocketListener at h
  cases accepted with
  | none => exact .inl ⟨(Act.returns_pure.mp h).symm, fun _ _ hnone => nomatch hnone⟩
  | some peer =>
    obtain ⟨userSock, clientAddr⟩ := peer
    obtain ⟨res, hacl, h⟩ := Act.returns_bind h
    rw [Act.returns_of] at hacl
    cases res with
    | FAIL =>
      refine .inl ⟨(Act.returns_pure.mp h).symm, ?_⟩
      rintro userSock' clientAddr' ⟨⟩
      rw [hacl]
      exact fun hpass => nomatch hpass
    | PASS => exact .inr ⟨userSock, clientAddr, rfl, hacl, (Act.returns_pure.mp h).symm⟩

/-- **A callback acts outside by writing the rows it may write, fetching
scripts, and running those it has fetched.** -/
theorem step_reaches {cb : Callback} (h : (step m L cfg fuel d cb).Returns (es, d')) :
    World.Reaches m (cb.Writes es) d.world d'.world := by
  cases cb with
  | xPLListener theMessage theService msgClass broadcast subAddress =>
    obtain ⟨w, hlisten, h⟩ := Act.returns_bind h
    cases Act.returns_pure.mp h
    exact xPLListener_reaches hlisten
  | tickHandler xplEventService now schedule =>
    obtain ⟨d₁, htick, h⟩ := Act.returns_bind h
    cases Act.returns_pure.mp h
    exact (tickHandler_reaches htick).1
  | commandSocketListener accepted =>
    obtain ⟨d₁, haccept, h⟩ := Act.returns_bind h
    cases Act.returns_pure.mp h
    rcases commandSocketListener_cases haccept with ⟨rfl, -⟩ | ⟨_, _, -, -, rfl⟩
    · exact .refl
    · exact .refl
  | clientCommandListener userSock result svc now schedule =>
    obtain ⟨-, -, -, -, -, -, -, hreaches⟩ := clientCommandListener_answered h
    exact hreaches

end

end XplEvent.Daemon
