import XplEvent.Daemon.Connections

/-!
# What the clients share

On a machine that begins and ends its transactions and answers its queries,
the daemon is one store to all that uses it. The calls of `db.c` are a
history of that store over a whole run, whoever makes them
(`calls_recall`). And what a client is sent, or has executed, is the script
that was saved last under the name, whichever client uploaded it, whatever
messages and timers came in between (`clients_share`).
-/

namespace XplEvent.Daemon

open Control (Answers ConnectionData Event LineResult MonitorSendScript)
open Script (Lemon)
open Store (Maps Write)

section

variable {D P : Type} {m : Machine D} {L : Lemon P} {cfg : Config} {log : List Entry}
  {d d' : State}

/-! ## The calls of a run -/

/-- Every act is a part of the history. -/
theorem World.Reaches.recalls (hm : m.Reliable) {writes : Write → Prop} {w w' : World}
    {maps : Maps} (h : World.Reaches m writes w w') (hw : w.Recalls m maps) :
    w'.Recalls m maps := by
  induction h with
  | refl => exact hw
  | tail _ hact ih =>
    cases hact with
    | write write _ => exact ih.write hm write
    | DBFetchScript scriptName => exact ih.DBFetchScript hm scriptName
    | DBFetchScriptByTag tagSubAddr => exact ih.DBFetchScriptByTag hm tagSubAddr
    | script _ hacts => exact ih.script hm hacts

/-- **The calls of a run are a history of one store**: whatever is read or
fetched is what was written or saved last, by whichever callback. -/
theorem calls_recall {maps : Maps} (hm : m.Reliable) (h : Run m L cfg d log d')
    (hd : d.world.Remembers maps) (hcalls : d.world.calls = []) : d'.world.Recalls m maps := by
  induction h with
  | nil =>
    refine ⟨by rwa [hcalls], fun before call after hsplit => ?_⟩
    rw [hcalls] at hsplit
    simp at hsplit
  | step _ _ _ hstep ih => exact (step_reaches hstep).recalls hm ih

/-! ## The scripts of a run -/

/-- Acts that save no script keep the scripts. -/
theorem World.Reaches.holds (hm : m.Reliable) {writes : Write → Prop}
    (hwrites : ∀ name script, ¬ writes (.DBIRScript name script)) {w w' : World}
    {scripts : CString → Option CString} (h : World.Reaches m writes w w')
    (hw : w.Holds scripts) : w'.Holds scripts := by
  induction h with
  | refl => exact hw
  | tail _ hact ih =>
    cases hact with
    | write write hwrite =>
      refine ih.write hm fun name script heq => hwrites name script ?_
      rwa [← heq]
    | DBFetchScript scriptName => exact (ih.DBFetchScript hm scriptName).1
    | DBFetchScriptByTag tagSubAddr => exact ih.DBFetchScriptByTag hm tagSubAddr
    | script _ hacts => exact ih.script hm hacts

/-- What a client is shown agrees with the scripts: it is sent the one it
asks for, and the one it names is executed. -/
structure Shows (scripts : CString → Option CString) (es : List Event) : Prop where
  sends : ∀ name, .sendScript name ∈ es → match scripts name with
    | none => es = [.sendScript name, .print (cstr "er:Script not in database\n")]
    | some code => ∃ stream, MonitorSendScript code name = .ok stream ∧
      es = .sendScript name :: stream.map .print
  executes : ∀ code, .exec code ∈ es → ∃ cl name, .command cl ∈ es ∧
    execName (Lib.words 32 cl) = some name ∧ scripts name = some code

section

variable {scripts : CString → Option CString} {es : List Event}

/-- Nothing is shown. -/
theorem Shows.nothing (hsend : ∀ name, .sendScript name ∉ es) (hexec : ∀ code, .exec code ∉ es) :
    Shows scripts es :=
  ⟨fun name h => absurd h (hsend name), fun code h => absurd h (hexec code)⟩

/-- A command executes the script it names. -/
theorem clientCommand_shows {a : Answers} {argv0 : CString} {args : List CString} {res : PassFail}
    (h : Control.clientCommand a argv0 args = (es, .ok res))
    (hfetched : ∀ name, execName (argv0 :: args) = some name → a.fetched = scripts name) :
    (∀ name, .sendScript name ∉ es) ∧ ∀ code, .exec code ∈ es → ∃ name,
      execName (argv0 :: args) = some name ∧ scripts name = some code := by
  unfold Control.clientCommand at h
  split at h
  · rename_i hexec
    cases args with
    | nil =>
      cases h
      exact ⟨fun _ h => absurd h List.not_mem_nil, fun _ h => absurd h List.not_mem_nil⟩
    | cons name args =>
      have hname : execName (argv0 :: name :: args) = some name := by
        rw [execName, List.head?_cons, if_pos (congrArg some hexec)]
        rfl
      have hscript := hfetched name hname
      cases hfetch : a.fetched with
      | none =>
        rw [hfetch] at h
        cases h
        exact ⟨fun _ h => absurd h List.not_mem_nil, fun _ h => absurd h List.not_mem_nil⟩
      | some script =>
        rw [hfetch] at h hscript
        cases h
        refine ⟨fun _ h => ?_, fun code h => ?_⟩
        · cases List.mem_singleton.mp h
        · cases List.mem_singleton.mp h
          exact ⟨name, hname, hscript.symm⟩
  · split at h
    · split at h
      · cases h
        refine ⟨fun _ h => ?_, fun _ h => ?_⟩
        · cases List.mem_singleton.mp h
        · cases List.mem_singleton.mp h
      · cases h
    · cases h
      exact ⟨fun _ h => absurd h List.not_mem_nil, fun _ h => absurd h List.not_mem_nil⟩

theorem interpretClientCommand_shows {a : Answers} {cl : CString} {res : PassFail}
    (h : Control.interpretClientCommand a cl = (es, .ok res))
    (hfetched : ∀ name, execName (Lib.words 32 cl) = some name → a.fetched = scripts name) :
    Shows scripts (.command cl :: es) := by
  unfold Control.interpretClientCommand at h
  rw [Util.splitString_eq] at h
  cases hwords : Lib.words 32 cl with
  | nil =>
    rw [hwords] at h
    cases h
  | cons argv0 args =>
    rw [hwords] at h hfetched
    rcases hcommand : Control.clientCommand a argv0 args with ⟨es', f | res'⟩
    · simp only [hcommand] at h
      cases h
    · simp only [hcommand] at h
      cases h
      obtain ⟨hsend, hexec⟩ := clientCommand_shows hcommand hfetched
      refine ⟨fun name hname => absurd hname ?_, fun code hcode => ?_⟩
      · simp [hsend name]
      · have hcode : .exec code ∈ es' := by simpa using hcode
        obtain ⟨name, hname, hscript⟩ := hexec code hcode
        exact ⟨cl, name, List.mem_cons_self, hwords ▸ hname, hscript⟩

theorem commandLine_shows {a : Answers} {line : CString} {cdp : ConnectionData}
    (h : Control.commandLine a line = (es, .ok cdp))
    (hfetched : ∀ name, askedFor line = some name → a.fetched = scripts name) :
    Shows scripts es := by
  unfold Control.commandLine at h
  unfold askedFor at hfetched
  split at h
  · rename_i hcl
    rw [if_pos hcl] at hfetched
    rcases hcommand : Control.interpretClientCommand a (line.drop 3) with ⟨es', f | res⟩
    · simp only [hcommand] at h
      cases h
    · simp only [hcommand] at h
      cases h
      exact interpretClientCommand_shows hcommand hfetched
  rename_i hcl
  rw [if_neg hcl] at hfetched
  split at h
  · rename_i hss
    rw [if_pos hss] at hfetched
    have hscript := hfetched _ rfl
    refine ⟨fun name hname => ?_, fun code hcode => absurd hcode ?_⟩
    · cases hfetch : a.fetched with
      | none =>
        rw [hfetch] at h hscript
        cases h
        have hname : name = line.drop 3 := by simpa using hname
        rw [hname, ← hscript]
      | some theScript =>
        rw [hfetch] at h hscript
        rcases hstream : MonitorSendScript theScript (line.drop 3) with f | stream
        · simp only [hstream] at h
          cases h
        · simp only [hstream] at h
          cases h
          have hname : name = line.drop 3 := by simpa using hname
          rw [hname, ← hscript]
          exact ⟨stream, hstream, rfl⟩
    · cases hfetch : a.fetched with
      | none =>
        rw [hfetch] at h
        cases h
        simp
      | some theScript =>
        rw [hfetch] at h
        rcases hstream : MonitorSendScript theScript (line.drop 3) with f | stream
        · simp only [hstream] at h
          cases h
        · simp only [hstream] at h
          cases h
          simp
  · split at h
    · cases h
      exact .nothing (by simp) (by simp)
    · cases h
      exact .nothing (by simp) (by simp)

/-- A line of a transfer shows nothing. -/
theorem scriptLine_shows {a : Answers} {ri : Control.MonRcvInfo} {line : CString}
    {cdp : ConnectionData} (h : Control.scriptLine a ri line = (es, .ok cdp)) :
    Shows scripts es := by
  unfold Control.scriptLine Control.processScript at h
  split at h
  · cases h
  · cases h
    exact .nothing (by simp) (by simp)
  · dsimp only at h
    split at h
    · split at h
      · cases h
      · cases h
        exact .nothing (by simp) (by simp)
    · cases h
      exact .nothing (by simp) (by simp)

/-- What is shown for what has been read. -/
theorem listen_shows {cdp : ConnectionData} {result : LineResult} {a : Answers}
    {conn : Option ConnectionData} (h : Control.listen (some cdp) (result, a) = (es, .ok conn))
    (hfetched : ∀ name, askedIn result cdp = some name → a.fetched = scripts name) :
    Shows scripts es := by
  by_cases hlength : result.length = 0
  · rw [listen_closed hlength] at h
    cases h
    exact .nothing (by simp) (by simp)
  cases hline : result.line with
  | none =>
    rw [listen_nothing hline hlength] at h
    cases h
    exact .nothing (by simp) (by simp)
  | some raw =>
    rw [askedIn, hline] at hfetched
    simp only [if_pos hlength] at hfetched
    unfold Control.listen Control.clientCommandListener at h
    simp only [hline, if_neg hlength, if_pos hlength] at h
    rcases hacted : Control.actOn a cdp (cutNul raw) with ⟨es', f | cdp'⟩
    · simp only [hacted] at h
      cases h
    · simp only [hacted] at h
      cases h
      unfold Control.actOn at hacted
      unfold asks at hfetched
      cases hri : cdp.rcvInfo with
      | none =>
        rw [hri] at hacted hfetched
        exact commandLine_shows hacted hfetched
      | some ri =>
        rw [hri] at hacted
        exact scriptLine_shows hacted

end

/-- The scripts behind some callbacks: those that have been reported as
saved are there, and nothing else has changed them. -/
def stored (scripts : CString → Option CString) (log : List Entry) : CString → Option CString :=
  log.foldl (fun scripts entry => saved scripts entry.events) scripts

theorem stored_concat (scripts : CString → Option CString) (log : List Entry) (entry : Entry) :
    stored scripts (log ++ [entry]) = saved (stored scripts log) entry.events :=
  List.foldl_concat ..

/-- A callback, with the scripts that are stored before it and behind it. -/
theorem step_shows {cb : Callback} {es : List Event} {fuel : Nat}
    {scripts : CString → Option CString} (hm : m.Reliable)
    (hstep : (step m L cfg fuel d cb).Returns (es, d')) (hd : d.world.Holds scripts) :
    Shows scripts es ∧ d'.world.Holds (saved scripts es) := by
  have hquiet : es = [] → (∀ name script, ¬ cb.Writes es (.DBIRScript name script)) →
      Shows scripts es ∧ d'.world.Holds (saved scripts es) := by
    rintro rfl hwrites
    exact ⟨.nothing (by simp) (by simp), (step_reaches hstep).holds hm hwrites hd⟩
  cases cb with
  | xPLListener theMessage theService msgClass broadcast subAddress =>
    obtain ⟨w, -, h⟩ := Act.returns_bind hstep
    exact hquiet (congrArg Prod.fst (Act.returns_pure.mp h)).symm fun _ _ h => nomatch h
  | tickHandler xplEventService now schedule =>
    obtain ⟨d₁, -, h⟩ := Act.returns_bind hstep
    exact hquiet (congrArg Prod.fst (Act.returns_pure.mp h)).symm fun _ _ h => nomatch h
  | commandSocketListener accepted =>
    obtain ⟨d₁, -, h⟩ := Act.returns_bind hstep
    exact hquiet (congrArg Prod.fst (Act.returns_pure.mp h)).symm fun _ _ h => nomatch h
  | clientCommandListener userSock result svc now schedule =>
    obtain ⟨client, conn, a, -, hlisten, hstored, -, -⟩ := clientCommandListener_answered hstep
    obtain ⟨hfetched, hholds⟩ := hstored scripts hm hd
    exact ⟨listen_shows hlisten hfetched, hholds⟩

/-- **The clients share one store of scripts**: a script that a client is
sent, or has executed, is the one that was uploaded last under the name, by
whichever client and with its quotes doubled; and nothing else the daemon
does changes the scripts. -/
theorem clients_share {scripts : CString → Option CString} (hm : m.Reliable)
    (h : Run m L cfg d log d') (hd : d.world.Holds scripts) :
    (∀ before entry after, log = before ++ entry :: after →
      Shows (stored scripts before) entry.events) ∧ d'.world.Holds (stored scripts log) := by
  induction h with
  | nil => exact ⟨fun before entry after hsplit => by simp at hsplit, hd⟩
  | @step log d' d'' cb es fuel hrun hpossible hstep ih =>
    obtain ⟨hshows, hholds⟩ := ih
    obtain ⟨hshow, hafter⟩ := step_shows hm hstep hholds
    refine ⟨forall_split_concat hshows hshow, ?_⟩
    rw [stored_concat]
    exact hafter

end

/-! ## A script that goes from one client to another -/

theorem sampleMachine_reliable : sampleMachine.Reliable :=
  ⟨fun _ => ⟨⟨rfl, rfl⟩, rfl, rfl, rfl⟩, fun _ => rfl⟩

theorem sampleState_remembers : sampleState.world.Remembers Store.emptyTables.maps := by
  refine ⟨Store.emptyTables, rfl, Store.emptyTables_keyed, ⟨?_, ?_⟩, rfl⟩
  · exact fun _ hr => absurd hr List.not_mem_nil
  · exact fun _ hr => absurd hr List.not_mem_nil

theorem calls_recall_sample : ∃ log d',
    Run sampleMachine Script.Lemon.deferred ⟨false, none⟩ sampleState log d' ∧
    d'.world.Recalls sampleMachine Store.emptyTables.maps := by
  obtain ⟨log, d', hcalls, -⟩ := sampleCallbacks_return
  have hrun := Run.callAll .nil sampleCallbacks_possible hcalls
  exact ⟨log, d', hrun, calls_recall sampleMachine_reliable hrun sampleState_remembers rfl⟩

theorem clients_share_sample : ∃ log d',
    Run sampleMachine Script.Lemon.deferred ⟨false, none⟩ sampleState log d' ∧
    ∀ before entry after, log = before ++ entry :: after →
      Shows (stored (fun _ => none) before) entry.events := by
  obtain ⟨log, d', hcalls, -⟩ := sampleCallbacks_return
  have hrun := Run.callAll .nil sampleCallbacks_possible hcalls
  have hholds : sampleState.world.Holds fun _ => none := ⟨_, sampleState_remembers, fun _ => rfl⟩
  exact ⟨log, d', hrun, (clients_share sampleMachine_reliable hrun hholds).1⟩

end XplEvent.Daemon
