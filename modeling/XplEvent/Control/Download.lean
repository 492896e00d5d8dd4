import XplEvent.Control.ReadLine
import XplEvent.Control.Receive

/-!
# `getScript` — a script from the daemon

The client asks the daemon for a script, gives the lines that come to the
receiver, and writes the text to a file. A length of zero ends the loop:
it stands for the end of the stream and for an empty line alike. What is
in the receiver is then written, unless the receiver is in error.

`savesWhole_iff` says when the client writes a script only if all of it
has come: the stream must not end before the transfer does.
-/

namespace XplEvent.Control

/-! ## The client -/

/-- `UtilFileWriteString`, as the file system answers it. -/
inductive FileAnswer
  | unopened (reason : CString)
  | broken (reason : CString)
  | written
deriving DecidableEq, Repr

/-- What `getScript` is given, and how its surroundings answer. -/
structure Surroundings where
  utilityArg : CString
  utilityFile : Option CString
  dbDirectFlag : Bool
  /-- `DBFetchScript`. -/
  fetched : Option CString
  cmdHostName : CString
  /-- `SocketConnectIP`. -/
  connects : Bool
  /-- What the reads of the socket give. -/
  reads : List Read
  /-- The reason if the socket does not close. -/
  closeError : Option CString
  file : FileAnswer
deriving DecidableEq, Repr

/-- What `getScript` does. -/
inductive Action
  | sent (text : CString)
  /-- The file is opened, which cuts it, and the text is written. -/
  | write (filename text : CString)
  | note (message : CString)
deriving DecidableEq, Repr

/-- How it ends: it may wait for the daemon, or end the process. -/
inductive Ending
  | waiting
  | returned
  | fatal (message : CString)
  | fault (f : Fault)
deriving DecidableEq, Repr

structure Download where
  actions : List Action
  ending : Ending
deriving DecidableEq, Repr

/-- The loop of `getScript`, and in it the loop of `SocketReadLine`, read by
read. -/
def receiveScript (ri : MonRcvInfo) (s : ReadState) :
    List Read → Except Fault (Option MonRcvInfo)
  | [] => .ok none
  | r :: reads => do
    match ← readTurn s r with
    | .again s => receiveScript ri s reads
    | .done result =>
      match result.line with
      | none => .error .assertion
      | some line =>
        if result.length = 0 then .ok (some ri)
        else
          match ← MonitorRecvScript ri (cutNul line) with
          | (ri, true) => .ok (some ri)
          | (ri, false) => receiveScript ri .initial reads

/-- `UtilFileWriteString`: what it does, and the reason if it fails. -/
def UtilFileWriteString (file : FileAnswer) (filename str : CString) :
    List Action × Option CString :=
  match file with
  | .unopened reason => ([], some reason)
  | .broken reason => ([.write filename str], some reason)
  | .written => ([.write filename str], none)

/-- `id`. -/
def getScriptId : CString := cstr "xplevent:getScript"

/-- The script is saved. -/
def saveScript (env : Surroundings) (utilityFile script : CString) (said : List Action) :
    Download :=
  match UtilFileWriteString env.file utilityFile script with
  | (actions, some reason) => ⟨actions, .fatal (getScriptId ++ cstr ": Could not write file: " ++
      utilityFile ++ cstr ": " ++ reason)⟩
  | (actions, none) => ⟨actions ++ said, .returned⟩

/-- The network mode, behind the request. -/
def fetchScript (env : Surroundings) (utilityFile : CString) : Download :=
  match receiveScript .initial .initial env.reads with
  | .error f => ⟨[], .fault f⟩
  | .ok none => ⟨[], .waiting⟩
  | .ok (some ri) =>
    match env.closeError with
    | some reason => ⟨[], .fatal (getScriptId ++ cstr ": Close error on socket: " ++ reason)⟩
    | none =>
      if ri.state ≠ .RS_ERROR then
        saveScript env utilityFile ri.script [.note (cstr "Script received successfully")]
      else ⟨[], .fatal (cstr "Script receive error")⟩

/-- `getScript`. -/
def getScript (env : Surroundings) : Download :=
  match env.utilityFile with
  | none => ⟨[], .fatal (cstr "-f switch is required for this utility function")⟩
  | some utilityFile =>
    if env.dbDirectFlag then
      match env.fetched with
      | none => ⟨[], .fatal (getScriptId ++ cstr ": Problem retreiving script: " ++
          env.utilityArg ++ cstr " from database")⟩
      | some script => saveScript env utilityFile script []
    else if env.connects then
      let download := fetchScript env utilityFile
      ⟨.sent (cstr "ss:" ++ env.utilityArg ++ [LF]) :: download.actions, download.ending⟩
    else ⟨[], .fatal (getScriptId ++ cstr ":Could not connect to daemon at address: " ++
      env.cmdHostName)⟩

/-! ## What the client is for -/

/-- A line, as `SocketReadLine` gives it. -/
def wholeLine (line : CString) : LineResult := ⟨some line, line.length⟩

/-- What the lines say. -/
def lineKinds (lines : List CString) : List LineKind := lines.map fun line => lineKind (cutNul line)

/-- The stream starts with the lines of a transfer that is finished by the
last of them; `script` is its text. -/
def Arrives (reads : List Read) (script : CString) : Prop :=
  ∃ lines rest name text n, results [] reads = lines.map wholeLine ++ rest ∧
    Transfer.waiting.feed (lineKinds lines) = (.finished name text, doneAtLast n) ∧
    Uploaded (lineKinds lines) name text ∧ script = Lib.terminated LF text

/-- The process ends with a message. -/
def Ending.Reported : Ending → Prop
  | .fatal _ => True
  | .fault f => f = .assertion
  | _ => False

/-- **The client writes whole scripts only**: what it writes has arrived;
if none has arrived it waits, or writes nothing and reports the failure. -/
structure SavesWhole (reads : List Read) (download : Download) : Prop where
  whole : ∀ filename text, .write filename text ∈ download.actions → Arrives reads text
  reported : (∀ script, ¬ Arrives reads script) →
    download.ending = .waiting ∨ download.ending.Reported

/-- The stream ends, or has an empty line, before the transfer is over. -/
def EndsEarly : Transfer → List LineResult → Prop
  | _, [] => False
  | t, result :: rest =>
    match result.line with
    | none => False
    | some line => result.length = 0 ∨
      (t.receive (lineKind (cutNul line))).2 = false ∧
        EndsEarly (t.receive (lineKind (cutNul line))).1 rest

/-- An early end that is taken for the end of the script. -/
structure CutShort (env : Surroundings) : Prop where
  file : ∃ filename, env.utilityFile = some filename
  connects : env.connects = true
  early : EndsEarly .waiting (results [] env.reads)
  closes : env.closeError = none
  opens : ∀ reason, env.file ≠ .unopened reason

/-! ## The loop -/

/-- A call gives `NULL` or a line. -/
theorem lineTurn_done {line : CString} {r : Read} {result : LineResult}
    (h : lineTurn line r = .done result) : result.line = none ∨ ∃ l, result = wholeLine l := by
  cases r with
  | EINTR => cases h
  | EAGAIN selected =>
    rw [lineTurn] at h
    split at h
    · cases h
    · cases h
      exact .inl rfl
  | error =>
    cases h
    exact .inl rfl
  | byte c =>
    rw [lineTurn] at h
    split at h
    · cases h
    · split at h
      · cases h
      · cases h
        exact .inr ⟨line, rfl⟩
  | eof =>
    cases h
    exact .inr ⟨[], rfl⟩

/-- A transfer that is not over. -/
def Transfer.Open : Transfer → Prop
  | .waiting => True
  | .receiving _ _ => True
  | _ => False

theorem receive_open {t : Transfer} {kind : LineKind} (h : (t.receive kind).2 = false) :
    (t.receive kind).1.Open := by
  cases t with
  | waiting =>
    rcases waiting_cases kind with ⟨name, -, hstart⟩ | hfailed | ⟨-, hwait⟩
    · rw [hstart]
      trivial
    · rw [hfailed] at h
      cases h
    · rw [hwait]
      trivial
  | receiving name text =>
    rcases receiving_cases name text kind with ⟨-, hfinish⟩ | hfailed | ⟨-, hmore⟩
    · rw [hfinish] at h
      cases h
    · rw [hfailed] at h
      cases h
    · rw [hmore]
      trivial
  | finished name text => cases kind <;> cases h
  | failed => cases kind <;> cases h

theorem MonRcvInfo.Represents.no_error {ri : MonRcvInfo} {t : Transfer} (h : ri.Represents t)
    (ht : t.Open) : ri.state ≠ .RS_ERROR := by
  cases t with
  | waiting =>
    rw [h.1]
    exact RsState.noConfusion
  | receiving name text =>
    rw [h.1]
    exact RsState.noConfusion
  | finished name text => cases ht
  | failed => cases ht

/-- How the loop comes to its end. -/
inductive LoopEnds (t : Transfer) (results : List LineResult) :
    Except Fault (Option MonRcvInfo) → Prop
  | waits (h : ¬ EndsEarly t results) : LoopEnds t results (.ok none)
  | fails (h : ¬ EndsEarly t results) : LoopEnds t results (.error .assertion)
  | early (ri : MonRcvInfo) (h : EndsEarly t results) (hri : ri.state ≠ .RS_ERROR) :
    LoopEnds t results (.ok (some ri))
  | ended (ri : MonRcvInfo) (lines : List CString) (rest : List LineResult) (n : Nat)
    (h : ¬ EndsEarly t results) (hlines : results = lines.map wholeLine ++ rest)
    (hdones : (t.feed (lineKinds lines)).2 = doneAtLast n)
    (hri : ri.Represents (t.feed (lineKinds lines)).1)
    (hend : (∃ name text, (t.feed (lineKinds lines)).1 = .finished name text) ∨
      (t.feed (lineKinds lines)).1 = .failed) : LoopEnds t results (.ok (some ri))

theorem endsEarly_whole (t : Transfer) (line : CString) (rest : List LineResult) :
    EndsEarly t (wholeLine line :: rest) ↔ line.length = 0 ∨
      (t.receive (lineKind (cutNul line))).2 = false ∧
        EndsEarly (t.receive (lineKind (cutNul line))).1 rest := Iff.rfl

theorem lineKinds_cons (line : CString) (lines : List CString) :
    lineKinds (line :: lines) = lineKind (cutNul line) :: lineKinds lines := rfl

/-- A line that does not end the transfer. -/
theorem LoopEnds.cons {t : Transfer} {line : CString} {rest : List LineResult}
    {result : Except Fault (Option MonRcvInfo)} (hne : line.length ≠ 0)
    (hmore : (t.receive (lineKind (cutNul line))).2 = false)
    (h : LoopEnds (t.receive (lineKind (cutNul line))).1 rest result) :
    LoopEnds t (wholeLine line :: rest) result := by
  have hearly : EndsEarly t (wholeLine line :: rest) ↔
      EndsEarly (t.receive (lineKind (cutNul line))).1 rest := by
    rw [endsEarly_whole]
    constructor
    · rintro (h0 | ⟨-, h'⟩)
      · exact absurd h0 hne
      · exact h'
    · intro h'
      exact .inr ⟨hmore, h'⟩
  cases h with
  | waits h => exact .waits fun h' => h (hearly.mp h')
  | fails h => exact .fails fun h' => h (hearly.mp h')
  | early ri h hri => exact .early ri (hearly.mpr h) hri
  | ended ri lines rest' n h hlines hdones hri hend =>
    apply LoopEnds.ended ri (line :: lines) rest' (n + 1)
    · intro h'
      exact h (hearly.mp h')
    · rw [hlines]
      rfl
    · rw [lineKinds_cons, Transfer.feed_cons, hmore, hdones]
      rfl
    · rw [lineKinds_cons, Transfer.feed_cons]
      exact hri
    · rw [lineKinds_cons, Transfer.feed_cons]
      exact hend

/-- **The loop ends with the transfer**, or with the stream before it. -/
theorem receiveScript_ends {ri : MonRcvInfo} {t : Transfer} (h : ri.Represents t) (ht : t.Open)
    {s : ReadState} (hs : s.Fits) (reads : List Read) :
    LoopEnds t (results s.line reads) (receiveScript ri s reads) := by
  induction reads generalizing ri t s with
  | nil => exact .waits fun hearly => hearly
  | cons r reads ih =>
    obtain ⟨turn, hturn, hline⟩ := readTurn_eq hs r
    unfold receiveScript results
    rw [hturn]
    cases turn with
    | again s' =>
      obtain ⟨hagain, hs'⟩ := hline
      rw [hagain]
      exact ih h ht hs'
    | done result =>
      rw [hline]
      rcases lineTurn_done hline with hnull | ⟨line, rfl⟩
      · show LoopEnds t (result :: results [] reads) (match result.line with
          | none => .error .assertion
          | some line => _)
        rw [hnull]
        apply LoopEnds.fails
        show ¬ (match result.line with
          | none => False
          | some line => _)
        rw [hnull]
        exact id
      · show LoopEnds t (wholeLine line :: results [] reads)
          (if line.length = 0 then .ok (some ri) else
            MonitorRecvScript ri (cutNul line) >>= fun received => match received with
              | (ri, true) => .ok (some ri)
              | (ri, false) => receiveScript ri .initial reads)
        by_cases h0 : line.length = 0
        · rw [if_pos h0]
          exact .early ri (.inl h0) (h.no_error ht)
        · rw [if_neg h0]
          obtain ⟨ri', hreceive, hri'⟩ := MonitorRecvScript_represents h (cutNul line)
          rw [hreceive]
          cases hdone : (t.receive (lineKind (cutNul line))).2 with
          | true =>
            apply LoopEnds.ended ri' [line] (results [] reads) 0
            · rintro (h0' | ⟨hmore, -⟩)
              · exact h0 h0'
              · rw [hdone] at hmore
                cases hmore
            · rfl
            · show [(t.receive (lineKind (cutNul line))).2] = [true]
              rw [hdone]
            · exact hri'
            · exact receive_done hdone
          | false => exact (ih hri' (receive_open hdone) initial_fits).cons h0 hdone

/-! ## What is written -/

/-- A stream that ends early has no script in front. -/
theorem EndsEarly.not_finished {t : Transfer} {lines : List CString} {rest : List LineResult}
    (h : EndsEarly t (lines.map wholeLine ++ rest)) {name : CString} {text : List CString} {n : Nat} :
    t.feed (lineKinds lines) ≠ (.finished name text, doneAtLast n) := by
  intro hfeed
  induction lines generalizing t n with
  | nil =>
    have hlength := congrArg List.length (Prod.mk.inj hfeed).2
    rw [doneAtLast, List.length_append] at hlength
    cases hlength
  | cons line lines ih =>
    rw [lineKinds_cons, Transfer.feed_cons] at hfeed
    obtain ⟨hend, hdones⟩ := Prod.mk.inj hfeed
    rcases (endsEarly_whole t line _).mp h with h0 | ⟨hmore, hearly⟩
    · have hempty : line = [] := List.length_eq_zero_iff.mp h0
      have hfailed := failed_feed (lineKinds lines)
      rw [show (t.receive (lineKind (cutNul line))) = (.failed, true) by
        rw [hempty]
        exact receive_failed (.inl rfl) t] at hend
      rw [hfailed] at hend
      cases hend
    · rw [hmore] at hdones
      obtain ⟨m, hm⟩ := doneAtLast_false hdones
      exact ih hearly (Prod.ext hend hm)

theorem EndsEarly.not_arrives {reads : List Read} (h : EndsEarly .waiting (results [] reads))
    (script : CString) : ¬ Arrives reads script := by
  rintro ⟨lines, rest, name, text, n, hlines, hfeed, -, -⟩
  rw [hlines] at h
  exact h.not_finished hfeed

/-- A download that writes nothing and ends with a message. -/
theorem SavesWhole.of_reported (reads : List Read) {ending : Ending} (h : ending.Reported) :
    SavesWhole reads ⟨[], ending⟩ :=
  ⟨fun _ _ hw => absurd hw List.not_mem_nil, fun _ => .inr h⟩

/-- The request changes nothing. -/
theorem savesWhole_sent (reads : List Read) (text : CString) (actions : List Action)
    (ending : Ending) : SavesWhole reads ⟨.sent text :: actions, ending⟩ ↔
      SavesWhole reads ⟨actions, ending⟩ := by
  constructor
  · intro h
    exact ⟨fun f t hw => h.whole f t (List.mem_cons_of_mem _ hw), h.reported⟩
  · intro h
    refine ⟨fun f t hw => ?_, h.reported⟩
    rcases List.mem_cons.mp hw with hsent | hw
    · cases hsent
    · exact h.whole f t hw

/-- The client, when it is at the end of the loop. -/
def atEnd (env : Surroundings) (utilityFile script : CString) : Download :=
  saveScript env utilityFile script [.note (cstr "Script received successfully")]

/-- Nothing but the script is written. -/
theorem atEnd_write {env : Surroundings} {utilityFile script filename text : CString}
    (h : .write filename text ∈ (atEnd env utilityFile script).actions) : text = script := by
  unfold atEnd saveScript UtilFileWriteString at h
  cases hfile : env.file with
  | unopened reason =>
    rw [hfile] at h
    cases h
  | broken reason =>
    rw [hfile] at h
    cases List.mem_singleton.mp h
    rfl
  | written =>
    rw [hfile] at h
    rcases List.mem_cons.mp h with h | h
    · cases h
      rfl
    · cases List.mem_singleton.mp h

/-- The script is written, if the file can be opened. -/
theorem mem_atEnd {env : Surroundings} (h : ∀ reason, env.file ≠ .unopened reason)
    (utilityFile script : CString) :
    .write utilityFile script ∈ (atEnd env utilityFile script).actions := by
  unfold atEnd saveScript UtilFileWriteString
  cases hfile : env.file with
  | unopened reason => exact absurd hfile (h reason)
  | broken reason => exact List.mem_cons_self
  | written => exact List.mem_cons_self

/-- A script that has arrived may be saved. -/
theorem SavesWhole.of_arrives {env : Surroundings} {script : CString}
    (h : Arrives env.reads script) (utilityFile : CString) :
    SavesWhole env.reads (atEnd env utilityFile script) := by
  refine ⟨fun f t hw => ?_, fun hnone => absurd h (hnone script)⟩
  rw [atEnd_write hw]
  exact h

/-- Where nothing has arrived, the file must not be opened. -/
theorem savesWhole_early {env : Surroundings} (h : ∀ script, ¬ Arrives env.reads script)
    (utilityFile script : CString) :
    SavesWhole env.reads (atEnd env utilityFile script) ↔
      ¬ ∀ reason, env.file ≠ .unopened reason := by
  constructor
  · intro hsaves hopens
    exact h script (hsaves.whole utilityFile script (mem_atEnd hopens utilityFile script))
  · intro hopens
    cases hfile : env.file with
    | unopened reason =>
      unfold atEnd saveScript UtilFileWriteString
      rw [hfile]
      exact .of_reported _ trivial
    | broken reason => exact absurd (fun _ => by rw [hfile]; exact nofun) hopens
    | written => exact absurd (fun _ => by rw [hfile]; exact nofun) hopens

/-- The network mode, behind the request. -/
theorem fetchScript_savesWhole (env : Surroundings) (utilityFile : CString) :
    SavesWhole env.reads (fetchScript env utilityFile) ↔
      ¬ (EndsEarly .waiting (results [] env.reads) ∧ env.closeError = none ∧
        ∀ reason, env.file ≠ .unopened reason) := by
  have hends := receiveScript_ends initial_represents trivial initial_fits env.reads
  unfold fetchScript
  cases hloop : receiveScript .initial .initial env.reads with
  | error f =>
    rw [hloop] at hends
    cases hends with
    | fails h => exact iff_of_true (.of_reported _ rfl) fun hbad => h hbad.1
  | ok ended =>
    rw [hloop] at hends
    cases ended with
    | none =>
      cases hends with
      | waits h =>
        refine iff_of_true ⟨fun _ _ hw => absurd hw List.not_mem_nil, fun _ => .inl rfl⟩ ?_
        exact fun hbad => h hbad.1
    | some ri =>
      simp only
      cases hclose : env.closeError with
      | some reason => exact iff_of_true (.of_reported _ trivial) fun hbad => nomatch hbad.2.1
      | none =>
        cases hends with
        | early ri h hri =>
          simp only [if_pos hri]
          rw [show SavesWhole env.reads (saveScript env utilityFile ri.script _) ↔ _ from
            savesWhole_early h.not_arrives utilityFile ri.script]
          constructor
          · intro hfile hbad
            exact hfile hbad.2.2
          · intro hgood hopens
            exact hgood ⟨h, trivial, hopens⟩
        | ended ri lines rest n h hlines hdones hri hend =>
          refine iff_of_true ?_ fun hbad => h hbad.1
          rcases hend with ⟨name, text, hfinished⟩ | hfailed
          · have hfeed : Transfer.waiting.feed (lineKinds lines) =
                (.finished name text, doneAtLast n) := Prod.ext hfinished hdones
            rw [hfinished] at hri
            obtain ⟨hstate, -, hholds⟩ := hri
            have hstate' : ri.state ≠ .RS_ERROR := by
              rw [hstate]
              exact RsState.noConfusion
            simp only [if_pos hstate']
            exact .of_arrives ⟨lines, rest, name, text, n, hlines, hfeed, waiting_finished hfeed,
              hholds.script⟩ utilityFile
          · rw [hfailed] at hri
            have hstate : ¬ ri.state ≠ .RS_ERROR := fun hne => hne hri
            simp only [if_neg hstate]
            exact .of_reported _ trivial

/-- **A script is saved as a whole unless its stream is cut short.** -/
theorem savesWhole_iff (env : Surroundings) (h : env.dbDirectFlag = false) :
    SavesWhole env.reads (getScript env) ↔ ¬ CutShort env := by
  unfold getScript
  cases hfile : env.utilityFile with
  | none =>
    refine iff_of_true (.of_reported _ trivial) fun hcut => ?_
    obtain ⟨filename, hname⟩ := hcut.file
    rw [hfile] at hname
    cases hname
  | some utilityFile =>
    simp only [h, Bool.false_eq_true, if_false]
    cases hconnects : env.connects with
    | false =>
      simp only [Bool.false_eq_true, if_false]
      refine iff_of_true (.of_reported _ trivial) fun hcut => ?_
      rw [hcut.connects] at hconnects
      cases hconnects
    | true =>
      simp only [if_true]
      rw [savesWhole_sent]
      refine (fetchScript_savesWhole env utilityFile).trans (not_congr ?_)
      constructor
      · rintro ⟨hearly, hclose, hopens⟩
        exact ⟨⟨utilityFile, hfile⟩, hconnects, hearly, hclose, hopens⟩
      · intro hcut
        exact ⟨hcut.early, hcut.closes, hcut.opens⟩

/-- A client whose daemon sends a stream. -/
def clientOf (stream : CString) : Surroundings where
  utilityArg := cstr "s"
  utilityFile := some (cstr "f")
  dbDirectFlag := false
  fetched := none
  cmdHostName := cstr "localhost"
  connects := true
  reads := stream.map .byte ++ [.eof]
  closeError := none
  file := .written

theorem sentScript_savesWhole : SavesWhole (clientOf (cstr "sb:s\nsl:a\nse:s\n")).reads
    (getScript (clientOf (cstr "sb:s\nsl:a\nse:s\n"))) := by
  apply (savesWhole_iff (clientOf (cstr "sb:s\nsl:a\nse:s\n")) rfl).mpr
  intro hcut
  have hearly := hcut.early
  have hlines : results [] (clientOf (cstr "sb:s\nsl:a\nse:s\n")).reads =
      [wholeLine (cstr "sb:s"), wholeLine (cstr "sl:a"), wholeLine (cstr "se:s"),
        wholeLine []] := by decide
  rw [hlines] at hearly
  rcases hearly with h0 | ⟨-, h0 | ⟨-, h0 | ⟨hmore, -⟩⟩⟩
  · cases h0
  · cases h0
  · cases h0
  · exact absurd hmore (by decide)

/-- The daemon is gone behind the first line: the line is saved as the
script. -/
theorem cutScript_saved : (clientOf (cstr "sb:s\nsl:a\n")).dbDirectFlag = false ∧
    getScript (clientOf (cstr "sb:s\nsl:a\n")) =
      ⟨[.sent (cstr "ss:s\n"), .write (cstr "f") (cstr "a\n"),
        .note (cstr "Script received successfully")], .returned⟩ ∧
    ¬ SavesWhole (clientOf (cstr "sb:s\nsl:a\n")).reads
      (getScript (clientOf (cstr "sb:s\nsl:a\n"))) := by
  have hrun : getScript (clientOf (cstr "sb:s\nsl:a\n")) =
      ⟨[.sent (cstr "ss:s\n"), .write (cstr "f") (cstr "a\n"),
        .note (cstr "Script received successfully")], .returned⟩ := by decide
  refine ⟨rfl, hrun, fun hsaves => ?_⟩
  rw [hrun] at hsaves
  have hlines : results [] (clientOf (cstr "sb:s\nsl:a\n")).reads =
      [wholeLine (cstr "sb:s"), wholeLine (cstr "sl:a"), wholeLine []] := by decide
  have hearly : EndsEarly .waiting (results [] (clientOf (cstr "sb:s\nsl:a\n")).reads) := by
    rw [hlines]
    exact .inr ⟨by decide, .inr ⟨by decide, .inl rfl⟩⟩
  apply hearly.not_arrives (cstr "a\n")
  exact hsaves.whole (cstr "f") (cstr "a\n") (List.mem_cons_of_mem _ List.mem_cons_self)

end XplEvent.Control
