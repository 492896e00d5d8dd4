import XplEvent.Daemon.World
import XplEvent.Store.Recall

/-!
# What the database is for the daemon

On a machine that begins and ends its transactions and answers its queries,
the calls of `db.c` are a history of one store, whoever makes them: a
variable that a script reads has the value that was written to it last, by
whichever script, and a script that is fetched is the one that was saved
last (`World.Recalls`).
-/

namespace XplEvent.Daemon

open Store (Maps Tables TrigAction Write scriptByTag)

/-- Transactions begin and end, and queries are answered. -/
structure Machine.Reliable {D : Type} (m : Machine D) : Prop where
  sq : ∀ n, (m.sq n).Reliable
  byName : ∀ n, (m.byName n).ok 1 = true

/-- The maps behind some calls. -/
def recalled (maps : Maps) (calls : List DBCall) : Maps :=
  calls.foldl (fun maps call => match call with
    | .wrote w res => maps.after w res
    | _ => maps) maps

/-- A call that reads gives what the maps have. -/
def DBCall.Recalls (trigaction : List TrigAction) (maps : Maps) : DBCall → Prop
  | .wrote _ _ => True
  | .readNVState key value => value = (maps.nvstate key).bind Store.NVState.value
  | .fetchedScript scriptName script =>
    script = (maps.scripts scriptName).map Store.Script.scriptcode
  | .fetchedScriptByTag tagSubAddr script => script = scriptByTag trigaction maps tagSubAddr

/-- No transaction is open, and the tables are what the maps say. -/
structure World.Remembers (w : World) (maps : Maps) : Prop where
  tables : ∃ t : Tables, w.db = .autocommit t ∧ t.Keyed ∧ t.Filled ∧ t.maps = maps

section

variable {D : Type} {m : Machine D} {w : World} {maps : Maps}

theorem World.Remembers.write (hm : m.Reliable) (h : w.Remembers maps) (write : Write) :
    (w.write m write).2.Remembers (maps.after write (w.write m write).1) := by
  obtain ⟨t, hdb, hkeyed, hfilled, rfl⟩ := h.tables
  obtain ⟨t', hdb', hkeyed', hfilled', hmaps⟩ :=
    Write.exec_reliable (hm.sq w.calls.length) hkeyed hfilled write
  rw [← hdb] at hdb' hmaps
  exact ⟨t', hdb', hkeyed', hfilled', hmaps⟩

theorem World.Remembers.DBReadNVState (hm : m.Reliable) (h : w.Remembers maps) (key : CString) :
    (w.DBReadNVState m key).2.Remembers maps ∧
      (w.DBReadNVState m key).1 = (maps.nvstate key).bind Store.NVState.value := by
  obtain ⟨t, hdb, hkeyed, hfilled, rfl⟩ := h.tables
  have hread := Store.readRow_reliable Store.nvstate (hm.sq w.calls.length) t key
  rw [← hdb] at hread
  exact ⟨⟨t, (congrArg Prod.fst hread).trans hdb, hkeyed, hfilled, rfl⟩, congrArg Prod.snd hread⟩

theorem World.Remembers.DBFetchScript (hm : m.Reliable) (h : w.Remembers maps)
    (scriptName : CString) : (w.DBFetchScript m scriptName).2.Remembers maps ∧
      (w.DBFetchScript m scriptName).1 =
        (maps.scripts scriptName).map Store.Script.scriptcode := by
  obtain ⟨t, hdb, hkeyed, hfilled, rfl⟩ := h.tables
  have hread := Store.readRow_reliable Store.scripts (hm.sq w.calls.length) t scriptName
  rw [← hdb] at hread
  refine ⟨⟨t, (congrArg Prod.fst hread).trans hdb, hkeyed, hfilled, rfl⟩, ?_⟩
  rw [Option.map_eq_bind]
  exact congrArg Prod.snd hread

theorem World.Remembers.DBFetchScriptByTag (hm : m.Reliable) (h : w.Remembers maps)
    (tagSubAddr : CString) : (w.DBFetchScriptByTag m tagSubAddr).2.Remembers maps ∧
      (w.DBFetchScriptByTag m tagSubAddr).1 = scriptByTag m.trigaction maps tagSubAddr := by
  obtain ⟨t, hdb, hkeyed, hfilled, rfl⟩ := h.tables
  have hread := Store.DBFetchScriptByTag_reliable (hm.sq w.calls.length)
    (hm.byName w.calls.length) m.trigaction t tagSubAddr
  rw [← hdb] at hread
  exact ⟨⟨t, (congrArg Prod.fst hread).trans hdb, hkeyed, hfilled, rfl⟩, congrArg Prod.snd hread⟩

/-! ## The calls so far -/

/-- What holds of each entry of a list and those before it, for one more. -/
theorem forall_split_concat {α : Type} {P : List α → α → Prop} {as : List α} {last : α}
    (h : ∀ before a after, as = before ++ a :: after → P before a) (hlast : P as last) :
    ∀ before a after, as ++ [last] = before ++ a :: after → P before a := by
  intro before a after hsplit
  rcases List.eq_nil_or_concat after with rfl | ⟨after, a', rfl⟩
  · obtain ⟨rfl, ha⟩ := List.append_inj' hsplit rfl
    cases ha
    exact hlast
  · rw [List.concat_eq_append, ← List.cons_append, ← List.append_assoc] at hsplit
    exact h before a after (List.append_inj' hsplit rfl).1

variable (m maps) in
/-- The calls are a history of the store that the maps are at the
beginning, and the tables are what it has come to. -/
structure World.Recalls (w : World) : Prop where
  remembers : w.Remembers (recalled maps w.calls)
  calls : ∀ before call after, w.calls = before ++ call :: after →
    call.Recalls m.trigaction (recalled maps before)

theorem recalled_concat (maps : Maps) (calls : List DBCall) (call : DBCall) :
    recalled maps (calls ++ [call]) = match call with
      | .wrote w res => (recalled maps calls).after w res
      | _ => recalled maps calls := List.foldl_concat ..

/-- Another call. -/
theorem World.Recalls.concat {w' : World} {call : DBCall} (h : w.Recalls m maps)
    (hcalls : w'.calls = w.calls ++ [call]) (hremembers : w'.Remembers (recalled maps w'.calls))
    (hcall : call.Recalls m.trigaction (recalled maps w.calls)) : w'.Recalls m maps := by
  refine ⟨hremembers, ?_⟩
  rw [hcalls]
  exact forall_split_concat h.calls hcall

theorem World.Recalls.write (hm : m.Reliable) (h : w.Recalls m maps) (write : Write) :
    (w.write m write).2.Recalls m maps := by
  refine h.concat rfl ?_ trivial
  rw [show (w.write m write).2.calls = w.calls ++ [.wrote write (w.write m write).1] from rfl,
    recalled_concat]
  exact h.remembers.write hm write

theorem World.Recalls.DBReadNVState (hm : m.Reliable) (h : w.Recalls m maps) (key : CString) :
    (w.DBReadNVState m key).2.Recalls m maps := by
  obtain ⟨hremembers, hvalue⟩ := h.remembers.DBReadNVState hm key
  refine h.concat rfl ?_ hvalue
  rwa [show (w.DBReadNVState m key).2.calls =
    w.calls ++ [.readNVState key (w.DBReadNVState m key).1] from rfl, recalled_concat]

theorem World.Recalls.DBFetchScript (hm : m.Reliable) (h : w.Recalls m maps)
    (scriptName : CString) : (w.DBFetchScript m scriptName).2.Recalls m maps := by
  obtain ⟨hremembers, hscript⟩ := h.remembers.DBFetchScript hm scriptName
  refine h.concat rfl ?_ hscript
  rwa [show (w.DBFetchScript m scriptName).2.calls =
    w.calls ++ [.fetchedScript scriptName (w.DBFetchScript m scriptName).1] from rfl,
    recalled_concat]

theorem World.Recalls.DBFetchScriptByTag (hm : m.Reliable) (h : w.Recalls m maps)
    (tagSubAddr : CString) : (w.DBFetchScriptByTag m tagSubAddr).2.Recalls m maps := by
  obtain ⟨hremembers, hscript⟩ := h.remembers.DBFetchScriptByTag hm tagSubAddr
  refine h.concat rfl ?_ hscript
  rwa [show (w.DBFetchScriptByTag m tagSubAddr).2.calls =
    w.calls ++ [.fetchedScriptByTag tagSubAddr (w.DBFetchScriptByTag m tagSubAddr).1] from rfl,
    recalled_concat]

/-- What a script does outside keeps it. -/
theorem World.Recalls.script (hm : m.Reliable) {w' : World} {es : List Script.Event}
    (h : w.Recalls m maps) (hacts : Script.Acts (World.env m) es w w') : w'.Recalls m maps := by
  refine hacts.keeps (World.Recalls m maps) ?_ ?_ ?_ ?_ h
  · exact fun key _ hw => hw.DBReadNVState hm key
  · exact fun key value _ hw => hw.write hm _
  · exact fun command _ hw => ⟨⟨hw.remembers.tables⟩, hw.calls⟩
  · exact fun msg _ hw => ⟨⟨hw.remembers.tables⟩, hw.calls⟩

end

/-! ## The scripts -/

/-- The scripts that are stored. -/
structure World.Holds (w : World) (scripts : CString → Option CString) : Prop where
  maps : ∃ maps, w.Remembers maps ∧
    ∀ name, (maps.scripts name).map Store.Script.scriptcode = scripts name

section

variable {D : Type} {m : Machine D} {w : World} {scripts : CString → Option CString}

theorem World.Holds.DBFetchScript (hm : m.Reliable) (h : w.Holds scripts) (scriptName : CString) :
    (w.DBFetchScript m scriptName).2.Holds scripts ∧
      (w.DBFetchScript m scriptName).1 = scripts scriptName := by
  obtain ⟨maps, hremembers, hscripts⟩ := h.maps
  obtain ⟨hafter, hscript⟩ := hremembers.DBFetchScript hm scriptName
  exact ⟨⟨maps, hafter, hscripts⟩, hscript.trans (hscripts scriptName)⟩

theorem World.Holds.DBFetchScriptByTag (hm : m.Reliable) (h : w.Holds scripts)
    (tagSubAddr : CString) : (w.DBFetchScriptByTag m tagSubAddr).2.Holds scripts := by
  obtain ⟨maps, hremembers, hscripts⟩ := h.maps
  exact ⟨maps, (hremembers.DBFetchScriptByTag hm tagSubAddr).1, hscripts⟩

/-- A row of another table is written. -/
theorem World.Holds.write (hm : m.Reliable) (h : w.Holds scripts) {write : Write}
    (hwrite : ∀ name script, write ≠ .DBIRScript name script) :
    (w.write m write).2.Holds scripts := by
  obtain ⟨maps, hremembers, hscripts⟩ := h.maps
  refine ⟨_, hremembers.write hm write, fun name => ?_⟩
  rw [← hscripts name]
  cases (w.write m write).1 with
  | FAIL => rfl
  | PASS =>
    cases write with
    | DBWriteNVState | DBUpdateTrigLog | DBUpdateHeartbeatLog => rfl
    | DBIRScript name script => exact absurd rfl (hwrite name script)

/-- A script is saved, with its quotes doubled. -/
theorem World.Holds.DBIRScript (hm : m.Reliable) (h : w.Holds scripts) (name script : CString) :
    (w.DBIRScript m name script).2.Holds (match (w.DBIRScript m name script).1 with
      | .PASS => Function.update scripts name (some (Store.escapeQuotes script))
      | .FAIL => scripts) := by
  obtain ⟨maps, hremembers, hscripts⟩ := h.maps
  refine ⟨_, hremembers.write hm (.DBIRScript name script), fun name' => ?_⟩
  unfold World.DBIRScript
  cases (w.write m (.DBIRScript name script)).1 with
  | FAIL => exact hscripts name'
  | PASS =>
    show Option.map _ (Store.put maps.scripts name ⟨name, Store.escapeQuotes script⟩ name') =
      Function.update scripts name (some (Store.escapeQuotes script)) name'
    by_cases hname : name' = name
    · rw [Store.put, if_pos hname, hname, Function.update_self]
      rfl
    · rw [Store.put, if_neg hname, Function.update_of_ne hname]
      exact hscripts name'

theorem World.Holds.script (hm : m.Reliable) {w' : World} {es : List Script.Event}
    (h : w.Holds scripts) (hacts : Script.Acts (World.env m) es w w') : w'.Holds scripts := by
  refine hacts.keeps (World.Holds · scripts) ?_ ?_ ?_ ?_ h
  · intro key w hw
    obtain ⟨maps, hremembers, hscripts⟩ := hw.maps
    exact ⟨maps, (hremembers.DBReadNVState hm key).1, hscripts⟩
  · exact fun key value _ hw => hw.write hm fun _ _ hwrite => nomatch hwrite
  · exact fun command _ ⟨maps, ⟨htables⟩, hscripts⟩ => ⟨maps, ⟨htables⟩, hscripts⟩
  · exact fun msg _ ⟨maps, ⟨htables⟩, hscripts⟩ => ⟨maps, ⟨htables⟩, hscripts⟩

end

end XplEvent.Daemon
