import XplEvent.Config.Reading
import XplEvent.Control.Access
import XplEvent.Wire.Parse

/-!
# Where the settings come from

`main` sets the defaults, reads the command line, and fills in from a
configuration file what has not been set on the command line. A flag for
each option tells it what has been.

Nine settings are texts with an option of their own. The latitude and the
longitude have no option, and yet are not filled in if the option for the
database file is given; a text that is no number makes them 0. So each
setting comes from where it should exactly if the two coordinates of the
configuration are numbers without that option, or no numbers with it
(`precedence_iff`).
-/

namespace XplEvent.Main

open Config (ConfigEntry ConfigFile ConfReadScan ConfReadValueBySectKey ScanResult)
open Control (SockAclList SockaddrStorage SocketGenACL)
open Wire (UtilStoi)

/-! ## Values -/

/-- What `main` uses of floating-point numbers. -/
structure Floats where
  Double : Type
  /-- The constants. -/
  ofInt : Int → Double
  distinct : ofInt 0 ≠ ofInt 33 ∧ ofInt 0 ≠ ofInt (-117)
  /-- `strtod`: the value and the text behind the number. -/
  strtod : CString → Double × CString

/-- The characters of `SHORT_OPTIONS`, and what else `getopt_long` returns. -/
inductive Optchar
  | zero | unknown | weird
  | b | C | c | d | D | e | f | F | g | G | H | h | i | L | n | O | o | p | P | S | s | V | x
deriving DecidableEq, Repr

inductive UtilityCommand
  | UC_CHECK_SYNTAX | UC_GET_SCRIPT | UC_PUT_SCRIPT | UC_SEND_CMD | UC_GENERATE
deriving DecidableEq, Repr

/-- How `main` ends early: by `exit`, by a fault, or because `free` does not
know a block of `talloc`. -/
inductive End
  | exit (status : Nat)
  | fault (f : Fault)
  | abort
deriving DecidableEq, Repr

/-- `fatal`. -/
def fatal {α : Type} : Except End α := .error (.fault .fatal)

/-- The result of a function that may fault. -/
def orEnd {α : Type} (a : Except Fault α) : Except End α := a.mapError .fault

/-- `talloc_strdup` in `MALLOC_FAIL`, which a missing string does not pass. -/
def dup (p : Option CString) : Except End (Option CString) :=
  if p.isSome then .ok p else fatal

/-- `clOverride_t`. -/
structure ClOverride where
  pid_file : Bool
  instance_id : Bool
  log_path : Bool
  interface : Bool
  dbfile : Bool
  bindaddress : Bool
  hostname : Bool
  cmdserv : Bool
  xplserv : Bool

/-- `XPLEvGlobals_t`, as far as `main` sets it here. -/
structure Globals (Double : Type) where
  exitOnErr : Bool
  noBackground : Bool
  debugLvl : Int
  cmdBindAddress : Option CString
  cmdHostName : Option CString
  cmdService : Option CString
  configFile : Option CString
  pidFile : Option CString
  dbFile : Option CString
  logFile : Option CString
  ipAddr : Option CString
  xplService : Option CString
  instanceID : Option CString
  controlACL : Option SockAclList
  lat : Double
  lon : Double

/-- The variables of `main`. -/
structure State (Double : Type) where
  globals : Globals Double
  clOverride : ClOverride
  configFiles : CString
  utilityCommand : Option UtilityCommand
  utilityArg : Option CString
  utilityFile : Option CString
  forceFlag : Bool
  dbDirectFlag : Bool

def DEF_CONFIG_FILE : CString := cstr "./xplevent.conf,/etc/xplevent/xplevent.conf"
def DEF_PID_FILE : CString := cstr "/tmp/xplevent.pid"
def DEF_DB_FILE : CString := cstr "./xplevent.sqlite3"
def DEF_LOG_FILE : CString := cstr ""
def DEF_INSTANCE_ID : CString := cstr "main"
def DEF_CMD_SERVICE_NAME : CString := cstr "1130"
def DEF_XPL_SERVICE_NAME : CString := cstr "3865"
def DEBUG_MAX : Int := 5
def PATH_MAX : Nat := 4096

variable (F : Floats)

/-- The defaults. -/
def State.initial : State F.Double where
  globals :=
    { exitOnErr := false
      noBackground := false
      debugLvl := 0
      cmdBindAddress := none
      cmdHostName := some (cstr "::1")
      cmdService := some DEF_CMD_SERVICE_NAME
      configFile := none
      pidFile := some DEF_PID_FILE
      dbFile := some DEF_DB_FILE
      logFile := some DEF_LOG_FILE
      ipAddr := none
      xplService := some DEF_XPL_SERVICE_NAME
      instanceID := some DEF_INSTANCE_ID
      controlACL := none
      lat := F.ofInt 33
      lon := F.ofInt (-117) }
  clOverride := ⟨false, false, false, false, false, false, false, false, false⟩
  configFiles := DEF_CONFIG_FILE
  utilityCommand := none
  utilityArg := none
  utilityFile := none
  forceFlag := false
  dbDirectFlag := false

/-! ## The command line -/

variable {F}

/-- `prepareUtilityCommand`. -/
def prepareUtilityCommand {Double : Type} (s : State Double) (command : UtilityCommand)
    (optarg : Option CString) : Except End (State Double) :=
  if s.utilityCommand.isNone then
    .ok { s with
      utilityCommand := some command
      utilityArg := if optarg.isSome then optarg else s.utilityArg }
  else fatal

/-- A turn of the loop over the options. -/
def optionTurn {Double : Type} (s : State Double) (optchar : Optchar) (optarg : Option CString) :
    Except End (State Double) :=
  match optchar with
  | .zero => fatal
  | .unknown => .error (.exit 1)
  | .b => do
    return { s with clOverride.bindaddress := true, globals.cmdBindAddress := ← dup optarg }
  | .C => do return { s with configFiles := (← dup optarg).getD [] }
  | .c => prepareUtilityCommand s .UC_CHECK_SYNTAX none
  | .d => do
    match ← orEnd (UtilStoi optarg) with
    | none => fatal
    | some debugLvl =>
      if debugLvl < 0 ∨ DEBUG_MAX < debugLvl then fatal
      return { s with globals.debugLvl := debugLvl }
  | .D => .ok { s with dbDirectFlag := true }
  | .e => .ok { s with globals.exitOnErr := true }
  | .f => .ok { s with utilityFile := optarg.map (·.take PATH_MAX) }
  | .F => .ok { s with forceFlag := true }
  | .g => prepareUtilityCommand s .UC_GET_SCRIPT optarg
  | .G => prepareUtilityCommand s .UC_GENERATE none
  | .H => .error (.exit 0)
  | .h => do
    return { s with clOverride.hostname := true, globals.cmdHostName := ← dup optarg }
  | .i => do
    return { s with clOverride.interface := true, globals.ipAddr := ← dup optarg }
  | .L => do
    return { s with clOverride.log_path := true, globals.logFile := ← dup optarg }
  | .n => .ok { s with globals.noBackground := true }
  | .O => do
    return { s with clOverride.xplserv := true, globals.xplService := ← dup optarg }
  | .o => do
    return { s with clOverride.dbfile := true, globals.dbFile := ← dup optarg }
  | .p => prepareUtilityCommand s .UC_PUT_SCRIPT optarg
  | .P => do
    return { s with clOverride.pid_file := true, globals.pidFile := ← dup optarg }
  | .S => do
    return { s with clOverride.cmdserv := true, globals.cmdService := ← dup optarg }
  | .s => do
    return { s with clOverride.instance_id := true, globals.instanceID := ← dup optarg }
  | .V => .error (.exit 0)
  | .x => prepareUtilityCommand s .UC_SEND_CMD optarg
  | .weird => fatal

/-! ## The configuration -/

/-- The surroundings of `main`: the file system and the name service. What
the two access lists hold where nothing has been written is up to the
allocator. -/
structure Surroundings where
  realpath : CString → Option CString
  open_ : CString → ConfigFile
  getaddrinfo : Option CString → Option SockaddrStorage
  allowGarbage : Nat → CChar
  denyGarbage : Nat → CChar

section

variable (UtilHash : CString → UInt32) (w : Surroundings)

/-- The loop over the paths. A file that cannot be scanned is not the end
of it, but the release of its path is. -/
def findConfig : List CString → Except End (Option (CString × ConfigEntry))
  | [] => .ok none
  | path :: configPaths =>
    match w.realpath path with
    | none => findConfig configPaths
    | some fullPath => do
      match ← orEnd (ConfReadScan UtilHash (w.open_ fullPath)) with
      | .config configInfo => return some (fullPath, configInfo)
      | _ => .error .abort

/-- `UtilStod`: the value that is stored. -/
def UtilStod (F : Floats) (val : CString) : PassFail × F.Double :=
  let (v, endp) := F.strtod val
  if val ≠ [] ∧ endp = [] then (.PASS, v) else (.FAIL, F.ofInt 0)

/-- A text is filled in if its flag is not set. -/
def fillIn (configInfo : ConfigEntry) (overridden : Bool) (section_ key : CString)
    (old : Option CString) : Except Fault (Option CString) := do
  if overridden then return old
  match ← ConfReadValueBySectKey UtilHash configInfo section_ key with
  | some p => return some p
  | none => return old

/-- A number is filled in if the flag is not set. -/
def fillInDouble (configInfo : ConfigEntry) (overridden : Bool) (section_ key : CString)
    (old : F.Double) : Except Fault F.Double := do
  if overridden then return old
  match ← ConfReadValueBySectKey UtilHash configInfo section_ key with
  | some p => return (UtilStod F p).2
  | none => return old

/-- The settings of the configuration are filled in. -/
def fillInAll (s : State F.Double) (fullPath : CString) (configInfo : ConfigEntry) :
    Except Fault (Globals F.Double) := do
  let cl := s.clOverride
  let g := { s.globals with configFile := some fullPath }
  let fill := fillIn UtilHash configInfo
  let g := { g with
    instanceID := ← fill cl.instance_id (cstr "general") (cstr "instance-id") g.instanceID }
  let g := { g with ipAddr := ← fill cl.interface (cstr "general") (cstr "ip-addr") g.ipAddr }
  let g := { g with
    xplService := ← fill cl.xplserv (cstr "general") (cstr "service") g.xplService }
  let g := { g with
    cmdBindAddress := ← fill cl.bindaddress (cstr "control") (cstr "bind-addr") g.cmdBindAddress }
  let g := { g with cmdHostName := ← fill cl.hostname (cstr "control") (cstr "host") g.cmdHostName }
  let g := { g with cmdService := ← fill cl.cmdserv (cstr "control") (cstr "service") g.cmdService }
  let g := { g with pidFile := ← fill cl.pid_file (cstr "general") (cstr "pid-file") g.pidFile }
  let g := { g with logFile := ← fill cl.log_path (cstr "general") (cstr "log-path") g.logFile }
  let g := { g with dbFile := ← fill cl.dbfile (cstr "general") (cstr "db-file") g.dbFile }
  let fillDouble := fillInDouble UtilHash configInfo
  let g := { g with lat := ← fillDouble cl.dbfile (cstr "general") (cstr "lat") g.lat }
  let g := { g with lon := ← fillDouble cl.dbfile (cstr "general") (cstr "lon") g.lon }
  let allow ← ConfReadValueBySectKey UtilHash configInfo (cstr "control") (cstr "allow")
  let deny ← ConfReadValueBySectKey UtilHash configInfo (cstr "control") (cstr "deny")
  match ← SocketGenACL w.getaddrinfo w.allowGarbage w.denyGarbage allow deny with
  | none => .error .fatal
  | some controlACL => return { g with controlACL := controlACL }

/-- `main`, up to where the configuration has been merged: the settings,
and the configuration that is used. `opts` is what `getopt_long` returns,
and `extra` what it leaves over. -/
def mergeSettings (F : Floats) (opts : List (Optchar × Option CString)) (extra : List CString) :
    Except End (Globals F.Double × Option ConfigEntry) := do
  let s ← opts.foldlM (fun s opt => optionTurn s opt.1 opt.2) (State.initial F)
  if extra ≠ [] then fatal
  let configPaths ← orEnd (Util.splitString s.configFiles 44)
  match ← findConfig UtilHash w configPaths with
  | none => return (s.globals, none)
  | some (fullPath, configInfo) =>
    return (← orEnd (fillInAll UtilHash w s fullPath configInfo), some configInfo)

end

/-! ## Where each setting should come from -/

/-- The settings that have an option. -/
inductive Setting
  | instanceID | ipAddr | xplService | cmdBindAddress | cmdHostName | cmdService | pidFile
  | logFile | dbFile
deriving DecidableEq, Repr

namespace Setting

def option : Setting → Optchar
  | .instanceID => .s
  | .ipAddr => .i
  | .xplService => .O
  | .cmdBindAddress => .b
  | .cmdHostName => .h
  | .cmdService => .S
  | .pidFile => .P
  | .logFile => .L
  | .dbFile => .o

def section_ : Setting → CString
  | .cmdBindAddress | .cmdHostName | .cmdService => cstr "control"
  | _ => cstr "general"

def key : Setting → CString
  | .instanceID => cstr "instance-id"
  | .ipAddr => cstr "ip-addr"
  | .xplService => cstr "service"
  | .cmdBindAddress => cstr "bind-addr"
  | .cmdHostName => cstr "host"
  | .cmdService => cstr "service"
  | .pidFile => cstr "pid-file"
  | .logFile => cstr "log-path"
  | .dbFile => cstr "db-file"

def default : Setting → Option CString
  | .instanceID => some DEF_INSTANCE_ID
  | .ipAddr => none
  | .xplService => some DEF_XPL_SERVICE_NAME
  | .cmdBindAddress => none
  | .cmdHostName => some (cstr "::1")
  | .cmdService => some DEF_CMD_SERVICE_NAME
  | .pidFile => some DEF_PID_FILE
  | .logFile => some DEF_LOG_FILE
  | .dbFile => some DEF_DB_FILE

end Setting

def Globals.get {Double : Type} (g : Globals Double) : Setting → Option CString
  | .instanceID => g.instanceID
  | .ipAddr => g.ipAddr
  | .xplService => g.xplService
  | .cmdBindAddress => g.cmdBindAddress
  | .cmdHostName => g.cmdHostName
  | .cmdService => g.cmdService
  | .pidFile => g.pidFile
  | .logFile => g.logFile
  | .dbFile => g.dbFile

def ClOverride.get (cl : ClOverride) : Setting → Bool
  | .instanceID => cl.instance_id
  | .ipAddr => cl.interface
  | .xplService => cl.xplserv
  | .cmdBindAddress => cl.bindaddress
  | .cmdHostName => cl.hostname
  | .cmdService => cl.cmdserv
  | .pidFile => cl.pid_file
  | .logFile => cl.log_path
  | .dbFile => cl.dbfile

/-- The argument an option is last given with. -/
def given (opt : Optchar) (opts : List (Optchar × Option CString)) : Option CString :=
  (opts.filterMap fun o => if o.1 = opt then o.2 else none).getLast?

/-- The settings of the configuration, if there is one. -/
def settingsOf (conf : Option ConfigEntry) : Config.Settings :=
  (conf.map ConfigEntry.settings).getD []

/-- The number that a text is. -/
def Floats.number (F : Floats) (val : CString) : Option F.Double :=
  if val ≠ [] ∧ (F.strtod val).2 = [] then some (F.strtod val).1 else none

/-- Each setting comes from the command line, or else from the
configuration, or else is the default. -/
structure Precedence (F : Floats) (opts : List (Optchar × Option CString))
    (settings : Config.Settings) (g : Globals F.Double) : Prop where
  texts : ∀ x : Setting, g.get x =
    ((given x.option opts).or (settings.lookup x.section_ x.key)).or x.default
  lat : g.lat = ((settings.lookup (cstr "general") (cstr "lat")).bind F.number).getD (F.ofInt 33)
  lon : g.lon =
    ((settings.lookup (cstr "general") (cstr "lon")).bind F.number).getD (F.ofInt (-117))

/-- A coordinate of the configuration does not need the option for the
database file if it is a number, unless that is the default; it needs it if
it is no number. -/
def CoordinateRight (F : Floats) (opts : List (Optchar × Option CString))
    (value : Option CString) (default : F.Double) : Prop :=
  ∀ val ∈ value, match F.number val with
    | some d => given .o opts = none ∨ d = default
    | none => given .o opts ≠ none

/-- Both coordinates. -/
def CoordinatesRight (F : Floats) (opts : List (Optchar × Option CString))
    (settings : Config.Settings) : Prop :=
  CoordinateRight F opts (settings.lookup (cstr "general") (cstr "lat")) (F.ofInt 33) ∧
    CoordinateRight F opts (settings.lookup (cstr "general") (cstr "lon")) (F.ofInt (-117))

/-! ## What the command line leaves -/

/-- A setting is set, with its flag. -/
def State.set {Double : Type} (s : State Double) (x : Setting) (p : Option CString) :
    State Double :=
  match x with
  | .instanceID => { s with clOverride.instance_id := true, globals.instanceID := p }
  | .ipAddr => { s with clOverride.interface := true, globals.ipAddr := p }
  | .xplService => { s with clOverride.xplserv := true, globals.xplService := p }
  | .cmdBindAddress => { s with clOverride.bindaddress := true, globals.cmdBindAddress := p }
  | .cmdHostName => { s with clOverride.hostname := true, globals.cmdHostName := p }
  | .cmdService => { s with clOverride.cmdserv := true, globals.cmdService := p }
  | .pidFile => { s with clOverride.pid_file := true, globals.pidFile := p }
  | .logFile => { s with clOverride.log_path := true, globals.logFile := p }
  | .dbFile => { s with clOverride.dbfile := true, globals.dbFile := p }

section

variable {Double : Type} (s : State Double) (x y : Setting) (p : Option CString)

theorem State.set_flag :
    (s.set x p).clOverride.get y = if y = x then true else s.clOverride.get y := by
  cases x <;> cases y <;> rfl

theorem State.set_get : (s.set x p).globals.get y = if y = x then p else s.globals.get y := by
  cases x <;> cases y <;> rfl

@[simp] theorem State.set_lat : (s.set x p).globals.lat = s.globals.lat := by
  cases x <;> rfl

@[simp] theorem State.set_lon : (s.set x p).globals.lon = s.globals.lon := by
  cases x <;> rfl

end

theorem Setting.option_inj {x y : Setting} (h : x.option = y.option) : x = y := by
  cases x <;> cases y <;> first | rfl | cases h

/-- The option for a setting sets it. -/
theorem optionTurn_setting {Double : Type} (s : State Double) (x : Setting)
    (optarg : Option CString) :
    optionTurn s x.option optarg = (do return s.set x (← dup optarg)) := by
  cases x <;> rfl

theorem dup_ok {p q : Option CString} (h : dup p = .ok q) : q = p ∧ ∃ a, p = some a := by
  cases p with
  | none => cases h
  | some a =>
    cases h
    exact ⟨rfl, a, rfl⟩

/-- What no setting has to do with. -/
structure SameSettings {Double : Type} (s s' : State Double) : Prop where
  flags : s'.clOverride = s.clOverride
  texts : ∀ x : Setting, s'.globals.get x = s.globals.get x
  lat : s'.globals.lat = s.globals.lat
  lon : s'.globals.lon = s.globals.lon

theorem prepareUtilityCommand_same {Double : Type} {s s' : State Double}
    {command : UtilityCommand} {optarg : Option CString}
    (h : prepareUtilityCommand s command optarg = .ok s') : SameSettings s s' := by
  unfold prepareUtilityCommand at h
  split at h
  · cases h
    exact ⟨rfl, fun _ => rfl, rfl, rfl⟩
  · cases h

/-- Another option does not touch the settings. -/
theorem optionTurn_other {Double : Type} {s s' : State Double} {optchar : Optchar}
    {optarg : Option CString} (hother : ∀ x : Setting, x.option ≠ optchar)
    (h : optionTurn s optchar optarg = .ok s') : SameSettings s s' := by
  cases optchar with
  | zero | unknown | weird | H | V => cases h
  | b => exact absurd rfl (hother .cmdBindAddress)
  | h => exact absurd rfl (hother .cmdHostName)
  | i => exact absurd rfl (hother .ipAddr)
  | L => exact absurd rfl (hother .logFile)
  | O => exact absurd rfl (hother .xplService)
  | o => exact absurd rfl (hother .dbFile)
  | P => exact absurd rfl (hother .pidFile)
  | S => exact absurd rfl (hother .cmdService)
  | s => exact absurd rfl (hother .instanceID)
  | c | g | G | p | x => exact prepareUtilityCommand_same h
  | D | e | f | F | n =>
    cases h
    exact ⟨rfl, fun x => by cases x <;> rfl, rfl, rfl⟩
  | C =>
    obtain ⟨files, -, hs⟩ := bind_ok h
    cases hs
    exact ⟨rfl, fun _ => rfl, rfl, rfl⟩
  | d =>
    obtain ⟨level, -, hs⟩ := bind_ok h
    cases level with
    | none => cases hs
    | some debugLvl =>
      simp only at hs
      split at hs
      · cases hs
      · cases hs
        exact ⟨rfl, fun x => by cases x <;> rfl, rfl, rfl⟩

/-- What the command line leaves: the arguments over the defaults. -/
structure Parsed (F : Floats) (opts : List (Optchar × Option CString)) (s : State F.Double) :
    Prop where
  flags : ∀ x : Setting, s.clOverride.get x = (given x.option opts).isSome
  texts : ∀ x : Setting, s.globals.get x = (given x.option opts).or x.default
  lat : s.globals.lat = F.ofInt 33
  lon : s.globals.lon = F.ofInt (-117)

theorem initial_parsed (F : Floats) : Parsed F [] (State.initial F) where
  flags x := by cases x <;> rfl
  texts x := by cases x <;> rfl
  lat := rfl
  lon := rfl

theorem given_concat (opt : Optchar) (opts : List (Optchar × Option CString)) (a : CString) :
    given opt (opts ++ [(opt, some a)]) = some a := by
  simp [given, List.filterMap_append]

theorem given_concat_other {opt : Optchar} {o : Optchar × Option CString} (h : o.1 ≠ opt)
    (opts : List (Optchar × Option CString)) : given opt (opts ++ [o]) = given opt opts := by
  simp [given, List.filterMap_append, h]

/-- The option for a setting is the last one given for it, and for no other. -/
theorem given_setting (x y : Setting) (opts : List (Optchar × Option CString)) (a : CString) :
    given y.option (opts ++ [(x.option, some a)]) =
      if y = x then some a else given y.option opts := by
  by_cases hy : y = x
  · rw [if_pos hy, hy, given_concat]
  · rw [if_neg hy, given_concat_other fun hopt => hy (Setting.option_inj hopt.symm)]

/-- A turn of the loop over the options. -/
theorem optionTurn_parsed {F : Floats} {opts : List (Optchar × Option CString)}
    {s s' : State F.Double} (hs : Parsed F opts s) {o : Optchar × Option CString}
    (h : optionTurn s o.1 o.2 = .ok s') : Parsed F (opts ++ [o]) s' := by
  obtain ⟨optchar, optarg⟩ := o
  by_cases hsetting : ∃ x : Setting, x.option = optchar
  · obtain ⟨x, rfl⟩ := hsetting
    rw [optionTurn_setting] at h
    obtain ⟨p, hdup, hset⟩ := bind_ok h
    obtain ⟨rfl, a, rfl⟩ := dup_ok hdup
    cases hset
    constructor
    · intro y
      rw [State.set_flag, given_setting]
      split
      · rfl
      · exact hs.flags y
    · intro y
      rw [State.set_get, given_setting]
      split
      · rfl
      · exact hs.texts y
    · rw [State.set_lat]
      exact hs.lat
    · rw [State.set_lon]
      exact hs.lon
  · have hother : ∀ x : Setting, x.option ≠ optchar := fun x hx => hsetting ⟨x, hx⟩
    have hsame := optionTurn_other hother h
    constructor
    · intro x
      rw [hsame.flags, given_concat_other (hother x).symm]
      exact hs.flags x
    · intro x
      rw [hsame.texts, given_concat_other (hother x).symm]
      exact hs.texts x
    · exact hsame.lat.trans hs.lat
    · exact hsame.lon.trans hs.lon

theorem foldlM_parsed {F : Floats} {opts rest : List (Optchar × Option CString)}
    {s s' : State F.Double} (hs : Parsed F opts s)
    (h : rest.foldlM (fun s opt => optionTurn s opt.1 opt.2) s = .ok s') :
    Parsed F (opts ++ rest) s' := by
  induction rest generalizing opts s with
  | nil =>
    cases h
    rwa [List.append_nil]
  | cons o rest ih =>
    obtain ⟨s₁, hturn, hrest⟩ := bind_ok h
    have hrun := ih (optionTurn_parsed hs hturn) hrest
    rwa [List.append_assoc] at hrun

/-! ## What the configuration fills in -/

section

variable {UtilHash : CString → UInt32} {configInfo : ConfigEntry}

theorem fillIn_eq (hvalid : configInfo.Valid UtilHash) (overridden : Bool)
    (section_ key : CString) (old : Option CString) :
    fillIn UtilHash configInfo overridden section_ key old =
      .ok (if overridden then old else (configInfo.settings.lookup section_ key).or old) := by
  cases overridden with
  | true => rfl
  | false =>
    rw [fillIn, Config.ConfReadValueBySectKey_eq hvalid, ok_bind]
    cases configInfo.settings.lookup section_ key <;> rfl

/-- A value that is no number is stored as 0. -/
theorem UtilStod_eq (F : Floats) (val : CString) :
    (UtilStod F val).2 = (F.number val).getD (F.ofInt 0) := by
  simp only [UtilStod, Floats.number]
  split <;> rfl

theorem fillInDouble_eq {F : Floats} (hvalid : configInfo.Valid UtilHash) (overridden : Bool)
    (section_ key : CString) (old : F.Double) :
    fillInDouble UtilHash configInfo overridden section_ key old =
      .ok (if overridden then old
        else (configInfo.settings.lookup section_ key).elim old
          fun p => (F.number p).getD (F.ofInt 0)) := by
  cases overridden with
  | true => rfl
  | false =>
    rw [fillInDouble, Config.ConfReadValueBySectKey_eq hvalid, ok_bind]
    cases configInfo.settings.lookup section_ key with
    | none => rfl
    | some p => exact congrArg Except.ok (UtilStod_eq F p)

/-- A coordinate that is filled in. -/
def filledDouble (F : Floats) (overridden : Bool) (value : Option CString) (old : F.Double) :
    F.Double :=
  if overridden then old else value.elim old fun p => (F.number p).getD (F.ofInt 0)

/-- What is filled in, setting by setting. -/
theorem fillInAll_spec {F : Floats} (hvalid : configInfo.Valid UtilHash) {w : Surroundings}
    {s : State F.Double} {fullPath : CString} {g : Globals F.Double}
    (h : fillInAll UtilHash w s fullPath configInfo = .ok g) :
    (∀ x : Setting, g.get x = if s.clOverride.get x then s.globals.get x
      else (configInfo.settings.lookup x.section_ x.key).or (s.globals.get x)) ∧
    g.lat = filledDouble F s.clOverride.dbfile
      (configInfo.settings.lookup (cstr "general") (cstr "lat")) s.globals.lat ∧
    g.lon = filledDouble F s.clOverride.dbfile
      (configInfo.settings.lookup (cstr "general") (cstr "lon")) s.globals.lon := by
  simp only [fillInAll, fillIn_eq hvalid, fillInDouble_eq hvalid,
    Config.ConfReadValueBySectKey_eq hvalid, ok_bind] at h
  obtain ⟨acl, -, hacl⟩ := bind_ok h
  cases acl with
  | none => cases hacl
  | some controlACL =>
    cases hacl
    refine ⟨fun x => ?_, rfl, rfl⟩
    cases x <;> rfl

/-- A configuration that is found is valid. -/
theorem findConfig_valid {w : Surroundings} {configPaths : List CString} {fullPath : CString}
    (h : findConfig UtilHash w configPaths = .ok (some (fullPath, configInfo))) :
    configInfo.Valid UtilHash := by
  induction configPaths with
  | nil => cases h
  | cons path configPaths ih =>
    rw [findConfig] at h
    split at h
    · exact ih h
    · rename_i fullPath' hreal
      cases hscan : ConfReadScan UtilHash (w.open_ fullPath') with
      | error f =>
        rw [hscan] at h
        cases h
      | ok result =>
        rw [hscan] at h
        cases result with
        | config ce =>
          cases h
          exact Config.ConfReadScan_valid hscan
        | CRE_FOPEN | CRE_IO | CRE_SYNTAX linenum => cases h

end

/-! ## Where each setting comes from -/

/-- A coordinate is right where the guard on the option does not matter. -/
theorem filledDouble_iff {F : Floats} (opts : List (Optchar × Option CString))
    (value : Option CString) {default : F.Double} (hzero : F.ofInt 0 ≠ default) :
    filledDouble F (given .o opts).isSome value default =
      (value.bind F.number).getD default ↔ CoordinateRight F opts value default := by
  cases value with
  | none => simp [filledDouble, CoordinateRight]
  | some val =>
    unfold filledDouble CoordinateRight
    rw [Option.elim_some, Option.bind_some]
    cases hgiven : given .o opts with
    | none => cases hnumber : F.number val <;> simp [hnumber, hzero]
    | some path => cases hnumber : F.number val <;> simp [hnumber, eq_comm]

/-- What the settings are when the configuration has been merged. -/
structure Filled (F : Floats) (opts : List (Optchar × Option CString))
    (settings : Config.Settings) (g : Globals F.Double) : Prop where
  texts : ∀ x : Setting, g.get x =
    ((given x.option opts).or (settings.lookup x.section_ x.key)).or x.default
  lat : g.lat = filledDouble F (given .o opts).isSome
    (settings.lookup (cstr "general") (cstr "lat")) (F.ofInt 33)
  lon : g.lon = filledDouble F (given .o opts).isSome
    (settings.lookup (cstr "general") (cstr "lon")) (F.ofInt (-117))

/-- Without a configuration the settings are those of the command line. -/
theorem Parsed.filled {F : Floats} {opts : List (Optchar × Option CString)} {s : State F.Double}
    (hs : Parsed F opts s) : Filled F opts [] s.globals where
  texts x := by
    rw [hs.texts]
    exact congrArg (Option.or · x.default) (Option.or_none).symm
  lat := by
    rw [hs.lat]
    exact (ite_self _).symm
  lon := by
    rw [hs.lon]
    exact (ite_self _).symm

theorem fillInAll_filled {UtilHash : CString → UInt32} {configInfo : ConfigEntry}
    (hvalid : configInfo.Valid UtilHash) {w : Surroundings} {F : Floats}
    {opts : List (Optchar × Option CString)} {s : State F.Double} (hs : Parsed F opts s)
    {fullPath : CString} {g : Globals F.Double}
    (h : fillInAll UtilHash w s fullPath configInfo = .ok g) :
    Filled F opts configInfo.settings g := by
  obtain ⟨htexts, hlat, hlon⟩ := fillInAll_spec hvalid h
  have hdbfile : s.clOverride.dbfile = (given .o opts).isSome := hs.flags .dbFile
  constructor
  · intro x
    rw [htexts, hs.flags, hs.texts]
    cases given x.option opts with
    | none => rfl
    | some a => rfl
  · rw [hlat, hdbfile, hs.lat]
  · rw [hlon, hdbfile, hs.lon]

theorem orEnd_ok {α : Type} {a : Except Fault α} {b : α} (h : orEnd a = .ok b) : a = .ok b := by
  cases a with
  | error f => cases h
  | ok a => exact congrArg Except.ok (Except.ok.inj h)

/-- A run that merges the configuration. -/
theorem mergeSettings_filled {UtilHash : CString → UInt32} {w : Surroundings} {F : Floats}
    {opts : List (Optchar × Option CString)} {extra : List CString} {g : Globals F.Double}
    {conf : Option ConfigEntry} (h : mergeSettings UtilHash w F opts extra = .ok (g, conf)) :
    Filled F opts (settingsOf conf) g := by
  obtain ⟨s, hparse, h⟩ := bind_ok h
  have hs : Parsed F opts s := foldlM_parsed (initial_parsed F) hparse
  split at h
  · cases h
  obtain ⟨configPaths, -, h⟩ := bind_ok h
  obtain ⟨found, hfind, h⟩ := bind_ok h
  cases found with
  | none =>
    cases h
    exact hs.filled
  | some found =>
    obtain ⟨g', hfill, hg⟩ := bind_ok h
    cases hg
    exact fillInAll_filled (findConfig_valid hfind) hs (orEnd_ok hfill)

/-- **Each setting comes from where it should exactly if** the guards of
the two coordinates do not matter. -/
theorem precedence_iff {UtilHash : CString → UInt32} {w : Surroundings} {F : Floats}
    {opts : List (Optchar × Option CString)} {extra : List CString} {g : Globals F.Double}
    {conf : Option ConfigEntry} (h : mergeSettings UtilHash w F opts extra = .ok (g, conf)) :
    Precedence F opts (settingsOf conf) g ↔ CoordinatesRight F opts (settingsOf conf) := by
  have hfilled := mergeSettings_filled h
  have hlat := filledDouble_iff opts
    ((settingsOf conf).lookup (cstr "general") (cstr "lat")) F.distinct.1
  have hlon := filledDouble_iff opts
    ((settingsOf conf).lookup (cstr "general") (cstr "lon")) F.distinct.2
  constructor
  · intro hprec
    exact ⟨hlat.mp (hfilled.lat.symm.trans hprec.lat), hlon.mp (hfilled.lon.symm.trans hprec.lon)⟩
  · rintro ⟨hlatRight, hlonRight⟩
    exact ⟨hfilled.texts, hfilled.lat.trans (hlat.mpr hlatRight),
      hfilled.lon.trans (hlon.mpr hlonRight)⟩

/-! ## Runs with a configuration -/

/-- The configuration is merged if the command line and the access lists
are in order and a file is found. -/
theorem mergeSettings_ok {UtilHash : CString → UInt32} {w : Surroundings} {F : Floats}
    {opts : List (Optchar × Option CString)} {s : State F.Double} {fullPath : CString}
    {configInfo : ConfigEntry} {acl : Option SockAclList}
    (hparse : opts.foldlM (fun s opt => optionTurn s opt.1 opt.2) (State.initial F) = .ok s)
    (hfind : findConfig UtilHash w (Lib.words 44 s.configFiles) = .ok (some (fullPath, configInfo)))
    (hacl : SocketGenACL w.getaddrinfo w.allowGarbage w.denyGarbage
      (configInfo.settings.lookup (cstr "control") (cstr "allow"))
      (configInfo.settings.lookup (cstr "control") (cstr "deny")) = .ok (some acl)) :
    ∃ g, mergeSettings UtilHash w F opts [] = .ok (g, some configInfo) := by
  have hvalid := findConfig_valid hfind
  have hfill : ∃ g, fillInAll UtilHash w s fullPath configInfo = .ok g := by
    simp only [fillInAll, fillIn_eq hvalid, fillInDouble_eq hvalid,
      Config.ConfReadValueBySectKey_eq hvalid, ok_bind, hacl]
    exact ⟨_, rfl⟩
  obtain ⟨g, hfill⟩ := hfill
  refine ⟨g, ?_⟩
  unfold mergeSettings
  rw [hparse, ok_bind, Util.splitString_eq]
  show (findConfig UtilHash w (Lib.words 44 s.configFiles) >>= _) = _
  rw [hfind, ok_bind]
  show (orEnd (fillInAll UtilHash w s fullPath configInfo) >>= _) = _
  rw [hfill]
  rfl

/-- Integers as numbers. -/
def intFloats : Floats where
  Double := Int
  ofInt n := n
  distinct := by decide
  strtod := Wire.strtoll

/-- Every path is that of a file with this text. -/
def oneFile (text : CString) : Surroundings where
  realpath := some
  open_ _ := .text text false
  getaddrinfo _ := none
  allowGarbage _ := 0
  denyGarbage _ := 0

/-- A latitude is configured. -/
def latitudeText : CString := cstr "[general]\nlat=41\n"

theorem latitudeText_scan (UtilHash : CString → UInt32) : ∃ configInfo : ConfigEntry,
    ConfReadScan UtilHash (.text latitudeText false) = .ok (.config configInfo) ∧
      configInfo.settings = [⟨cstr "general", [(cstr "lat", cstr "41")]⟩] := by
  have hread : Config.readLines false (Config.fgetsLines false [] latitudeText) =
      .ok (.settings [⟨cstr "general", [(cstr "lat", cstr "41")]⟩]) := by decide
  have hscan : (ConfReadScan UtilHash (.text latitudeText false)).map ScanResult.reading = _ :=
    Config.ConfReadScan_reading (by decide) false
  rw [hread] at hscan
  obtain ⟨result, hresult, hreading⟩ := map_ok hscan
  cases result with
  | config configInfo => exact ⟨configInfo, hresult, Config.Reading.settings.inj hreading⟩
  | CRE_FOPEN | CRE_IO | CRE_SYNTAX linenum => cases hreading

/-- The latitude is merged, with or without the option for the database
file. -/
theorem latitudeText_merged (UtilHash : CString → UInt32) {optchar : Optchar} {optarg : CString}
    {s : State Int} (hturn : optionTurn (State.initial intFloats) optchar (some optarg) = .ok s)
    (hfiles : Lib.words 44 s.configFiles ≠ []) :
    ∃ g configInfo,
      mergeSettings UtilHash (oneFile latitudeText) intFloats [(optchar, some optarg)] [] =
        .ok (g, some configInfo) ∧
      configInfo.settings = [⟨cstr "general", [(cstr "lat", cstr "41")]⟩] := by
  obtain ⟨configInfo, hscan, hsettings⟩ := latitudeText_scan UtilHash
  obtain ⟨path, rest, hpaths⟩ := List.exists_cons_of_ne_nil hfiles
  have hfind : findConfig UtilHash (oneFile latitudeText) (Lib.words 44 s.configFiles) =
      .ok (some (path, configInfo)) := by
    rw [hpaths, findConfig]
    show (orEnd (ConfReadScan UtilHash (.text latitudeText false)) >>= _) = _
    rw [hscan]
    rfl
  have hparse : [(optchar, some optarg)].foldlM (fun s opt => optionTurn s opt.1 opt.2)
      (State.initial intFloats) = .ok s := by
    rw [List.foldlM_cons, hturn]
    rfl
  have hacl : SocketGenACL (oneFile latitudeText).getaddrinfo (oneFile latitudeText).allowGarbage
      (oneFile latitudeText).denyGarbage
      (configInfo.settings.lookup (cstr "control") (cstr "allow"))
      (configInfo.settings.lookup (cstr "control") (cstr "deny")) = .ok (some none) := by
    rw [hsettings]
    rfl
  obtain ⟨g, hrun⟩ := mergeSettings_ok hparse hfind hacl
  exact ⟨g, configInfo, hrun, hsettings⟩

/-- A latitude and an instance. -/
theorem precedence_iff_instance : ∃ g configInfo,
    mergeSettings (fun _ => 0) (oneFile latitudeText) intFloats [(.s, some (cstr "x"))] [] =
      .ok (g, some configInfo) ∧
    (Precedence intFloats [(.s, some (cstr "x"))] (settingsOf (some configInfo)) g ↔
      CoordinatesRight intFloats [(.s, some (cstr "x"))] (settingsOf (some configInfo))) := by
  obtain ⟨g, configInfo, hrun, -⟩ := latitudeText_merged (fun _ => 0)
    (show optionTurn (State.initial intFloats) .s (some (cstr "x")) = .ok _ from rfl) (by decide)
  exact ⟨g, configInfo, hrun, precedence_iff hrun⟩

/-- A latitude and a database file: the latitude is the default. -/
theorem precedence_dbfile :
    ¬ ∀ {UtilHash : CString → UInt32} {w : Surroundings} {F : Floats}
      {opts : List (Optchar × Option CString)} {extra : List CString} {g : Globals F.Double}
      {conf : Option ConfigEntry}, mergeSettings UtilHash w F opts extra = .ok (g, conf) →
        Precedence F opts (settingsOf conf) g := by
  intro h
  obtain ⟨g, configInfo, hrun, hsettings⟩ := latitudeText_merged (fun _ => 0)
    (show optionTurn (State.initial intFloats) .o (some (cstr "x.db")) = .ok _ from rfl) (by decide)
  have hprec := (h hrun).lat
  rw [(mergeSettings_filled hrun).lat] at hprec
  have hsettings' : settingsOf (some configInfo) =
      [⟨cstr "general", [(cstr "lat", cstr "41")]⟩] := hsettings
  rw [hsettings'] at hprec
  exact absurd (show (33 : Int) = 41 from hprec) (by decide)

end XplEvent.Main
