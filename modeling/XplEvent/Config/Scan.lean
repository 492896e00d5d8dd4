import XplEvent.Config.Line

/-!
# `ConfReadScan` — reading a configuration file

A file is read line by line. The scanner cuts a line into tokens: a section
in brackets, a key, the value behind its `=`, and the end of the line, which
is a newline or a comment. A section is put behind the others, and a key
with its value behind those of the last section; the keys before the first
section are read and dropped. The first line that is nothing of this ends
the scan with a syntax error.

What a line says does not depend on the ones before it (`scanLine_eq`).

The tail of the section list is `se` of the source, and the sections before
it are in `before`. Numbers of lines and entries do not overflow: a file has
less than 2^31 of them.
-/

namespace XplEvent.Config

def MAX_VALUE : Nat := 768
def MAX_KEY : Nat := 128
def MAX_SECTION : Nat := 128

def CE_MAGIC : UInt32 := 0x4F8A1C09
def SE_MAGIC : UInt32 := 0x4FCB128D
def KE_MAGIC : UInt32 := 0x4F091E76

/-! ## The scanner -/

/-- The loop of `copyuntil`, for at most so many characters: what is copied,
the character it stops at, and where. -/
def copyLoop (stopchrs : CString) : Nat → CString → CString × CChar × CString
  | 0, src => ([], 0, src)
  | _ + 1, [] => ([], 0, [])
  | n + 1, c :: src =>
    if c ∈ stopchrs then ([], c, c :: src)
    else
      let (dest, stop, src) := copyLoop stopchrs n src
      (c :: dest, stop, src)

/-- `copyuntil`. -/
def copyuntil (srcp : CString) (max_dest_len : Nat) (stopchrs : CString) :
    CString × CChar × CString :=
  copyLoop stopchrs (max_dest_len - 1) srcp

/-- The scanner tokens, with their text. -/
inductive Token
  | TOK_ERR
  | TOK_NL
  | TOK_SECTION (name : CString)
  | TOK_KEY (key : CString)
  | TOK_VALUE (value : CString)
  | TOK_COMMENT
deriving DecidableEq, Repr

/-- `isalnum` of the C locale. -/
def isalnum (c : CChar) : Bool :=
  (48 ≤ c ∧ c ≤ 57) ∨ (65 ≤ c ∧ c ≤ 90) ∨ (97 ≤ c ∧ c ≤ 122)

/-- `linescan`: the token, and where the next one starts. -/
def linescan (lp : CString) : Token × CString :=
  match lp with
  | [] => (.TOK_ERR, lp)
  | c :: rest =>
    if c = LF then (.TOK_NL, lp)
    else if c = 59 ∨ c = 35 then (.TOK_COMMENT, lp)
    else if c = 61 then
      let (value, _, lp) := copyuntil rest MAX_VALUE (cstr "#;\n")
      (.TOK_VALUE value, lp)
    else if c = 91 then
      let (name, stop, lp) := copyuntil rest MAX_SECTION (cstr "]\n")
      if stop = 93 then (.TOK_SECTION name, lp.tail) else (.TOK_ERR, lp)
    else if isalnum c then
      let (key, _, lp) := copyuntil lp MAX_KEY (cstr "=\n")
      if lp.head? = some 61 then (.TOK_KEY key, lp) else (.TOK_ERR, lp)
    else (.TOK_ERR, lp)

/-! ## The configuration -/

/-- `KeyEntry_t`. -/
structure KeyEntry where
  magic : UInt32
  hash : UInt32
  linenum : Nat
  key : CString
  value : CString
deriving DecidableEq, Repr

/-- `SectionEntry_t`, with the keys in the order of the list. -/
structure SectionEntry where
  magic : UInt32
  hash : UInt32
  linenum : Nat
  entry_count : Nat
  section_ : CString
  keys : List KeyEntry
deriving DecidableEq, Repr

/-- `ConfigEntry_t`, with the sections in the order of the list. -/
structure ConfigEntry where
  magic : UInt32
  sections : List SectionEntry
deriving DecidableEq, Repr

/-- The variables of the scan; `linenum` is the number of the next line. -/
structure ScanState where
  line : LineBuf
  linenum : Nat
  before : List SectionEntry
  se : Option SectionEntry

/-- The section list. -/
def ScanState.sections (s : ScanState) : List SectionEntry := s.before ++ s.se.toList

/-- Why a scan ends early. -/
inductive Stop
  | fault (f : Fault)
  | syntaxError (linenum : Nat)
deriving DecidableEq, Repr

section

variable (UtilHash : CString → UInt32)

/-- A section is put behind the others. -/
def ScanState.addSection (s : ScanState) (name : CString) : ScanState :=
  { s with
    before := s.sections
    se := some ⟨SE_MAGIC, UtilHash name, s.linenum, 0, name, []⟩ }

/-- A key with its value is put behind those of the section, if there is
one. -/
def ScanState.addKey (s : ScanState) (key value : CString) : ScanState :=
  { s with se := s.se.map fun se => { se with
      entry_count := se.entry_count + 1
      keys := se.keys ++ [⟨KE_MAGIC, UtilHash key, s.linenum, key, value⟩] } }

/-- The parse of a line. -/
def scanLine (s : ScanState) (p : CString) : Except Stop ScanState :=
  match linescan p with
  | (.TOK_NL, _) => .ok s
  | (.TOK_COMMENT, _) => .ok s
  | (.TOK_SECTION name, p) =>
    let s := s.addSection UtilHash name
    match linescan p with
    | (.TOK_NL, _) => .ok s
    | (.TOK_COMMENT, _) => .ok s
    | _ => .error (.syntaxError s.linenum)
  | (.TOK_KEY key, p) =>
    match linescan p with
    | (.TOK_VALUE value, p) =>
      let s := s.addKey UtilHash key value
      match linescan p with
      | (.TOK_NL, _) => .ok s
      | (.TOK_COMMENT, _) => .ok s
      | _ => .error (.syntaxError s.linenum)
    | _ => .error (.syntaxError s.linenum)
  | (.TOK_ERR, _) => .error (.syntaxError s.linenum)
  | (.TOK_VALUE _, _) => .error (.syntaxError s.linenum)

/-- A turn of the loop, for what `fgets` has read. -/
def scanTurn (s : ScanState) (read : CString) : Except Stop ScanState :=
  match s.line.load read with
  | .error f => .error (.fault f)
  | .ok line => do
    let s ← scanLine UtilHash { s with line := line } line.string
    return { s with linenum := s.linenum + 1 }

/-- The variables before the first line. -/
def ScanState.initial : ScanState := ⟨.zero, 1, [], none⟩

/-- A file: it cannot be opened, or it has a text, which is read to its end
or up to an error. -/
inductive ConfigFile
  | missing
  | text (content : CString) (ferror : Bool)

/-- What the caller of the scan gets: the error that its callback is called
with, or the configuration. -/
inductive ScanResult
  | CRE_FOPEN
  | CRE_IO
  | CRE_SYNTAX (linenum : Nat)
  | config (ce : ConfigEntry)
deriving DecidableEq, Repr

/-- `ConfReadScan`. -/
def ConfReadScan (file : ConfigFile) : Except Fault ScanResult :=
  match file with
  | .missing => .ok .CRE_FOPEN
  | .text content ferror =>
    match (fgetsLines ferror [] content).foldlM (scanTurn UtilHash) .initial with
    | .error (.fault f) => .error f
    | .error (.syntaxError linenum) => .ok (.CRE_SYNTAX linenum)
    | .ok s => .ok (if ferror then ScanResult.CRE_IO else .config ⟨CE_MAGIC, s.sections⟩)

/-! ## Looking up -/

/-- `ConfReadFindSection`. -/
def ConfReadFindSection (ce : ConfigEntry) (section_ : CString) :
    Except Fault (Option SectionEntry) := do
  ASSERT_FAIL (ce.magic = CE_MAGIC)
  return ce.sections.find? fun se => UtilHash section_ = se.hash ∧ se.section_ = section_

/-- The loop of `ConfReadFindKey`. -/
def findKey (kh : UInt32) (key : CString) : List KeyEntry → Except Fault (Option KeyEntry)
  | [] => .ok none
  | ke :: keys => do
    ASSERT_FAIL (ke.magic = KE_MAGIC)
    if kh = ke.hash ∧ ke.key = key then return some ke
    findKey kh key keys

/-- `ConfReadFindKey`. -/
def ConfReadFindKey (se : SectionEntry) (key : CString) : Except Fault (Option KeyEntry) := do
  ASSERT_FAIL (se.magic = SE_MAGIC)
  findKey (UtilHash key) key se.keys

/-- `ConfReadKeyEntryBySectKey`. -/
def ConfReadKeyEntryBySectKey (ce : ConfigEntry) (section_ key : CString) :
    Except Fault (Option KeyEntry) := do
  match ← ConfReadFindSection UtilHash ce section_ with
  | some se => ConfReadFindKey UtilHash se key
  | none => return none

/-- `ConfReadGetValue`. -/
def ConfReadGetValue (ke : KeyEntry) : Except Fault CString := do
  ASSERT_FAIL (ke.magic = KE_MAGIC)
  return ke.value

/-- `ConfReadValueBySectKey`. -/
def ConfReadValueBySectKey (ce : ConfigEntry) (section_ key : CString) :
    Except Fault (Option CString) := do
  match ← ConfReadKeyEntryBySectKey UtilHash ce section_ key with
  | some ke => return some (← ConfReadGetValue ke)
  | none => return none

end

/-! ## What a line says -/

/-- What a line says. -/
inductive Content
  | nothing
  | sect (name : CString)
  | pair (key value : CString)
  | bad
deriving DecidableEq, Repr

/-- The rest of a line is its end. -/
def endsLine (p : CString) : Bool :=
  match (linescan p).1 with
  | .TOK_NL => true
  | .TOK_COMMENT => true
  | _ => false

/-- What a line without blanks says. -/
def content (p : CString) : Content :=
  match linescan p with
  | (.TOK_NL, _) => .nothing
  | (.TOK_COMMENT, _) => .nothing
  | (.TOK_SECTION name, p) => if endsLine p then .sect name else .bad
  | (.TOK_KEY key, p) =>
    match linescan p with
    | (.TOK_VALUE value, p) => if endsLine p then .pair key value else .bad
    | _ => .bad
  | _ => .bad

/-- What the scan makes of it. -/
def ScanState.apply (UtilHash : CString → UInt32) (s : ScanState) : Content → Except Stop ScanState
  | .nothing => .ok s
  | .sect name => .ok (s.addSection UtilHash name)
  | .pair key value => .ok (s.addKey UtilHash key value)
  | .bad => .error (.syntaxError s.linenum)

theorem endsLine_cases (p : CString) {α : Type} (a b : α) :
    (match linescan p with
      | (.TOK_NL, _) => a
      | (.TOK_COMMENT, _) => a
      | _ => b) = if endsLine p then a else b := by
  unfold endsLine
  rcases linescan p with ⟨_ | _ | _ | _ | _ | _, rest⟩ <;> rfl

/-- **A line is parsed for what it says**, whatever was read before. -/
theorem scanLine_eq (UtilHash : CString → UInt32) (s : ScanState) (p : CString) :
    scanLine UtilHash s p = s.apply UtilHash (content p) := by
  unfold scanLine content
  rcases linescan p with ⟨_ | _ | name | key | _ | _, rest⟩
  · rfl
  · rfl
  · simp only [endsLine_cases]
    cases endsLine rest <;> rfl
  · simp only
    rcases linescan rest with ⟨_ | _ | _ | _ | value | _, rest'⟩
    · rfl
    · rfl
    · rfl
    · rfl
    · simp only [endsLine_cases]
      cases endsLine rest' <;> rfl
    · rfl
  · rfl
  · rfl

end XplEvent.Config
