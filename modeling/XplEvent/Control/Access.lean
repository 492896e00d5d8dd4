import XplEvent.Control.Cidr

/-!
# Access to the control port

The addresses that are let in and the ones that are kept out come as two
lists of text. `SocketGenACL` takes the white space out of each, cuts it at
its commas and parses the pieces; `SocketCheckACL` looks a client up.

A client is let in by an allow entry, whatever the deny list says, or for
want of anything that keeps it out (`SocketCheckACL_decides`). So only the
entries matter and not their order.

`UtilStripWhite` advances the position it writes at for a character it
leaves out as well, so a gap stays where white space was: it strips a
string only if there is nothing to strip or nothing to keep
(`stripsWhite_iff`).
-/

namespace XplEvent.Control

/-! ## Stripping white space -/

/-- A space, a tab, a newline or a carriage return. -/
def isWhite (c : CChar) : Bool := c = 32 ∨ c = 9 ∨ c = 10 ∨ c = 13

/-- An array from the allocator: a cell that is `none` has not been
written. -/
abbrev Cells := List (Option CChar)

/-- The variables of the loop. `bufSize` is the length of `new`. -/
structure StripScan where
  new : Cells
  j : Nat
deriving Repr

/-- Double the array if it is nearly full. -/
def StripScan.grow (s : StripScan) : StripScan :=
  if s.new.length - s.j ≤ 2 then
    { s with new := s.new ++ List.replicate s.new.length none }
  else s

/-- `new[j] = c`. -/
def putCell (new : Cells) (j : Nat) (c : CChar) : Except Fault Cells :=
  if j < new.length then .ok (new.set j (some c)) else .error .outOfBounds

/-- A turn of the loop. Its header advances `j` behind a `continue` too. -/
def stripTurn (s : StripScan) (c : CChar) : Except Fault StripScan := do
  let s := s.grow
  if isWhite c then return { s with j := s.j + 1 }
  let new ← putCell s.new s.j c
  return ⟨new, s.j + 1⟩

/-- `UtilStripWhite`: the array it returns. -/
def UtilStripWhite (orig : CString) : Except Fault Cells := do
  let new ← putCell (List.replicate 64 none) 0 0
  let s ← orig.foldlM stripTurn ⟨new, 0⟩
  putCell s.new s.j 0

/-- The string without its white space. -/
def stripped (orig : CString) : CString := orig.filter fun c => !isWhite c

/-- The result is the string without its white space, and the function has
written it. -/
def StripsWhite (orig : CString) : Prop :=
  ∃ new, UtilStripWhite orig = .ok new ∧ stringAt new = some (stripped orig)

/-! ## Access lists -/

/-- `SH_MAGIC`. -/
def SH_MAGIC : UInt32 := 0x04A8C3D6

/-- `SockAclList_t`. Nothing changes the magic number that `SocketGenACL`
gives a list. -/
structure SockAclList where
  magic : UInt32
  denyAll : Bool
  denyHead : List SockAclListEntry
  allowHead : List SockAclListEntry
  isList : magic = SH_MAGIC

/-- What an array holds where nothing has been written is up to the
allocator. -/
def Cells.read (new : Cells) (garbage : Nat → CChar) : CString :=
  cutNul (new.mapIdx fun i cell => cell.getD (garbage i))

/-- The addresses of a list, up to the first one that is not parsed. -/
def parseAddresses (getaddrinfo : Option CString → Option SockaddrStorage) :
    List CString → Except Fault (Option (List SockAclListEntry))
  | [] => .ok (some [])
  | addr :: addrs => do
    match ← parseCIDR getaddrinfo addr with
    | none => return none
    | some e => return (← parseAddresses getaddrinfo addrs).map (e :: ·)

/-- A list of addresses: stripped, cut and parsed. -/
def parseList (getaddrinfo : Option CString → Option SockaddrStorage) (garbage : Nat → CChar)
    (list : CString) : Except Fault (Option (List SockAclListEntry)) := do
  let s ← UtilStripWhite list
  let addrs ← Util.splitString (s.read garbage) 44
  parseAddresses getaddrinfo addrs

/-- The allow list, if there is one. -/
def parseAllow (getaddrinfo : Option CString → Option SockaddrStorage) (garbage : Nat → CChar) :
    Option CString → Except Fault (Option (List SockAclListEntry))
  | none => .ok (some [])
  | some list => parseList getaddrinfo garbage list

/-- The deny list, if there is one, or `ALL`. -/
def parseDeny (getaddrinfo : Option CString → Option SockaddrStorage) (garbage : Nat → CChar) :
    Option CString → Except Fault (Option (Bool × List SockAclListEntry))
  | none => .ok (some (false, []))
  | some list =>
    if list = cstr "ALL" then .ok (some (true, []))
    else do return (← parseList getaddrinfo garbage list).map fun deny => (false, deny)

/-- `SocketGenACL`; `none` is `FAIL`, and `some none` no list. -/
def SocketGenACL (getaddrinfo : Option CString → Option SockaddrStorage)
    (allowGarbage denyGarbage : Nat → CChar) (allowList denyList : Option CString) :
    Except Fault (Option (Option SockAclList)) := do
  if allowList.isNone ∧ denyList.isNone then return some none
  match ← parseAllow getaddrinfo allowGarbage allowList with
  | none => return none
  | some allow =>
    match ← parseDeny getaddrinfo denyGarbage denyList with
    | none => return none
    | some (denyAll, deny) => return some (some ⟨SH_MAGIC, denyAll, deny, allow, rfl⟩)

/-- The loop over a list of entries; it ends at the first match. -/
def checkEntries (clientAddr : SockaddrStorage) :
    Bool → List SockAclListEntry → Except Fault Bool
  | found, [] => .ok found
  | found, e :: rest =>
    if found then .ok found
    else do
      ASSERT_FAIL (SE_MAGIC == e.magic)
      checkEntries clientAddr (found || sameNet clientAddr e.check e.mask) rest

/-- `SocketCheckACL`. -/
def SocketCheckACL (acl : Option SockAclList) (clientAddr : SockaddrStorage) :
    Except Fault PassFail :=
  match acl with
  | none => .ok .PASS
  | some al => do
    ASSERT_FAIL (SH_MAGIC == al.magic)
    let deny ← checkEntries clientAddr false al.denyHead
    let allow ← checkEntries clientAddr false al.allowHead
    if !deny && !al.denyAll && !allow then return .PASS
    else if allow then return .PASS
    else return .FAIL

/-- The lists are accepted. -/
def AcceptsLists (getaddrinfo : Option CString → Option SockaddrStorage)
    (allowGarbage denyGarbage : Nat → CChar) (allowList denyList : Option CString) : Prop :=
  ∃ acl, SocketGenACL getaddrinfo allowGarbage denyGarbage allowList denyList = .ok (some acl)

/-- White space is taken out of a string, and does not matter in a list of
addresses. -/
structure IgnoresWhite (orig : CString) : Prop where
  strips : StripsWhite orig
  allow : ∀ getaddrinfo allowGarbage denyGarbage denyList,
    AcceptsLists getaddrinfo allowGarbage denyGarbage (some orig) denyList ↔
      AcceptsLists getaddrinfo allowGarbage denyGarbage (some (stripped orig)) denyList
  deny : ∀ getaddrinfo allowGarbage denyGarbage allowList,
    AcceptsLists getaddrinfo allowGarbage denyGarbage allowList (some orig) ↔
      AcceptsLists getaddrinfo allowGarbage denyGarbage allowList (some (stripped orig))

/-! ## What the stripped array holds -/

/-- What a cell holds when a part of the string has been read. The first
one is written before the loop. -/
def cellAt (read : CString) (i : Nat) : Option CChar :=
  if read[i]?.any (!isWhite ·) then read[i]? else if i = 0 then some 0 else none

/-- A part of the string has been read. -/
structure StripScan.Holds (s : StripScan) (read : CString) : Prop where
  j : s.j = read.length
  room : s.j + 2 ≤ s.new.length
  cells : ∀ i < s.new.length, s.new[i]? = some (cellAt read i)

theorem cellAt_fresh {read : CString} {i : Nat} (h : read.length ≤ i) :
    cellAt read i = if i = 0 then some 0 else none := by
  unfold cellAt
  rw [List.getElem?_eq_none_iff.mpr h]
  rfl

/-- White space leaves the cells as they are. -/
theorem cellAt_white {c : CChar} (hc : isWhite c = true) (read : CString) (i : Nat) :
    cellAt (read ++ [c]) i = cellAt read i := by
  rcases Nat.lt_trichotomy i read.length with hi | rfl | hi
  · rw [cellAt, cellAt, List.getElem?_append_left hi]
  · rw [cellAt_fresh (Nat.le_refl _), cellAt, List.getElem?_concat_length]
    simp [hc]
  · rw [cellAt_fresh (Nat.le_of_lt hi), cellAt_fresh]
    rw [List.length_append]
    exact hi

theorem cellAt_concat {c : CChar} (hc : isWhite c = false) (read : CString) (i : Nat) :
    cellAt (read ++ [c]) i = if i = read.length then some c else cellAt read i := by
  rcases Nat.lt_trichotomy i read.length with hi | rfl | hi
  · rw [if_neg (Nat.ne_of_lt hi), cellAt, cellAt, List.getElem?_append_left hi]
  · rw [if_pos rfl, cellAt, List.getElem?_concat_length]
    simp [hc]
  · rw [if_neg (Nat.ne_of_gt hi), cellAt_fresh (Nat.le_of_lt hi), cellAt_fresh]
    rw [List.length_append]
    exact hi

theorem StripScan.grow_holds {s : StripScan} {read : CString} (h : s.Holds read) :
    s.grow.Holds read ∧ s.grow.j + 3 ≤ s.grow.new.length := by
  have hroom := h.room
  unfold StripScan.grow
  split
  · refine ⟨⟨h.j, ?_, ?_⟩, ?_⟩
    · show s.j + 2 ≤ (s.new ++ List.replicate s.new.length none).length
      rw [List.length_append]
      omega
    · intro i hi
      by_cases hlt : i < s.new.length
      · rw [List.getElem?_append_left hlt]
        exact h.cells i hlt
      · have hpos : ¬ i = 0 := by omega
        have hread : read.length ≤ i := by
          have hj := h.j
          omega
        rw [List.length_append, List.length_replicate] at hi
        rw [List.getElem?_append_right (by omega), cellAt_fresh hread, if_neg hpos,
          List.getElem?_replicate_of_lt (by omega)]
    · simp only [List.length_append, List.length_replicate]
      omega
  · exact ⟨h, by omega⟩

theorem putCell_holds {new : Cells} {j : Nat} (h : j < new.length) (c : CChar) :
    ∃ new', putCell new j c = .ok new' ∧ new'.length = new.length ∧ new'[j]? = some (some c) ∧
      ∀ i, i ≠ j → new'[i]? = new[i]? := by
  refine ⟨new.set j (some c), if_pos h, List.length_set, ?_, ?_⟩
  · simp [h]
  · intro i hi
    exact List.getElem?_set_ne (Ne.symm hi)

/-- A turn reads a character, inside the array. -/
theorem stripTurn_holds {s : StripScan} {read : CString} (h : s.Holds read) (c : CChar) :
    ∃ s', stripTurn s c = .ok s' ∧ s'.Holds (read ++ [c]) := by
  obtain ⟨hgrown, hroom⟩ := s.grow_holds h
  have hj := hgrown.j
  unfold stripTurn
  cases hc : isWhite c with
  | true =>
    refine ⟨_, rfl, ?_, ?_, ?_⟩
    · simp [hj]
    · show s.grow.j + 1 + 2 ≤ s.grow.new.length
      omega
    · intro i hi
      rw [cellAt_white hc]
      exact hgrown.cells i hi
  | false =>
    obtain ⟨new, hput, hlen, hcell, hothers⟩ :=
      putCell_holds (show s.grow.j < s.grow.new.length by omega) c
    refine ⟨⟨new, s.grow.j + 1⟩, ?_, ?_, ?_, ?_⟩
    · simp only [hput]
      rfl
    · simp [hj]
    · show s.grow.j + 1 + 2 ≤ new.length
      omega
    · intro i hi
      rw [cellAt_concat hc]
      by_cases hij : i = read.length
      · rw [if_pos hij, hij, ← hj]
        exact hcell
      · rw [if_neg hij, hothers i (hj ▸ hij)]
        exact hgrown.cells i (hlen ▸ hi)

theorem foldlM_stripTurn_holds (rest : CString) {s : StripScan} {read : CString}
    (h : s.Holds read) :
    ∃ s', rest.foldlM stripTurn s = .ok s' ∧ s'.Holds (read ++ rest) := by
  induction rest generalizing s read with
  | nil => exact ⟨s, rfl, by rwa [List.append_nil]⟩
  | cons c rest ih =>
    obtain ⟨s₁, hturn, h₁⟩ := stripTurn_holds h c
    obtain ⟨s₂, hrest, h₂⟩ := ih h₁
    refine ⟨s₂, ?_, ?_⟩
    · rw [List.foldlM_cons, hturn]
      exact hrest
    · rwa [List.append_assoc, List.singleton_append] at h₂

/-- The array of a string: a cell for each character, and a NUL. -/
theorem UtilStripWhite_cells (orig : CString) : ∃ new, UtilStripWhite orig = .ok new ∧
    (∀ i < orig.length, new[i]? = some (cellAt orig i)) ∧ new[orig.length]? = some (some 0) := by
  have hstart : StripScan.Holds ⟨some 0 :: List.replicate 63 none, 0⟩ [] := by
    refine ⟨rfl, by simp, ?_⟩
    intro i hi
    rw [cellAt_fresh (Nat.zero_le i)]
    cases i with
    | zero => rfl
    | succ i =>
      rw [List.length_cons, List.length_replicate] at hi
      rw [List.getElem?_cons_succ, List.getElem?_replicate_of_lt (by omega)]
      rfl
  obtain ⟨s, hscan, hs⟩ := foldlM_stripTurn_holds orig hstart
  rw [List.nil_append] at hs
  have hroom := hs.room
  have hj := hs.j
  obtain ⟨new, hput, hlen, hcell, hothers⟩ := putCell_holds (show s.j < s.new.length by omega) 0
  refine ⟨new, ?_, ?_, hj ▸ hcell⟩
  · have hrun : UtilStripWhite orig = (do
        let s ← orig.foldlM stripTurn ⟨some 0 :: List.replicate 63 none, 0⟩
        putCell s.new s.j 0) := rfl
    rw [hrun, hscan]
    exact hput
  · intro i hi
    rw [hothers i (by omega)]
    exact hs.cells i (by omega)

/-! ## Which strings are stripped -/

theorem stripped_of_none {orig : CString} (h : ∀ c ∈ orig, isWhite c = false) :
    stripped orig = orig := by
  apply List.filter_eq_self.mpr
  intro c hc
  simp [h c hc]

theorem stripped_of_all {orig : CString} (h : ∀ c ∈ orig, isWhite c = true) :
    stripped orig = [] := by
  apply List.filter_eq_nil_iff.mpr
  intro c hc
  simp [h c hc]

/-- With nothing to strip, all the cells are written. -/
theorem stripsWhite_of_none {orig : CString} (h0 : 0 ∉ orig)
    (h : ∀ c ∈ orig, isWhite c = false) : StripsWhite orig := by
  obtain ⟨new, hnew, hcells, hend⟩ := UtilStripWhite_cells orig
  refine ⟨new, hnew, ?_⟩
  rw [stripped_of_none h]
  refine stringAt_iff.mpr ⟨h0, ?_, hend⟩
  intro i hi
  have hc := h orig[i] (List.getElem_mem hi)
  rw [hcells i hi, cellAt, List.getElem?_eq_getElem hi]
  simp [hc]

/-- With nothing to keep, the NUL from before the loop is left. -/
theorem stripsWhite_of_all {orig : CString} (h : ∀ c ∈ orig, isWhite c = true) :
    StripsWhite orig := by
  obtain ⟨new, hnew, hcells, hend⟩ := UtilStripWhite_cells orig
  refine ⟨new, hnew, ?_⟩
  rw [stripped_of_all h]
  refine stringAt_iff.mpr ⟨List.not_mem_nil, fun i hi => absurd hi (Nat.not_lt_zero i), ?_⟩
  cases orig with
  | nil => exact hend
  | cons c orig =>
    show new[0]? = some (some 0)
    rw [hcells 0 (Nat.succ_pos _), cellAt]
    simp [h c List.mem_cons_self]

/-- A string with a gap behind some characters has not been written. -/
theorem not_written_of_gap {new : Cells} {s : CString} {p : Nat} (hp : p ≤ s.length)
    (hgap : new[p]? = some none) : stringAt new ≠ some s := by
  intro h
  obtain ⟨-, hcells, hend⟩ := stringAt_iff.mp h
  rcases Nat.lt_or_eq_of_le hp with hlt | rfl
  · have hcell := hcells p hlt
    rw [hgap, List.getElem?_eq_getElem hlt] at hcell
    simp at hcell
  · rw [hgap] at hend
    simp at hend

/-- The first white space of a string. -/
theorem first_white {orig : CString} {white : CChar} (hwhite : white ∈ orig)
    (hw : isWhite white = true) : ∃ pre w rest, orig = pre ++ w :: rest ∧
      (∀ d ∈ pre, isWhite d = false) ∧ isWhite w = true := by
  have hexists : ∃ d ∈ orig, isWhite d = true := ⟨white, hwhite, hw⟩
  obtain ⟨w, hfind⟩ := Option.isSome_iff_exists.mp (List.find?_isSome.mpr hexists)
  obtain ⟨hw', pre, rest, hsplit, hpre⟩ := List.find?_eq_some_iff_append.mp hfind
  exact ⟨pre, w, rest, hsplit, fun d hd => by simpa using hpre d hd, hw'⟩

/-- White space in front of what is kept, or behind it, is not stripped. -/
theorem not_stripsWhite {orig : CString} {kept white : CChar} (hkept : kept ∈ orig)
    (hk : isWhite kept = false) (hwhite : white ∈ orig) (hw : isWhite white = true) :
    ¬ StripsWhite orig := by
  rintro ⟨new, hnew, hstring⟩
  obtain ⟨new', hnew', hcells, -⟩ := UtilStripWhite_cells orig
  obtain rfl : new = new' := by
    rw [hnew] at hnew'
    exact Except.ok.inj hnew'
  obtain ⟨pre, w, rest, rfl, hpre, hfound⟩ := first_white hwhite hw
  have hcell := hcells pre.length (by simp)
  cases pre with
  | nil =>
    -- the NUL from before the loop ends the result
    have hfirst : new[0]? = some (some 0) := by
      simpa [cellAt, hfound] using hcell
    obtain ⟨hnot, hwritten, -⟩ := stringAt_iff.mp hstring
    have hpos : 0 < (stripped ([] ++ w :: rest)).length :=
      List.length_pos_of_mem (List.mem_filter.mpr ⟨hkept, by simp [hk]⟩)
    rw [hwritten 0 hpos, List.getElem?_eq_getElem hpos] at hfirst
    simp only [Option.some.injEq] at hfirst
    exact hnot (hfirst ▸ List.getElem_mem hpos)
  | cons c pre =>
    -- the first white space leaves a gap
    have hgap : new[(c :: pre).length]? = some none := by
      simpa [cellAt, hfound] using hcell
    refine not_written_of_gap ?_ hgap hstring
    have hsame := stripped_of_none hpre
    unfold stripped at hsame ⊢
    rw [List.filter_append, List.length_append, hsame]
    exact Nat.le_add_right _ _

/-- What has been written does not depend on the allocator. -/
theorem read_of_stringAt {new : Cells} {s : CString} (h : stringAt new = some s)
    (garbage : Nat → CChar) : new.read garbage = s := by
  induction new generalizing s garbage with
  | nil => cases h
  | cons cell new ih =>
    cases cell with
    | none => cases h
    | some c =>
      rw [stringAt] at h
      simp only [Cells.read, cutNul, List.mapIdx_cons, Option.getD_some, List.takeWhile_cons]
      by_cases hc : c = 0
      · rw [if_pos hc] at h
        simp [hc, Option.some.inj h]
      · rw [if_neg hc] at h
        obtain ⟨s', hs', rfl⟩ := Option.map_eq_some_iff.mp h
        have hrest := ih hs' fun i => garbage (i + 1)
        simp only [Cells.read, cutNul] at hrest
        rw [if_pos (decide_eq_true hc), hrest]

theorem parseList_of_strips {list : CString} (h : StripsWhite list)
    (getaddrinfo : Option CString → Option SockaddrStorage) (garbage : Nat → CChar) :
    parseList getaddrinfo garbage list =
      parseAddresses getaddrinfo (Lib.words 44 (stripped list)) := by
  obtain ⟨new, hnew, hstring⟩ := h
  unfold parseList
  rw [hnew]
  show (Util.splitString (new.read garbage) 44 >>= parseAddresses getaddrinfo) = _
  rw [read_of_stringAt hstring, Util.splitString_eq]
  rfl

/-- A list that is empty but for white space is parsed as an empty one. -/
theorem ignoresWhite_of_all {orig : CString} (h : ∀ c ∈ orig, isWhite c = true) :
    IgnoresWhite orig := by
  have hstrips := stripsWhite_of_all h
  have hempty : StripsWhite [] := stripsWhite_of_all fun c hc => absurd hc List.not_mem_nil
  have hlist : ∀ getaddrinfo garbage,
      parseList getaddrinfo garbage orig = parseList getaddrinfo garbage [] := by
    intro getaddrinfo garbage
    rw [parseList_of_strips hstrips, parseList_of_strips hempty, stripped_of_all h]
    rfl
  have hall : ¬ orig = cstr "ALL" := by
    rintro rfl
    exact absurd (h 65 (by decide)) (by decide)
  have hnil : ¬ ([] : CString) = cstr "ALL" := by decide
  refine ⟨hstrips, ?_, ?_⟩
  · intro getaddrinfo allowGarbage denyGarbage denyList
    simp only [AcceptsLists, SocketGenACL, parseAllow, hlist, stripped_of_all h, Option.isNone_some]
  · intro getaddrinfo allowGarbage denyGarbage allowList
    simp only [AcceptsLists, SocketGenACL, parseDeny, hlist, stripped_of_all h, hall, hnil, if_false,
      Option.isNone_some]

/-- **White space is ignored exactly in a string** that has none, or has
nothing else. -/
theorem ignoresWhite_iff {orig : CString} (h0 : 0 ∉ orig) : IgnoresWhite orig ↔
    (∀ c ∈ orig, isWhite c = false) ∨ (∀ c ∈ orig, isWhite c = true) := by
  constructor
  · rintro ⟨hstrips, -, -⟩
    by_cases hsome : ∃ white ∈ orig, isWhite white = true
    · obtain ⟨white, hwhite, hw⟩ := hsome
      right
      intro c hc
      cases hk : isWhite c with
      | true => rfl
      | false => exact absurd hstrips (not_stripsWhite hc hk hwhite hw)
    · left
      intro c hc
      cases hw : isWhite c with
      | true => exact absurd ⟨c, hc, hw⟩ hsome
      | false => rfl
  · rintro (hnone | hall)
    · have hsame := stripped_of_none hnone
      refine ⟨stripsWhite_of_none h0 hnone, ?_, ?_⟩
      · intro getaddrinfo allowGarbage denyGarbage denyList
        rw [hsame]
      · intro getaddrinfo allowGarbage denyGarbage allowList
        rw [hsame]
    · exact ignoresWhite_of_all hall

/-- Two addresses without a blank. -/
theorem ignoresWhite_loopback : IgnoresWhite (cstr "127.0.0.1,::1") := by
  have hnone : (cstr "127.0.0.1,::1").all (fun c => isWhite c == false) = true := by decide
  exact (ignoresWhite_iff (by decide)).mpr
    (.inl fun c hc => beq_iff_eq.mp (List.all_eq_true.mp hnone c hc))

/-- Two addresses with a blank behind the comma. -/
theorem ignoresWhite_fails : ¬ ∀ orig : CString, 0 ∉ orig → IgnoresWhite orig := by
  intro h
  have hlist := (h (cstr "127.0.0.1, ::1") (by decide)).strips
  have hdigit : (49 : CChar) ∈ cstr "127.0.0.1, ::1" := by decide
  have hblank : (32 : CChar) ∈ cstr "127.0.0.1, ::1" := by decide
  exact not_stripsWhite hdigit rfl hblank rfl hlist

/-! ## The decision -/

/-- The entry is for a net that the address is in. -/
def SockAclListEntry.Matches (e : SockAclListEntry) (clientAddr : SockaddrStorage) : Prop :=
  sameNet clientAddr e.check e.mask = true

/-- The allow list; an absent access list has no entries. -/
def allowEntries (acl : Option SockAclList) : List SockAclListEntry :=
  (acl.map SockAclList.allowHead).getD []

/-- The deny list. -/
def denyEntries (acl : Option SockAclList) : List SockAclListEntry :=
  (acl.map SockAclList.denyHead).getD []

/-- The deny list is `ALL`. -/
def deniesAll (acl : Option SockAclList) : Prop := ∃ al, acl = some al ∧ al.denyAll = true

/-- Who is let in, and how that depends on the lists. -/
structure DecidesAccess (clientAddr : SockaddrStorage) : Prop where
  /-- No assertion fails. -/
  answers : ∀ acl, ∃ res, SocketCheckACL acl clientAddr = .ok res
  accepts : ∀ acl, SocketCheckACL acl clientAddr = .ok .PASS ↔ acl = none ∨
    (∃ e ∈ allowEntries acl, e.Matches clientAddr) ∨
    (¬ deniesAll acl ∧ ∀ e ∈ denyEntries acl, ¬ e.Matches clientAddr)
  /-- The order and the repetition of entries do not matter. -/
  entries : ∀ acl acl', (deniesAll acl ↔ deniesAll acl') →
    (∀ e, e ∈ allowEntries acl ↔ e ∈ allowEntries acl') →
    (∀ e, e ∈ denyEntries acl ↔ e ∈ denyEntries acl') →
    SocketCheckACL acl clientAddr = SocketCheckACL acl' clientAddr
  /-- More allow entries do not keep anyone out. -/
  allow_mono : ∀ acl acl', (deniesAll acl ↔ deniesAll acl') →
    allowEntries acl ⊆ allowEntries acl' →
    (∀ e, e ∈ denyEntries acl ↔ e ∈ denyEntries acl') →
    SocketCheckACL acl clientAddr = .ok .PASS → SocketCheckACL acl' clientAddr = .ok .PASS
  /-- More deny entries do not let anyone in. -/
  deny_mono : ∀ acl acl', (deniesAll acl ↔ deniesAll acl') →
    (∀ e, e ∈ allowEntries acl ↔ e ∈ allowEntries acl') →
    denyEntries acl ⊆ denyEntries acl' →
    SocketCheckACL acl clientAddr = .ok .FAIL → SocketCheckACL acl' clientAddr = .ok .FAIL

/-- The loop comes to its end, and finds a match if there is one. -/
theorem checkEntries_eq (clientAddr : SockaddrStorage) (found : Bool)
    (l : List SockAclListEntry) :
    ∃ found', checkEntries clientAddr found l = .ok found' ∧
      (found' = true ↔ found = true ∨ ∃ e ∈ l, e.Matches clientAddr) := by
  induction l generalizing found with
  | nil => exact ⟨found, rfl, by simp⟩
  | cons e l ih =>
    cases found with
    | true => exact ⟨true, rfl, by simp⟩
    | false =>
      obtain ⟨found', hrest, hfound'⟩ := ih (false || sameNet clientAddr e.check e.mask)
      refine ⟨found', ?_, ?_⟩
      · rw [checkEntries, e.isEntry]
        exact hrest
      · rw [hfound']
        simp [SockAclListEntry.Matches]

/-- There is an answer: a client is let in by an allow entry, or for want
of a deny entry. -/
theorem SocketCheckACL_eq (acl : Option SockAclList) (clientAddr : SockaddrStorage) :
    ∃ res, SocketCheckACL acl clientAddr = .ok res ∧
      (res = .PASS ↔ (∃ e ∈ allowEntries acl, e.Matches clientAddr) ∨
        (¬ deniesAll acl ∧ ∀ e ∈ denyEntries acl, ¬ e.Matches clientAddr)) := by
  cases acl with
  | none => exact ⟨.PASS, rfl, by simp [deniesAll, denyEntries]⟩
  | some al =>
    obtain ⟨deny, hdenyRun, hdeny⟩ := checkEntries_eq clientAddr false al.denyHead
    obtain ⟨allow, hallowRun, hallow⟩ := checkEntries_eq clientAddr false al.allowHead
    simp only [Bool.false_eq_true, false_or] at hallow hdeny
    have hall : deniesAll (some al) ↔ al.denyAll = true := by simp [deniesAll]
    have hnone : (∀ e ∈ al.denyHead, ¬ e.Matches clientAddr) ↔ deny = false := by
      rw [← Bool.not_eq_true, hdeny]
      exact (not_exists.trans (forall_congr' fun e => not_and)).symm
    have hrun : SocketCheckACL (some al) clientAddr =
        .ok (if (!deny && !al.denyAll) || allow then .PASS else .FAIL) := by
      simp only [SocketCheckACL, al.isList, hdenyRun, hallowRun, beq_self_eq_true,
        ASSERT_FAIL_true, ok_bind]
      cases allow <;> cases deny <;> cases al.denyAll <;> rfl
    refine ⟨_, hrun, ?_⟩
    show _ ↔ (∃ e ∈ al.allowHead, e.Matches clientAddr) ∨
      (¬ deniesAll (some al) ∧ ∀ e ∈ al.denyHead, ¬ e.Matches clientAddr)
    rw [hall, hnone, ← hallow]
    cases allow <;> cases deny <;> cases al.denyAll <;> simp

theorem SocketCheckACL_pass (acl : Option SockAclList) (clientAddr : SockaddrStorage) :
    SocketCheckACL acl clientAddr = .ok .PASS ↔ (∃ e ∈ allowEntries acl, e.Matches clientAddr) ∨
      (¬ deniesAll acl ∧ ∀ e ∈ denyEntries acl, ¬ e.Matches clientAddr) := by
  obtain ⟨res, hrun, hres⟩ := SocketCheckACL_eq acl clientAddr
  rw [hrun, Except.ok.injEq]
  exact hres

theorem PassFail.fail_iff {a : PassFail} : a = .FAIL ↔ ¬ a = .PASS := by
  cases a <;> simp

/-- Who is not let in is kept out. -/
theorem SocketCheckACL_fail_iff (acl : Option SockAclList) (clientAddr : SockaddrStorage) :
    SocketCheckACL acl clientAddr = .ok .FAIL ↔ ¬ SocketCheckACL acl clientAddr = .ok .PASS := by
  obtain ⟨res, hrun, -⟩ := SocketCheckACL_eq acl clientAddr
  rw [hrun, Except.ok.injEq, Except.ok.injEq]
  exact PassFail.fail_iff

/-- **The decision on a client**: it is let in exactly if there are no
lists, an allow entry matches, or neither `ALL` nor a deny entry keeps it
out. -/
theorem SocketCheckACL_decides (clientAddr : SockaddrStorage) : DecidesAccess clientAddr where
  answers := by
    intro acl
    obtain ⟨res, hrun, -⟩ := SocketCheckACL_eq acl clientAddr
    exact ⟨res, hrun⟩
  accepts := by
    intro acl
    rw [SocketCheckACL_pass]
    constructor
    · exact .inr
    · rintro (rfl | h)
      · exact .inr ⟨by simp [deniesAll], by simp [denyEntries]⟩
      · exact h
  entries := by
    intro acl acl' hall hallow hdeny
    have hpass : SocketCheckACL acl clientAddr = .ok .PASS ↔
        SocketCheckACL acl' clientAddr = .ok .PASS := by
      rw [SocketCheckACL_pass, SocketCheckACL_pass]
      simp only [hall, hallow, hdeny]
    by_cases hin : SocketCheckACL acl clientAddr = .ok .PASS
    · rw [hin, hpass.mp hin]
    · rw [(SocketCheckACL_fail_iff acl clientAddr).mpr hin,
        (SocketCheckACL_fail_iff acl' clientAddr).mpr (mt hpass.mpr hin)]
  allow_mono := by
    intro acl acl' hall hallow hdeny h
    rw [SocketCheckACL_pass] at h ⊢
    rcases h with ⟨e, he, hmatch⟩ | ⟨hnot, hnone⟩
    · exact .inl ⟨e, hallow he, hmatch⟩
    · exact .inr ⟨mt hall.mpr hnot, fun e he => hnone e ((hdeny e).mpr he)⟩
  deny_mono := by
    intro acl acl' hall hallow hdeny h
    rw [SocketCheckACL_fail_iff, SocketCheckACL_pass] at h ⊢
    intro h'
    apply h
    rcases h' with ⟨e, he, hmatch⟩ | ⟨hnot, hnone⟩
    · exact .inl ⟨e, (hallow e).mpr he, hmatch⟩
    · exact .inr ⟨mt hall.mp hnot, fun e he => hnone e (hdeny he)⟩

end XplEvent.Control
