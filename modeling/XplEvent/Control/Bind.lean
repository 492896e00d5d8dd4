import XplEvent.Control.Access

/-!
# Bind addresses

The daemon listens on the addresses of a list of names, or on the wildcard
address. `SocketCreateMultiple` cuts the list at its commas, and
`SocketCreate` gives the sockets for the addresses of a name to a callback.

Of the two last parameters of `SocketCreate`, the user object comes first.
`SocketCreateMultiple` passes the callback first for an element of the list,
and no user object for the wildcard address, so a list is bound as it
should be for callers only whose user object is the callback
(`bindsRight_iff`).
-/

namespace XplEvent.Control

/-! ## The host -/

/-- A `void *`. The address of a function is passed as one as well. -/
abbrev Ptr := Nat

abbrev NULL : Ptr := 0

/-- `struct addrinfo`. `ai_addrlen` is the length of `ai_addr`. -/
structure AddrInfo where
  ai_family : Nat
  ai_socktype : Nat
  ai_protocol : Nat
  ai_addr : CString

/-- The hints for `getaddrinfo`. -/
structure Hints where
  ai_family : Nat
  ai_socktype : Nat
  ai_flags : Nat

def AI_PASSIVE : Nat := 1
def SOCK_NONBLOCK : Nat := 0x800
def SOCK_CLOEXEC : Nat := 0x80000

/-- A call of a callback: what is at an address is called with arguments. -/
structure Call where
  callee : Ptr
  sock : Nat
  addr : CString
  addrlen : Nat
  family : Nat
  socktype : Nat
  userObj : Ptr

/-- What the host answers, after the callbacks so far. -/
structure Host where
  /-- The value of `getaddrinfo` and the list, if it is set. -/
  getaddrinfo : Option CString → CString → Hints → Int × Option (List AddrInfo)
  /-- The descriptor from `socket`, or -1. -/
  socket : List Call → Nat → Nat → Nat → Option Nat
  /-- What the last call has returned. -/
  returns : List Call → Bool

/-! ## Creating sockets -/

section

variable (h : Host) (service : Option CString) (family socktype : Nat)

/-- The call for an address. -/
def callFor (p : AddrInfo) (sock : Nat) (userObj addsock : Ptr) : Call :=
  ⟨addsock, sock, p.ai_addr, p.ai_addr.length, p.ai_family, p.ai_socktype, userObj⟩

/-- The socket for an address. -/
def socketFor (calls : List Call) (p : AddrInfo) : Option Nat :=
  h.socket calls p.ai_family (p.ai_socktype ||| SOCK_CLOEXEC ||| SOCK_NONBLOCK) p.ai_protocol

/-- The loop over the addresses. -/
def traverse (userObj addsock : Ptr) :
    List AddrInfo → (sockcount : Nat) → List Call → Nat × List Call
  | [], sockcount, calls => (sockcount, calls)
  | p :: list, sockcount, calls =>
    match socketFor h calls p with
    | none => traverse userObj addsock list sockcount calls
    | some sock =>
      let calls := calls ++ [callFor p sock userObj addsock]
      if h.returns calls then traverse userObj addsock list (sockcount + 1) calls
      else (sockcount + 1, calls)

/-- The hints for a name. -/
def hintsFor (bindaddr : Option CString) : Hints :=
  ⟨family, socktype, if bindaddr.isNone then AI_PASSIVE else 0⟩

/-- `SocketCreate`. -/
def SocketCreate (bindaddr service : Option CString) (family socktype : Nat)
    (userObj addsock : Ptr) (calls : List Call) : Except Fault (PassFail × List Call) := do
  ASSERT_FAIL service.isSome
  ASSERT_FAIL (addsock ≠ NULL)
  let (res, list) := h.getaddrinfo bindaddr (service.getD []) (hintsFor family socktype bindaddr)
  if res = -1 then return (.FAIL, calls)
  match list with
  | none => .error .nullDeref
  | some list =>
    let (sockcount, calls) := traverse h userObj addsock list 0 calls
    if sockcount = 0 then return (.FAIL, calls)
    return (.PASS, calls)

/-- The loop over the elements of the list. -/
def createEach (userObj addsock : Ptr) :
    List CString → List Call → Except Fault (PassFail × List Call)
  | [], calls => .ok (.PASS, calls)
  | bind :: bindList, calls => do
    match ← SocketCreate h (some bind) service family socktype addsock userObj calls with
    | (.FAIL, calls) => return (.FAIL, calls)
    | (.PASS, calls) => createEach userObj addsock bindList calls

/-- The list in a bind address: it is neither missing nor `ALL`. -/
def bindListOf (bindaddr : Option CString) : Option CString :=
  bindaddr.filter (· ≠ cstr "ALL")

/-- `SocketCreateMultiple`, with a context. -/
def SocketCreateMultiple (garbage : Nat → CChar) (bindaddr service : Option CString)
    (family socktype : Nat) (userObj addsock : Ptr) (calls : List Call) :
    Except Fault (PassFail × List Call) := do
  ASSERT_FAIL service.isSome
  ASSERT_FAIL (addsock ≠ NULL)
  match bindListOf bindaddr with
  | some ba =>
    let strippedBA ← UtilStripWhite ba
    let bindList ← Util.splitString (strippedBA.read garbage) 44
    createEach h service family socktype userObj addsock bindList calls
  | none => SocketCreate h none service family socktype NULL addsock calls

end

/-! ## What is to be bound -/

/-- The sockets for addresses are given to the callback, with the user
object, until it returns `FALSE`. -/
inductive Offers (h : Host) (userObj addsock : Ptr) :
    List AddrInfo → List Call → List Call → Prop
  | done {calls} : Offers h userObj addsock [] calls calls
  | stop {p list calls sock} (opened : socketFor h calls p = some sock)
      (returned : h.returns (calls ++ [callFor p sock userObj addsock]) = false) :
      Offers h userObj addsock (p :: list) calls (calls ++ [callFor p sock userObj addsock])
  | next {p list calls calls' sock} (opened : socketFor h calls p = some sock)
      (returned : h.returns (calls ++ [callFor p sock userObj addsock]) = true)
      (rest : Offers h userObj addsock list (calls ++ [callFor p sock userObj addsock]) calls') :
      Offers h userObj addsock (p :: list) calls calls'

/-- The addresses of one name after the other. -/
inductive OffersEach (h : Host) (userObj addsock : Ptr) :
    List (List AddrInfo) → List Call → List Call → Prop
  | nil {calls} : OffersEach h userObj addsock [] calls calls
  | cons {list lists calls calls' calls''} (head : Offers h userObj addsock list calls calls')
      (tail : OffersEach h userObj addsock lists calls' calls'') :
      OffersEach h userObj addsock (list :: lists) calls calls''

/-- The names that are to be bound; `none` is the wildcard address. -/
def elements (bindaddr : Option CString) : List (Option CString) :=
  match bindListOf bindaddr with
  | none => [none]
  | some ba => (Lib.words 44 (stripped ba)).map some

/-- The addresses of a name. -/
def Host.addresses (h : Host) (service : CString) (family socktype : Nat)
    (name : Option CString) : List AddrInfo :=
  (h.getaddrinfo name service (hintsFor family socktype name)).2.getD []

/-- Names have addresses, and there are sockets. -/
structure Host.Serves (h : Host) (service : CString) (family socktype : Nat)
    (names : List (Option CString)) : Prop where
  resolves : ∀ name ∈ names, ∃ p list,
    h.getaddrinfo name service (hintsFor family socktype name) = (0, some (p :: list))
  opens : ∀ calls p, ∃ sock, socketFor h calls p = some sock

/-- The callback is called for the addresses that are to be bound. -/
def BindsRight (bindaddr : Option CString) (service : CString) (family socktype : Nat)
    (userObj addsock : Ptr) : Prop :=
  ∀ (h : Host) (garbage : Nat → CChar),
    h.Serves service family socktype (elements bindaddr) → ∃ calls,
      SocketCreateMultiple h garbage bindaddr (some service) family socktype userObj addsock [] =
        .ok (.PASS, calls) ∧
      OffersEach h userObj addsock
        ((elements bindaddr).map (h.addresses service family socktype)) [] calls

/-- Nothing but white space and commas. -/
def namesNothing (ba : CString) : Bool := ba.all fun c => isWhite c || c == 44

/-- What is passed instead of the user object and the callback does not
matter: for the wildcard address there is no user object, and for a list
the user object is the callback, or there is no name in the list. White
space does not matter if there is none, or no name, and it comes first. -/
def PassesRight (bindaddr : Option CString) (userObj addsock : Ptr) : Prop :=
  match bindListOf bindaddr with
  | none => userObj = NULL
  | some ba =>
    if namesNothing ba then (∀ c ∈ ba, isWhite c = false) ∨ ba.head?.any isWhite = true
    else (∀ c ∈ ba, isWhite c = false) ∧ userObj = addsock

/-! ## What the callbacks are called with -/

/-- The calls that are added are all calls of the callback with the user
object, and there is one if there are addresses. -/
theorem Offers.split {h : Host} {userObj addsock : Ptr} {list : List AddrInfo}
    {calls calls' : List Call} (hoffers : Offers h userObj addsock list calls calls') :
    ∃ new, calls' = calls ++ new ∧ (∀ c ∈ new, c.callee = addsock ∧ c.userObj = userObj) ∧
      (list ≠ [] → new ≠ []) := by
  induction hoffers with
  | done =>
    exact ⟨[], (List.append_nil _).symm, fun _ hc => absurd hc List.not_mem_nil,
      fun hne => absurd rfl hne⟩
  | @stop p list calls sock opened returned =>
    refine ⟨[callFor p sock userObj addsock], rfl, ?_, fun _ => List.cons_ne_nil _ _⟩
    intro c hc
    rw [List.mem_singleton.mp hc]
    exact ⟨rfl, rfl⟩
  | @next p list calls calls' sock opened returned rest ih =>
    obtain ⟨new, hcalls, hnew, -⟩ := ih
    refine ⟨callFor p sock userObj addsock :: new, ?_, ?_, fun _ => List.cons_ne_nil _ _⟩
    · rw [hcalls, List.append_assoc]
      rfl
    · intro c hc
      rcases List.mem_cons.mp hc with rfl | hc
      · exact ⟨rfl, rfl⟩
      · exact hnew c hc

theorem OffersEach.split {h : Host} {userObj addsock : Ptr} {lists : List (List AddrInfo)}
    {calls calls' : List Call} (hoffers : OffersEach h userObj addsock lists calls calls') :
    ∃ new, calls' = calls ++ new ∧ (∀ c ∈ new, c.callee = addsock ∧ c.userObj = userObj) ∧
      (lists ≠ [] → [] ∉ lists → new ≠ []) := by
  induction hoffers with
  | nil =>
    exact ⟨[], (List.append_nil _).symm, fun _ hc => absurd hc List.not_mem_nil,
      fun hne => absurd rfl hne⟩
  | @cons list lists calls calls' calls'' head tail ih =>
    obtain ⟨new, hcalls, hnew, hsome⟩ := head.split
    obtain ⟨later, hcalls', hlater, -⟩ := ih
    refine ⟨new ++ later, ?_, ?_, ?_⟩
    · rw [hcalls', hcalls, List.append_assoc]
    · intro c hc
      rcases List.mem_append.mp hc with hc | hc
      · exact hnew c hc
      · exact hlater c hc
    · intro _ hfull happend
      exact hsome (fun hempty => hfull (hempty ▸ List.mem_cons_self))
        (List.append_eq_nil_iff.mp happend).1

/-- The loop gives the sockets to its callback. -/
theorem traverse_offers {h : Host} (opens : ∀ calls p, ∃ sock, socketFor h calls p = some sock)
    (userObj addsock : Ptr) (list : List AddrInfo) (sockcount : Nat) (calls : List Call) :
    ∃ n calls', traverse h userObj addsock list sockcount calls = (sockcount + n, calls') ∧
      Offers h userObj addsock list calls calls' ∧ (list ≠ [] → n ≠ 0) := by
  induction list generalizing sockcount calls with
  | nil => exact ⟨0, calls, rfl, .done, fun hne => absurd rfl hne⟩
  | cons p list ih =>
    obtain ⟨sock, hsock⟩ := opens calls p
    cases hreturn : h.returns (calls ++ [callFor p sock userObj addsock]) with
    | false =>
      refine ⟨1, _, ?_, .stop hsock hreturn, fun _ => Nat.one_ne_zero⟩
      simp only [traverse, hsock, hreturn, Bool.false_eq_true, if_false]
    | true =>
      obtain ⟨n, calls', hrest, hoffers, -⟩ :=
        ih (sockcount + 1) (calls ++ [callFor p sock userObj addsock])
      refine ⟨n + 1, calls', ?_, .next hsock hreturn hoffers, fun _ => Nat.succ_ne_zero n⟩
      simp only [traverse, hsock, hreturn, if_true, hrest]
      rw [Nat.add_assoc, Nat.add_comm 1 n]

/-- The assertion about the callback. -/
theorem callback_given {addsock : Ptr} (h : addsock ≠ NULL) :
    ASSERT_FAIL (decide (addsock ≠ NULL)) = .ok () := by
  rw [decide_eq_true h, ASSERT_FAIL_true]

/-- `SocketCreate` offers the addresses of a name to its callback. -/
theorem SocketCreate_offers {h : Host} {service : CString} {family socktype : Nat}
    {names : List (Option CString)} (hserves : h.Serves service family socktype names)
    {name : Option CString} (hname : name ∈ names) {addsock : Ptr} (hadd : addsock ≠ NULL)
    (userObj : Ptr) (calls : List Call) : ∃ calls',
      SocketCreate h name (some service) family socktype userObj addsock calls =
        .ok (.PASS, calls') ∧
      Offers h userObj addsock (h.addresses service family socktype name) calls calls' := by
  obtain ⟨p, list, hres⟩ := hserves.resolves name hname
  obtain ⟨n, calls', htraverse, hoffers, hn⟩ :=
    traverse_offers hserves.opens userObj addsock (p :: list) 0 calls
  refine ⟨calls', ?_, ?_⟩
  · have hcount : ¬ 0 + n = 0 := by
      rw [Nat.zero_add]
      exact hn (List.cons_ne_nil p list)
    simp only [SocketCreate, Option.isSome_some, Option.getD_some, callback_given hadd, hres,
      htraverse, if_neg hcount]
    rfl
  · rw [Host.addresses, hres]
    exact hoffers

/-- Without a callback an assertion fails. -/
theorem SocketCreate_null (h : Host) (name : Option CString) (service : CString)
    (family socktype : Nat) (userObj : Ptr) (calls : List Call) :
    SocketCreate h name (some service) family socktype userObj NULL calls = .error .assertion :=
  rfl

/-- The loop over a list offers the addresses to the user object. -/
theorem createEach_offers {h : Host} {service : CString} {family socktype : Nat}
    {names : List (Option CString)} (hserves : h.Serves service family socktype names)
    {userObj : Ptr} (huser : userObj ≠ NULL) (addsock : Ptr) {bindList : List CString}
    (hnames : ∀ bind ∈ bindList, some bind ∈ names) (calls : List Call) : ∃ calls',
      createEach h (some service) family socktype userObj addsock bindList calls =
        .ok (.PASS, calls') ∧
      OffersEach h addsock userObj
        ((bindList.map some).map (h.addresses service family socktype)) calls calls' := by
  induction bindList generalizing calls with
  | nil => exact ⟨calls, rfl, .nil⟩
  | cons bind bindList ih =>
    rw [List.forall_mem_cons] at hnames
    obtain ⟨calls₁, hcreate, hoffers⟩ :=
      SocketCreate_offers hserves hnames.1 huser addsock calls
    obtain ⟨calls₂, heach, hrest⟩ := ih hnames.2 calls₁
    refine ⟨calls₂, ?_, .cons hoffers hrest⟩
    rw [createEach, hcreate, ok_bind]
    exact heach

/-- A host where every name has one address, which is the name. -/
def namingHost : Host where
  getaddrinfo name _ _ := (0, some [⟨0, 0, 0, name.getD []⟩])
  socket _ _ _ _ := some 0
  returns _ := true

theorem namingHost_serves (service : CString) (family socktype : Nat)
    (names : List (Option CString)) : namingHost.Serves service family socktype names where
  resolves _ _ := ⟨_, [], rfl⟩
  opens _ _ := ⟨0, rfl⟩

/-- There the names can be told from the calls. -/
theorem namingHost_addrs {userObj addsock : Ptr} {service : CString} {family socktype : Nat}
    {names : List (Option CString)} {calls calls' : List Call}
    (hoffers : OffersEach namingHost userObj addsock
      (names.map (namingHost.addresses service family socktype)) calls calls') :
    calls'.map Call.addr = calls.map Call.addr ++ names.map (·.getD []) := by
  induction names generalizing calls with
  | nil =>
    cases hoffers
    exact (List.append_nil _).symm
  | cons name names ih =>
    cases hoffers with
    | cons head tail =>
      cases head with
      | stop opened returned => cases returned
      | next opened returned rest =>
        cases rest
        rw [ih tail, List.map_append, List.append_assoc]
        rfl

theorem map_some_getD (bindList : List CString) :
    (bindList.map some).map (·.getD []) = bindList := by
  rw [List.map_map]
  exact List.map_id _

/-! ## The elements of a list -/

/-- The list is cut into its elements, whatever the allocator has left. -/
def FindsElements (ba : CString) : Prop :=
  ∀ garbage new, UtilStripWhite ba = .ok new →
    Lib.words 44 (new.read garbage) = Lib.words 44 (stripped ba)

/-- A run for a list. -/
theorem SocketCreateMultiple_list {h : Host} {garbage : Nat → CChar} {bindaddr : Option CString}
    {ba : CString} (hlist : bindListOf bindaddr = some ba) {new : Cells}
    (hstrip : UtilStripWhite ba = .ok new) (service : CString) (family socktype : Nat)
    (userObj : Ptr) {addsock : Ptr} (hadd : addsock ≠ NULL) (calls : List Call) :
    SocketCreateMultiple h garbage bindaddr (some service) family socktype userObj addsock calls =
      createEach h (some service) family socktype userObj addsock
        (Lib.words 44 (new.read garbage)) calls := by
  simp only [SocketCreateMultiple, Option.isSome_some, callback_given hadd, hlist, hstrip, ok_bind,
    Util.splitString_eq]
  rfl

/-- A run for the wildcard address. -/
theorem SocketCreateMultiple_wildcard {h : Host} {garbage : Nat → CChar}
    {bindaddr : Option CString} (hlist : bindListOf bindaddr = none) (service : CString)
    (family socktype : Nat) (userObj : Ptr) {addsock : Ptr} (hadd : addsock ≠ NULL)
    (calls : List Call) :
    SocketCreateMultiple h garbage bindaddr (some service) family socktype userObj addsock calls =
      SocketCreate h none (some service) family socktype NULL addsock calls := by
  simp only [SocketCreateMultiple, Option.isSome_some, callback_given hadd, hlist]
  rfl

theorem elements_wildcard {bindaddr : Option CString} (hlist : bindListOf bindaddr = none) :
    elements bindaddr = [none] := by
  rw [elements, hlist]

theorem elements_list {bindaddr : Option CString} {ba : CString}
    (hlist : bindListOf bindaddr = some ba) :
    elements bindaddr = (Lib.words 44 (stripped ba)).map some := by
  rw [elements, hlist]

/-- There is an address for each name, so there is a call if there is a name. -/
theorem Host.Serves.addresses_ne_nil {h : Host} {service : CString} {family socktype : Nat}
    {names : List (Option CString)} (hserves : h.Serves service family socktype names) :
    [] ∉ names.map (h.addresses service family socktype) := by
  intro hmem
  obtain ⟨name, hname, hempty⟩ := List.mem_map.mp hmem
  obtain ⟨p, list, hres⟩ := hserves.resolves name hname
  rw [Host.addresses, hres] at hempty
  cases hempty

/-- Offers of one callback are not offers of another. -/
theorem OffersEach.same {h : Host} {userObj addsock userObj' addsock' : Ptr}
    {lists lists' : List (List AddrInfo)} {calls : List Call}
    (hoffers : OffersEach h userObj addsock lists [] calls)
    (hoffers' : OffersEach h userObj' addsock' lists' [] calls)
    (hne : lists ≠ []) (hfull : [] ∉ lists) : userObj = userObj' ∧ addsock = addsock' := by
  obtain ⟨new, rfl, hnew, hsome⟩ := hoffers.split
  obtain ⟨new', hcalls', hnew', -⟩ := hoffers'.split
  obtain ⟨c, rest, rfl⟩ := List.exists_cons_of_ne_nil (hsome hne hfull)
  have hc := hnew c List.mem_cons_self
  have hc' : c.callee = addsock' ∧ c.userObj = userObj' :=
    hnew' c (by rw [List.nil_append] at hcalls'; exact hcalls' ▸ List.mem_cons_self)
  exact ⟨hc.2.symm.trans hc'.2, hc.1.symm.trans hc'.1⟩

/-- The wildcard address is bound without a user object. -/
theorem bindsRight_wildcard {bindaddr : Option CString} (hlist : bindListOf bindaddr = none)
    (service : CString) (family socktype : Nat) {userObj addsock : Ptr} (hadd : addsock ≠ NULL) :
    BindsRight bindaddr service family socktype userObj addsock ↔ userObj = NULL := by
  have hrun : ∀ (h : Host) (garbage : Nat → CChar),
      h.Serves service family socktype (elements bindaddr) → ∃ calls,
        SocketCreateMultiple h garbage bindaddr (some service) family socktype userObj addsock [] =
          .ok (.PASS, calls) ∧
        OffersEach h NULL addsock
          ((elements bindaddr).map (h.addresses service family socktype)) [] calls := by
    intro h garbage hserves
    rw [elements_wildcard hlist] at hserves ⊢
    obtain ⟨calls, hcreate, hoffers⟩ :=
      SocketCreate_offers hserves List.mem_cons_self hadd NULL []
    refine ⟨calls, ?_, .cons hoffers .nil⟩
    rw [SocketCreateMultiple_wildcard hlist service family socktype userObj hadd, hcreate]
  constructor
  · intro hbinds
    have hserves := namingHost_serves service family socktype (elements bindaddr)
    obtain ⟨calls, hcalls, hoffers⟩ := hbinds namingHost (fun _ => 0) hserves
    obtain ⟨calls', hcalls', hoffers'⟩ := hrun namingHost (fun _ => 0) hserves
    rw [hcalls] at hcalls'
    cases hcalls'
    refine (hoffers.same hoffers' ?_ hserves.addresses_ne_nil).1
    rw [elements_wildcard hlist]
    exact List.cons_ne_nil _ _
  · rintro rfl
    exact hrun

/-- A list is bound if its elements are found, and there is none or the
callback is the user object. -/
theorem bindsRight_list {bindaddr : Option CString} {ba : CString}
    (hlist : bindListOf bindaddr = some ba) (service : CString) (family socktype : Nat)
    {userObj addsock : Ptr} (hadd : addsock ≠ NULL) :
    BindsRight bindaddr service family socktype userObj addsock ↔
      FindsElements ba ∧ (Lib.words 44 (stripped ba) ≠ [] → userObj = addsock) := by
  constructor
  · intro hbinds
    have hserves := namingHost_serves service family socktype (elements bindaddr)
    -- the calls of a run are for the elements of the array
    have hread : ∀ garbage new, UtilStripWhite ba = .ok new → ∃ calls,
        OffersEach namingHost userObj addsock
          ((elements bindaddr).map (namingHost.addresses service family socktype)) [] calls ∧
        OffersEach namingHost addsock userObj
          (((Lib.words 44 (new.read garbage)).map some).map
            (namingHost.addresses service family socktype)) [] calls := by
      intro garbage new hstrip
      obtain ⟨calls, hcalls, hoffers⟩ := hbinds namingHost garbage hserves
      rw [SocketCreateMultiple_list hlist hstrip service family socktype userObj hadd] at hcalls
      refine ⟨calls, hoffers, ?_⟩
      cases hwords : Lib.words 44 (new.read garbage) with
      | nil =>
        rw [hwords] at hcalls
        cases hcalls
        exact .nil
      | cons bind bindList =>
        rw [hwords] at hcalls
        have huser : userObj ≠ NULL := by
          rintro rfl
          rw [createEach, SocketCreate_null] at hcalls
          cases hcalls
        obtain ⟨calls', heach, hoffers'⟩ := createEach_offers
          (namingHost_serves service family socktype ((bind :: bindList).map some)) huser addsock
          (fun _ hmem => List.mem_map_of_mem hmem) []
        rw [hcalls] at heach
        cases heach
        exact hoffers'
    have hfinds : FindsElements ba := by
      intro garbage new hstrip
      obtain ⟨calls, hoffers, hoffers'⟩ := hread garbage new hstrip
      have haddrs := (namingHost_addrs hoffers).symm.trans (namingHost_addrs hoffers')
      rw [elements_list hlist, map_some_getD, map_some_getD] at haddrs
      exact (List.append_cancel_left haddrs).symm
    refine ⟨hfinds, fun hne => ?_⟩
    obtain ⟨new, hstrip, -⟩ := UtilStripWhite_cells ba
    obtain ⟨calls, hoffers, hoffers'⟩ := hread (fun _ => 0) new hstrip
    refine (hoffers.same hoffers' ?_ hserves.addresses_ne_nil).1
    rw [elements_list hlist]
    simpa using hne
  · rintro ⟨hfinds, huser⟩ h garbage hserves
    obtain ⟨new, hstrip, -⟩ := UtilStripWhite_cells ba
    rw [SocketCreateMultiple_list hlist hstrip service family socktype userObj hadd,
      hfinds garbage new hstrip]
    rw [elements_list hlist] at hserves ⊢
    by_cases hne : Lib.words 44 (stripped ba) = []
    · rw [hne]
      exact ⟨[], rfl, .nil⟩
    · obtain rfl := huser hne
      exact createEach_offers hserves hadd userObj (fun _ hmem => List.mem_map_of_mem hmem) []

/-- A string in front of a NUL. -/
theorem cutNul_of_cells {raw s : CString} (hnul : 0 ∉ s)
    (hcells : ∀ i < s.length, raw[i]? = s[i]?) (hend : raw[s.length]? = some 0) :
    cutNul raw = s := by
  induction s generalizing raw with
  | nil =>
    obtain ⟨rest, rfl⟩ : ∃ rest, raw = 0 :: rest := by
      cases raw with
      | nil => cases hend
      | cons c rest => exact ⟨rest, by rw [Option.some.inj hend]⟩
    rfl
  | cons c s ih =>
    rw [List.mem_cons, not_or] at hnul
    cases raw with
    | nil => cases hend
    | cons d raw =>
      obtain rfl : d = c := Option.some.inj (hcells 0 (Nat.succ_pos _))
      have hrest := ih hnul.2 (fun i hi => hcells (i + 1) (Nat.succ_lt_succ hi)) hend
      have hd : decide (d ≠ 0) = true := decide_eq_true (Ne.symm hnul.1)
      rw [cutNul] at hrest ⊢
      rw [List.takeWhile_cons, if_pos hd, hrest]

/-- White space in front ends the string. -/
theorem read_of_white_first {c : CChar} {ba : CString} (hc : isWhite c = true) {new : Cells}
    (hstrip : UtilStripWhite (c :: ba) = .ok new) (garbage : Nat → CChar) :
    new.read garbage = [] := by
  obtain ⟨new', hstrip', hcells, -⟩ := UtilStripWhite_cells (c :: ba)
  obtain rfl : new = new' := Except.ok.inj (hstrip.symm.trans hstrip')
  have hfirst := hcells 0 (Nat.succ_pos _)
  have hcell : cellAt (c :: ba) 0 = some 0 := by simp [cellAt, hc]
  rw [hcell] at hfirst
  refine cutNul_of_cells List.not_mem_nil (fun i hi => absurd hi (Nat.not_lt_zero i)) ?_
  rw [List.length_nil, List.getElem?_mapIdx, hfirst]
  rfl

/-- Behind a first character that is kept, other white space is what the
allocator has left: here a space. -/
theorem read_of_white_later {c : CChar} {ba : CString} (hc : isWhite c = false)
    (hnul : 0 ∉ c :: ba) {new : Cells} (hstrip : UtilStripWhite (c :: ba) = .ok new) :
    new.read (fun _ => 32) = (c :: ba).map fun d => if isWhite d then 32 else d := by
  obtain ⟨new', hstrip', hcells, hend⟩ := UtilStripWhite_cells (c :: ba)
  obtain rfl : new = new' := Except.ok.inj (hstrip.symm.trans hstrip')
  refine cutNul_of_cells ?_ ?_ ?_
  · intro hmem
    obtain ⟨d, hd, hzero⟩ := List.mem_map.mp hmem
    split at hzero
    · cases hzero
    · exact hnul (hzero ▸ hd)
  · intro i hi
    rw [List.length_map] at hi
    rw [List.getElem?_mapIdx, hcells i hi, List.getElem?_map, List.getElem?_eq_getElem hi]
    have hcell : (cellAt (c :: ba) i).getD 32 =
        if isWhite (c :: ba)[i] = true then 32 else (c :: ba)[i] := by
      rw [cellAt, List.getElem?_eq_getElem hi]
      cases hd : isWhite (c :: ba)[i] with
      | true =>
        have hi0 : i ≠ 0 := by
          rintro rfl
          rw [List.getElem_cons_zero, hc] at hd
          cases hd
        simp [hd, hi0]
      | false => simp [hd]
    exact congrArg some hcell
  · rw [List.length_map, List.getElem?_mapIdx, hend]
    rfl

/-- The elements are found in a list without white space, and in one
without elements that begins with white space. -/
theorem findsElements_iff {ba : CString} (hnul : 0 ∉ ba) : FindsElements ba ↔
    (∀ c ∈ ba, isWhite c = false) ∨
      (Lib.words 44 (stripped ba) = [] ∧ ba.head?.any isWhite = true) := by
  constructor
  · intro hfinds
    obtain ⟨new, hstrip, -⟩ := UtilStripWhite_cells ba
    cases ba with
    | nil => exact .inl fun c hc => absurd hc List.not_mem_nil
    | cons c ba =>
      cases hc : isWhite c with
      | true =>
        have hwords := hfinds (fun _ => 32) new hstrip
        rw [read_of_white_first hc hstrip] at hwords
        exact .inr ⟨hwords.symm, hc⟩
      | false =>
        left
        intro d hd
        refine Bool.eq_false_iff.mpr fun hwhite => ?_
        -- the space of the allocator is in an element
        have hwords := congrArg List.flatten (hfinds (fun _ => 32) new hstrip)
        rw [read_of_white_later hc hnul hstrip, Lib.words_flatten, Lib.words_flatten] at hwords
        have hspace : (32 : CChar) ∈ ((c :: ba).map fun d => if isWhite d then 32 else d).filter
            (· ≠ 44) :=
          List.mem_filter.mpr ⟨List.mem_map.mpr ⟨d, hd, if_pos hwhite⟩, rfl⟩
        rw [hwords] at hspace
        have hkept := (List.mem_filter.mp (List.mem_filter.mp hspace).1).2
        cases hkept
  · rintro (hnone | ⟨hempty, hfirst⟩) garbage new hstrip
    · obtain ⟨new', hstrip', hstring⟩ := stripsWhite_of_none hnul hnone
      obtain rfl : new = new' := Except.ok.inj (hstrip.symm.trans hstrip')
      rw [read_of_stringAt hstring]
    · cases ba with
      | nil => cases hfirst
      | cons c ba =>
        rw [hempty, read_of_white_first hfirst hstrip]
        rfl

/-- A list without elements. -/
theorem words_stripped_eq_nil_iff (ba : CString) :
    Lib.words 44 (stripped ba) = [] ↔ namesNothing ba = true := by
  simp only [namesNothing, List.all_eq_true, Bool.or_eq_true, beq_iff_eq]
  rw [Lib.words_eq_nil_iff]
  constructor
  · intro h c hc
    cases hwhite : isWhite c with
    | true => exact .inl rfl
    | false => exact .inr (h c (List.mem_filter.mpr ⟨hc, by rw [hwhite]; rfl⟩))
  · intro h c hc
    obtain ⟨hmem, hkept⟩ := List.mem_filter.mp hc
    rw [Bool.not_eq_true'] at hkept
    refine (h c hmem).resolve_left ?_
    rw [hkept]
    exact Bool.false_ne_true

/-- **A list of addresses is bound as it should be exactly if** what is
passed instead of the user object and the callback does not matter, nor
what is left of white space. -/
theorem bindsRight_iff {bindaddr : Option CString} (hnul : ∀ ba ∈ bindaddr, 0 ∉ ba)
    (service : CString) (family socktype : Nat) (userObj : Ptr) {addsock : Ptr}
    (hadd : addsock ≠ NULL) :
    BindsRight bindaddr service family socktype userObj addsock ↔
      PassesRight bindaddr userObj addsock := by
  unfold PassesRight
  cases hlist : bindListOf bindaddr with
  | none => exact bindsRight_wildcard hlist service family socktype hadd
  | some ba =>
    have hmem : 0 ∉ ba := hnul ba (Option.filter_eq_some_iff.mp hlist).1
    rw [bindsRight_list hlist service family socktype hadd, findsElements_iff hmem]
    show _ ↔ if namesNothing ba then _ else _
    have hempty := words_stripped_eq_nil_iff ba
    split
    · rename_i hnone
      rw [hempty.mpr hnone]
      simp
    · rename_i hsome
      have hne : Lib.words 44 (stripped ba) ≠ [] := fun h => hsome (hempty.mp h)
      simp [hne]

/-- The wildcard address without a user object; and a list of two
addresses, where the user object is the callback. -/
theorem bindsRight_iff_all :
    (BindsRight (some (cstr "ALL")) (cstr "3865") 0 1 NULL 8 ↔
      PassesRight (some (cstr "ALL")) NULL 8) ∧
    BindsRight (some (cstr "127.0.0.1,::1")) (cstr "3865") 0 1 8 8 := by
  refine ⟨bindsRight_iff (by simp only [Option.mem_some_iff, forall_eq']; decide) _ _ _ _
    (by decide), ?_⟩
  refine (bindsRight_iff (by simp only [Option.mem_some_iff, forall_eq']; decide) _ _ _ _
    (by decide)).mpr ?_
  have hlist : bindListOf (some (cstr "127.0.0.1,::1")) = some (cstr "127.0.0.1,::1") := by decide
  have hnames : ¬ namesNothing (cstr "127.0.0.1,::1") = true := by decide
  have hnone : (cstr "127.0.0.1,::1").all (fun c => isWhite c == false) = true := by decide
  rw [PassesRight, hlist]
  show if namesNothing (cstr "127.0.0.1,::1") then _ else _
  rw [if_neg hnames]
  exact ⟨fun c hc => beq_iff_eq.mp (List.all_eq_true.mp hnone c hc), rfl⟩

/-- A list with one address and no user object: an assertion fails. -/
theorem bindsRight_loopback :
    ¬ ∀ (bindaddr : Option CString), (∀ ba ∈ bindaddr, 0 ∉ ba) →
      ∀ (service : CString) (family socktype : Nat) (userObj addsock : Ptr), addsock ≠ NULL →
        BindsRight bindaddr service family socktype userObj addsock := by
  intro h
  have hloopback := h (some (cstr "127.0.0.1"))
    (by simp only [Option.mem_some_iff, forall_eq']; decide) (cstr "3865") 0 1 NULL 8 (by decide)
  have hlist : bindListOf (some (cstr "127.0.0.1")) = some (cstr "127.0.0.1") := by decide
  have hsame := ((bindsRight_list hlist (cstr "3865") 0 1 (by decide)).mp hloopback).2
  exact absurd (hsame (by decide)) (by decide)

end XplEvent.Control
