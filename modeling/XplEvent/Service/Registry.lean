import XplEvent.Lib.ListHeader
import XplEvent.Service.InstanceId
import XplEvent.Service.Turns

/-!
# The list of services

The services of a process are cells of a doubly linked list. One that is
created goes to its end, one that is destroyed is disabled first if it is
enabled, and then taken out wherever it stands.

The list has the services that were created and not destroyed, in the order
of their creation (`Reaches.holds`), and a service is enabled if the last
call for it enabled it (`Reaches.serviceEnabled`). A call changes the
service it is for, and the links of others; of another service it changes
nothing else.
-/

namespace XplEvent.Service

open Function (update update_self update_of_ne)
open Lib (Memory)
open Wire

/-- The address of a service. -/
abbrev Addr := Nat

def XP_MAGIC : UInt32 := 0xC51A6423

def XS_MAGIC : UInt32 := 0xA68C9F24

/-- `xplService_t` without its links. -/
structure ServiceItem where
  magic : UInt32
  /-- The reference to the master object is there. -/
  xplObj : Bool
  service : XplService

/-- `xplService_t`. -/
structure ServiceCell where
  item : ServiceItem
  prev : Option Addr
  next : Option Addr

/-- `xplObj_t` with the list of services as it is in memory. -/
structure XplMemory where
  magic : UInt32
  uniqPrefix : CString
  localConnPort : Nat
  remoteIP : CString
  servHead : Option Addr
  servTail : Option Addr
  heap : Addr → Option ServiceCell
  /-- How many services have been created: the turns a walk along the
  pointers may take before it runs in a circle. -/
  created : Nat

/-- What a heartbeat says of the process. -/
def XplMemory.obj (xp : XplMemory) : XplObj := ⟨0, xp.localConnPort, xp.remoteIP, []⟩

def serviceLinks : Lib.Links Addr ServiceCell ServiceItem where
  value cell := cell.item
  prev cell := cell.prev
  next cell := cell.next
  setPrev cell p := { cell with prev := p }
  setNext cell p := { cell with next := p }
  value_setPrev _ _ := rfl
  prev_setPrev _ _ := rfl
  next_setPrev _ _ := rfl
  value_setNext _ _ := rfl
  prev_setNext _ _ := rfl
  next_setNext _ _ := rfl

/-- The ends of the list, and its cells. -/
def XplMemory.ends (xp : XplMemory) : Lib.Header Addr ServiceCell :=
  ⟨xp.servHead, xp.servTail, xp.heap⟩

def XplMemory.withEnds (xp : XplMemory) (h : Lib.Header Addr ServiceCell) : XplMemory :=
  { xp with servHead := h.head, servTail := h.tail, heap := h.heap }

/-- The service a pointer leads to. -/
def XplMemory.follow (xp : XplMemory) (p : Option Addr) : Except Fault (Addr × ServiceCell) :=
  xp.ends.follow .nullDeref p

def XplMemory.store (xp : XplMemory) (a : Addr) (cell : ServiceCell) : XplMemory :=
  { xp with heap := update xp.heap a (some cell) }

/-- `talloc_free` of a service. -/
def XplMemory.free (xp : XplMemory) (a : Addr) : XplMemory :=
  { xp with heap := update xp.heap a none }

/-! ## The functions -/

/-- A service is put at the end of the list. -/
def XplMemory.append (xp : XplMemory) (xs : Addr) : Except Fault XplMemory := do
  match xp.servHead with
  | none => return { xp with servHead := some xs, servTail := some xs }
  | some _ =>
    let (tail, last) ← xp.follow xp.servTail
    let xp := xp.store tail { last with next := some xs }
    let (_, cell) ← xp.follow (some xs)
    let xp := xp.store xs { cell with prev := xp.servTail }
    return { xp with servTail := some xs }

/-- The instance ID of a new service: the one given, or a new one. -/
def instanceIDFor (uniqPrefix : CString) (newIdent : Memory CChar 32) (rightNow : Timeval) :
    (theInstanceID : Option CString) → Except Fault CString
  | none => generateFairlyUniqueID uniqPrefix newIdent rightNow
  | some id => .ok id

/-- `XplNewService`; `xs` is the address that talloc gives. -/
def XplNewService (xp : XplMemory) (xs : Addr)
    (theVendor theDeviceID theInstanceID theVersion : Option CString)
    (newIdent : Memory CChar 32) (rightNow : Timeval) : Except Fault XplMemory := do
  ASSERT_FAIL (XP_MAGIC == xp.magic)
  ASSERT_FAIL theVendor.isSome
  ASSERT_FAIL theDeviceID.isSome
  let id ← instanceIDFor xp.uniqPrefix newIdent rightNow theInstanceID
  let service := createService (← deref theVendor) (← deref theDeviceID) id theVersion
  let xp := { xp.store xs ⟨⟨XS_MAGIC, true, service⟩, none, none⟩ with created := xp.created + 1 }
  xp.append xs

/-- The assertions about a service that is passed in. -/
def checkService (xp : XplMemory) (xs : Addr) : Except Fault Unit := do
  let (_, cell) ← xp.follow (some xs)
  ASSERT_FAIL (XS_MAGIC == cell.item.magic)
  ASSERT_FAIL cell.item.xplObj
  ASSERT_FAIL (XP_MAGIC == xp.magic)

/-- A function on the fields of a service. -/
def onCell (xp : XplMemory) (xs : Addr) (deed : XplService → Deed) :
    Except Fault (List ServiceEvent × XplMemory) := do
  let (_, cell) ← xp.follow (some xs)
  let (events, result) := deed cell.item.service
  let service ← result
  return (events, xp.store xs { cell with item := { cell.item with service := service } })

/-- `XplEnableService`. -/
def XplEnableService (xp : XplMemory) (servToEnable : Addr) (sent : Bool) :
    Except Fault (List ServiceEvent × XplMemory) := do
  checkService xp servToEnable
  onCell xp servToEnable (setServiceState xp.obj true sent)

/-- `XplDisableService`. -/
def XplDisableService (xp : XplMemory) (servToDisable : Addr) (sent : Bool) :
    Except Fault (List ServiceEvent × XplMemory) := do
  checkService xp servToDisable
  onCell xp servToDisable (setServiceState xp.obj false sent)

/-- A service is disabled if it is enabled. -/
def retire (xp : XplObj) (sent : Bool) (xs : XplService) : Deed :=
  if xs.serviceEnabled then setServiceState xp false sent xs else ([], .ok xs)

/-- A service is taken out of the list, in the same four cases as an entry
of the poller. -/
def unlinkService (xp : XplMemory) (xst : Addr) : Except Fault XplMemory :=
  (serviceLinks.remove .nullDeref xp.ends xst).map xp.withEnds

/-- `XplDestroyService`. -/
def XplDestroyService (xp : XplMemory) (servToDestroy : Addr) (sent : Bool) :
    Except Fault (Bool × List ServiceEvent × XplMemory) := do
  checkService xp servToDestroy
  match ← serviceLinks.find .nullDeref .fatal xp.heap (fun xst _ => .ok (xst == servToDestroy))
      xp.created xp.servHead with
  | none => return (false, [], xp)
  | some xst =>
    let (events, xp) ← onCell xp servToDestroy (retire xp.obj sent)
    let xp ← unlinkService xp xst
    let (_, cell) ← xp.follow (some xst)
    let xp := xp.store xst { cell with item := { cell.item with magic := 0 } }
    return (true, events, xp.free xst)

/-! ## Sequences of calls -/

/-- A call; `sent` says whether the socket takes what it sends. -/
inductive ServiceCall
  | XplNewService (xs : Addr) (theVendor theDeviceID theInstanceID theVersion : Option CString)
      (newIdent : Memory CChar 32) (rightNow : Timeval)
  | XplEnableService (servToEnable : Addr) (sent : Bool)
  | XplDisableService (servToDisable : Addr) (sent : Bool)
  | XplDestroyService (servToDestroy : Addr) (sent : Bool)

/-- The service that a call is for. -/
def ServiceCall.target : ServiceCall → Addr
  | .XplNewService xs .. => xs
  | .XplEnableService xs _ => xs
  | .XplDisableService xs _ => xs
  | .XplDestroyService xs _ => xs

/-- What happens to the service, and the memory behind the call. -/
def ServiceCall.run (xp : XplMemory) : ServiceCall → Except Fault (List ServiceEvent × XplMemory)
  | .XplNewService xs theVendor theDeviceID theInstanceID theVersion newIdent rightNow => do
    let xp ← Service.XplNewService xp xs theVendor theDeviceID theInstanceID theVersion newIdent
      rightNow
    return ([], xp)
  | .XplEnableService servToEnable sent => Service.XplEnableService xp servToEnable sent
  | .XplDisableService servToDisable sent => Service.XplDisableService xp servToDisable sent
  | .XplDestroyService servToDestroy sent => do
    let (_, events, xp) ← Service.XplDestroyService xp servToDestroy sent
    return (events, xp)

/-- A service is created at a free address; any other call is for a service
that is alive. -/
def ServiceCall.Live (xp : XplMemory) : ServiceCall → Prop
  | .XplNewService xs .. => xp.heap xs = none
  | .XplEnableService xs _ => xp.heap xs ≠ none
  | .XplDisableService xs _ => xp.heap xs ≠ none
  | .XplDestroyService xs _ => xp.heap xs ≠ none

/-- What a call makes of the services that are alive. -/
def livingAfter (living : List Addr) : ServiceCall → List Addr
  | .XplNewService xs .. => living ++ [xs]
  | .XplEnableService _ _ => living
  | .XplDisableService _ _ => living
  | .XplDestroyService xs _ => living.filter (· ≠ xs)

/-- The services created and not destroyed, in the order of creation. -/
def living (past : List ServiceCall) : List Addr := past.foldl livingAfter []

/-- What a call makes of the flag of a service: that of its own is set if it
enables it, and cleared if not. -/
def enabledAfter (xs : Addr) (on : Bool) (c : ServiceCall) : Bool :=
  if c.target = xs then
    match c with
    | .XplEnableService _ _ => true
    | _ => false
  else on

/-- The last call for the service has enabled it. -/
def enabledBy (past : List ServiceCall) (xs : Addr) : Bool := past.foldl (enabledAfter xs) false

/-- The calls since `XplInit`. -/
inductive Reaches : List ServiceCall → XplMemory → Prop
  | XplInit (uniqPrefix : CString) (localConnPort : Nat) (remoteIP : CString) :
      Reaches [] ⟨XP_MAGIC, uniqPrefix, localConnPort, remoteIP, none, none, fun _ => none, 0⟩
  | call {past : List ServiceCall} {xp xp' : XplMemory} {c : ServiceCall}
      {events : List ServiceEvent} (before : Reaches past xp) (live : c.Live xp)
      (result : c.run xp = .ok (events, xp')) : Reaches (past ++ [c]) xp'

/-! ## What a call keeps -/

/-- **The memory has a list of services**, and no others. -/
structure XplMemory.Holds (xp : XplMemory) (entries : List (Addr × ServiceItem)) : Prop where
  magic : xp.magic = XP_MAGIC
  list : serviceLinks.HeldBy xp.ends entries
  valid : ∀ e ∈ entries, e.2.magic = XS_MAGIC ∧ e.2.xplObj = true
  allocated : ∀ a, xp.heap a ≠ none → a ∈ entries.map Prod.fst
  turns : entries.length ≤ xp.created

/-- Nothing but its links changes of another service. -/
def XplMemory.Keeps (xp xp' : XplMemory) (xs : Addr) : Prop :=
  ∀ x, x ≠ xs → (xp'.heap x).map ServiceCell.item = (xp.heap x).map ServiceCell.item

/-- What a live service is in the list. -/
theorem XplMemory.Holds.entry {xp : XplMemory} {entries : List (Addr × ServiceItem)}
    (h : xp.Holds entries) {xs : Addr} {cell : ServiceCell} (hcell : xp.heap xs = some cell) :
    (xs, cell.item) ∈ entries := by
  obtain ⟨e, he, rfl⟩ := List.mem_map.mp (h.allocated xs (hcell ▸ Option.some_ne_none cell))
  obtain ⟨cell', hcell', hitem⟩ := h.list.cell he
  obtain rfl : cell' = cell := Option.some.inj (hcell'.symm.trans hcell)
  rw [show cell'.item = e.2 from hitem]
  exact he

theorem XplMemory.Holds.checkService {xp : XplMemory} {entries : List (Addr × ServiceItem)}
    (h : xp.Holds entries) {xs : Addr} {cell : ServiceCell} (hcell : xp.heap xs = some cell) :
    Service.checkService xp xs = .ok () := by
  obtain ⟨hmagic, hobj⟩ := h.valid _ (h.entry hcell)
  have hread : xp.follow (some xs) = .ok (xs, cell) := Lib.Header.follow_ok rfl hcell
  simp only at hmagic hobj
  unfold Service.checkService
  rw [hread, ok_bind]
  simp [hmagic, hobj, h.magic, ok_bind]

/-- A service that has been created is put at the end. -/
theorem XplMemory.append_links {xp : XplMemory} {entries : List (Addr × ServiceItem)}
    (h : serviceLinks.HeldBy xp.ends entries) {xs : Addr} (hxs : xp.heap xs = none)
    (item : ServiceItem) :
    ∃ h', (xp.store xs ⟨item, none, none⟩).append xs = .ok (xp.withEnds h') ∧
      serviceLinks.HeldBy h' (entries ++ [(xs, item)]) ∧
      (∀ x, x ≠ xs → (h'.heap x).map ServiceCell.item = (xp.heap x).map ServiceCell.item) := by
  obtain ⟨magic, uniqPrefix, port, remoteIP, servHead, servTail, heap, created⟩ := xp
  cases servHead with
  | none =>
    have htail : servTail = none := h.ends_eq_none.mp rfl
    subst htail
    refine ⟨⟨some xs, some xs, update heap xs (some ⟨item, none, none⟩)⟩, rfl,
      h.push_first (n := ⟨item, none, none⟩) rfl rfl, ?_⟩
    intro x hx
    exact congrArg _ (update_of_ne hx ..)
  | some b =>
    have htail : servTail ≠ none := mt h.ends_eq_none.mpr (Option.some_ne_none b)
    obtain ⟨t, rfl⟩ := Option.ne_none_iff_exists'.mp htail
    obtain ⟨last, hlast, hts, hpush⟩ := h.push hxs (n := ⟨item, some t, none⟩) rfl rfl
    let new : ServiceCell := ⟨item, some t, none⟩
    let last' : ServiceCell := { last with next := some xs }
    let xp₁ : XplMemory := ⟨magic, uniqPrefix, port, remoteIP, some b, some t,
      update heap xs (some ⟨item, none, none⟩), created⟩
    let xp₂ := xp₁.store t last'
    have hfirst : xp₁.follow (some t) = .ok (t, last) :=
      Lib.Header.follow_ok rfl ((update_of_ne hts ..).trans hlast)
    have hsecond : xp₂.follow (some xs) = .ok (xs, ⟨item, none, none⟩) :=
      Lib.Header.follow_ok rfl ((update_of_ne hts.symm ..).trans (update_self ..))
    have hheap : update xp₂.heap xs (some new) =
        update (update heap xs (some new)) t (some last') := by
      show update (update (update heap xs _) t _) xs _ = _
      rw [Function.update_comm hts.symm, Function.update_idem]
      exact Function.update_comm hts ..
    refine ⟨⟨some b, some xs, update xp₂.heap xs (some new)⟩, ?_, hheap ▸ hpush, ?_⟩
    · show (xp₁.follow (some t) >>= _) = _
      rw [hfirst, ok_bind]
      show (xp₂.follow (some xs) >>= _) = _
      rw [hsecond, ok_bind]
      rfl
    · intro x hx
      show (update xp₂.heap xs _ x).map _ = (heap x).map _
      rw [update_of_ne hx]
      by_cases hxt : x = t
      · have hwritten : xp₂.heap t = some last' := update_self ..
        rw [hxt, hwritten, show heap t = some last from hlast]
        rfl
      · exact congrArg _ ((update_of_ne hxt ..).trans (update_of_ne hx ..))

theorem createService_serviceEnabled (theVendor theDeviceID theInstanceID : CString)
    (theVersion : Option CString) :
    (createService theVendor theDeviceID theInstanceID theVersion).serviceEnabled = false := by
  unfold createService setHeartbeatInterval
  split
  · rfl
  · rfl

/-- What `XplNewService` makes of the list. -/
theorem XplMemory.Holds.XplNewService {xp xp' : XplMemory} {entries : List (Addr × ServiceItem)}
    (h : xp.Holds entries) {xs : Addr} (hxs : xp.heap xs = none)
    {theVendor theDeviceID theInstanceID theVersion : Option CString}
    {newIdent : Memory CChar 32} {rightNow : Timeval}
    (hrun : Service.XplNewService xp xs theVendor theDeviceID theInstanceID theVersion newIdent
      rightNow = .ok xp') :
    (∃ item, xp'.Holds (entries ++ [(xs, item)]) ∧ item.service.serviceEnabled = false) ∧
      xp.Keeps xp' xs := by
  obtain ⟨-, hrun⟩ := of_ASSERT_FAIL hrun
  obtain ⟨-, hrun⟩ := of_ASSERT_FAIL hrun
  obtain ⟨-, hrun⟩ := of_ASSERT_FAIL hrun
  obtain ⟨id, -, hrun⟩ := bind_ok hrun
  obtain ⟨vendor, -, hrun⟩ := bind_ok hrun
  obtain ⟨deviceID, -, hrun⟩ := bind_ok hrun
  let item : ServiceItem := ⟨XS_MAGIC, true, createService vendor deviceID id theVersion⟩
  let xp₁ : XplMemory := { xp with created := xp.created + 1 }
  have hlist : serviceLinks.HeldBy xp₁.ends entries := h.list
  obtain ⟨ends, happend, hlinks, hkeeps⟩ := XplMemory.append_links hlist hxs item
  have hresult : xp' = xp₁.withEnds ends := Except.ok.inj (hrun.symm.trans happend)
  subst hresult
  refine ⟨⟨item, ⟨h.magic, hlinks, ?_, ?_, ?_⟩, createService_serviceEnabled ..⟩, hkeeps⟩
  · intro e he
    rcases List.mem_append.mp he with he | he
    · exact h.valid e he
    · rw [List.mem_singleton.mp he]
      exact ⟨rfl, rfl⟩
  · intro a ha
    rw [List.map_append]
    by_cases hne : a = xs
    · exact List.mem_append_right _ (List.mem_singleton.mpr hne)
    · apply List.mem_append_left
      apply h.allocated a
      have hsame := hkeeps a hne
      intro hnone
      rw [show xp₁.heap a = none from hnone, Option.map_none, Option.map_eq_none_iff] at hsame
      exact ha hsame
  · rw [List.length_append]
    exact Nat.succ_le_succ h.turns

/-- What a function on the fields of a service makes of the list. -/
theorem XplMemory.Holds.onCell {xp : XplMemory} {entries : List (Addr × ServiceItem)}
    (h : xp.Holds entries) {xs : Addr} {cell : ServiceCell} (hcell : xp.heap xs = some cell)
    {deed : XplService → Deed} {events : List ServiceEvent} {service : XplService}
    (hdeed : deed cell.item.service = (events, .ok service)) :
    ∃ xp', Service.onCell xp xs deed = .ok (events, xp') ∧ xp.Keeps xp' xs ∧
      xp'.heap xs = some { cell with item := { cell.item with service := service } } ∧
      ∃ entries', xp'.Holds entries' ∧ entries'.map Prod.fst = entries.map Prod.fst := by
  have hread : xp.follow (some xs) = .ok (xs, cell) := Lib.Header.follow_ok rfl hcell
  let cell' : ServiceCell := { cell with item := { cell.item with service := service } }
  have hmem := h.entry hcell
  have hfst : (entries.map fun e => if e.1 = xs then (xs, cell'.item) else e).map Prod.fst =
      entries.map Prod.fst := by
    rw [List.map_map]
    apply List.map_congr_left
    intro e _
    by_cases he : e.1 = xs
    · simp [he]
    · simp [he]
  refine ⟨xp.store xs cell', ?_, ?_, update_self .., _, ⟨h.magic, ?_, ?_, ?_, ?_⟩, hfst⟩
  · unfold Service.onCell
    rw [hread, ok_bind]
    simp only [hdeed]
    rfl
  · intro x hx
    exact congrArg _ (update_of_ne hx ..)
  · exact Lib.Links.HoldsAt.set h.list hcell (m := cell') rfl rfl
  · intro e he
    obtain ⟨e₀, he₀, rfl⟩ := List.mem_map.mp he
    split
    · have hvalid := h.valid _ hmem
      exact ⟨hvalid.1, hvalid.2⟩
    · exact h.valid e₀ he₀
  · intro a ha
    rw [hfst]
    by_cases hne : a = xs
    · rw [hne]
      exact List.mem_map_of_mem hmem
    · exact h.allocated a fun hnone => ha ((update_of_ne hne ..).trans hnone)
  · rw [List.length_map]
    exact h.turns

/-- The traversal finds a live service. -/
theorem XplMemory.Holds.destroy_eq {xp : XplMemory} {entries : List (Addr × ServiceItem)}
    (h : xp.Holds entries) {xs : Addr} {cell : ServiceCell} (hcell : xp.heap xs = some cell)
    (sent : Bool) :
    Service.XplDestroyService xp xs sent = (do
      let (events, xp) ← Service.onCell xp xs (retire xp.obj sent)
      let xp ← unlinkService xp xs
      let (_, cell) ← xp.follow (some xs)
      let xp := xp.store xs { cell with item := { cell.item with magic := 0 } }
      return (true, events, xp.free xs)) := by
  have hfind : serviceLinks.find Fault.nullDeref Fault.fatal xp.heap
      (fun xst _ => .ok (xst == xs)) xp.created xp.servHead =
        .ok ((entries.find? (·.1 == xs)).map Prod.fst) := by
    apply Lib.Links.HoldsAt.find h.list _ h.turns
    exact fun _ _ _ => rfl
  have hfound : (entries.find? (·.1 == xs)).map Prod.fst = some xs := by
    cases hfound : entries.find? (·.1 == xs) with
    | none => exact absurd (beq_self_eq_true xs) (List.find?_eq_none.mp hfound _ (h.entry hcell))
    | some e =>
      have he : e.1 = xs := by simpa only [beq_iff_eq] using List.find?_some hfound
      rw [Option.map_some, he]
  unfold Service.XplDestroyService
  rw [h.checkService hcell, ok_bind, hfind, ok_bind, hfound]

/-- What `XplDestroyService` makes of the list: the service is disabled if
it is enabled, and taken out. -/
theorem XplMemory.Holds.XplDestroyService {xp : XplMemory} {entries : List (Addr × ServiceItem)}
    (h : xp.Holds entries) {xs : Addr} {cell : ServiceCell} (hcell : xp.heap xs = some cell)
    {sent : Bool} {events : List ServiceEvent} {service : XplService}
    (hdeed : retire xp.obj sent cell.item.service = (events, .ok service)) :
    ∃ xp', Service.XplDestroyService xp xs sent = .ok (true, events, xp') ∧ xp.Keeps xp' xs ∧
      ∃ entries', xp'.Holds entries' ∧
        entries'.map Prod.fst = (entries.map Prod.fst).filter (· ≠ xs) := by
  obtain ⟨xp₁, hdone, hkeeps, hcell₁, entries₁, hholds, hfst⟩ := h.onCell hcell hdeed
  let cell' : ServiceCell := { cell with item := { cell.item with service := service } }
  obtain ⟨ends, hremove, hsame, hlinks, hvalues⟩ :=
    hholds.list.remove (hholds.entry hcell₁) Fault.nullDeref
  let xp₂ := xp₁.withEnds ends
  have hread : xp₂.follow (some xs) = .ok (xs, cell') :=
    Lib.Header.follow_ok rfl (hsame.trans hcell₁)
  have hfilter : (entries₁.filter (·.1 ≠ xs)).map Prod.fst =
      (entries.map Prod.fst).filter (· ≠ xs) := by
    rw [← hfst, List.filter_map]
    rfl
  refine ⟨(xp₂.store xs { cell' with item := { cell'.item with magic := 0 } }).free xs, ?_, ?_,
    entries₁.filter (·.1 ≠ xs), ⟨hholds.magic, ?_, ?_, ?_, ?_⟩, hfilter⟩
  · rw [h.destroy_eq hcell]
    unfold unlinkService
    simp only [hdone, hremove, ok_bind]
    show (xp₂.follow (some xs) >>= _) = _
    rw [hread]
    rfl
  · intro x hx
    have hstep : (ends.heap x).map ServiceCell.item = (xp₁.heap x).map ServiceCell.item := hvalues x
    exact (congrArg _ ((update_of_ne hx ..).trans (update_of_ne hx ..))).trans
      (hstep.trans (hkeeps x hx))
  · apply Lib.Links.HoldsAt.congr hlinks
    intro e he
    have hne : e.1 ≠ xs := of_decide_eq_true (List.mem_filter.mp he).2
    exact (update_of_ne hne ..).trans (update_of_ne hne ..)
  · intro e he
    exact hholds.valid e (List.mem_of_mem_filter he)
  · intro a ha
    have hne : a ≠ xs := by
      rintro rfl
      exact ha (update_self ..)
    rw [hfilter, ← hfst]
    refine List.mem_filter.mpr ⟨hholds.allocated a fun hnone => ha ?_, decide_eq_true hne⟩
    have hvalue := hvalues a
    rw [show xp₁.ends.heap a = none from hnone, Option.map_none, Option.map_eq_none_iff] at hvalue
    exact (update_of_ne hne ..).trans ((update_of_ne hne ..).trans hvalue)
  · exact (List.length_filter_le _ _).trans hholds.turns

/-! ## The list of a run -/

theorem XplMemory.Keeps.refl (xp : XplMemory) (xs : Addr) : xp.Keeps xp xs := fun _ _ => rfl

/-- A function that fails on the fields of a service fails. -/
theorem onCell_error {xp : XplMemory} {xs : Addr} {cell : ServiceCell}
    (hcell : xp.heap xs = some cell) {deed : XplService → Deed} {events : List ServiceEvent}
    {f : Fault} (hdeed : deed cell.item.service = (events, .error f)) :
    onCell xp xs deed = .error f := by
  have hread : xp.follow (some xs) = .ok (xs, cell) := Lib.Header.follow_ok rfl hcell
  unfold onCell
  rw [hread, ok_bind]
  simp only [hdeed]
  rfl

/-- What `XplEnableService` and `XplDisableService` make of the list. -/
theorem XplMemory.Holds.setServiceState {xp xp' : XplMemory}
    {entries : List (Addr × ServiceItem)} (h : xp.Holds entries) {xs : Addr}
    (hlive : xp.heap xs ≠ none) {newState sent : Bool} {events : List ServiceEvent}
    (hrun : (do
      Service.checkService xp xs
      Service.onCell xp xs (Service.setServiceState xp.obj newState sent)) = .ok (events, xp')) :
    xp.Keeps xp' xs ∧
      (∀ cell, xp'.heap xs = some cell → cell.item.service.serviceEnabled = newState) ∧
      ∃ entries', xp'.Holds entries' ∧ entries'.map Prod.fst = entries.map Prod.fst := by
  obtain ⟨cell, hcell⟩ := Option.ne_none_iff_exists'.mp hlive
  rw [h.checkService hcell, ok_bind] at hrun
  cases hdeed : Service.setServiceState xp.obj newState sent cell.item.service with
  | mk es result =>
    cases result with
    | error f =>
      rw [onCell_error hcell hdeed] at hrun
      cases hrun
    | ok service =>
      obtain ⟨xp₁, hdone, hkeeps, hcell', hentries⟩ := h.onCell hcell hdeed
      rw [hrun] at hdone
      cases hdone
      refine ⟨hkeeps, fun cell₁ hcell₁ => ?_, hentries⟩
      cases hcell'.symm.trans hcell₁
      exact setServiceState_serviceEnabled (congrArg Prod.snd hdeed)

/-- **What a call can do**: the list has the services that it says, the
flag of its own is set if it enables it, and of other services nothing but
the links has changed. -/
theorem XplMemory.Holds.run {xp xp' : XplMemory} {entries : List (Addr × ServiceItem)}
    (h : xp.Holds entries) {c : ServiceCall} (hlive : c.Live xp) {events : List ServiceEvent}
    (hrun : c.run xp = .ok (events, xp')) :
    xp.Keeps xp' c.target ∧
      (∀ cell on, xp'.heap c.target = some cell →
        cell.item.service.serviceEnabled = enabledAfter c.target on c) ∧
      ∃ entries', xp'.Holds entries' ∧
        entries'.map Prod.fst = livingAfter (entries.map Prod.fst) c := by
  cases c with
  | XplNewService xs theVendor theDeviceID theInstanceID theVersion newIdent rightNow =>
    obtain ⟨xp₁, hnew, hrun⟩ := bind_ok hrun
    cases hrun
    obtain ⟨⟨item, hholds, hoff⟩, hkeeps⟩ := h.XplNewService hlive hnew
    refine ⟨hkeeps, fun cell on hcell => ?_, _, hholds, List.map_append⟩
    obtain ⟨cell', hcell', hitem⟩ :=
      hholds.list.cell (List.mem_append_right _ (List.mem_singleton_self (xs, item)))
    obtain rfl : cell' = cell := Option.some.inj (hcell'.symm.trans hcell)
    rw [show cell'.item = item from hitem, hoff]
    exact (if_pos rfl).symm
  | XplEnableService servToEnable sent =>
    obtain ⟨hkeeps, hflag, hentries⟩ := h.setServiceState hlive hrun
    exact ⟨hkeeps, fun cell on hcell => (hflag cell hcell).trans (if_pos rfl).symm, hentries⟩
  | XplDisableService servToDisable sent =>
    obtain ⟨hkeeps, hflag, hentries⟩ := h.setServiceState hlive hrun
    exact ⟨hkeeps, fun cell on hcell => (hflag cell hcell).trans (if_pos rfl).symm, hentries⟩
  | XplDestroyService servToDestroy sent =>
    obtain ⟨cell, hcell⟩ := Option.ne_none_iff_exists'.mp hlive
    obtain ⟨⟨found, es, xp₁⟩, hdestroy, hrun⟩ := bind_ok hrun
    cases hrun
    cases hdeed : retire xp.obj sent cell.item.service with
    | mk es result =>
      cases result with
      | error f =>
        rw [h.destroy_eq hcell, onCell_error hcell hdeed] at hdestroy
        cases hdestroy
      | ok service =>
        obtain ⟨xp₁, hdone, hkeeps, entries', hholds, hfst⟩ := h.XplDestroyService hcell hdeed
        rw [hdestroy] at hdone
        cases hdone
        refine ⟨hkeeps, fun cell' on hcell' => ?_, entries', hholds, hfst⟩
        -- the service is gone
        have hmem : servToDestroy ∈ entries'.map Prod.fst :=
          List.mem_map_of_mem (hholds.entry hcell')
        rw [hfst] at hmem
        exact absurd rfl (of_decide_eq_true (List.mem_filter.mp hmem).2)

/-- **The list of a process** has the services that were created and not
destroyed. -/
theorem Reaches.holds {past : List ServiceCall} {xp : XplMemory} (h : Reaches past xp) :
    ∃ entries, xp.Holds entries ∧ entries.map Prod.fst = living past := by
  induction h with
  | XplInit uniqPrefix localConnPort remoteIP =>
    exact ⟨[], ⟨rfl, Lib.Links.holdsAt_nil _, fun _ h => absurd h List.not_mem_nil,
      fun _ h => absurd rfl h, Nat.le_refl 0⟩, rfl⟩
  | call before live result ih =>
    obtain ⟨entries, hholds, hliving⟩ := ih
    obtain ⟨-, -, entries', hholds', hliving'⟩ := hholds.run live result
    refine ⟨entries', hholds', ?_⟩
    rw [hliving', hliving, living, living, List.foldl_append]
    rfl

/-- **A service is enabled if the last call for it enabled it.** -/
theorem Reaches.serviceEnabled {past : List ServiceCall} {xp : XplMemory} (h : Reaches past xp)
    {xs : Addr} {cell : ServiceCell} (hcell : xp.heap xs = some cell) :
    cell.item.service.serviceEnabled = enabledBy past xs := by
  induction h generalizing cell with
  | XplInit uniqPrefix localConnPort remoteIP => cases hcell
  | @call past xp xp' c events before live result ih =>
    obtain ⟨entries, hholds, -⟩ := before.holds
    obtain ⟨hkeeps, hflag, -⟩ := hholds.run live result
    rw [enabledBy, List.foldl_append]
    by_cases hxs : c.target = xs
    · subst hxs
      exact hflag cell _ hcell
    · have hsame := hkeeps xs (Ne.symm hxs)
      rw [hcell, Option.map_some] at hsame
      obtain ⟨cell', hcell', hitem⟩ := Option.map_eq_some_iff.mp hsame.symm
      rw [← hitem, ih hcell']
      exact (if_neg hxs).symm

/-- What `XplDestroyService` sends for an enabled service. -/
theorem retire_enabled {xp : XplObj} {xs : XplService} (henabled : xs.serviceEnabled = true)
    {theHeartbeat : XplMessage}
    (hsent : sendGoodbyeHeartbeat xp { xs with serviceEnabled := false } true =
      .ok (some theHeartbeat)) :
    retire xp true xs =
      ([.disabled, .goodbye theHeartbeat], .ok { xs with serviceEnabled := false }) := by
  unfold retire setServiceState
  rw [if_pos henabled, henabled, if_neg Bool.noConfusion]
  simp only [Bool.false_eq_true, if_false, hsent]
  rfl

/-- **The registry over a run.** The list is exactly the services that were
created and not destroyed, in the order of creation and with consistent
links; a service is enabled if the last call for it enabled it, and where
sending succeeds, an enabled service that is destroyed sends one goodbye,
and a disabled one sends none; and a call changes nothing of another
service but its links. -/
theorem service_registry {past : List ServiceCall} {xp : XplMemory} (h : Reaches past xp) :
    (∃ entries, serviceLinks.HoldsAt xp.heap xp.servHead xp.servTail entries ∧
      entries.map Prod.fst = living past) ∧
    (∀ xs cell, xp.heap xs = some cell →
      cell.item.service.serviceEnabled = enabledBy past xs) ∧
    (∀ xs cell theHeartbeat, xp.heap xs = some cell → cell.item.service.serviceEnabled = true →
      sendGoodbyeHeartbeat xp.obj { cell.item.service with serviceEnabled := false } true =
        .ok (some theHeartbeat) →
      ∃ xp', XplDestroyService xp xs true = .ok (true, [.disabled, .goodbye theHeartbeat], xp')) ∧
    (∀ xs cell sent, xp.heap xs = some cell → cell.item.service.serviceEnabled = false →
      ∃ xp', XplDestroyService xp xs sent = .ok (true, [], xp')) ∧
    ∀ (c : ServiceCall) events xp', c.Live xp → c.run xp = .ok (events, xp') → ∀ x, x ≠ c.target →
      (xp'.heap x).map ServiceCell.item = (xp.heap x).map ServiceCell.item := by
  obtain ⟨entries, hholds, hliving⟩ := h.holds
  refine ⟨⟨entries, hholds.list, hliving⟩, fun _ _ hcell => h.serviceEnabled hcell, ?_, ?_, ?_⟩
  · intro xs cell theHeartbeat hcell henabled hsent
    obtain ⟨xp', hrun, -⟩ := hholds.XplDestroyService hcell (retire_enabled henabled hsent)
    exact ⟨xp', hrun⟩
  · intro xs cell sent hcell hdisabled
    have hdeed : retire xp.obj sent cell.item.service = ([], .ok cell.item.service) := by
      rw [retire, if_neg (Bool.not_eq_true _ ▸ hdisabled)]
    obtain ⟨xp', hrun, -⟩ := hholds.XplDestroyService hcell hdeed
    exact ⟨xp', hrun⟩
  · intro c events xp' hlive hrun
    exact (hholds.run hlive hrun).1

set_option maxRecDepth 8000 in
/-- Two services are created and enabled, and the second one is disabled
again: only the first one sends a goodbye when it is destroyed. -/
theorem service_registry_run : ∃ xp xp' xp'' : XplMemory,
    let newService (xs : Addr) : ServiceCall :=
      .XplNewService xs (some (cstr "a")) (some (cstr "b")) (some (cstr "c")) none
        ⟨List.replicate 32 0, rfl⟩ ⟨0, 0⟩
    let past := [newService 1, newService 2, .XplEnableService 1 true, .XplEnableService 2 true,
      .XplDisableService 2 true]
    Reaches past xp ∧ living past = [1, 2] ∧ enabledBy past 1 = true ∧ enabledBy past 2 = false ∧
      (∃ theHeartbeat, XplDestroyService xp 1 true =
        .ok (true, [.disabled, .goodbye theHeartbeat], xp')) ∧
      XplDestroyService xp 2 true = .ok (true, [], xp'') := by
  let newService (xs : Addr) : ServiceCall :=
    .XplNewService xs (some (cstr "a")) (some (cstr "b")) (some (cstr "c")) none
      ⟨List.replicate 32 0, rfl⟩ ⟨0, 0⟩
  have hreaches := (((((Reaches.XplInit (cstr "0000") 50000 (cstr "10.0.0.1")).call
    (c := newService 1) rfl rfl).call (c := newService 2) rfl rfl).call
    (c := .XplEnableService 1 true) (Option.some_ne_none _) rfl).call
    (c := .XplEnableService 2 true) (Option.some_ne_none _) rfl).call
    (c := .XplDisableService 2 true) (Option.some_ne_none _) rfl
  obtain ⟨-, -, hgoodbye, hsilent, -⟩ := service_registry hreaches
  obtain ⟨xp', hdestroy⟩ := hgoodbye 1 _ _ rfl rfl rfl
  obtain ⟨xp'', hdestroy'⟩ := hsilent 2 _ true rfl rfl
  exact ⟨_, xp', xp'', hreaches, rfl, rfl, rfl, ⟨_, hdestroy⟩, hdestroy'⟩

end XplEvent.Service
