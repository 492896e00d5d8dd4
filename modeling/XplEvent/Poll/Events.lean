import XplEvent.Poll.Registry

/-!
# A batch of events

The kernel returns the descriptors that are ready as a batch, each with the
flags of what happened and the address of its entry. `doEventList` goes
through a batch, translates the flags to the poller's own, and calls the
action of the entry; a one-shot entry is then taken out of the list.

The variable that the flags are translated into is set to zero before the
loop and not inside it, so an action is told of everything that happened to
the descriptors before its own as well. A batch is dispatched as it should
be only if that adds nothing to any of its events (`doEventList_exact_iff`).
-/

namespace XplEvent.Poll

variable {U : Type}

/-! ## The flags -/

def EPOLLIN : UInt32 := 0x001
def EPOLLPRI : UInt32 := 0x002
def EPOLLOUT : UInt32 := 0x004
def EPOLLERR : UInt32 := 0x008
def EPOLLHUP : UInt32 := 0x010
def EPOLLRDHUP : UInt32 := 0x2000
def EPOLLONESHOT : UInt32 := 0x40000000
def EPOLLET : UInt32 := 0x80000000

def POLL_WT_IN : UInt32 := 1
def POLL_WT_OUT : UInt32 := 2
def POLL_WT_RD_HUP : UInt32 := 4
def POLL_WT_PRI : UInt32 := 8
def POLL_WT_ERR : UInt32 := 0x10
def POLL_WT_HUP : UInt32 := 0x20
def POLL_WT_ET : UInt32 := 0x40
def POLL_WT_OS : UInt32 := 0x80

/-- The flags that are tested, and what each is translated to. -/
def watchTypes : List (UInt32 × UInt32) :=
  [(EPOLLIN, POLL_WT_IN), (EPOLLOUT, POLL_WT_OUT), (EPOLLRDHUP, POLL_WT_RD_HUP),
    (EPOLLPRI, POLL_WT_PRI), (EPOLLERR, POLL_WT_ERR), (EPOLLHUP, POLL_WT_HUP),
    (EPOLLET, POLL_WT_ET), (EPOLLONESHOT, POLL_WT_OS)]

/-- `if(events & flag) watchType |= wt`, for each of the flags. -/
def addWatchTypes (events : UInt32) : List (UInt32 × UInt32) → UInt32 → UInt32
  | [], watchType => watchType
  | (flag, wt) :: flags, watchType =>
    addWatchTypes events flags (if events &&& flag ≠ 0 then watchType ||| wt else watchType)

/-- The translation of an event's flags. -/
def translated (events : UInt32) : UInt32 := addWatchTypes events watchTypes 0

/-- What is translated is added. -/
theorem addWatchTypes_eq (events : UInt32) (flags : List (UInt32 × UInt32)) (watchType : UInt32) :
    addWatchTypes events flags watchType = watchType ||| addWatchTypes events flags 0 := by
  induction flags generalizing watchType with
  | nil => exact UInt32.or_zero.symm
  | cons flag flags ih =>
    unfold addWatchTypes
    split
    · rw [ih, ih (0 ||| flag.2), UInt32.zero_or, UInt32.or_assoc]
    · exact ih watchType

/-! ## The loop -/

/-- `struct epoll_event`. -/
structure EpollEvent where
  events : UInt32
  ptr : Addr

def isOneshot (events : UInt32) : Bool := events &&& EPOLLONESHOT ≠ 0

/-- A call of an action. -/
structure Call (U : Type) where
  action : Nat
  fd : Int
  event : UInt32
  userObject : U

/-- The variables of the loop, with the calls made so far. -/
structure EventLoop (U : Type) where
  ph : PollHeader U
  watchType : UInt32
  calls : List (Call U)

/-- A one-shot entry is taken out of the list and freed. -/
def removeOneshot (ph : PollHeader U) (e : Addr) : Except Fault (PollHeader U) := do
  let ph ← removePollItem ph e
  let (_, entry) ← ph.follow (some e)
  let ph := ph.store e { entry with item := { entry.item with magic := 0 } }
  return ph.free e

/-- A turn of the loop. -/
def eventTurn (s : EventLoop U) (ev : EpollEvent) : Except Fault (EventLoop U) := do
  let e ← deref (s.ph.heap ev.ptr)
  ASSERT_FAIL (PE_MAGIC == e.item.magic)
  ASSERT_FAIL e.item.action.isSome
  let watchType := addWatchTypes ev.events watchTypes s.watchType
  let action ← deref e.item.action
  let calls := s.calls ++ [⟨action, e.item.fd, watchType, e.item.userObject⟩]
  let ph ← if isOneshot ev.events then removeOneshot s.ph ev.ptr else pure s.ph
  return ⟨ph, watchType, calls⟩

/-- `doEventList`: the header and the calls. -/
def doEventList (ph : PollHeader U) (eventlist : List EpollEvent) :
    Except Fault (PollHeader U × List (Call U)) := do
  let s ← eventlist.foldlM eventTurn ⟨ph, 0, []⟩
  return (s.ph, s.calls)

/-! ## What a batch should do -/

/-- The call is that of the event's entry. -/
def CallsEntry (entries : List (Addr × PollItem U)) (ev : EpollEvent) (call : Call U) : Prop :=
  ∃ item, (ev.ptr, item) ∈ entries ∧ item.action = some call.action ∧ call.fd = item.fd ∧
    call.userObject = item.userObject

/-- The entries that a batch leaves in the list. -/
def keptEntries (entries : List (Addr × PollItem U)) (batch : List EpollEvent) :
    List (Addr × PollItem U) :=
  entries.filter fun e => !batch.any fun ev => ev.ptr == e.1 && isOneshot ev.events

/-- **A batch is dispatched**: each event calls its entry, once and in
order, with the translation of its own flags, and the one-shot entries are
removed. -/
def Dispatches (ph : PollHeader U) (entries : List (Addr × PollItem U))
    (batch : List EpollEvent) : Prop :=
  ∃ ph' calls, doEventList ph batch = .ok (ph', calls) ∧
    List.Forall₂ (fun ev call => CallsEntry entries ev call ∧
      call.event = translated ev.events) batch calls ∧
    ph'.Describes (keptEntries entries batch)

/-- A batch from the kernel: entries of the list, each at most once. -/
structure IsBatch (entries : List (Addr × PollItem U)) (batch : List EpollEvent) : Prop where
  registered : ∀ ev ∈ batch, ev.ptr ∈ entries.map Prod.fst
  distinct : (batch.map EpollEvent.ptr).Nodup

/-! ## One event -/

theorem removeOneshot_describes {ph : PollHeader U} {entries : List (Addr × PollItem U)}
    (h : ph.Describes entries) {a : Addr} {item : PollItem U} (ha : (a, item) ∈ entries) :
    ∃ ph', removeOneshot ph a = .ok ph' ∧ ph'.Describes (entries.filter (·.1 ≠ a)) := by
  obtain ⟨entry, hentry, -⟩ := h.entry ha
  obtain ⟨ph₁, hremove, hheap, hkept⟩ := removePollItem_describes h ha
  have hread := PollHeader.follow_ok (p := some a) rfl (hheap.trans hentry)
  let cleared : PollEntry U := { entry with item := { entry.item with magic := 0 } }
  refine ⟨(ph₁.store a cleared).free a, ?_, hkept.congr ?_⟩
  · unfold removeOneshot
    rw [hremove, ok_bind, hread, ok_bind]
    rfl
  · intro e he
    have hne : e.1 ≠ a := of_decide_eq_true (List.mem_filter.mp he).2
    exact (Function.update_of_ne hne ..).trans (Function.update_of_ne hne ..)

/-- An event of a registered entry calls it; the entry stays unless it is
one-shot. -/
theorem eventTurn_ok {s : EventLoop U} {entries : List (Addr × PollItem U)} {ev : EpollEvent}
    (h : s.ph.Describes entries) (hev : ev.ptr ∈ entries.map Prod.fst) :
    ∃ ph' call, CallsEntry entries ev call ∧
      call.event = s.watchType ||| translated ev.events ∧
      eventTurn s ev = .ok ⟨ph', s.watchType ||| translated ev.events, s.calls ++ [call]⟩ ∧
      ph'.Describes (keptEntries entries [ev]) := by
  obtain ⟨⟨a, item⟩, hmem, hptr⟩ := List.mem_map.mp hev
  obtain rfl : a = ev.ptr := hptr
  obtain ⟨entry, hentry, rfl⟩ := h.entry hmem
  have hmagic : entry.item.magic = PE_MAGIC := h.magic _ hmem
  obtain ⟨action, haction⟩ := Option.isSome_iff_exists.mp (h.action _ hmem)
  replace haction : entry.item.action = some action := haction
  let call : Call U :=
    ⟨action, entry.item.fd, s.watchType ||| translated ev.events, entry.item.userObject⟩
  have hturn : eventTurn s ev = (do
      let ph ← if isOneshot ev.events then removeOneshot s.ph ev.ptr else pure s.ph
      return ⟨ph, s.watchType ||| translated ev.events, s.calls ++ [call]⟩) := by
    unfold eventTurn
    simp only [hentry, deref_some, ok_bind, hmagic, haction, beq_self_eq_true, Option.isSome_some,
      ASSERT_FAIL_true]
    rw [addWatchTypes_eq]
    rfl
  have hcall : CallsEntry entries ev call := ⟨entry.item, hmem, haction, rfl, rfl⟩
  cases hone : isOneshot ev.events with
  | true =>
    obtain ⟨ph', hremove, hkept⟩ := removeOneshot_describes h hmem
    refine ⟨ph', call, hcall, rfl, ?_, ?_⟩
    · rw [hturn, hone, if_pos rfl, hremove]
      rfl
    · have hentries : keptEntries entries [ev] = entries.filter (·.1 ≠ ev.ptr) := by
        apply List.filter_congr
        intro e _
        by_cases heq : e.1 = ev.ptr
        · simp [hone, heq]
        · simp [heq, Ne.symm heq]
      rw [hentries]
      exact hkept
  | false =>
    refine ⟨s.ph, call, hcall, rfl, ?_, ?_⟩
    · rw [hturn, hone]
      rfl
    · have hentries : keptEntries entries [ev] = entries := by
        apply List.filter_eq_self.mpr
        intro e _
        simp [hone]
      rw [hentries]
      exact h

/-! ## A batch -/

/-- What the actions are told, where `watchType` is left from before. -/
def accumulated : UInt32 → List EpollEvent → List UInt32
  | _, [] => []
  | watchType, ev :: batch =>
    (watchType ||| translated ev.events) :: accumulated (watchType ||| translated ev.events) batch

theorem keptEntries_cons (entries : List (Addr × PollItem U)) (ev : EpollEvent)
    (batch : List EpollEvent) :
    keptEntries (keptEntries entries [ev]) batch = keptEntries entries (ev :: batch) := by
  unfold keptEntries
  rw [List.filter_filter]
  apply List.filter_congr
  intro e _
  simp [Bool.and_comm]

/-- Another entry than the event's stays in the list. -/
theorem mem_keptEntries {entries : List (Addr × PollItem U)} {ev : EpollEvent}
    {e : Addr × PollItem U} (he : e ∈ entries) (hne : ev.ptr ≠ e.1) :
    e ∈ keptEntries entries [ev] := by
  refine List.mem_filter.mpr ⟨he, ?_⟩
  simp [hne]

theorem IsBatch.tail {entries : List (Addr × PollItem U)} {ev : EpollEvent}
    {batch : List EpollEvent} (h : IsBatch entries (ev :: batch)) :
    IsBatch (keptEntries entries [ev]) batch := by
  obtain ⟨hnot, hdistinct⟩ := List.nodup_cons.mp h.distinct
  refine ⟨?_, hdistinct⟩
  intro ev' hev'
  obtain ⟨e, he, hptr⟩ := List.mem_map.mp (h.registered ev' (List.mem_cons_of_mem ev hev'))
  refine List.mem_map.mpr ⟨e, mem_keptEntries he ?_, hptr⟩
  intro heq
  exact hnot (List.mem_map.mpr ⟨ev', hev', (hptr.symm.trans heq.symm)⟩)

theorem CallsEntry.of_kept {entries : List (Addr × PollItem U)} {batch : List EpollEvent}
    {ev : EpollEvent} {call : Call U} (h : CallsEntry (keptEntries entries batch) ev call) :
    CallsEntry entries ev call := by
  obtain ⟨item, hmem, hcall⟩ := h
  exact ⟨item, List.mem_of_mem_filter hmem, hcall⟩

/-- **A batch calls each entry once and in order**, and tells it of the
events before its own. -/
theorem eventTurns_ok {s : EventLoop U} {entries : List (Addr × PollItem U)}
    {batch : List EpollEvent} (h : s.ph.Describes entries) (hbatch : IsBatch entries batch) :
    ∃ s' calls, batch.foldlM eventTurn s = .ok s' ∧ s'.calls = s.calls ++ calls ∧
      List.Forall₂ (CallsEntry entries) batch calls ∧
      calls.map Call.event = accumulated s.watchType batch ∧
      s'.ph.Describes (keptEntries entries batch) := by
  induction batch generalizing s entries with
  | nil =>
    refine ⟨s, [], rfl, (List.append_nil _).symm, .nil, rfl, ?_⟩
    have hentries : keptEntries entries [] = entries := List.filter_eq_self.mpr fun _ _ => rfl
    rw [hentries]
    exact h
  | cons ev batch ih =>
    obtain ⟨ph', call, hcall, hevent, hturn, hkept⟩ :=
      eventTurn_ok h (hbatch.registered ev List.mem_cons_self)
    obtain ⟨s', calls, hrun, hcalls, hentries, hevents, hlast⟩ :=
      ih (s := ⟨ph', s.watchType ||| translated ev.events, s.calls ++ [call]⟩) hkept hbatch.tail
    refine ⟨s', call :: calls, ?_, ?_, .cons hcall ?_, ?_, ?_⟩
    · rw [List.foldlM_cons, hturn]
      exact hrun
    · rw [hcalls, List.append_assoc]
      rfl
    · exact hentries.imp fun _ _ => CallsEntry.of_kept
    · rw [List.map_cons, hevent, hevents]
      rfl
    · rw [← keptEntries_cons]
      exact hlast

/-- The flags of `a` are among those of `b`. -/
def FlagsWithin (a b : UInt32) : Prop := a ||| b = b

theorem FlagsWithin.trans {a b c : UInt32} (hab : FlagsWithin a b) (hbc : FlagsWithin b c) :
    FlagsWithin a c := by
  unfold FlagsWithin at *
  rw [← hbc, ← UInt32.or_assoc, hab]

/-- Nothing is added to any event if each has the flags of the ones before it. -/
theorem accumulated_eq_iff (watchType : UInt32) (batch : List EpollEvent) :
    accumulated watchType batch = batch.map (fun ev => translated ev.events) ↔
      (∀ ev ∈ batch, FlagsWithin watchType (translated ev.events)) ∧
      batch.Pairwise fun ev ev' => FlagsWithin (translated ev.events) (translated ev'.events) := by
  induction batch generalizing watchType with
  | nil => exact iff_of_true rfl ⟨fun _ h => (List.not_mem_nil h).elim, .nil⟩
  | cons ev batch ih =>
    rw [accumulated, List.map_cons, List.cons.injEq, List.pairwise_cons]
    constructor
    · rintro ⟨hfirst, hrest⟩
      rw [hfirst] at hrest
      obtain ⟨hwithin, hpairs⟩ := (ih _).mp hrest
      refine ⟨?_, hwithin, hpairs⟩
      intro ev' hev'
      rcases List.mem_cons.mp hev' with rfl | hev'
      · exact hfirst
      · exact FlagsWithin.trans hfirst (hwithin ev' hev')
    · rintro ⟨hfirst, hwithin, hpairs⟩
      have heq : watchType ||| translated ev.events = translated ev.events :=
        hfirst ev List.mem_cons_self
      rw [heq]
      exact ⟨rfl, (ih _).mpr ⟨hwithin, hpairs⟩⟩

/-- Each call has its own flags, or one of them has others. -/
theorem forall₂_own_iff {entries : List (Addr × PollItem U)} {batch : List EpollEvent}
    {calls : List (Call U)} (h : List.Forall₂ (CallsEntry entries) batch calls) :
    List.Forall₂ (fun ev call => CallsEntry entries ev call ∧
      call.event = translated ev.events) batch calls ↔
      calls.map Call.event = batch.map fun ev => translated ev.events := by
  induction h with
  | nil => exact iff_of_true .nil rfl
  | cons hcall hcalls ih =>
    rw [List.forall₂_cons, ih, List.map_cons, List.map_cons, List.cons.injEq, and_iff_right hcall]

/-- **A batch is dispatched exactly if each event has the flags of all
events before it.** -/
theorem doEventList_exact_iff {ph : PollHeader U} {entries : List (Addr × PollItem U)}
    {batch : List EpollEvent} (h : ph.Describes entries) (hbatch : IsBatch entries batch) :
    Dispatches ph entries batch ↔
      batch.Pairwise fun ev ev' => FlagsWithin (translated ev.events) (translated ev'.events) := by
  obtain ⟨s', calls, hrun, hcalls, hentries, hevents, hkept⟩ :=
    eventTurns_ok (s := ⟨ph, 0, []⟩) h hbatch
  have hlist : doEventList ph batch = .ok (s'.ph, calls) := by
    unfold doEventList
    rw [hrun, ok_bind, hcalls]
    rfl
  have hown : Dispatches ph entries batch ↔
      calls.map Call.event = batch.map fun ev => translated ev.events := by
    rw [← forall₂_own_iff hentries]
    constructor
    · rintro ⟨ph', calls', hlist', hexact, -⟩
      rw [hlist] at hlist'
      cases hlist'
      exact hexact
    · intro hexact
      exact ⟨s'.ph, calls, hlist, hexact, hkept⟩
  rw [hown, hevents, accumulated_eq_iff, and_iff_right]
  exact fun ev _ => UInt32.zero_or

/-! ## Two descriptors at once -/

/-- Two entries of a list: one of the descriptors is read, the other written. -/
def twoEntries : List (Addr × PollItem Unit) :=
  [(0, ⟨PE_MAGIC, 3, (), some 0⟩), (1, ⟨PE_MAGIC, 4, (), some 1⟩)]

/-- The list in memory. -/
def twoHeader : PollHeader Unit where
  peHead := some 0
  peTail := some 1
  heap a :=
    if a = 0 then some ⟨⟨PE_MAGIC, 3, (), some 0⟩, none, some 1⟩
    else if a = 1 then some ⟨⟨PE_MAGIC, 4, (), some 1⟩, some 0, none⟩
    else none

theorem twoHeader_describes : twoHeader.Describes twoEntries := by
  refine ⟨⟨[(0, ⟨⟨PE_MAGIC, 3, (), some 0⟩, none, some 1⟩),
    (1, ⟨⟨PE_MAGIC, 4, (), some 1⟩, some 0, none⟩)], ⟨rfl, rfl, rfl, rfl, rfl, rfl, rfl⟩, rfl,
    by decide, rfl⟩, ?_, ?_⟩
  · intro e he
    simp only [twoEntries, List.mem_cons, List.not_mem_nil, or_false] at he
    rcases he with rfl | rfl <;> rfl
  · intro e he
    simp only [twoEntries, List.mem_cons, List.not_mem_nil, or_false] at he
    rcases he with rfl | rfl <;> rfl

/-- An event of the first entry, and an event of the second with a flag
more. -/
theorem doEventList_exact_twoEntries :
    Dispatches twoHeader twoEntries [⟨EPOLLIN, 0⟩, ⟨EPOLLIN ||| EPOLLOUT, 1⟩] :=
  (doEventList_exact_iff twoHeader_describes ⟨by decide, by decide⟩).mpr (by
    refine .cons ?_ (List.pairwise_singleton ..)
    intro ev hev
    rw [List.mem_singleton.mp hev]
    rfl)

/-- **The second of two events is told of the first**: a descriptor that can
be written is reported as readable too. -/
theorem doEventList_not_exact : ¬ ∀ (ph : PollHeader Unit) (entries : List (Addr × PollItem Unit))
    (batch : List EpollEvent), ph.Describes entries → IsBatch entries batch →
      Dispatches ph entries batch := by
  intro h
  obtain ⟨ph', calls, hlist, hexact, -⟩ := h twoHeader twoEntries
    [⟨EPOLLIN, 0⟩, ⟨EPOLLOUT, 1⟩] twoHeader_describes ⟨by decide, by decide⟩
  have hrun : doEventList twoHeader [⟨EPOLLIN, 0⟩, ⟨EPOLLOUT, 1⟩] =
      .ok (twoHeader, [⟨0, 3, POLL_WT_IN, ()⟩, ⟨1, 4, POLL_WT_IN ||| POLL_WT_OUT, ()⟩]) := rfl
  rw [hrun] at hlist
  cases hlist
  obtain ⟨-, hsecond⟩ := List.forall₂_cons.mp hexact
  have hflags := (List.forall₂_cons.mp hsecond).1.2
  exact absurd hflags (by decide)

end XplEvent.Poll
