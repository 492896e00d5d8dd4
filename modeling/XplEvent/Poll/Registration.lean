import XplEvent.Poll.Events

/-!
# Registering with the poller

A descriptor is registered with the kernel first and then put at the end of
the poller's list; it is taken out of the list first and then out of the
kernel's set. The kernel may refuse either: an entry that it does not take
is freed, and an entry that it does not give up is dropped all the same.

The list is what the calls say: the entries that were registered and not
unregistered since, in the order of registration. No two have the same
descriptor, since the kernel has what the list has and takes no descriptor
twice (`Reaches.holds`). After a removal that the kernel has refused it has
more than the list, so the descriptor cannot be registered again.
-/

namespace XplEvent.Poll

open Function (update update_self update_of_ne)

variable {U : Type}

def PH_MAGIC : UInt32 := 0x561A0F2C

/-- The poll object: its header, and the kernel's set behind its descriptor,
with the event that each member is registered with. -/
structure Poller (U : Type) where
  magic : UInt32
  header : PollHeader U
  interest : Int → Option EpollEvent
  /-- How many entries have been allocated: the turns a walk along the
  pointers may take before it runs in a circle. -/
  allocated : Nat

/-- `PollInit`. -/
def PollInit : Poller U := ⟨PH_MAGIC, ⟨none, none, fun _ => none⟩, fun _ => none, 0⟩

/-- The operations on the kernel's set. -/
inductive EpollOp
  | EPOLL_CTL_ADD
  | EPOLL_CTL_DEL
deriving DecidableEq, Repr

/-- `epoll_ctl`: the kernel's set behind the call, or none for an error. It
takes no descriptor twice, and may refuse anything else. -/
def epoll_ctl (interest : Int → Option EpollEvent) (op : EpollOp) (fd : Int)
    (event : Option EpollEvent) (refused : Bool) : Option (Int → Option EpollEvent) :=
  if refused then none
  else
    match op with
    | .EPOLL_CTL_ADD =>
      if (interest fd).isSome then none else some (Function.update interest fd event)
    | .EPOLL_CTL_DEL => some (Function.update interest fd none)

/-- The watch types that are tested, and what each is translated to. -/
def epollFlags : List (UInt32 × UInt32) :=
  [(POLL_WT_IN, EPOLLIN), (POLL_WT_OUT, EPOLLOUT), (POLL_WT_RD_HUP, EPOLLRDHUP),
    (POLL_WT_PRI, EPOLLPRI), (POLL_WT_ERR, EPOLLERR), (POLL_WT_HUP, EPOLLHUP),
    (POLL_WT_HUP, EPOLLHUP), (POLL_WT_ET, EPOLLET), (POLL_WT_OS, EPOLLONESHOT)]

/-- An entry behind the last one. -/
def PollHeader.append (ph : PollHeader U) (e : Addr) : Except Fault (PollHeader U) := do
  match ph.peHead with
  | none => return { ph with peHead := some e, peTail := some e }
  | some _ =>
    let (_, entry) ← ph.follow (some e)
    let ph := ph.store e { entry with prev := ph.peTail }
    let (_, entry) ← ph.follow (some e)
    let (prev, last) ← ph.follow entry.prev
    let ph := ph.store prev { last with next := some e }
    return { ph with peTail := some e }

/-- `pollFDOp`; `e` is the address that talloc gives. -/
def pollFDOp (p : Poller U) (e : Addr) (regFD : Int) (op : EpollOp) (watchType : UInt32)
    (action : Option Nat) (userObject : U) (refused : Bool) :
    Except Fault (PassFail × Poller U) := do
  let events := addWatchTypes watchType epollFlags 0
  let ph := p.header.store e ⟨⟨PE_MAGIC, regFD, userObject, action⟩, none, none⟩
  let p := { p with allocated := p.allocated + 1 }
  match epoll_ctl p.interest op regFD (some ⟨events, e⟩) refused with
  | none => return (.FAIL, { p with header := ph.free e })
  | some interest =>
    let ph ← ph.append e
    return (.PASS, { p with header := ph, interest := interest })

/-- `PollRegEvent`. -/
def PollRegEvent (p : Poller U) (e : Addr) (regFD : Int) (watchType : UInt32)
    (action : Option Nat) (userObject : U) (refused : Bool) :
    Except Fault (PassFail × Poller U) := do
  ASSERT_FAIL (PH_MAGIC == p.magic)
  ASSERT_FAIL action.isSome
  ASSERT_FAIL (regFD ≥ 0)
  pollFDOp p e regFD .EPOLL_CTL_ADD watchType action userObject refused

/-- The body of the loop of `PollUnRegEvent`: whether to break off. -/
def isEntryOf (regFD : Int) (_ : Addr) (entry : PollEntry U) : Except Fault Bool := do
  ASSERT_FAIL (PE_MAGIC == entry.item.magic)
  return entry.item.fd == regFD

/-- `PollUnRegEvent`. -/
def PollUnRegEvent (p : Poller U) (regFD : Int) (refused : Bool) :
    Except Fault (PassFail × Poller U) := do
  ASSERT_FAIL (PH_MAGIC == p.magic)
  ASSERT_FAIL (regFD ≥ 0)
  ASSERT_FAIL p.header.peHead.isSome
  match ← (pollLinks U).find .nullDeref .fatal p.header.heap (isEntryOf regFD) p.allocated
      p.header.peHead with
  | none => return (.FAIL, p)
  | some e =>
    let ph ← removePollItem p.header e
    let (_, entry) ← ph.follow (some e)
    match epoll_ctl p.interest .EPOLL_CTL_DEL entry.item.fd none refused with
    | none =>
      let ph := ph.store e { entry with item := { entry.item with magic := 0 } }
      return (.FAIL, { p with header := ph.free e })
    | some interest => return (.PASS, { p with header := ph.free e, interest := interest })

/-! ## Sequences of calls -/

/-- A call; `refused` is the kernel's choice. -/
inductive PollCall (U : Type)
  | PollRegEvent (e : Addr) (regFD : Int) (watchType : UInt32) (action : Option Nat)
      (userObject : U) (refused : Bool)
  | PollUnRegEvent (regFD : Int) (refused : Bool)

def PollCall.run (p : Poller U) : PollCall U → Except Fault (PassFail × Poller U)
  | .PollRegEvent e regFD watchType action userObject refused =>
    Poll.PollRegEvent p e regFD watchType action userObject refused
  | .PollUnRegEvent regFD refused => Poll.PollUnRegEvent p regFD refused

/-- The address a call allocates is free. -/
def PollCall.Fresh (p : Poller U) : PollCall U → Prop
  | .PollRegEvent e .. => p.header.heap e = none
  | .PollUnRegEvent .. => True

/-- What the caller is asked for: an action, a descriptor, and a list that
is not empty to unregister from. -/
def PollCall.Allowed (p : Poller U) : PollCall U → Prop
  | .PollRegEvent _ regFD _ action .. => action.isSome ∧ 0 ≤ regFD
  | .PollUnRegEvent regFD _ => 0 ≤ regFD ∧ p.header.peHead.isSome

/-- The calls that a poll object has seen since `PollInit`, with their
results. -/
inductive Reaches : List (PollCall U × PassFail) → Poller U → Prop
  | PollInit : Reaches [] Poll.PollInit
  | call {past : List (PollCall U × PassFail)} {p p' : Poller U} {c : PollCall U} {r : PassFail}
      (before : Reaches past p) (fresh : c.Fresh p) (result : c.run p = .ok (r, p')) :
      Reaches (past ++ [(c, r)]) p'

/-- What a call makes of the entries. -/
def entriesAfter (entries : List (Addr × PollItem U)) :
    PollCall U × PassFail → List (Addr × PollItem U)
  | (.PollRegEvent e regFD _ action userObject _, .PASS) =>
    entries ++ [(e, ⟨PE_MAGIC, regFD, userObject, action⟩)]
  | (.PollRegEvent .., .FAIL) => entries
  | (.PollUnRegEvent regFD _, _) => entries.filter (·.2.fd ≠ regFD)

/-- The entries that were registered and not unregistered since. -/
def registered (past : List (PollCall U × PassFail)) : List (Addr × PollItem U) :=
  past.foldl entriesAfter []

/-! ## What a call keeps -/

/-- **The poll object has a list of entries**, and the kernel has their
descriptors. -/
structure Poller.Holds (p : Poller U) (entries : List (Addr × PollItem U)) : Prop where
  magic : p.magic = PH_MAGIC
  list : p.header.Describes entries
  distinct : (entries.map (·.2.fd)).Nodup
  member : ∀ e ∈ entries, (p.interest e.2.fd).isSome = true
  turns : entries.length ≤ p.allocated

theorem PollInit_holds : (PollInit : Poller U).Holds [] where
  magic := rfl
  list := ⟨Lib.Links.holdsAt_nil _, fun _ h => absurd h List.not_mem_nil,
    fun _ h => absurd h List.not_mem_nil⟩
  distinct := List.nodup_nil
  member _ h := absurd h List.not_mem_nil
  turns := Nat.le_refl 0

/-- An entry that has been allocated is put behind the others. -/
theorem PollHeader.append_links {ph : PollHeader U} {entries : List (Addr × PollItem U)}
    (h : (pollLinks U).HoldsAt ph.heap ph.peHead ph.peTail entries) {e : Addr}
    (he : ph.heap e = none) (item : PollItem U) :
    ∃ ph', (ph.store e ⟨item, none, none⟩).append e = .ok ph' ∧
      (pollLinks U).HoldsAt ph'.heap ph'.peHead ph'.peTail (entries ++ [(e, item)]) := by
  obtain ⟨peHead, peTail, heap⟩ := ph
  cases peHead with
  | none =>
    have htail : peTail = none := h.ends_eq_none.mp rfl
    subst htail
    exact ⟨_, rfl, h.push_first (n := ⟨item, none, none⟩) rfl rfl⟩
  | some b =>
    have htail : peTail ≠ none := mt h.ends_eq_none.mpr (Option.some_ne_none b)
    obtain ⟨t, rfl⟩ := Option.ne_none_iff_exists'.mp htail
    obtain ⟨last, hlast, hte, hpush⟩ := h.push he (n := ⟨item, some t, none⟩) rfl rfl
    let new : PollEntry U := ⟨item, some t, none⟩
    let ph₁ : PollHeader U := ⟨some b, some t, update heap e (some ⟨item, none, none⟩)⟩
    let ph₂ := ph₁.store e new
    have hfirst : ph₁.follow (some e) = .ok (e, ⟨item, none, none⟩) :=
      follow_ok rfl (update_self ..)
    have hsecond : ph₂.follow (some e) = .ok (e, new) := follow_ok rfl (update_self ..)
    have hthird : ph₂.follow new.prev = .ok (t, last) := by
      apply follow_ok rfl
      exact (update_of_ne hte ..).trans ((update_of_ne hte ..).trans hlast)
    refine ⟨⟨some b, some e, update ph₂.heap t (some { last with next := some e })⟩, ?_, ?_⟩
    · show (do
        let (_, entry) ← ph₁.follow (some e)
        let ph := ph₁.store e { entry with prev := ph₁.peTail }
        let (_, entry) ← ph.follow (some e)
        let (prev, last) ← ph.follow entry.prev
        let ph := ph.store prev { last with next := some e }
        return { ph with peTail := some e }) = _
      rw [hfirst, ok_bind]
      show (ph₂.follow (some e) >>= _) = _
      rw [hsecond, ok_bind]
      show (ph₂.follow new.prev >>= _) = _
      rw [hthird, ok_bind]
      rfl
    · show (pollLinks U).HoldsAt (update (update (update heap e _) e (some new)) t _) _ _ _
      rw [Function.update_idem]
      exact hpush

/-- An entry that is freed again was never there. -/
theorem PollHeader.free_store {ph : PollHeader U} {e : Addr} (he : ph.heap e = none)
    (entry : PollEntry U) : (ph.store e entry).free e = ph := by
  unfold free store
  rw [Function.update_idem, ← he, Function.update_eq_self]

theorem epoll_ctl_add {interest interest' : Int → Option EpollEvent} {fd : Int}
    {event : Option EpollEvent} {refused : Bool}
    (h : epoll_ctl interest .EPOLL_CTL_ADD fd event refused = some interest') :
    interest fd = none ∧ interest' = update interest fd event := by
  simp only [epoll_ctl, Option.ite_none_left_eq_some, Option.some.injEq] at h
  obtain ⟨-, hnone, rfl⟩ := h
  exact ⟨Option.not_isSome_iff_eq_none.mp hnone, rfl⟩

theorem epoll_ctl_del {interest interest' : Int → Option EpollEvent} {fd : Int}
    {event : Option EpollEvent} {refused : Bool}
    (h : epoll_ctl interest .EPOLL_CTL_DEL fd event refused = some interest') :
    interest' = update interest fd none := by
  simp only [epoll_ctl, Option.ite_none_left_eq_some, Option.some.injEq] at h
  exact h.2.symm

/-- What holds of the entries and of a new one holds of all. -/
theorem forall_mem_snoc {α : Type} {P : α → Prop} {l : List α} {a : α} (hl : ∀ x ∈ l, P x)
    (ha : P a) : ∀ x ∈ l ++ [a], P x := by
  intro x hx
  rcases List.mem_append.mp hx with hx | hx
  · exact hl x hx
  · rwa [List.mem_singleton.mp hx]

/-- What a call of `PollRegEvent` does. -/
theorem Poller.Holds.PollRegEvent {p : Poller U} {entries : List (Addr × PollItem U)}
    (h : p.Holds entries) {e : Addr} (he : p.header.heap e = none) {regFD : Int}
    (hfd : 0 ≤ regFD) (watchType : UInt32) {action : Option Nat}
    (haction : action.isSome = true) (userObject : U) (refused : Bool) :
    ∃ r p', Poll.PollRegEvent p e regFD watchType action userObject refused = .ok (r, p') ∧
      p'.Holds (entriesAfter entries
        (.PollRegEvent e regFD watchType action userObject refused, r)) ∧
      (r = .FAIL → p'.header = p.header) := by
  let item : PollItem U := ⟨PE_MAGIC, regFD, userObject, action⟩
  have hrun : Poll.PollRegEvent p e regFD watchType action userObject refused =
      pollFDOp p e regFD .EPOLL_CTL_ADD watchType action userObject refused := by
    simp [Poll.PollRegEvent, h.magic, haction, hfd, ok_bind]
  rw [hrun]
  unfold pollFDOp
  cases hctl : epoll_ctl p.interest .EPOLL_CTL_ADD regFD
      (some ⟨addWatchTypes watchType epollFlags 0, e⟩) refused with
  | none =>
    have hsame : (p.header.store e ⟨item, none, none⟩).free e = p.header :=
      PollHeader.free_store he _
    refine ⟨.FAIL, { p with header := p.header, allocated := p.allocated + 1 }, ?_,
      ⟨h.magic, h.list, h.distinct, h.member, Nat.le_succ_of_le h.turns⟩, fun _ => rfl⟩
    simp only [hctl]
    rw [hsame]
    rfl
  | some interest =>
    obtain ⟨hfree, rfl⟩ := epoll_ctl_add hctl
    obtain ⟨ph', happend, hlinks⟩ := PollHeader.append_links h.list.links he item
    -- The kernel has the descriptors of the list, and it did not have this one.
    have hnew : ∀ x ∈ entries, x.2.fd ≠ regFD := by
      rintro x hx rfl
      have hmember := h.member x hx
      rw [hfree] at hmember
      cases hmember
    let p' : Poller U := ⟨p.magic, ph', update p.interest regFD
      (some ⟨addWatchTypes watchType epollFlags 0, e⟩), p.allocated + 1⟩
    have hresult : p'.Holds (entries ++ [(e, item)]) := by
      refine ⟨h.magic, ⟨hlinks, forall_mem_snoc h.list.magic rfl,
        forall_mem_snoc h.list.action haction⟩, ?_, forall_mem_snoc ?_ ?_, ?_⟩
      · rw [List.map_append, List.nodup_append]
        refine ⟨h.distinct, List.nodup_singleton _, ?_⟩
        intro x hx y hy
        obtain ⟨entry, hentry, rfl⟩ := List.mem_map.mp hx
        rw [List.mem_singleton.mp hy]
        exact hnew entry hentry
      · intro x hx
        exact (congrArg Option.isSome (update_of_ne (hnew x hx) ..)).trans (h.member x hx)
      · show (update p.interest regFD _ regFD).isSome = true
        rw [update_self]
        rfl
      · rw [List.length_append]
        exact Nat.succ_le_succ h.turns
    refine ⟨.PASS, p', ?_, hresult, fun hfail => ?_⟩
    · simp only [hctl]
      rw [happend]
      rfl
    · cases hfail

/-- The entries without a descriptor are those without the address of its
entry. -/
theorem Poller.Holds.filter_fd {p : Poller U} {entries : List (Addr × PollItem U)}
    (h : p.Holds entries) {a : Addr} {item : PollItem U} (ha : (a, item) ∈ entries) :
    entries.filter (·.2.fd ≠ item.fd) = entries.filter (·.1 ≠ a) := by
  apply List.filter_congr
  intro x hx
  have hsame : x.2.fd = item.fd ↔ x.1 = a := by
    constructor
    · intro hfd
      rw [List.inj_on_of_nodup_map h.distinct hx ha hfd]
    · intro haddr
      rw [List.inj_on_of_nodup_map h.list.nodup hx ha haddr]
  rw [decide_eq_decide]
  exact not_congr hsame

/-- An entry has been removed, and nothing else has happened. -/
theorem Poller.Holds.removed {p p' : Poller U} {entries : List (Addr × PollItem U)}
    (h : p.Holds entries) {regFD : Int} (hmagic : p'.magic = p.magic)
    (hlist : p'.header.Describes (entries.filter (·.2.fd ≠ regFD)))
    (hinterest : ∀ fd, fd ≠ regFD → p'.interest fd = p.interest fd)
    (hallocated : p'.allocated = p.allocated) :
    p'.Holds (entries.filter (·.2.fd ≠ regFD)) where
  magic := hmagic.trans h.magic
  list := hlist
  distinct := h.distinct.sublist (List.filter_sublist.map _)
  member x hx := by
    obtain ⟨hx, hne⟩ := List.mem_filter.mp hx
    rw [hinterest x.2.fd (of_decide_eq_true hne)]
    exact h.member x hx
  turns := by
    rw [hallocated]
    exact Nat.le_trans (List.length_filter_le _ _) h.turns

/-- What a call of `PollUnRegEvent` does. -/
theorem Poller.Holds.PollUnRegEvent {p : Poller U} {entries : List (Addr × PollItem U)}
    (h : p.Holds entries) {regFD : Int} (hfd : 0 ≤ regFD)
    (hhead : p.header.peHead.isSome = true) (refused : Bool) :
    ∃ r p', Poll.PollUnRegEvent p regFD refused = .ok (r, p') ∧
      p'.Holds (entriesAfter entries (.PollUnRegEvent regFD refused, r)) ∧
      ((∀ x ∈ entries, x.2.fd ≠ regFD) → r = .FAIL ∧ p' = p) := by
  have hwalk : (pollLinks U).find .nullDeref .fatal p.header.heap (isEntryOf regFD) p.allocated
      p.header.peHead = .ok ((entries.find? (·.2.fd == regFD)).map Prod.fst) := by
    apply h.list.links.find _ h.turns
    intro a entry hentry
    have hmagic : entry.item.magic = PE_MAGIC := h.list.magic _ hentry
    simp [isEntryOf, hmagic, pollLinks, ok_bind, pure, Except.pure]
  unfold Poll.PollUnRegEvent
  simp only [h.magic, hfd, hhead, hwalk, beq_self_eq_true, decide_true,
    ASSERT_FAIL_true, ok_bind]
  cases hfound : entries.find? (·.2.fd == regFD) with
  | none =>
    have hnone : ∀ x ∈ entries, x.2.fd ≠ regFD := fun x hx heq =>
      List.find?_eq_none.mp hfound x hx (beq_iff_eq.mpr heq)
    have hkept : entries.filter (·.2.fd ≠ regFD) = entries :=
      List.filter_eq_self.mpr fun x hx => decide_eq_true (hnone x hx)
    refine ⟨.FAIL, p, rfl, ?_, fun _ => ⟨rfl, rfl⟩⟩
    show p.Holds (entries.filter (·.2.fd ≠ regFD))
    rw [hkept]
    exact h
  | some x =>
    obtain ⟨a, item⟩ := x
    have hmem := List.mem_of_find?_eq_some hfound
    have hitem : item.fd = regFD := by
      simpa only [beq_iff_eq] using List.find?_some hfound
    subst hitem
    obtain ⟨entry, hentry, rfl⟩ := h.list.entry hmem
    obtain ⟨ph', hremove, hsame, hlist⟩ := removePollItem_describes h.list hmem
    rw [← h.filter_fd hmem] at hlist
    have hread : ph'.follow (some a) = .ok (a, entry) :=
      PollHeader.follow_ok rfl (hsame.trans hentry)
    have hfreed : ∀ heap, (∀ x, x ≠ a → heap x = ph'.heap x) →
        ({ ph' with heap := heap } : PollHeader U).Describes
          (entries.filter (·.2.fd ≠ entry.item.fd)) := by
      intro heap hheap
      refine hlist.congr fun x hx => hheap x.1 ?_
      rw [h.filter_fd hmem] at hx
      exact of_decide_eq_true (List.mem_filter.mp hx).2
    have hpresent : (∀ x ∈ entries, x.2.fd ≠ entry.item.fd) → False :=
      fun hnone => hnone _ hmem rfl
    simp only [Option.map_some, hremove, hread, ok_bind]
    cases hctl : epoll_ctl p.interest .EPOLL_CTL_DEL entry.item.fd none refused with
    | none =>
      refine ⟨.FAIL, _, rfl, h.removed h.magic.symm (hfreed _ ?_) (fun fd _ => rfl) rfl,
        fun hnone => (hpresent hnone).elim⟩
      intro x hx
      exact (update_of_ne hx ..).trans (update_of_ne hx ..)
    | some interest =>
      obtain rfl := epoll_ctl_del hctl
      refine ⟨.PASS, _, rfl, h.removed h.magic.symm (hfreed _ ?_) ?_ rfl,
        fun hnone => (hpresent hnone).elim⟩
      · intro x hx
        exact update_of_ne hx ..
      · intro fd hne
        exact update_of_ne hne ..

/-! ## The list of a run -/

/-- A call that may be made returns, and the entries are what it says. -/
theorem Poller.Holds.run {p : Poller U} {entries : List (Addr × PollItem U)} (h : p.Holds entries)
    {c : PollCall U} (hfresh : c.Fresh p) (hallowed : c.Allowed p) :
    ∃ r p', c.run p = .ok (r, p') ∧ p'.Holds (entriesAfter entries (c, r)) := by
  cases c with
  | PollRegEvent e regFD watchType action userObject refused =>
    obtain ⟨r, p', hrun, hholds, -⟩ :=
      h.PollRegEvent hfresh hallowed.2 watchType hallowed.1 userObject refused
    exact ⟨r, p', hrun, hholds⟩
  | PollUnRegEvent regFD refused =>
    obtain ⟨r, p', hrun, hholds, -⟩ := h.PollUnRegEvent hallowed.1 hallowed.2 refused
    exact ⟨r, p', hrun, hholds⟩

/-- A call that returns may be made. -/
theorem PollCall.allowed_of_ok {p p' : Poller U} {c : PollCall U} {r : PassFail}
    (h : c.run p = .ok (r, p')) : c.Allowed p := by
  cases c with
  | PollRegEvent e regFD watchType action userObject refused =>
    obtain ⟨-, h⟩ := of_ASSERT_FAIL h
    obtain ⟨haction, h⟩ := of_ASSERT_FAIL h
    obtain ⟨hfd, -⟩ := of_ASSERT_FAIL h
    exact ⟨haction, of_decide_eq_true hfd⟩
  | PollUnRegEvent regFD refused =>
    obtain ⟨-, h⟩ := of_ASSERT_FAIL h
    obtain ⟨hfd, h⟩ := of_ASSERT_FAIL h
    obtain ⟨hhead, -⟩ := of_ASSERT_FAIL h
    exact ⟨of_decide_eq_true hfd, hhead⟩

/-- **The list of a poll object** is what the calls say. -/
theorem Reaches.holds {past : List (PollCall U × PassFail)} {p : Poller U} (h : Reaches past p) :
    p.Holds (registered past) := by
  induction h with
  | PollInit => exact PollInit_holds
  | call before fresh result ih =>
    obtain ⟨r, p', hrun, hholds⟩ := ih.run fresh (PollCall.allowed_of_ok result)
    rw [result] at hrun
    cases hrun
    rw [registered, List.foldl_append]
    exact hholds

/-- **The registry over a run.** The list is exactly the entries that the
calls have registered and not unregistered since, in the order of
registration, with consistent links and no descriptor twice; a call that
may be made returns; a registration that is refused leaves the list as it
is, and so does the removal of a descriptor that is not in it. -/
theorem poll_registry {past : List (PollCall U × PassFail)} {p : Poller U}
    (h : Reaches past p) :
    p.header.Describes (registered past) ∧ ((registered past).map (·.2.fd)).Nodup ∧
      (∀ c : PollCall U, c.Fresh p → (c.Allowed p ↔ ∃ r p', c.run p = .ok (r, p'))) ∧
      (∀ e regFD watchType action userObject refused p', p.header.heap e = none →
        PollRegEvent p e regFD watchType action userObject refused = .ok (.FAIL, p') →
        p'.header = p.header) ∧
      (∀ regFD refused, 0 ≤ regFD → registered past ≠ [] →
        (∀ x ∈ registered past, x.2.fd ≠ regFD) →
        PollUnRegEvent p regFD refused = .ok (.FAIL, p)) := by
  have hholds := h.holds
  refine ⟨hholds.list, hholds.distinct, ?_, ?_, ?_⟩
  · intro c hfresh
    constructor
    · intro hallowed
      obtain ⟨r, p', hrun, -⟩ := hholds.run hfresh hallowed
      exact ⟨r, p', hrun⟩
    · rintro ⟨r, p', hrun⟩
      exact PollCall.allowed_of_ok hrun
  · intro e regFD watchType action userObject refused p' hfresh hrun
    obtain ⟨haction, hfd⟩ := PollCall.allowed_of_ok
      (c := .PollRegEvent e regFD watchType action userObject refused) hrun
    obtain ⟨r, p'', hrun', -, hsame⟩ :=
      hholds.PollRegEvent hfresh hfd watchType haction userObject refused
    rw [hrun] at hrun'
    cases hrun'
    exact hsame rfl
  · intro regFD refused hfd hne hnone
    have hhead : p.header.peHead.isSome = true :=
      Option.isSome_iff_ne_none.mpr (mt hholds.list.links.head_eq_none.mp hne)
    obtain ⟨r, p', hrun, -, hsame⟩ := hholds.PollUnRegEvent hfd hhead refused
    obtain ⟨rfl, rfl⟩ := hsame hnone
    exact hrun

/-- Two descriptors are registered, one of them twice, and the first is
unregistered although the kernel refuses. -/
theorem poll_registry_run : ∃ p : Poller Unit,
    let past : List (PollCall Unit × PassFail) :=
      [(.PollRegEvent 1 5 POLL_WT_IN (some 0) () false, .PASS),
        (.PollRegEvent 2 6 POLL_WT_IN (some 0) () false, .PASS),
        (.PollRegEvent 3 5 POLL_WT_IN (some 0) () false, .FAIL),
        (.PollUnRegEvent 5 true, .FAIL)]
    Reaches past p ∧ p.header.Describes (registered past) ∧
      (registered past).map (·.2.fd) = [6] := by
  have hreaches := (((Reaches.PollInit.call (U := Unit)
    (c := .PollRegEvent 1 5 POLL_WT_IN (some 0) () false) rfl rfl).call
    (c := .PollRegEvent 2 6 POLL_WT_IN (some 0) () false) rfl rfl).call
    (c := .PollRegEvent 3 5 POLL_WT_IN (some 0) () false) rfl rfl).call
    (c := .PollUnRegEvent 5 true) trivial rfl
  exact ⟨_, hreaches, (poll_registry hreaches).1, rfl⟩

end XplEvent.Poll
