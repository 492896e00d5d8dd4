import XplEvent.Base
import XplEvent.Lib.ListHeader

/-!
# The poller's list of entries

Each descriptor that is polled has an entry in a doubly linked list: what
to call when it is ready, and with what. The kernel keeps the address of
the entry and gives it back with an event. An entry is taken out of the
list by `removePollItem`, which tells four cases apart: the only entry, the
first, the last, and one in the middle.
-/

namespace XplEvent.Poll

open Function (update)

/-- The address of an entry. -/
abbrev Addr := Nat

def PE_MAGIC : UInt32 := 0x6812AC45

/-- `PollEntry_t` without its links. A user object is `U`; an action is a
function of the descriptor, the watch type and the user object, known by
its number. -/
structure PollItem (U : Type) where
  magic : UInt32
  fd : Int
  userObject : U
  action : Option Nat

/-- `PollEntry_t`. -/
structure PollEntry (U : Type) where
  item : PollItem U
  prev : Option Addr
  next : Option Addr

/-- `PollHeader_t`: the list, and the entries that are allocated. -/
structure PollHeader (U : Type) where
  peHead : Option Addr
  peTail : Option Addr
  heap : Addr → Option (PollEntry U)

variable {U : Type}

/-- An entry is written. -/
def PollHeader.store (ph : PollHeader U) (a : Addr) (e : PollEntry U) : PollHeader U :=
  { ph with heap := update ph.heap a (some e) }

/-- The entry a pointer leads to. -/
def PollHeader.follow (ph : PollHeader U) (p : Option Addr) :
    Except Fault (Addr × PollEntry U) := do
  let a ← deref p
  let e ← deref (ph.heap a)
  return (a, e)

/-- `removePollItem`. -/
def removePollItem (ph : PollHeader U) (e : Addr) : Except Fault (PollHeader U) := do
  let entry ← deref (ph.heap e)
  match entry.prev, entry.next with
  | none, none => return { ph with peHead := none, peTail := none }
  | none, some _ =>
    let (_, head) ← ph.follow ph.peHead
    let (next, second) ← ph.follow head.next
    let ph := ph.store next { second with prev := none }
    let (_, head) ← ph.follow ph.peHead
    return { ph with peHead := head.next }
  | some _, none =>
    let (_, tail) ← ph.follow ph.peTail
    let (prev, last) ← ph.follow tail.prev
    let ph := ph.store prev { last with next := none }
    let (_, tail) ← ph.follow ph.peTail
    return { ph with peTail := tail.prev }
  | some prev, some _ =>
    let (_, before) ← ph.follow (some prev)
    let ph := ph.store prev { before with next := entry.next }
    let (_, entry) ← ph.follow (some e)
    let (next, behind) ← ph.follow entry.next
    return ph.store next { behind with prev := entry.prev }

/-- `talloc_free` of an entry. -/
def PollHeader.free (ph : PollHeader U) (e : Addr) : PollHeader U :=
  { ph with heap := update ph.heap e none }

/-! ## What the list holds -/

/-- An entry, with its links. -/
def pollLinks (U : Type) : Lib.Links Addr (PollEntry U) (PollItem U) where
  value entry := entry.item
  prev entry := entry.prev
  next entry := entry.next
  setPrev entry p := { entry with prev := p }
  setNext entry p := { entry with next := p }
  value_setPrev _ _ := rfl
  prev_setPrev _ _ := rfl
  next_setPrev _ _ := rfl
  value_setNext _ _ := rfl
  prev_setNext _ _ := rfl
  next_setNext _ _ := rfl

/-- **The header describes a list of entries**: its links are consistent
from head to tail, and each entry can be called. -/
structure PollHeader.Describes (ph : PollHeader U) (entries : List (Addr × PollItem U)) : Prop where
  links : (pollLinks U).HoldsAt ph.heap ph.peHead ph.peTail entries
  magic : ∀ e ∈ entries, e.2.magic = PE_MAGIC
  action : ∀ e ∈ entries, e.2.action.isSome = true

/-- The header, as the list knows it. -/
def PollHeader.ends (ph : PollHeader U) : Lib.Header Addr (PollEntry U) :=
  ⟨ph.peHead, ph.peTail, ph.heap⟩

def PollHeader.ofEnds (h : Lib.Header Addr (PollEntry U)) : PollHeader U := ⟨h.head, h.tail, h.heap⟩

theorem PollHeader.follow_ok {ph : PollHeader U} {p : Option Addr} {a : Addr} {e : PollEntry U}
    (hp : p = some a) (he : ph.heap a = some e) : ph.follow p = .ok (a, e) := by
  rw [follow, hp, deref_some, ok_bind, he]
  rfl

/-- An entry is followed as a cell of a list is. -/
theorem PollHeader.follow_eq (ph : PollHeader U) (p : Option Addr) :
    ph.follow p = ph.ends.follow .nullDeref p := by
  cases p with
  | none => rfl
  | some a =>
    cases he : ph.heap a with
    | none =>
      rw [follow, deref_some, ok_bind, he, Lib.Header.follow_error (h := ph.ends) he]
      rfl
    | some e => exact (follow_ok rfl he).trans (Lib.Header.follow_ok rfl he).symm

theorem except_map_bind {α β γ : Type} (x : Except Fault α) (f : α → Except Fault β) (g : β → γ) :
    (x >>= f).map g = x >>= fun a => (f a).map g := by
  cases x with
  | error e => rfl
  | ok a => rfl

/-- An entry is removed as a cell of a list is. -/
theorem removePollItem_eq (ph : PollHeader U) (a : Addr) :
    removePollItem ph a = ((pollLinks U).remove .nullDeref ph.ends a).map PollHeader.ofEnds := by
  unfold removePollItem Lib.Links.remove
  cases he : ph.heap a with
  | none =>
    rw [Lib.Header.follow_error (h := ph.ends) he]
    rfl
  | some entry =>
    rw [Lib.Header.follow_ok (h := ph.ends) rfl he, deref_some, ok_bind, ok_bind]
    obtain ⟨item, prev, next⟩ := entry
    simp only [PollHeader.follow_eq, pollLinks]
    cases prev with
    | none =>
      cases next with
      | none => rfl
      | some q =>
        simp only [except_map_bind]
        rfl
    | some p =>
      cases next with
      | none =>
        simp only [except_map_bind]
        rfl
      | some q =>
        simp only [except_map_bind]
        rfl

theorem PollHeader.Describes.nodup {ph : PollHeader U} {entries : List (Addr × PollItem U)}
    (h : ph.Describes entries) : (entries.map Prod.fst).Nodup := h.links.nodup

/-- What an address of the list leads to. -/
theorem PollHeader.Describes.entry {ph : PollHeader U} {entries : List (Addr × PollItem U)}
    (h : ph.Describes entries) {a : Addr} {item : PollItem U} (ha : (a, item) ∈ entries) :
    ∃ entry, ph.heap a = some entry ∧ entry.item = item := h.links.cell ha

/-- **An entry is removed**: the others stay in their order, and the entry
itself can still be written. -/
theorem removePollItem_describes {ph : PollHeader U} {entries : List (Addr × PollItem U)}
    (h : ph.Describes entries) {a : Addr} {item : PollItem U} (ha : (a, item) ∈ entries) :
    ∃ ph', removePollItem ph a = .ok ph' ∧ ph'.heap a = ph.heap a ∧
      ph'.Describes (entries.filter (·.1 ≠ a)) := by
  have hheld : (pollLinks U).HeldBy ph.ends entries := h.links
  obtain ⟨ends, hremove, hsame, hlinks, -⟩ := hheld.remove ha Fault.nullDeref
  refine ⟨.ofEnds ends, ?_, hsame, hlinks, ?_, ?_⟩
  · rw [removePollItem_eq, hremove]
    rfl
  · intro e he
    exact h.magic e (List.mem_of_mem_filter he)
  · intro e he
    exact h.action e (List.mem_of_mem_filter he)

/-- Memory of other entries may be written and freed. -/
theorem PollHeader.Describes.congr {ph : PollHeader U} {entries : List (Addr × PollItem U)}
    (h : ph.Describes entries) {heap : Addr → Option (PollEntry U)}
    (heq : ∀ e ∈ entries, heap e.1 = ph.heap e.1) :
    ({ ph with heap := heap } : PollHeader U).Describes entries :=
  ⟨h.links.congr heq, h.magic, h.action⟩

end XplEvent.Poll
