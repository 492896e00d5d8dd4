import Mathlib.Algebra.Group.Nat.Defs
import XplEvent.Base
import XplEvent.Lib.LinkedList

/-!
# The receive queue

The receiver thread puts the datagrams that come in into a queue, and the
main thread takes them out. The queue is a doubly linked list of entries
that talloc allocates; both threads work on it with the header locked, so a
call is one step. An entry that is not allocated is followed as `NULL` is.

Behind the descriptor of the ready event is the counter of an `eventfd`.
-/

namespace XplEvent.Receiver

open Function (update)

/-! ## Entries -/

/-- The address of an entry. -/
abbrev Addr := Nat

def RXBUFFSIZE : Nat := 1501

def XH_MAGIC : UInt32 := 0x7A1F0CE2

def RQ_MAGIC : UInt32 := 0x39CF41A2

/-- `rxQEntry_t`. -/
structure RxQEntry where
  magic : UInt32
  rawStr : CString
  prev : Option Addr
  next : Option Addr
deriving DecidableEq, Repr

/-- `rxHead_t`: what the functions of the queue use. -/
structure RxHead where
  magic : UInt32
  numRxEntries : UInt32
  /-- The counter of the ready event, if its descriptor is defined. -/
  rxReadyFD : Option Nat
  /-- The entries that are allocated. -/
  rxQEPool : Addr → Option RxQEntry
  head : Option Addr
  tail : Option Addr

/-- The header as `XplRXInit` sets it up for the main thread. -/
def RxHead.initial : RxHead where
  magic := XH_MAGIC
  numRxEntries := 0
  rxReadyFD := some 0
  rxQEPool := fun _ => none
  head := none
  tail := none

/-- An entry is written. -/
def RxHead.store (xh : RxHead) (a : Addr) (entry : RxQEntry) : RxHead :=
  { xh with rxQEPool := update xh.rxQEPool a (some entry) }

/-- `talloc_free` of an entry. -/
def RxHead.free (xh : RxHead) (a : Addr) : RxHead :=
  { xh with rxQEPool := update xh.rxQEPool a none }

/-! ## The ready event -/

/-- The largest value of the counter of an `eventfd`. -/
def eventMax : Nat := 2 ^ 64 - 2

/-- `write` of 1 to an `eventfd`: it fails if the counter would overflow. -/
def eventWrite (count : Nat) : Option Nat :=
  if count + 1 ≤ eventMax then some (count + 1) else none

/-- A counter is not zero behind a `write`: one that is full stays so. -/
theorem eventWrite_pos (count : Nat) : ∃ n, (eventWrite count).getD count = n + 1 := by
  unfold eventWrite
  split
  · exact ⟨count, rfl⟩
  · rename_i hfull
    unfold eventMax at hfull
    refine ⟨count - 1, ?_⟩
    show count = count - 1 + 1
    omega

/-- `rxSendReady`. -/
def rxSendReady (xh : RxHead) : RxHead × PassFail :=
  match xh.rxReadyFD with
  | none => (xh, .PASS)
  | some count =>
    match eventWrite count with
    | some count => ({ xh with rxReadyFD := some count }, .PASS)
    | none => (xh, .FAIL)

/-! ## The queue -/

/-- `rxQueueRawString`; `rq` is the address that talloc gives. -/
def rxQueueRawString (xh : RxHead) (rq : Addr) (rawStr : CString) : Except Fault RxHead := do
  let entry : RxQEntry := ⟨RQ_MAGIC, rawStr, none, none⟩
  let xh := xh.store rq entry
  let xh ← match xh.tail with
    | none => pure { xh with head := some rq, tail := some rq }
    | some tail => do
      let xh := xh.store rq { entry with prev := some tail }
      let last ← deref (xh.rxQEPool tail)
      let xh := xh.store tail { last with next := some rq }
      pure { xh with tail := some rq }
  return { xh with numRxEntries := xh.numRxEntries + 1 }

/-- `rxDQRawString`. -/
def rxDQRawString (xh : RxHead) : Except Fault (RxHead × Option CString) :=
  match xh.head with
  | none => .ok (xh, none)
  | some rq => do
    let entry ← deref (xh.rxQEPool rq)
    ASSERT_FAIL (RQ_MAGIC = entry.magic)
    let xh ← match entry.next with
      | some next => do
        let second ← deref (xh.rxQEPool next)
        let xh := xh.store next { second with prev := none }
        pure { xh with head := some next }
      | none => pure { xh with head := none, tail := none }
    let xh := xh.store rq { entry with magic := 0 }
    let xh := xh.free rq
    return ({ xh with numRxEntries := xh.numRxEntries - 1 }, some entry.rawStr)

/-- `rxIncomingAction`; `received` is what `recvfrom` gives, or `none` if it
fails. -/
def rxIncomingAction (xh : RxHead) (rq : Addr) (received : Option CString) :
    Except Fault RxHead := do
  ASSERT_FAIL (XH_MAGIC = xh.magic)
  match received with
  | none => return xh
  | some datagram =>
    let rxBuff ← bufEnd RXBUFFSIZE (datagram.take (RXBUFFSIZE - 1))
    let xh ← rxQueueRawString xh rq (cutNul rxBuff)
    return (rxSendReady xh).1

/-- `XplrxDQRawString`. -/
def XplrxDQRawString (xh : RxHead) : Except Fault (RxHead × Option CString) := do
  ASSERT_FAIL (XH_MAGIC = xh.magic)
  match ← rxDQRawString xh with
  | (xh, none) => return (xh, none)
  | (xh, some pStr) =>
    let res ← UtilMoveString pStr 0
    return (xh, some res)

/-! ## What the queue holds -/

/-- An entry, with its links. -/
def rxLinks : Lib.Links Addr RxQEntry (UInt32 × CString) where
  value entry := (entry.magic, entry.rawStr)
  prev entry := entry.prev
  next entry := entry.next
  setPrev entry p := { entry with prev := p }
  setNext entry p := { entry with next := p }
  value_setPrev _ _ := rfl
  prev_setPrev _ _ := rfl
  next_setPrev _ _ := rfl
  value_setNext _ _ := rfl
  prev_setNext _ _ := rfl
  next_setNext _ _ := rfl

/-- **The header describes a queue**: its links, from head to tail, are the
list of the strings, and the count is their number. -/
structure RxHead.Describes (xh : RxHead) (queue : List CString) : Prop where
  magic : xh.magic = XH_MAGIC
  links : rxLinks.Holds xh.rxQEPool xh.head xh.tail (queue.map fun s => (RQ_MAGIC, s))
  numRxEntries : xh.numRxEntries = UInt32.ofNat queue.length

theorem initial_describes : RxHead.initial.Describes [] :=
  ⟨rfl, Lib.Links.holds_nil _, rfl⟩

theorem rxQueueRawString_first {xh : RxHead} (h : xh.tail = none) (rq : Addr) (rawStr : CString) :
    rxQueueRawString xh rq rawStr = .ok { xh with
      rxQEPool := update xh.rxQEPool rq (some ⟨RQ_MAGIC, rawStr, none, none⟩)
      head := some rq
      tail := some rq
      numRxEntries := xh.numRxEntries + 1 } := by
  unfold rxQueueRawString
  simp only [RxHead.store, h]
  rfl

theorem rxQueueRawString_behind {xh : RxHead} {tail : Addr} (h : xh.tail = some tail) {last : RxQEntry}
    (hlast : xh.rxQEPool tail = some last) {rq : Addr} (hne : tail ≠ rq) (rawStr : CString) :
    rxQueueRawString xh rq rawStr = .ok { xh with
      rxQEPool := update (update xh.rxQEPool rq (some ⟨RQ_MAGIC, rawStr, some tail, none⟩)) tail
        (some { last with next := some rq })
      tail := some rq
      numRxEntries := xh.numRxEntries + 1 } := by
  have hderef : update xh.rxQEPool rq (some ⟨RQ_MAGIC, rawStr, some tail, none⟩) tail =
      some last := by
    rw [Function.update_of_ne hne]
    exact hlast
  unfold rxQueueRawString
  simp only [RxHead.store, h, Function.update_idem, hderef, deref_some, ok_bind]
  rfl

/-- **A string is put at the end of the queue.** -/
theorem rxQueueRawString_describes {xh : RxHead} {queue : List CString} (h : xh.Describes queue)
    {rq : Addr} (hrq : xh.rxQEPool rq = none) (rawStr : CString) : ∃ xh',
      rxQueueRawString xh rq rawStr = .ok xh' ∧ xh'.Describes (queue ++ [rawStr]) ∧
      xh'.rxReadyFD = xh.rxReadyFD := by
  have hcount : xh.numRxEntries + 1 = UInt32.ofNat (queue ++ [rawStr]).length := by
    rw [h.numRxEntries, List.length_append]
    exact (UInt32.ofNat_add queue.length 1).symm
  have hqueue : (queue ++ [rawStr]).map (fun s => (RQ_MAGIC, s)) =
      queue.map (fun s => (RQ_MAGIC, s)) ++ [(RQ_MAGIC, rawStr)] := List.map_append
  have hlinks := h.links
  cases htail : xh.tail with
  | none =>
    rw [htail] at hlinks
    refine ⟨_, rxQueueRawString_first htail rq rawStr, ⟨h.magic, ?_, hcount⟩, rfl⟩
    rw [hqueue]
    have hpush := hlinks.push_first (a := rq) (n := ⟨RQ_MAGIC, rawStr, none, none⟩) rfl rfl
    exact hpush
  | some tail =>
    rw [htail] at hlinks
    obtain ⟨last, hlast, hne, hpush⟩ :=
      hlinks.push hrq (n := ⟨RQ_MAGIC, rawStr, some tail, none⟩) rfl rfl
    refine ⟨_, rxQueueRawString_behind htail hlast hne rawStr, ⟨h.magic, ?_, hcount⟩, rfl⟩
    rw [hqueue]
    exact hpush

theorem rxDQRawString_empty {xh : RxHead} (h : xh.head = none) :
    rxDQRawString xh = .ok (xh, none) := by
  rw [rxDQRawString, h]

theorem rxDQRawString_last {xh : RxHead} {rq : Addr} (h : xh.head = some rq) {entry : RxQEntry}
    (hentry : xh.rxQEPool rq = some entry) (hmagic : entry.magic = RQ_MAGIC)
    (hnext : entry.next = none) :
    rxDQRawString xh = .ok ({ xh with
      rxQEPool := update xh.rxQEPool rq none
      head := none
      tail := none
      numRxEntries := xh.numRxEntries - 1 }, some entry.rawStr) := by
  unfold rxDQRawString
  simp only [h, hentry, deref_some, ok_bind, hmagic, decide_true, ASSERT_FAIL_true, hnext,
    RxHead.store, RxHead.free, Function.update_idem]
  rfl

theorem rxDQRawString_front {xh : RxHead} {rq next : Addr} (h : xh.head = some rq)
    {entry second : RxQEntry} (hentry : xh.rxQEPool rq = some entry)
    (hmagic : entry.magic = RQ_MAGIC) (hnext : entry.next = some next)
    (hsecond : xh.rxQEPool next = some second) :
    rxDQRawString xh = .ok ({ xh with
      rxQEPool := update (update xh.rxQEPool next (some { second with prev := none })) rq none
      head := some next
      numRxEntries := xh.numRxEntries - 1 }, some entry.rawStr) := by
  unfold rxDQRawString
  simp only [h, hentry, deref_some, ok_bind, hmagic, decide_true, ASSERT_FAIL_true, hnext, hsecond,
    RxHead.store, RxHead.free, Function.update_idem]
  rfl

/-- **A string is taken from the front of the queue**, or the queue is
empty. -/
theorem rxDQRawString_describes {xh : RxHead} {queue : List CString} (h : xh.Describes queue) :
    ∃ xh', rxDQRawString xh = .ok (xh', queue.head?) ∧ xh'.Describes queue.tail ∧
      xh'.rxReadyFD = xh.rxReadyFD := by
  have hlinks := h.links
  cases hhead : xh.head with
  | none =>
    have hempty := List.map_eq_nil_iff.mp (hlinks.head_eq_none.mp hhead)
    rw [hempty] at h ⊢
    exact ⟨xh, rxDQRawString_empty hhead, h, rfl⟩
  | some rq =>
    rw [hhead] at hlinks
    obtain ⟨entry, rest, hentry, hvalues, hpop⟩ := hlinks.pop
    cases queue with
    | nil => cases hvalues
    | cons s queue =>
      obtain ⟨hvalue, rfl⟩ := List.cons.inj hvalues
      have hmagic : entry.magic = RQ_MAGIC := (congrArg Prod.fst hvalue).symm
      have hstr : s = entry.rawStr := congrArg Prod.snd hvalue
      have hcount : xh.numRxEntries - 1 = UInt32.ofNat queue.length := by
        rw [h.numRxEntries, List.length_cons, UInt32.ofNat_add]
        exact UInt32.add_sub_cancel _ _
      rw [hstr]
      cases hnext : entry.next with
      | none =>
        rw [show rxLinks.next entry = none from hnext] at hpop
        exact ⟨_, rxDQRawString_last hhead hentry hmagic hnext, ⟨h.magic, hpop, hcount⟩, rfl⟩
      | some next =>
        rw [show rxLinks.next entry = some next from hnext] at hpop
        obtain ⟨second, hsecond, -, hpop⟩ := hpop
        exact ⟨_, rxDQRawString_front hhead hentry hmagic hnext hsecond,
          ⟨h.magic, hpop, hcount⟩, rfl⟩

/-! ## Datagrams -/

/-- The string that a datagram becomes: what fits the buffer, cut at its
first NUL. -/
def arrival (datagram : CString) : CString := cutNul (datagram.take (RXBUFFSIZE - 1))

/-- The ready event leaves the queue alone. -/
theorem RxHead.Describes.sendReady {xh : RxHead} {queue : List CString} (h : xh.Describes queue) :
    (rxSendReady xh).1.Describes queue := by
  unfold rxSendReady
  cases xh.rxReadyFD with
  | none => exact h
  | some count =>
    simp only
    cases eventWrite count with
    | none => exact h
    | some count' => exact ⟨h.magic, h.links, h.numRxEntries⟩

/-- The counter is not zero behind a ready event. -/
theorem rxSendReady_signals {xh : RxHead} {count : Nat} (h : xh.rxReadyFD = some count) :
    ∃ n, (rxSendReady xh).1.rxReadyFD = some (n + 1) := by
  obtain ⟨n, hn⟩ := eventWrite_pos count
  refine ⟨n, ?_⟩
  unfold rxSendReady
  simp only [h]
  cases hwrite : eventWrite count with
  | none =>
    rw [hwrite] at hn
    exact h.trans (congrArg some hn)
  | some count' =>
    rw [hwrite] at hn
    exact congrArg some hn

/-- **A datagram is put at the end of the queue.** -/
theorem rxIncomingAction_describes {xh : RxHead} {queue : List CString} (h : xh.Describes queue)
    {rq : Addr} (hrq : xh.rxQEPool rq = none) (datagram : CString) : ∃ xh',
      rxIncomingAction xh rq (some datagram) = .ok xh' ∧
      xh'.Describes (queue ++ [arrival datagram]) ∧
      (∀ count, xh.rxReadyFD = some count → ∃ n, xh'.rxReadyFD = some (n + 1)) := by
  have hroom : (datagram.take (RXBUFFSIZE - 1)).length < RXBUFFSIZE :=
    Nat.lt_of_le_of_lt (List.length_take_le _ _) (by decide)
  obtain ⟨xh', hqueued, hdescribes, hready⟩ := rxQueueRawString_describes h hrq (arrival datagram)
  refine ⟨(rxSendReady xh').1, ?_, hdescribes.sendReady, fun count hcount => ?_⟩
  · unfold rxIncomingAction
    simp only [h.magic, decide_true, ASSERT_FAIL_true, bufEnd_ok hroom, ok_bind]
    show (rxQueueRawString xh rq (arrival datagram) >>= fun xh => pure (rxSendReady xh).1) = _
    rw [hqueued]
    rfl
  · exact rxSendReady_signals (hready.trans hcount)

theorem rxIncomingAction_error {xh : RxHead} (h : xh.magic = XH_MAGIC) (rq : Addr) :
    rxIncomingAction xh rq none = .ok xh := by
  unfold rxIncomingAction
  simp only [h, decide_true, ASSERT_FAIL_true, ok_bind]
  rfl

end XplEvent.Receiver
