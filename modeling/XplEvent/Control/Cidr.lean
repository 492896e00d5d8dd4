import XplEvent.Lib.Octets
import XplEvent.Util.Split
import XplEvent.Wire.Parse

/-!
# Address lists of the control port

A client is let in or kept out by address lists whose entries are an
address and the number of its leading bits that count. The bits are kept
as a mask of octets. A mask is made octet by octet from the first on, as
the octets of an address go over the network; inside an octet it is made
from the least significant bit on, and the bits go over the network from
the most significant bit on.
-/

namespace XplEvent.Control

open Lib (AgreeLsb AgreeMsb LowAgree HighAgree)

def AF_INET : Nat := 2

def AF_INET6 : Nat := 10

/-- An address in network byte order. -/
abbrev Octets (k : Nat) := Fin k → BitVec 8

/-- `struct sockaddr_storage`: the family, and the address as the two
families have it, at different offsets. -/
structure SockaddrStorage where
  ss_family : Nat
  sin_addr : Octets 4
  sin6_addr : Octets 16

/-- `SE_MAGIC`. -/
def SE_MAGIC : UInt32 := 0xE20A6491

/-- `SockAclListEntry_t` without its links. Nothing changes the magic number
that `parseCIDR` gives an entry. -/
structure SockAclListEntry where
  magic : UInt32
  mask : SockaddrStorage
  check : SockaddrStorage
  isEntry : magic = SE_MAGIC

/-! ## The mask -/

/-- A turn of the loop that sets mask bits. -/
def setMaskBit {k : Nat} (addr : Octets k) (i : Nat) : Octets k :=
  let octet := i >>> 3
  let bit := i &&& 7
  fun j => if j.val = octet then addr j ||| (0x80#8 >>> (7 - bit)) else addr j

/-- The loop over the required number of mask bits. -/
def setMaskBits {k : Nat} (addr : Octets k) (num : Nat) : Octets k :=
  (List.range num).foldl setMaskBit addr

/-- `addrMaskInit`. -/
def addrMaskInit (family num : Nat) : SockaddrStorage :=
  let mask : SockaddrStorage := ⟨family, fun _ => 0, fun _ => 0⟩
  if family = AF_INET6 then
    { mask with sin6_addr := setMaskBits mask.sin6_addr (if num > 128 then 128 else num) }
  else if family = AF_INET then
    { mask with sin_addr := setMaskBits mask.sin_addr (if num > 32 then 32 else num) }
  else mask

/-! ## The comparison -/

/-- `ntohl` of an address. -/
def ntohl (s_addr : Octets 4) : BitVec 32 := s_addr 0 ++ s_addr 1 ++ s_addr 2 ++ s_addr 3

/-- `sameNetV4`. -/
def sameNetV4 (ip1 ip2 mask : Octets 4) : Bool :=
  let nmask := ntohl mask
  let net1 := ntohl ip1
  let net2 := ntohl ip2
  (net1 &&& nmask) = (net2 &&& nmask)

/-- `sameNet`. -/
def sameNet (ip1 ip2 mask : SockaddrStorage) : Bool :=
  if ip1.ss_family ≠ ip2.ss_family then false
  else if ip1.ss_family = AF_INET6 then
    ∀ i, ip1.sin6_addr i &&& mask.sin6_addr i = ip2.sin6_addr i &&& mask.sin6_addr i
  else if ip1.ss_family = AF_INET then sameNetV4 ip1.sin_addr ip2.sin_addr mask.sin_addr
  else false

/-! ## The parser -/

/-- The number of mask bits from the part behind the `/`. -/
def maskLength (family : Nat) : Option CString → Except Fault (Option Nat)
  | none => .ok (some 128)
  | some part => do
    match ← Wire.UtilStou (some part) with
    | none => return none
    | some ml =>
      if family = AF_INET6 then
        if ml > 128 then return none else return some ml
      else if family = AF_INET then
        if ml > 32 then return none else return some ml
      else return none

/-- `parseCIDR`; `none` is `FAIL`. -/
def parseCIDR (getaddrinfo : Option CString → Option SockaddrStorage) (cidrString : CString) :
    Except Fault (Option SockAclListEntry) := do
  let parts ← Util.splitString cidrString 47
  match getaddrinfo parts[0]? with
  | none => return none
  | some check =>
    match ← maskLength check.ss_family parts[1]? with
    | none => return none
    | some masklen => return some ⟨SE_MAGIC, addrMaskInit check.ss_family masklen, check, rfl⟩

/-! ## When an address is matched -/

/-- The number of bits of an address. -/
def addressBits (family : Nat) : Nat := if family = AF_INET6 then 128 else 32

/-- The octets of an address as a row. -/
def row {k : Nat} (addr : Octets k) (j : Nat) : BitVec 8 := if h : j < k then addr ⟨j, h⟩ else 0

/-- The octets of an address of either family. -/
def SockaddrStorage.octets (ip : SockaddrStorage) : Nat → BitVec 8 :=
  if ip.ss_family = AF_INET6 then row ip.sin6_addr else row ip.sin_addr

/-- The mask of `n` bits finds a client in the net of an address exactly
when the `n` most significant bits agree, and never across families. -/
def PrefixMatched (client check : SockaddrStorage) (n : Nat) : Prop :=
  if client.ss_family = check.ss_family then
    sameNet client check (addrMaskInit check.ss_family n) = true ↔
      AgreeMsb n client.octets check.octets
  else sameNet client check (addrMaskInit check.ss_family n) = false

/-! ## The bits of a mask -/

theorem setMaskBit_bit (i b : Nat) (hb : b < 8) :
    (0x80#8 >>> (7 - (i &&& 7))).getLsbD b = decide (b = i % 8) := by
  have hmod : i &&& 7 = i % 8 := Nat.and_two_pow_sub_one_eq_mod i 3
  have hone : ∀ r < 8, ∀ b < 8, (0x80#8 >>> (7 - r)).getLsbD b = decide (b = r) := by decide
  rw [hmod]
  exact hone (i % 8) (Nat.mod_lt i (by decide)) b hb

/-- A mask of `num` bits has the first `num` places set. -/
theorem setMaskBits_bit {k : Nat} (num : Nat) (j : Fin k) (b : Nat) (hb : b < 8) :
    (setMaskBits (fun _ => 0) num j).getLsbD b = decide (8 * j.val + b < num) := by
  induction num with
  | zero =>
    rw [decide_eq_false (Nat.not_lt_zero _)]
    exact BitVec.getLsbD_zero
  | succ num ih =>
    have hshift : num >>> 3 = num / 8 := Nat.shiftRight_eq_div_pow num 3
    unfold setMaskBits at ih ⊢
    rw [List.range_succ, List.foldl_append, List.foldl_cons, List.foldl_nil]
    simp only [setMaskBit, hshift]
    by_cases hj : j.val = num / 8
    · rw [if_pos hj, BitVec.getLsbD_or, ih, setMaskBit_bit num b hb, ← Bool.decide_or]
      exact decide_eq_decide.mpr (by omega)
    · rw [if_neg hj, ih]
      exact decide_eq_decide.mpr (by omega)

theorem row_setMaskBits {k num : Nat} (h : num ≤ 8 * k) (j b : Nat) (hb : b < 8) :
    (row (setMaskBits (fun _ => 0) num : Octets k) j).getLsbD b = decide (8 * j + b < num) := by
  unfold row
  split
  · rename_i hj
    exact setMaskBits_bit num ⟨j, hj⟩ b hb
  · rw [decide_eq_false (by omega)]
    exact BitVec.getLsbD_zero

/-- A comparison under a mask reads each octet from its least significant
bit. -/
theorem setMaskBits_masks {k num : Nat} (h : num ≤ 8 * k) (x y : Octets k) :
    (∀ i, x i &&& setMaskBits (fun _ => 0) num i = y i &&& setMaskBits (fun _ => 0) num i) ↔
      AgreeLsb num (row x) (row y) := by
  rw [← Lib.masked_iff (by decide) h (row_setMaskBits h)]
  have hrow : ∀ (z : Octets k) (i : Fin k), row z i.val = z i := fun z i => dif_pos i.isLt
  constructor
  · intro hall j hj
    have hj' := hall ⟨j, hj⟩
    rw [← hrow x, ← hrow y, ← hrow (setMaskBits _ num)] at hj'
    exact hj'
  · intro hall i
    have hi := hall i.val i.isLt
    rw [hrow, hrow, hrow] at hi
    exact hi

/-! ## What `sameNet` compares -/

theorem append_inj {w v : Nat} {x x' : BitVec w} {y y' : BitVec v} (h : x ++ y = x' ++ y') :
    x = x' ∧ y = y' := by
  have hlow : y = y' := by
    apply BitVec.eq_of_getLsbD_eq
    intro i hi
    have hbit := congrArg (fun z => z.getLsbD i) h
    simpa only [BitVec.getLsbD_append, hi, if_true] using hbit
  subst hlow
  exact ⟨(BitVec.append_left_inj y).mp h, rfl⟩

theorem ntohl_and (x y : Octets 4) : ntohl x &&& ntohl y = ntohl fun i => x i &&& y i := by
  have hand : ∀ a b c d a' b' c' d' : BitVec 8, (a ++ b ++ c ++ d) &&& (a' ++ b' ++ c' ++ d') =
      (a &&& a') ++ (b &&& b') ++ (c &&& c') ++ (d &&& d') := by
    intro a b c d a' b' c' d'
    simp only [BitVec.and_append]
  exact hand _ _ _ _ _ _ _ _

theorem ntohl_inj {x y : Octets 4} (h : ntohl x = ntohl y) (i : Fin 4) : x i = y i := by
  obtain ⟨h', h3⟩ := append_inj h
  obtain ⟨h'', h2⟩ := append_inj h'
  obtain ⟨h0, h1⟩ := append_inj h''
  match i with
  | 0 => exact h0
  | 1 => exact h1
  | 2 => exact h2
  | 3 => exact h3

theorem sameNetV4_iff (ip1 ip2 mask : Octets 4) :
    sameNetV4 ip1 ip2 mask = true ↔ ∀ i, ip1 i &&& mask i = ip2 i &&& mask i := by
  rw [sameNetV4, decide_eq_true_iff, ntohl_and, ntohl_and]
  constructor
  · intro h i
    exact ntohl_inj h i
  · intro h
    rw [funext h]

/-- **`sameNet` compares the first `n` places**, counted from the least
significant bit of each octet. -/
theorem sameNet_iff {client check : SockaddrStorage} {n : Nat}
    (hfamily : check.ss_family = AF_INET ∨ check.ss_family = AF_INET6)
    (hn : n ≤ addressBits check.ss_family) (hsame : client.ss_family = check.ss_family) :
    sameNet client check (addrMaskInit check.ss_family n) = true ↔
      AgreeLsb n client.octets check.octets := by
  have hne : AF_INET ≠ AF_INET6 := by decide
  unfold sameNet SockaddrStorage.octets
  unfold addressBits at hn
  rw [if_neg (not_not_intro hsame), hsame]
  rcases hfamily with hv4 | hv6
  · rw [hv4, if_neg hne] at hn
    rw [hv4, if_neg hne, if_neg hne, if_neg hne, if_pos rfl, sameNetV4_iff, addrMaskInit,
      if_neg hne, if_pos rfl, if_neg (by omega)]
    exact setMaskBits_masks hn client.sin_addr check.sin_addr
  · rw [hv6, if_pos rfl] at hn
    rw [hv6, if_pos rfl, if_pos rfl, if_pos rfl, decide_eq_true_iff, addrMaskInit, if_pos rfl,
      if_neg (by omega)]
    exact setMaskBits_masks hn client.sin6_addr check.sin6_addr

/-- **The net of an address is the one of its prefix exactly when** the
prefix ends with an octet, the addresses differ in a whole octet of it, or
in the octet it ends in the lowest bits agree just when the highest do. -/
theorem prefixMatched_iff {client check : SockaddrStorage} {n : Nat}
    (hfamily : check.ss_family = AF_INET ∨ check.ss_family = AF_INET6)
    (hn : n ≤ addressBits check.ss_family) :
    PrefixMatched client check n ↔ (client.ss_family = check.ss_family →
      n % 8 = 0 ∨ (∃ k < n / 8, client.octets k ≠ check.octets k) ∨
        (LowAgree (n % 8) (client.octets (n / 8)) (check.octets (n / 8)) ↔
          HighAgree (n % 8) (client.octets (n / 8)) (check.octets (n / 8)))) := by
  unfold PrefixMatched
  by_cases hsame : client.ss_family = check.ss_family
  · rw [if_pos hsame, sameNet_iff hfamily hn hsame, Lib.readings_iff (by decide),
      forall_prop_of_true hsame]
  · rw [if_neg hsame]
    refine iff_of_true ?_ fun h => absurd h hsame
    rw [sameNet, if_pos hsame]

/-! ## Two nets -/

/-- An IPv4 address. -/
def ipv4 (a b c d : BitVec 8) : SockaddrStorage :=
  ⟨AF_INET, fun | 0 => a | 1 => b | 2 => c | 3 => d, fun _ => 0⟩

/-- `10.0.0.0/24`. -/
theorem prefixMatched_24 : PrefixMatched (ipv4 10 0 0 7) (ipv4 10 0 0 0) 24 :=
  (prefixMatched_iff (.inl rfl) (by decide)).mpr fun _ => .inl rfl

/-- `10.0.0.0/25` takes `10.0.0.128` for one of its own. -/
theorem prefixMatched_25 : ¬ PrefixMatched (ipv4 10 0 0 128) (ipv4 10 0 0 0) 25 := by
  intro h
  have hsame : sameNet (ipv4 10 0 0 128) (ipv4 10 0 0 0) (addrMaskInit AF_INET 25) = true := by
    decide
  have hprefix := h.mp hsame 24 (by decide)
  exact absurd hprefix (by decide)

end XplEvent.Control
