/-!
# The C ground the model stands on

Characters, strings and the two ways a function of the daemon can fail
to return, shared by every other module.

A C string is the list of the characters before its terminating NUL. A
`char` is signed and eight bits wide, as `gcc` has it on the Linux
targets the `Makefile` builds for, so a byte from 128 up compares as a
negative number. Nothing about memory beyond that is modelled, but for the
entries of the receive queue, the schedule and the symbol table: other
talloc contexts, addresses and the order of frees are left out, and an
allocation never fails (`MALLOC_FAIL` ends the process).
-/

namespace XplEvent

/-- A `char` of the build target. -/
abbrev CChar := Int8

/-- A NUL-terminated string, without the NUL. -/
abbrev CString := List CChar

/-- A string literal of the source. -/
def cstr (s : String) : CString := s.toList.map fun c => Int8.ofNat c.toNat

/-- The newline character. -/
abbrev LF : CChar := 10

/-- `%d` of a number that is not negative. -/
def printDecimal (n : Nat) : CString := (Nat.toDigits 10 n).map fun c => Int8.ofNat c.toNat

/-- Why a call never returns: `ASSERT_FAIL` or `fatal` ended the process,
a null pointer was followed, or an array was written outside its bounds. -/
inductive Fault
  | assertion
  | fatal
  | nullDeref
  | outOfBounds
deriving DecidableEq, Repr

/-- The two values of a `Bool` result that means success or failure
(`PASS` is 0, `FAIL` is 1). -/
inductive PassFail
  | PASS
  | FAIL
deriving DecidableEq, Repr

/-- `ASSERT_FAIL(C)`. -/
def ASSERT_FAIL (c : Bool) : Except Fault Unit :=
  if c then .ok () else .error .assertion

/-- Following a pointer that may be `NULL`. -/
def deref {α : Type} : Option α → Except Fault α
  | some a => .ok a
  | none => .error .nullDeref

@[simp] theorem deref_some {α : Type} (a : α) : deref (some a) = .ok a := rfl

@[simp] theorem ASSERT_FAIL_true : ASSERT_FAIL true = .ok () := rfl

theorem ok_bind {ε α β : Type} (a : α) (f : α → Except ε β) : Except.ok a >>= f = f a := rfl

theorem some_getD {α : Type} {o : Option α} (h : o.isSome = true) (a : α) :
    some (o.getD a) = o := by
  cases o with
  | none => cases h
  | some b => rfl

/-- A sequence that returns is two steps that return. -/
theorem bind_ok {ε α β : Type} {x : Except ε α} {f : α → Except ε β} {b : β}
    (h : x >>= f = .ok b) : ∃ a, x = .ok a ∧ f a = .ok b := by
  cases x with
  | error e => cases h
  | ok a => exact ⟨a, rfl, h⟩

theorem map_ok {α β : Type} {x : Except Fault α} {f : α → β} {b : β} (h : x.map f = .ok b) :
    ∃ a, x = .ok a ∧ f a = b := by
  cases x with
  | error e => cases h
  | ok a => exact ⟨a, rfl, Except.ok.inj h⟩

/-- An assertion that is passed holds. -/
theorem of_ASSERT_FAIL {β : Type} {c : Bool} {f : Unit → Except Fault β} {b : β}
    (h : ASSERT_FAIL c >>= f = .ok b) : c = true ∧ f () = .ok b := by
  cases c with
  | false => cases h
  | true => exact ⟨rfl, h⟩

/-- `buf[charCount++] = c` in an array of `size` characters, of which
those in `buf` are written. -/
def bufPut (size : Nat) (buf : CString) (c : CChar) : Except Fault CString :=
  if buf.length < size then .ok (buf ++ [c]) else .error .outOfBounds

/-- `buf[charCount] = '\0'`. -/
def bufEnd (size : Nat) (buf : CString) : Except Fault CString :=
  if buf.length < size then .ok buf else .error .outOfBounds

theorem bufPut_ok {size : Nat} {buf : CString} (h : buf.length < size) (c : CChar) :
    bufPut size buf c = .ok (buf ++ [c]) := if_pos h

theorem bufEnd_ok {size : Nat} {buf : CString} (h : buf.length < size) :
    bufEnd size buf = .ok buf := if_pos h

/-- The string in a buffer. -/
def cutNul (raw : CString) : CString := raw.takeWhile (· ≠ 0)

theorem cutNul_eq_self {raw : CString} (h : 0 ∉ raw) : cutNul raw = raw := by
  have hcut : (raw ++ []).takeWhile (· ≠ 0) = raw ++ [].takeWhile (· ≠ 0) := by
    apply List.takeWhile_append_of_pos
    intro c hc
    apply decide_eq_true
    exact fun h0 => h (h0 ▸ hc)
  rw [List.append_nil] at hcut
  exact hcut.trans (List.append_nil raw)

/-- The string at the start of an array, if all of it has been written: a
cell that is `none` has not been. -/
def stringAt : List (Option CChar) → Option CString
  | [] => none
  | none :: _ => none
  | some c :: new => if c = 0 then some [] else (stringAt new).map (c :: ·)

/-- A string that is at the start of an array has been written there. -/
theorem stringAt_iff {new : List (Option CChar)} {s : CString} : stringAt new = some s ↔ 0 ∉ s ∧
    (∀ i < s.length, new[i]? = some s[i]?) ∧ new[s.length]? = some (some 0) := by
  induction new generalizing s with
  | nil => simp [stringAt]
  | cons cell new ih =>
    cases cell with
    | none =>
      constructor
      · intro h
        cases h
      · rintro ⟨-, hcells, hend⟩
        cases s with
        | nil => simp at hend
        | cons c s => simpa using hcells 0 (Nat.succ_pos _)
    | some c =>
      rw [stringAt]
      by_cases hc : c = 0
      · rw [if_pos hc, hc]
        cases s with
        | nil => simp
        | cons d s =>
          constructor
          · intro h
            cases h
          · rintro ⟨hnot, hcells, -⟩
            have hd := hcells 0 (Nat.succ_pos _)
            simp at hd
            exact absurd (hd ▸ List.mem_cons_self) hnot
      · rw [if_neg hc]
        cases s with
        | nil => simp [hc]
        | cons d s =>
          constructor
          · intro h
            obtain ⟨s', hs', heq⟩ := Option.map_eq_some_iff.mp h
            cases heq
            obtain ⟨hnot, hcells, hend⟩ := ih.mp hs'
            refine ⟨List.not_mem_cons_of_ne_of_not_mem (Ne.symm hc) hnot, ?_, hend⟩
            intro i hi
            cases i with
            | zero => rfl
            | succ i => exact hcells i (Nat.lt_of_succ_lt_succ hi)
          · rintro ⟨hnot, hcells, hend⟩
            have hd := hcells 0 (Nat.succ_pos _)
            simp at hd
            rw [hd, ih.mpr ⟨fun hmem => hnot (List.mem_cons_of_mem d hmem), ?_, hend⟩]
            · rfl
            · intro i hi
              exact hcells (i + 1) (Nat.succ_lt_succ hi)

/-- `UtilMoveString`: the right-hand part of a string, moved to another
context. The offset must be smaller than the length, so the whole of a
string can never be chopped off. -/
def UtilMoveString (oldStr : CString) (offset : Nat) : Except Fault CString := do
  ASSERT_FAIL (oldStr.length > offset)
  return oldStr.drop offset

theorem UtilMoveString_ok {s : CString} {n : Nat} (h : n < s.length) :
    UtilMoveString s n = .ok (s.drop n) := by
  simp only [UtilMoveString, gt_iff_lt, h, decide_true, ASSERT_FAIL_true]
  rfl

end XplEvent
