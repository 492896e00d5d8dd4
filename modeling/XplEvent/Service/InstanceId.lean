import XplEvent.Base
import XplEvent.Lib.Memory
import XplEvent.Lib.Positional

/-!
# Instance identifiers

A service that is created without an instance ID is given one: four digits
in base 36 from the address of the interface, and eight from the time of day
in milliseconds. The digits are written from the last one backwards over
eight zeros, until the value or the zeros are used up, so they are those of
the value modulo `36 ^ 8` (`longToBase36_eq`). That is a period of almost
ninety years, in which a time does not come back.
-/

namespace XplEvent.Service

open Lib (Memory lowDigits)

/-! ## Strings in a buffer -/

section

variable {n : Nat}

/-- Characters are written. -/
def poke (theBuffer : Memory CChar n) (i : Nat) (text : CString) : Except Fault (Memory CChar n) :=
  match theBuffer.write i text with
  | none => .error .outOfBounds
  | some theBuffer => .ok theBuffer

/-- `strlen`. -/
def strlen (theBuffer : Memory CChar n) : Except Fault Nat :=
  if 0 ∈ theBuffer.cells then .ok (cutNul theBuffer.cells).length else .error .outOfBounds

/-- `strcpy` into a buffer. -/
def strcpy (theBuffer : Memory CChar n) (text : CString) : Except Fault (Memory CChar n) :=
  poke theBuffer 0 (text ++ [0])

/-- `strcat`. -/
def strcat (theBuffer : Memory CChar n) (text : CString) : Except Fault (Memory CChar n) := do
  poke theBuffer (← strlen theBuffer) (text ++ [0])

/-! ## The functions -/

def base36Table : CString := cstr "0123456789abcdefghijklmnopqrstuvwxyz"

/-- `base36Table[i]`. -/
def base36Digit (i : Nat) : Except Fault CChar :=
  match base36Table[i]? with
  | none => .error .outOfBounds
  | some c => .ok c

/-- The loop of `longToBase36`, with `left` digits from `first` on that are
not written yet. -/
def base36Loop (first : Nat) :
    (left : Nat) → UInt64 → Memory CChar n → Except Fault (Memory CChar n)
  | 0, _, theBuffer => .ok theBuffer
  | left + 1, theValue, theBuffer => do
    let digit ← base36Digit (theValue % 36).toNat
    let theBuffer ← poke theBuffer (first + left) [digit]
    if theValue < 36 then return theBuffer
    base36Loop first left (theValue / 36) theBuffer

/-- `longToBase36`. -/
def longToBase36 (theValue : UInt64) (theBuffer : Memory CChar n) :
    Except Fault (Memory CChar n) := do
  let theBuffer ← strcat theBuffer (cstr "00000000")
  let buffLen ← strlen theBuffer
  if theValue = 0 then return theBuffer
  base36Loop (buffLen - 8) 8 theValue theBuffer

end

/-- The hash of `genUniquePrefix`. -/
def prefixHash (buffer : List UInt8) : UInt32 :=
  let hash := buffer.foldl (fun (hash : UInt32) p =>
    let hash := hash + p.toUInt32
    let hash := hash + (hash <<< 10)
    hash ^^^ (hash >>> 6)) 0
  let hash := hash + (hash <<< 3)
  let hash := hash ^^^ (hash >>> 11)
  hash + (hash <<< 15)

/-- The second loop of `genUniquePrefix`, and the NUL. -/
def prefixLoop : (left : Nat) → UInt32 → Memory CChar 5 → Except Fault (Memory CChar 5)
  | 0, _, prefStr => poke prefStr 4 [0]
  | left + 1, hash, prefStr => do
    let digit ← base36Digit (hash % 36).toNat
    let prefStr ← poke prefStr (4 - (left + 1)) [digit]
    prefixLoop left (hash / 36) prefStr

/-- `genUniquePrefix`, and the string that `XplInit` makes of the prefix. -/
def genUniquePrefix (prefStr : Memory CChar 5) (buffer : List UInt8) : Except Fault CString := do
  let prefStr ← prefixLoop 4 (prefixHash buffer) prefStr
  return cutNul prefStr.cells

/-- `struct timeval`. -/
structure Timeval where
  tv_sec : Int
  tv_usec : Int
deriving DecidableEq, Repr

/-- `timeInMillis` of `generateFairlyUniqueID`. -/
def timeInMillis (rightNow : Timeval) : UInt64 :=
  UInt64.ofInt (rightNow.tv_sec * 1000 + rightNow.tv_usec.tdiv 1000)

/-- `generateFairlyUniqueID`; `newIdent` is what the stack holds. -/
def generateFairlyUniqueID (uniqPrefix : CString) (newIdent : Memory CChar 32)
    (rightNow : Timeval) : Except Fault CString := do
  let newIdent ← strcpy newIdent uniqPrefix
  let newIdent ← longToBase36 (timeInMillis rightNow) newIdent
  let newIdent ← if (← strlen newIdent) > 16 then poke newIdent 16 [0] else pure newIdent
  return cutNul newIdent.cells

/-! ## What a digit reads as -/

/-- The value of a character of `[0-9a-z]`. -/
def base36Value (c : CChar) : Option Nat :=
  if 48 ≤ c.toInt ∧ c.toInt ≤ 57 then some (c.toInt - 48).toNat
  else if 97 ≤ c.toInt ∧ c.toInt ≤ 122 then some (c.toInt - 87).toNat
  else none

/-- The value of a text in base 36. -/
def readBase36 (text : CString) : Option Nat :=
  (text.mapM base36Value).map fun digits => Nat.ofDigits 36 digits.reverse

/-- The character of a digit. -/
def digitChar (d : Nat) : CChar := base36Table.getD d 0

theorem base36Digit_ok {d : Nat} (h : d < 36) : base36Digit d = .ok (digitChar d) := by
  have hlen : d < base36Table.length := h
  unfold base36Digit digitChar
  rw [List.getD_eq_getElem?_getD, List.getElem?_eq_getElem hlen]
  rfl

theorem base36Value_digitChar {d : Nat} (h : d < 36) : base36Value (digitChar d) = some d := by
  have hall : ∀ d : Fin 36, base36Value (digitChar d) = some d.val := by decide
  exact hall ⟨d, h⟩

theorem digitChar_ne_zero {d : Nat} (h : d < 36) : digitChar d ≠ 0 := by
  intro hzero
  have hvalue := base36Value_digitChar h
  rw [hzero] at hvalue
  cases hvalue

theorem readBase36_map {digits : List Nat} (h : ∀ d ∈ digits, d < 36) :
    readBase36 (digits.map digitChar) = some (Nat.ofDigits 36 digits.reverse) := by
  have hread : (digits.map digitChar).mapM base36Value = some digits := by
    induction digits with
    | nil => rfl
    | cons d digits ih =>
      rw [List.map_cons, List.mapM_cons, base36Value_digitChar (h d List.mem_cons_self),
        ih fun d' hd' => h d' (List.mem_cons_of_mem d hd')]
      rfl
  rw [readBase36, hread, Option.map_some]

/-- The text of a value modulo `36 ^ 8`. -/
def base36Text (theValue : UInt64) : CString := (lowDigits 36 8 theValue.toNat).map digitChar

theorem base36Text_length (theValue : UInt64) : (base36Text theValue).length = 8 := by
  rw [base36Text, List.length_map, Lib.lowDigits_length]

theorem readBase36_base36Text (theValue : UInt64) :
    readBase36 (base36Text theValue) = some (theValue.toNat % 36 ^ 8) := by
  rw [base36Text, readBase36_map (Lib.lowDigits_lt (by decide) 8 _), Lib.ofDigits_lowDigits]

theorem zero_not_mem_map {digits : List Nat} (h : ∀ d ∈ digits, d < 36) :
    (0 : CChar) ∉ digits.map digitChar := by
  intro hmem
  obtain ⟨d, hd, hzero⟩ := List.mem_map.mp hmem
  exact digitChar_ne_zero (h d hd) hzero

theorem zero_not_mem_append {text : CString} (h : 0 ∉ text) (theValue : UInt64) :
    0 ∉ text ++ base36Text theValue := by
  intro hmem
  rcases List.mem_append.mp hmem with hmem | hmem
  · exact h hmem
  · exact zero_not_mem_map (Lib.lowDigits_lt (by decide) 8 _) hmem

/-! ## What the functions write -/

section

variable {n : Nat}

/-- As many characters are written over. -/
theorem poke_over {theBuffer : Memory CChar n} {front old rest : CString}
    (h : theBuffer.cells = front ++ (old ++ rest)) (text : CString)
    (hlen : text.length = old.length) {i : Nat} (hi : front.length = i) :
    ∃ theBuffer', poke theBuffer i text = .ok theBuffer' ∧
      theBuffer'.cells = front ++ (text ++ rest) := by
  obtain ⟨theBuffer', hwrite, hcells⟩ := Memory.write_over h hlen
  refine ⟨theBuffer', ?_, hcells⟩
  rw [poke, ← hi, hwrite]

theorem cutNul_append {front rest : CString} (h : 0 ∉ front) :
    cutNul (front ++ 0 :: rest) = front := by
  unfold cutNul
  rw [List.takeWhile_append_of_pos fun c hc => decide_eq_true (ne_of_mem_of_not_mem hc h)]
  exact List.append_nil front

theorem strlen_ok {theBuffer : Memory CChar n} {front rest : CString}
    (h : theBuffer.cells = front ++ 0 :: rest) (hfront : 0 ∉ front) :
    strlen theBuffer = .ok front.length := by
  have hnul : 0 ∈ theBuffer.cells := h ▸ List.mem_append_right front List.mem_cons_self
  rw [strlen, if_pos hnul, h, cutNul_append hfront]

/-- The digits are written over the zeros from the last one backwards. -/
theorem base36Loop_ok {front rest : CString} {left : Nat} {theValue : UInt64}
    {theBuffer : Memory CChar n}
    (h : theBuffer.cells = front ++ (List.replicate left (digitChar 0) ++ rest)) :
    ∃ theBuffer', base36Loop front.length left theValue theBuffer = .ok theBuffer' ∧
      theBuffer'.cells =
        front ++ ((lowDigits 36 left theValue.toNat).map digitChar ++ rest) := by
  induction left generalizing rest theValue theBuffer with
  | zero => exact ⟨theBuffer, rfl, h⟩
  | succ left ih =>
    have hmod : (theValue % 36).toNat = theValue.toNat % 36 := UInt64.toNat_mod ..
    have hdiv : (theValue / 36).toNat = theValue.toNat / 36 := UInt64.toNat_div ..
    have hdigit : base36Digit (theValue % 36).toNat = .ok (digitChar (theValue.toNat % 36)) := by
      rw [hmod]
      exact base36Digit_ok (Nat.mod_lt _ (by decide))
    have hlast : theBuffer.cells =
        (front ++ List.replicate left (digitChar 0)) ++ ([digitChar 0] ++ rest) := by
      rw [h, List.replicate_succ', List.append_assoc, List.append_assoc]
    have hplace : (front ++ List.replicate left (digitChar 0)).length = front.length + left := by
      rw [List.length_append, List.length_replicate]
    obtain ⟨theBuffer₁, hpoke, hcells⟩ :=
      poke_over hlast [digitChar (theValue.toNat % 36)] rfl hplace
    rw [List.append_assoc] at hcells
    rw [base36Loop, hdigit, ok_bind, hpoke, ok_bind, lowDigits, List.map_append,
      List.append_assoc]
    by_cases hsmall : theValue < 36
    · -- The digits in front of the last one are the zeros that are there.
      have hzero : theValue.toNat / 36 = 0 :=
        Nat.div_eq_of_lt (UInt64.lt_iff_toNat_lt.mp hsmall)
      rw [if_pos hsmall, hzero, Lib.lowDigits_zero, List.map_replicate]
      exact ⟨theBuffer₁, rfl, hcells⟩
    · rw [if_neg hsmall, ← hdiv]
      exact ih hcells

/-- **`longToBase36`** puts the digits behind the string. -/
theorem longToBase36_ok {theBuffer : Memory CChar n} {text rest : CString}
    (h : theBuffer.cells = text ++ 0 :: rest) (htext : 0 ∉ text) (hroom : text.length + 8 < n)
    (theValue : UInt64) :
    ∃ theBuffer', longToBase36 theValue theBuffer = .ok theBuffer' ∧
      theBuffer'.cells = text ++ (base36Text theValue ++ 0 :: rest.drop 8) := by
  have hsize : text.length + (rest.length + 1) = n := by
    rw [← theBuffer.size_eq, h, List.length_append, List.length_cons]
  have hold : theBuffer.cells = text ++ ((0 :: rest).take 9 ++ (0 :: rest).drop 9) := by
    rw [List.take_append_drop]
    exact h
  have hnine : (cstr "00000000" ++ [0]).length = ((0 :: rest).take 9).length := by
    rw [List.length_take, List.length_cons, Nat.min_eq_left (by omega)]
    rfl
  obtain ⟨theBuffer₁, hcat, hcells⟩ := poke_over hold _ hnine rfl
  have hzeros : theBuffer₁.cells =
      (text ++ List.replicate 8 (digitChar 0)) ++ 0 :: rest.drop 8 := by
    have hfill : cstr "00000000" = List.replicate 8 (digitChar 0) := by decide
    rw [hcells, hfill, List.append_assoc, List.append_assoc]
    rfl
  have hnonzero : (0 : CChar) ∉ text ++ List.replicate 8 (digitChar 0) := by
    intro hmem
    rcases List.mem_append.mp hmem with hmem | hmem
    · exact htext hmem
    · exact digitChar_ne_zero (by decide) (List.eq_of_mem_replicate hmem).symm
  have hlen := strlen_ok hzeros hnonzero
  rw [List.length_append, List.length_replicate] at hlen
  unfold longToBase36 strcat
  rw [strlen_ok h htext, ok_bind, hcat, ok_bind, hlen, ok_bind]
  by_cases hzero : theValue = 0
  · rw [if_pos hzero]
    refine ⟨theBuffer₁, rfl, hzeros.trans ?_⟩
    rw [hzero, List.append_assoc]
    rfl
  · rw [if_neg hzero, Nat.add_sub_cancel]
    rw [List.append_assoc] at hzeros
    exact base36Loop_ok hzeros

/-- A front that does not fill a buffer has a character behind it. -/
theorem behind {theBuffer : Memory CChar n} {front rest : CString}
    (h : theBuffer.cells = front ++ rest) (hlt : front.length < n) :
    ∃ c tail, rest = c :: tail ∧ front.length + tail.length + 1 = n := by
  have hsize : front.length + rest.length = n := by
    rw [← theBuffer.size_eq, h, List.length_append]
  obtain ⟨c, tail, rfl⟩ : ∃ c tail, rest = c :: tail :=
    List.exists_cons_of_length_pos (by omega)
  exact ⟨c, tail, rfl, hsize⟩

/-- The prefix is written digit by digit. -/
theorem prefixLoop_ok {left : Nat} (hash : UInt32) {prefStr : Memory CChar 5}
    {front rest : CString} (h : prefStr.cells = front ++ rest) (hleft : front.length + left = 4) :
    ∃ prefStr' : Memory CChar 5, ∃ digits : List Nat, prefixLoop left hash prefStr =
        .ok prefStr' ∧ prefStr'.cells = front ++ (digits.map digitChar ++ [0]) ∧ digits.length = left ∧
      ∀ d ∈ digits, d < 36 := by
  induction left generalizing hash prefStr front rest with
  | zero =>
    obtain ⟨c, rest, rfl, hrest⟩ := behind h (Nat.lt_of_le_of_lt (Nat.le_of_eq hleft) (by decide))
    have hover : prefStr.cells = front ++ ([c] ++ rest) := h
    obtain ⟨prefStr', hpoke, hcells⟩ := poke_over hover [0] rfl hleft
    have hnil : rest = [] := List.eq_nil_of_length_eq_zero (by omega)
    rw [hnil] at hcells
    exact ⟨prefStr', [], hpoke, hcells, rfl, fun d hd => absurd hd List.not_mem_nil⟩
  | succ left ih =>
    have hlt : (hash % 36).toNat < 36 := by
      rw [UInt32.toNat_mod]
      exact Nat.mod_lt _ (by decide)
    obtain ⟨c, rest, rfl, -⟩ := behind h (by omega)
    have hover : prefStr.cells = front ++ ([c] ++ rest) := h
    have hplace : front.length = 4 - (left + 1) := by omega
    obtain ⟨prefStr₁, hpoke, hcells⟩ := poke_over hover [digitChar (hash % 36).toNat] rfl hplace
    have hcells' : prefStr₁.cells = (front ++ [digitChar (hash % 36).toNat]) ++ rest := by
      rw [hcells, List.append_assoc]
    have hleft' : (front ++ [digitChar (hash % 36).toNat]).length + left = 4 := by
      rw [List.length_append, List.length_singleton]
      omega
    obtain ⟨prefStr', digits, hloop, hresult, hlength, hdigits⟩ :=
      ih (hash / 36) hcells' hleft'
    refine ⟨prefStr', (hash % 36).toNat :: digits, ?_, ?_, ?_, ?_⟩
    · rw [prefixLoop, base36Digit_ok hlt, ok_bind, hpoke, ok_bind, hloop]
    · rw [hresult, List.append_assoc]
      rfl
    · rw [List.length_cons, hlength]
    · intro d hd
      rcases List.mem_cons.mp hd with rfl | hd
      · exact hlt
      · exact hdigits d hd

end

/-- A prefix has four digits. -/
theorem genUniquePrefix_ok (prefStr : Memory CChar 5) (buffer : List UInt8) :
    ∃ uniqPrefix, genUniquePrefix prefStr buffer = .ok uniqPrefix ∧ uniqPrefix.length = 4 ∧
      0 ∉ uniqPrefix := by
  obtain ⟨prefStr', digits, hloop, hcells, hlength, hdigits⟩ :=
    prefixLoop_ok (prefixHash buffer) (List.nil_append prefStr.cells).symm (Nat.zero_add 4)
  have hnonzero := zero_not_mem_map hdigits
  refine ⟨digits.map digitChar, ?_, ?_, hnonzero⟩
  · rw [genUniquePrefix, hloop, ok_bind, hcells]
    exact congrArg Except.ok (cutNul_append hnonzero)
  · rw [List.length_map, hlength]

/-- An identifier is the prefix and the digits of the time. -/
theorem generateFairlyUniqueID_ok {uniqPrefix : CString} (hlen : uniqPrefix.length = 4)
    (hnonzero : 0 ∉ uniqPrefix) (newIdent : Memory CChar 32) (rightNow : Timeval) :
    generateFairlyUniqueID uniqPrefix newIdent rightNow =
      .ok (uniqPrefix ++ base36Text (timeInMillis rightNow)) := by
  have hold : newIdent.cells = [] ++ (newIdent.cells.take 5 ++ newIdent.cells.drop 5) := by
    rw [List.nil_append, List.take_append_drop]
  have hfive : (uniqPrefix ++ [0]).length = (newIdent.cells.take 5).length := by
    rw [List.length_append, hlen, List.length_take, newIdent.size_eq]
    rfl
  obtain ⟨newIdent₁, hcopy, hcells₁⟩ := poke_over hold _ hfive (Eq.refl 0)
  have hstring : newIdent₁.cells = uniqPrefix ++ 0 :: newIdent.cells.drop 5 := by
    rw [hcells₁, List.nil_append, List.append_assoc]
    rfl
  obtain ⟨newIdent₂, hdigits, hcells₂⟩ :=
    longToBase36_ok hstring hnonzero (by omega) (timeInMillis rightNow)
  rw [← List.append_assoc] at hcells₂
  have hresult := zero_not_mem_append hnonzero (timeInMillis rightNow)
  have hstrlen := strlen_ok hcells₂ hresult
  have hshort : ¬ (uniqPrefix ++ base36Text (timeInMillis rightNow)).length > 16 := by
    rw [List.length_append, hlen, base36Text_length]
    decide
  unfold generateFairlyUniqueID strcpy
  rw [hcopy, ok_bind, hdigits, ok_bind, hstrlen, ok_bind, if_neg hshort]
  show Except.ok (cutNul newIdent₂.cells) = _
  rw [hcells₂, cutNul_append hresult]

/-- **Instance identifiers.** Behind any string that has room for them,
`longToBase36` puts eight digits that read as the value modulo `36 ^ 8`. An
identifier has twelve characters, and two with one prefix whose times are
less than `36 ^ 8` milliseconds apart are equal only if the times are. -/
theorem instance_identifiers (prefStr : Memory CChar 5) (buffer : List UInt8) :
    (∀ (n : Nat) (theBuffer : Memory CChar n) (text rest : CString) (theValue : UInt64),
      0 ∉ text → theBuffer.cells = text ++ 0 :: rest → text.length + 8 < n →
      ∃ theBuffer' digits, longToBase36 theValue theBuffer = .ok theBuffer' ∧
        cutNul theBuffer'.cells = text ++ digits ∧ digits.length = 8 ∧
        (∀ c ∈ digits, (base36Value c).isSome = true) ∧
        readBase36 digits = some (theValue.toNat % 36 ^ 8)) ∧
    ∃ uniqPrefix, genUniquePrefix prefStr buffer = .ok uniqPrefix ∧
      (∀ newIdent rightNow, ∃ id,
        generateFairlyUniqueID uniqPrefix newIdent rightNow = .ok id ∧ id.length = 12) ∧
      ∀ newIdent newIdent' rightNow rightNow',
        generateFairlyUniqueID uniqPrefix newIdent rightNow =
          generateFairlyUniqueID uniqPrefix newIdent' rightNow' →
        (timeInMillis rightNow).toNat < (timeInMillis rightNow').toNat + 36 ^ 8 →
        (timeInMillis rightNow').toNat < (timeInMillis rightNow).toNat + 36 ^ 8 →
        timeInMillis rightNow = timeInMillis rightNow' := by
  refine ⟨?_, ?_⟩
  · intro n theBuffer text rest theValue htext hcells hroom
    obtain ⟨theBuffer', hrun, hcells'⟩ := longToBase36_ok hcells htext hroom theValue
    refine ⟨theBuffer', base36Text theValue, hrun, ?_, base36Text_length theValue, ?_,
      readBase36_base36Text theValue⟩
    · rw [hcells', ← List.append_assoc]
      exact cutNul_append (zero_not_mem_append htext theValue)
    · intro c hc
      obtain ⟨d, hd, rfl⟩ := List.mem_map.mp hc
      rw [base36Value_digitChar (Lib.lowDigits_lt (by decide) 8 _ d hd)]
      rfl
  · obtain ⟨uniqPrefix, hprefix, hlen, hnonzero⟩ := genUniquePrefix_ok prefStr buffer
    refine ⟨uniqPrefix, hprefix, ?_, ?_⟩
    · intro newIdent rightNow
      refine ⟨_, generateFairlyUniqueID_ok hlen hnonzero newIdent rightNow, ?_⟩
      rw [List.length_append, hlen, base36Text_length]
    · intro newIdent newIdent' rightNow rightNow' hsame hlt hgt
      rw [generateFairlyUniqueID_ok hlen hnonzero, generateFairlyUniqueID_ok hlen hnonzero] at hsame
      have htext := List.append_cancel_left (Except.ok.inj hsame)
      have hread := congrArg readBase36 htext
      rw [readBase36_base36Text, readBase36_base36Text] at hread
      exact UInt64.toNat_inj.mp (Lib.eq_of_mod_eq (Option.some.inj hread) hlt hgt)

end XplEvent.Service
