import XplEvent.Base
import XplEvent.Lib.Lines

/-!
# Splitting a string into an array

`UtilSplitString` and `UtilSplitWhite` go through a string once and collect
its pieces in an array of pointers with a `NULL` behind the last one. The
array is doubled when fewer than three of its places are left, so that there
is always one for a piece and one for the `NULL`. The two functions differ
in what they take for a separator.

The pieces are the longest runs without separators
(`splitInput_eq`); joined by a separator, they are found again
(`split_pieces`). A caller goes through the array up to its `NULL`, and so
finds the pieces (`splitString_eq`).

Counts are taken to be unbounded: talloc refuses an array long before an
`int` overflows.
-/

namespace XplEvent.Util

open Lib (wordsP)

/-- An array of pointers: a place has not been written, or it has a string
or `NULL`. -/
abbrev StringArray := List (Option (Option CString))

/-- `strings[i] = s`. -/
def StringArray.put (strings : StringArray) (i : Nat) (s : Option CString) :
    Except Fault StringArray :=
  if i < strings.length then .ok (strings.set i (some s)) else .error .outOfBounds

/-- `talloc_realloc` to a larger size. -/
def StringArray.grow (strings : StringArray) (apsize : Nat) : StringArray :=
  strings ++ List.replicate (apsize - strings.length) none

/-- `*p`, where none stands for the terminator. -/
def charAt (input : CString) (p : Nat) : Except Fault (Option CChar) :=
  if p ≤ input.length then .ok input[p]? else .error .outOfBounds

/-- The variables of the scan; the states are 0 and 1. -/
structure SplitVars where
  strings : StringArray
  start : Nat
  len : Nat
  count : Nat
  apsize : Nat
  state : Fin 2
deriving Repr

/-- Extend the array of pointers if close to the top of the current
allocation. -/
def SplitVars.extend (v : SplitVars) : SplitVars :=
  if v.count ≥ v.apsize - 2 then
    { v with apsize := 2 * v.apsize, strings := v.strings.grow (2 * v.apsize) }
  else v

/-- The piece is copied and stored, and the new end of the list behind it. -/
def SplitVars.store (v : SplitVars) (input : CString) : Except Fault SplitVars := do
  let strings ← v.strings.put v.count (some ((input.drop v.start).take v.len))
  let count := v.count + 1
  let strings ← strings.put count none
  return { v with strings := strings, count := count, state := 0 }

/-- A turn of the loop, and whether it is done. -/
def splitTurn (isSep : CChar → Bool) (input : CString) (p : Nat) (v : SplitVars) :
    Except Fault (SplitVars × Bool) := do
  let v := v.extend
  let c ← charAt input p
  match v.state with
  | 0 =>
    match c with
    | none => return (v, true)
    | some c =>
      if isSep c then return (v, false)
      else return ({ v with start := p, len := 1, state := 1 }, false)
  | 1 =>
    match c with
    | none =>
      let v ← v.store input
      return (v, true)
    | some c =>
      if isSep c then
        let v ← v.store input
        return (v, false)
      else return ({ v with len := v.len + 1 }, false)

/-- The loop, for at most `turns` turns. -/
def splitLoop (isSep : CChar → Bool) (input : CString) :
    (turns : Nat) → Nat → SplitVars → Except Fault StringArray
  | 0, _, _ => .error .fatal
  | turns + 1, p, v => do
    let (v, done) ← splitTurn isSep input p v
    if done then return v.strings
    splitLoop isSep input turns (p + 1) v

/-- The array before the loop: eight places, of which the first has been
written. -/
def initialStrings : StringArray := some none :: List.replicate 7 none

/-- The two functions, by what they take for a separator. The loop looks at
each character once, and at the terminator. -/
def splitInput (isSep : CChar → Bool) (input : CString) : Except Fault StringArray :=
  splitLoop isSep input (input.length + 1) 0 ⟨initialStrings, 0, 0, 0, 8, 0⟩

/-- `UtilSplitString`. -/
def UtilSplitString (input : CString) (sep : CChar) : Except Fault StringArray :=
  splitInput (· == sep) input

/-- What `UtilSplitWhite` takes for a separator. -/
def isWhite (c : CChar) : Bool := c == 32 || c == 9

/-- `UtilSplitWhite`. -/
def UtilSplitWhite (input : CString) : Except Fault StringArray :=
  splitInput isWhite input

/-! ## What the loop keeps -/

/-- The places that some strings take. -/
def cellsOf (pieces : List CString) : StringArray := pieces.map fun s => some (some s)

/-- The array has some strings, and `NULL` behind them. -/
def StringArray.Holds (strings : StringArray) (pieces : List CString) : Prop :=
  ∃ rest, strings = cellsOf pieces ++ some none :: rest

theorem cellsOf_length (pieces : List CString) : (cellsOf pieces).length = pieces.length :=
  List.length_map ..

theorem cellsOf_snoc (pieces : List CString) (word : CString) :
    cellsOf (pieces ++ [word]) = cellsOf pieces ++ [some (some word)] := List.map_append

/-- The array is as large as it is taken to be, and has room for a piece
and the end of the list. -/
structure SplitVars.Fits (v : SplitVars) (pieces : List CString) : Prop where
  holds : v.strings.Holds pieces
  count : pieces.length = v.count
  size : v.strings.length = v.apsize
  least : 8 ≤ v.apsize
  room : v.count + 2 ≤ v.apsize

theorem SplitVars.Fits.extend {v : SplitVars} {pieces : List CString} (h : v.Fits pieces) :
    v.extend.Fits pieces ∧ v.extend.count + 3 ≤ v.extend.apsize ∧
      v.extend = { v with strings := v.extend.strings, apsize := v.extend.apsize } := by
  obtain ⟨⟨rest, hstrings⟩, hcount, hsize, hleast, hroom⟩ := h
  unfold SplitVars.extend
  split
  · refine ⟨⟨⟨rest ++ List.replicate (2 * v.apsize - v.strings.length) none, ?_⟩, hcount, ?_, ?_, ?_⟩,
      ?_, rfl⟩
    · show v.strings ++ _ = _
      rw [hstrings, List.append_assoc]
      rfl
    · show (v.strings ++ List.replicate (2 * v.apsize - v.strings.length) none).length = 2 * v.apsize
      rw [List.length_append, List.length_replicate]
      omega
    · show 8 ≤ 2 * v.apsize
      omega
    · show v.count + 2 ≤ 2 * v.apsize
      omega
    · show v.count + 3 ≤ 2 * v.apsize
      omega
  · exact ⟨⟨⟨rest, hstrings⟩, hcount, hsize, hleast, hroom⟩, by omega, rfl⟩

theorem StringArray.put_eq {front rest : StringArray} {c : Option (Option CString)} {i : Nat}
    (hi : front.length = i) (s : Option CString) :
    StringArray.put (front ++ c :: rest) i s = .ok (front ++ some s :: rest) := by
  subst hi
  have hlt : front.length < (front ++ c :: rest).length := by
    rw [List.length_append, List.length_cons]
    omega
  rw [put, if_pos hlt, List.set_append_right _ _ (Nat.le_refl _), Nat.sub_self]
  rfl

/-- A piece is stored. -/
theorem SplitVars.Fits.store {v : SplitVars} {pieces : List CString} (h : v.Fits pieces)
    (hroom : v.count + 3 ≤ v.apsize) {input word : CString}
    (hword : (input.drop v.start).take v.len = word) :
    ∃ v', v.store input = .ok v' ∧ v'.state = 0 ∧ v'.Fits (pieces ++ [word]) := by
  obtain ⟨⟨rest, hstrings⟩, hcount, hsize, hleast, -⟩ := h
  rw [hstrings, List.length_append, cellsOf_length, List.length_cons] at hsize
  obtain ⟨c, rest, rfl⟩ : ∃ c tail, rest = c :: tail :=
    List.exists_cons_of_length_pos (by omega)
  have hsnoc : (cellsOf (pieces ++ [word])).length = v.count + 1 := by
    rw [cellsOf_length, List.length_append, hcount]
    rfl
  refine ⟨⟨cellsOf (pieces ++ [word]) ++ some none :: rest, v.start, v.len, v.count + 1, v.apsize, 0⟩,
    ?_, rfl, ⟨⟨rest, rfl⟩, ?_, ?_, hleast, hroom⟩⟩
  · have hsecond : StringArray.put (cellsOf (pieces ++ [word]) ++ c :: rest) (v.count + 1) none = _ :=
      StringArray.put_eq hsnoc none
    rw [cellsOf_snoc, List.append_assoc, List.singleton_append] at hsecond
    unfold SplitVars.store
    rw [hword, hstrings, StringArray.put_eq ((cellsOf_length pieces).trans hcount), ok_bind]
    simp only
    rw [hsecond, ok_bind, cellsOf_snoc, List.append_assoc]
    rfl
  · rw [List.length_append, hcount]
    rfl
  · rw [List.length_append, hsnoc, List.length_cons]
    rw [List.length_cons] at hsize
    show v.count + 1 + (rest.length + 1) = v.apsize
    omega

/-- A scan that has read `front`: it is in the middle of `word`, or of no
piece. -/
structure SplitVars.Reading (isSep : CChar → Bool) (v : SplitVars) (front word : CString) :
    Prop where
  state : v.state = if word = [] then 0 else 1
  kept : ∀ c ∈ word, isSep c = false
  place : word ≠ [] → ∃ before, front = before ++ word ∧ before.length = v.start ∧
    word.length = v.len

theorem charAt_eq (front rest : CString) : charAt (front ++ rest) front.length = .ok rest.head? := by
  have hle : front.length ≤ (front ++ rest).length := by
    rw [List.length_append]
    exact Nat.le_add_right ..
  rw [charAt, if_pos hle, List.getElem?_append_right (Nat.le_refl _), Nat.sub_self,
    List.head?_eq_getElem?]

/-- A piece that is being read is stored when it ends. -/
theorem SplitVars.Reading.store {isSep : CChar → Bool} {v : SplitVars} {front word : CString}
    (h : v.Reading isSep front word) (hword : word ≠ []) {pieces : List CString}
    (hfits : v.Fits pieces) (hroom : v.count + 3 ≤ v.apsize) (rest : CString) :
    ∃ v', v.store (front ++ rest) = .ok v' ∧ v'.state = 0 ∧ v'.Fits (pieces ++ [word]) := by
  apply hfits.store hroom
  obtain ⟨before, rfl, hstart, hlen⟩ := h.place hword
  rw [← hstart, ← hlen, List.append_assoc, List.drop_left, List.take_left]

/-- The array is extended and the scan goes on. -/
theorem SplitVars.Reading.extend {isSep : CChar → Bool} {v : SplitVars} {front word : CString}
    (h : v.Reading isSep front word) {pieces : List CString} (hfits : v.Fits pieces) :
    v.extend.Reading isSep front word := by
  obtain ⟨-, -, hsame⟩ := hfits.extend
  rw [hsame]
  exact ⟨h.state, h.kept, h.place⟩

/-- A turn reads a character: the pieces that are stored then, with those of
what is left, are the same as before. -/
def SplitVars.Advances (isSep : CChar → Bool) (v : SplitVars) (front word : CString) (c : CChar)
    (rest : CString) (pieces : List CString) : Prop :=
  ∃ v' word' pieces', splitTurn isSep (front ++ c :: rest) front.length v = .ok (v', false) ∧
    v'.Fits pieces' ∧ v'.Reading isSep (front ++ [c]) word' ∧
    pieces' ++ wordsP isSep (word' ++ rest) = pieces ++ wordsP isSep (word ++ c :: rest)

section

variable {isSep : CChar → Bool} {front word : CString} {v : SplitVars} {pieces : List CString}

/-- Between two pieces a separator is passed over, and another character
begins a piece. -/
theorem SplitVars.Reading.advances_between (h : v.Reading isSep front []) (hfits : v.Fits pieces)
    (c : CChar) (rest : CString) : v.Advances isSep front [] c rest pieces := by
  have hreading := h.extend hfits
  obtain ⟨hfits', -, -⟩ := hfits.extend
  have hchar : charAt (front ++ c :: rest) front.length = .ok (some c) := charAt_eq ..
  have hstate : v.extend.state = 0 := hreading.state
  by_cases hsep : isSep c = true
  · refine ⟨v.extend, [], pieces, ?_, hfits', ⟨hstate, hreading.kept, ?_⟩, ?_⟩
    · unfold splitTurn
      rw [hchar, ok_bind, hstate]
      simp only [hsep, if_true]
      rfl
    · exact fun hne => absurd rfl hne
    · exact congrArg _ ((Lib.wordsP_line hreading.kept hsep rest).trans (if_pos rfl)).symm
  · refine ⟨{ v.extend with start := front.length, len := 1, state := 1 }, [c], pieces, ?_,
      ⟨hfits'.holds, hfits'.count, hfits'.size, hfits'.least, hfits'.room⟩, ⟨rfl, ?_, ?_⟩, rfl⟩
    · unfold splitTurn
      rw [hchar, ok_bind, hstate]
      simp only [hsep]
      rfl
    · intro c' hc'
      rw [List.mem_singleton.mp hc']
      exact Bool.not_eq_true _ ▸ hsep
    · exact fun _ => ⟨front, rfl, rfl, rfl⟩

/-- In a piece a separator ends it, and another character goes on with it. -/
theorem SplitVars.Reading.advances_within (h : v.Reading isSep front word) (hword : word ≠ [])
    (hfits : v.Fits pieces) (c : CChar) (rest : CString) :
    v.Advances isSep front word c rest pieces := by
  have hreading := h.extend hfits
  obtain ⟨hfits', hroom, -⟩ := hfits.extend
  have hchar : charAt (front ++ c :: rest) front.length = .ok (some c) := charAt_eq ..
  have hstate : v.extend.state = 1 := hreading.state.trans (if_neg hword)
  by_cases hsep : isSep c = true
  · obtain ⟨v', hstore, hzero, hstored⟩ := hreading.store hword hfits' hroom (c :: rest)
    refine ⟨v', [], pieces ++ [word], ?_, hstored, ⟨hzero, ?_, ?_⟩, ?_⟩
    · unfold splitTurn
      rw [hchar, ok_bind, hstate]
      simp only [hsep, if_true, hstore]
      rfl
    · exact fun _ hmem => absurd hmem List.not_mem_nil
    · exact fun hne => absurd rfl hne
    · rw [Lib.wordsP_line h.kept hsep, if_neg hword, List.append_assoc]
      rfl
  · refine ⟨{ v.extend with len := v.extend.len + 1 }, word ++ [c], pieces, ?_,
      ⟨hfits'.holds, hfits'.count, hfits'.size, hfits'.least, hfits'.room⟩, ⟨?_, ?_, ?_⟩, ?_⟩
    · unfold splitTurn
      rw [hchar, ok_bind, hstate]
      simp only [hsep, hstate]
      rfl
    · exact hstate.trans (if_neg (List.concat_ne_nil c word)).symm
    · intro c' hc'
      rcases List.mem_append.mp hc' with hc' | hc'
      · exact h.kept c' hc'
      · rw [List.mem_singleton.mp hc']
        exact Bool.not_eq_true _ ▸ hsep
    · intro _
      obtain ⟨before, rfl, hstart, hlen⟩ := hreading.place hword
      refine ⟨before, List.append_assoc .., hstart, ?_⟩
      rw [List.length_append, hlen]
      rfl
    · rw [List.append_assoc]
      rfl

/-- At the end of the string the piece that is being read is stored. -/
theorem SplitVars.Reading.finish (h : v.Reading isSep front word) (hfits : v.Fits pieces) :
    ∃ v', splitTurn isSep (front ++ []) front.length v = .ok (v', true) ∧
      v'.strings.Holds (pieces ++ wordsP isSep word) := by
  have hreading := h.extend hfits
  obtain ⟨hfits', hroom, -⟩ := hfits.extend
  unfold splitTurn
  rw [charAt_eq, ok_bind, Lib.wordsP_of_forall h.kept]
  by_cases hword : word = []
  · have hstate : v.extend.state = 0 := hreading.state.trans (if_pos hword)
    rw [hstate, if_pos hword, List.append_nil pieces]
    exact ⟨_, rfl, hfits'.holds⟩
  · have hstate : v.extend.state = 1 := hreading.state.trans (if_neg hword)
    obtain ⟨v', hstore, -, hstored⟩ := hreading.store hword hfits' hroom []
    rw [hstate, if_neg hword]
    simp only [List.head?_nil, hstore, ok_bind]
    exact ⟨_, rfl, hstored.holds⟩

/-- **The loop finds the pieces** of what it has not read yet. -/
theorem splitLoop_eq {rest : CString} (hfits : v.Fits pieces)
    (hreading : v.Reading isSep front word) :
    ∃ strings, splitLoop isSep (front ++ rest) (rest.length + 1) front.length v = .ok strings ∧
      strings.Holds (pieces ++ wordsP isSep (word ++ rest)) := by
  induction rest generalizing front word v pieces with
  | nil =>
    obtain ⟨v', hturn, hholds⟩ := hreading.finish hfits
    rw [splitLoop, hturn, ok_bind, List.append_nil word]
    exact ⟨_, rfl, hholds⟩
  | cons c rest ih =>
    have hadvances : v.Advances isSep front word c rest pieces := by
      by_cases hword : word = []
      · subst hword
        exact hreading.advances_between hfits c rest
      · exact hreading.advances_within hword hfits c rest
    obtain ⟨v', word', pieces', hturn, hfits', hreading', hfound⟩ := hadvances
    obtain ⟨strings, hloop, hholds⟩ := ih hfits' hreading'
    rw [hfound] at hholds
    refine ⟨strings, ?_, hholds⟩
    rw [List.append_assoc, List.singleton_append, List.length_append] at hloop
    rw [splitLoop, hturn, ok_bind]
    exact hloop

end

/-- **The array of a string** has its pieces, and `NULL` behind them. -/
theorem splitInput_eq (isSep : CChar → Bool) (input : CString) :
    ∃ strings, splitInput isSep input = .ok strings ∧ strings.Holds (wordsP isSep input) := by
  have hfits : SplitVars.Fits ⟨initialStrings, 0, 0, 0, 8, 0⟩ [] :=
    ⟨⟨List.replicate 7 none, rfl⟩, rfl, rfl, Nat.le_refl 8, by decide⟩
  have hreading : SplitVars.Reading isSep ⟨initialStrings, 0, 0, 0, 8, 0⟩ [] [] :=
    ⟨rfl, fun _ hmem => absurd hmem List.not_mem_nil, fun hne => absurd rfl hne⟩
  exact splitLoop_eq hfits hreading

/-! ## The pieces -/

/-- A tab counts as a space. -/
def blank (c : CChar) : CChar := if c = 9 then 32 else c

theorem map_blank_eq {l : CString} (h : ∀ c ∈ l, isWhite c = false) :
    l.map blank = l ∧ 32 ∉ l := by
  constructor
  · refine (List.map_congr_left fun c hc => ?_).trans (List.map_id l)
    refine if_neg ?_
    rintro rfl
    cases h 9 hc
  · intro hmem
    cases h 32 hmem

/-- The pieces between spaces and tabs are those between spaces, with tabs
for spaces. -/
theorem wordsP_isWhite (input : CString) :
    wordsP isWhite input = Lib.words 32 (input.map blank) := by
  induction input using Lib.separated_induction isWhite with
  | last l hl =>
    obtain ⟨hsame, hnot⟩ := map_blank_eq hl
    rw [hsame, Lib.wordsP_of_forall hl, Lib.words_of_not_mem hnot]
  | line l c s hl hc ih =>
    obtain ⟨hsame, hnot⟩ := map_blank_eq hl
    have hblank : blank c = 32 := by
      rcases Bool.or_eq_true_iff.mp hc with h | h
      · rw [beq_iff_eq.mp h]
        rfl
      · rw [beq_iff_eq.mp h]
        rfl
    rw [List.map_append, List.map_cons, hsame, hblank, Lib.wordsP_line hl hc, Lib.words_line hnot,
      ih]

/-- `UtilSplitString` finds the pieces between separators. -/
theorem UtilSplitString_holds (input : CString) (sep : CChar) :
    ∃ strings, UtilSplitString input sep = .ok strings ∧ strings.Holds (Lib.words sep input) := by
  rw [Lib.words_eq_wordsP]
  exact splitInput_eq (· == sep) input

/-- `UtilSplitWhite` finds the pieces between spaces and tabs. -/
theorem UtilSplitWhite_holds (input : CString) :
    ∃ strings, UtilSplitWhite input = .ok strings ∧ strings.Holds (wordsP isWhite input) :=
  splitInput_eq isWhite input

/-! ## What a caller finds -/

/-- The strings of an array up to its `NULL`. -/
def StringArray.strings : StringArray → List CString
  | some (some s) :: rest => s :: strings rest
  | _ => []

theorem StringArray.Holds.strings_eq {strings : StringArray} {pieces : List CString}
    (h : strings.Holds pieces) : strings.strings = pieces := by
  obtain ⟨rest, rfl⟩ := h
  induction pieces with
  | nil => rfl
  | cons piece pieces ih => exact congrArg (piece :: ·) ih

/-- `UtilSplitString`, and the strings that its caller finds. -/
def splitString (input : CString) (sep : CChar) : Except Fault (List CString) :=
  (UtilSplitString input sep).map StringArray.strings

/-- `UtilSplitWhite`, and the strings that its caller finds. -/
def splitWhite (input : CString) : Except Fault (List CString) :=
  (UtilSplitWhite input).map StringArray.strings

/-- The caller of `UtilSplitString` finds the words of the input. -/
theorem splitString_eq (input : CString) (sep : CChar) :
    splitString input sep = .ok (Lib.words sep input) := by
  obtain ⟨strings, hrun, hholds⟩ := UtilSplitString_holds input sep
  rw [splitString, hrun]
  exact congrArg Except.ok hholds.strings_eq

/-- So does that of `UtilSplitWhite`, with tabs for spaces. -/
theorem splitWhite_eq (input : CString) :
    splitWhite input = .ok (Lib.words 32 (input.map blank)) := by
  obtain ⟨strings, hrun, hholds⟩ := UtilSplitWhite_holds input
  rw [splitWhite, hrun, ← wordsP_isWhite]
  exact congrArg Except.ok hholds.strings_eq

/-! ## Both functions -/

/-- **String splitting.** The array has exactly the pieces of the string,
in order and with `NULL` behind them, and no pointer is written outside of
it; the pieces of `UtilSplitString`, joined by the separator, are found
again. -/
theorem split_pieces (input : CString) (sep : CChar) :
    (∃ strings, UtilSplitString input sep = .ok strings ∧
      strings.Holds (Lib.words sep input)) ∧
    (∃ strings, UtilSplitWhite input = .ok strings ∧ strings.Holds (wordsP isWhite input)) ∧
    ∃ strings, UtilSplitString ([sep].intercalate (Lib.words sep input)) sep = .ok strings ∧
      strings.Holds (Lib.words sep input) := by
  refine ⟨UtilSplitString_holds input sep, UtilSplitWhite_holds input, ?_⟩
  obtain ⟨strings, hjoined, hholds⟩ :=
    UtilSplitString_holds ([sep].intercalate (Lib.words sep input)) sep
  rw [Lib.words_intercalate] at hholds
  · exact ⟨strings, hjoined, hholds⟩
  · intro w hw
    rw [Lib.words_eq_wordsP] at hw
    obtain ⟨hne, hkept⟩ := Lib.of_mem_wordsP hw
    exact ⟨hne, fun hmem => beq_eq_false_iff_ne.mp (hkept sep hmem) rfl⟩

end XplEvent.Util
