import XplEvent.Lib.Loop
import XplEvent.Wire.Message

/-!
# `parseBlock` — the block decoder

A block is a header line, `{`, a list of `name=value` lines, and `}`. The
decoder reads it one character at a time in six states, into a header
buffer of the caller and two buffers of its own. A store outside a buffer
is a fault of the model; the bounds checks are those of the source.

`VALID_CHAR` is a macro whose last two comparisons are assignments: a
character outside 32 to 122 is turned into 124 and is then valid.
-/

namespace XplEvent.Wire

open Lib (Turn)

/-- `VALID_CHAR`: whether the character is valid, and what the macro has
left in the variable. -/
def VALID_CHAR (theChar : CChar) : Bool × CChar :=
  if 32 ≤ theChar ∧ theChar < 123 then (true, theChar)
  else
    -- `(theChar = 124)`, and `(theChar = 126)` if that were zero
    let theChar : CChar := 124
    if theChar ≠ 0 then (true, theChar) else (true, 126)

/-- The character a buffer gets for a character of the text. -/
def stored (c : CChar) : CChar := (VALID_CHAR c).2

@[simp] theorem VALID_CHAR_eq (c : CChar) : VALID_CHAR c = (true, stored c) := by
  unfold stored VALID_CHAR
  split
  · rfl
  · rfl

/-- `curState`, 0 to 5. -/
inductive BlockState
  | header
  | openBrace
  | openLine
  | name
  | value
  | close
deriving DecidableEq, Repr

/-- The variables of `parseBlock` that outlive a character. `charCount`
is the length of the buffer that is being filled. -/
structure Scan where
  curState : BlockState
  blockStarted : Bool
  blockHeader : CString
  nb : CString
  vb : CString
  nvList : List XplNameValueLE
deriving DecidableEq, Repr

/-- The sizes of the name and the value buffer. -/
def bufferSize : Nat := 32

/-- The body of the loop for one character: go on, or return. -/
def blockStep (blockHeaderLength : Nat) (s : Scan) (curIndex : Nat) (theChar : CChar) :
    Except Fault (Turn Scan (Int × Scan)) :=
  match s.curState with
  | .header =>
    if theChar = LF ∧ s.blockStarted then do
      let blockHeader ← bufEnd blockHeaderLength s.blockHeader
      return .again { s with curState := .openBrace, blockHeader := blockHeader }
    else if ¬ s.blockStarted ∧ theChar ≤ 32 then
      return .again s
    else match VALID_CHAR theChar with
      | (true, theChar) =>
        if s.blockHeader.length < blockHeaderLength - 1 then do
          let blockHeader ← bufPut blockHeaderLength s.blockHeader theChar
          return .again { s with blockStarted := true, blockHeader := blockHeader }
        else return .done (-curIndex, s)
      | (false, _) => return .done (-curIndex, s)
  | .openBrace =>
    if theChar = 123 then return .again { s with curState := .openLine }
    else return .done (-curIndex, s)
  | .openLine =>
    if theChar = LF then return .again { s with curState := .name, nb := [] }
    else return .done (-curIndex, s)
  | .name =>
    if theChar = 61 then
      if s.nb.length < bufferSize then do
        let nb ← bufEnd bufferSize s.nb
        return .again { s with curState := .value, nb := nb, vb := [] }
      else return .done (-curIndex, s)
    else if theChar = 125 then
      return .again { s with curState := .close }
    else match VALID_CHAR theChar with
      | (true, theChar) =>
        if s.nb.length < 31 then do
          let nb ← bufPut bufferSize s.nb theChar
          return .again { s with nb := nb }
        else return .done (-curIndex, s)
      | (false, _) => return .done (-curIndex, s)
  | .value =>
    if theChar = LF then do
      let vb ← bufEnd bufferSize s.vb
      return .again { s with
        curState := .name
        nb := []
        nvList := s.nvList ++ [newNameValueListEntry s.nb vb] }
    else match VALID_CHAR theChar with
      | (valid, theChar) =>
        if valid ∨ theChar = 32 then
          if s.vb.length < 31 then do
            let vb ← bufPut bufferSize s.vb theChar
            return .again { s with vb := vb }
          else return .done (-curIndex, s)
        else return .done (-curIndex, s)
  | .close =>
    if theChar = LF then return .done (curIndex + 1, s)
    else return .done (-curIndex, s)

/-- The loop over the text, and what follows when it is used up. -/
def blockScan (blockHeaderLength theLength : Nat) :
    Nat → CString → Scan → Except Fault (Int × Scan)
  | _, [], s => .ok (if s.blockStarted then -theLength else 0, s)
  | curIndex, theChar :: rest, s =>
    match blockStep blockHeaderLength s curIndex theChar with
    | .error f => .error f
    | .ok (.done r) => .ok r
    | .ok (.again s) => blockScan blockHeaderLength theLength (curIndex + 1) rest s

/-- The variables at the start, over what the caller's buffer holds. -/
def Scan.start (nvList : List XplNameValueLE) : Scan :=
  ⟨.header, false, [], [], [], nvList⟩

/-- `parseBlock`: the result, the header buffer and the list. A header
buffer that is not written to keeps what it held. -/
def parseBlock (nvList : List XplNameValueLE) (theText blockHeader : CString)
    (blockHeaderLength : Nat) : Except Fault (Int × CString × List XplNameValueLE) := do
  let (r, s) ← blockScan blockHeaderLength theText.length 0 theText (.start nvList)
  return (r, if s.blockStarted then s.blockHeader else blockHeader, s.nvList)

end XplEvent.Wire
