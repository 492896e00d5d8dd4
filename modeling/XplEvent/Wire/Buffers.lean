import XplEvent.Lib.Memory
import XplEvent.Wire.Accepted

/-!
# The buffers of `parseBlock`

`parseBlock` fills three buffers, one after the other, and counts in one
variable what is in the one it is filling. The buffers are arrays here, and
what has not been written cannot be read. Positions are natural numbers: a
text is what came in a datagram, and far shorter than an `int` can count.

The decoder of `Block.lean`, where each buffer is a text that grows, does
the same (`turn_sim`): the count is the length of the buffer that is being
filled, and a buffer has its NUL when it is copied. So no write misses its
buffer, and the sign of the result tells what has been read
(`parseBlock_reads`).
-/

namespace XplEvent.Wire

open Lib (Memory Turn)

namespace Buffers

/-! ## The decoder -/

/-- A buffer of `n` characters; a cell that is `none` has not been
written. -/
abbrev Buf (n : Nat) := Memory (Option CChar) n

/-- `buf[i] = c`. -/
def storeAt {n : Nat} (buf : Buf n) (i : Nat) (c : CChar) : Except Fault (Buf n) :=
  match buf.write i [some c] with
  | none => .error .outOfBounds
  | some buf => .ok buf

/-- `talloc_strdup`, which reads up to a NUL. -/
def strdup {n : Nat} (buf : Buf n) : Except Fault CString :=
  match stringAt buf.cells with
  | none => .error .outOfBounds
  | some s => .ok s

/-- The variables of `parseBlock` that outlive a character, for a header
buffer of `n` characters. -/
structure Vars (n : Nat) where
  curState : BlockState
  charCount : Nat
  blockStarted : Bool
  blockHeader : Buf n
  nb : Buf bufferSize
  vb : Buf bufferSize
  nvList : List XplNameValueLE

variable {n : Nat}

/-- The body of the loop for one character: go on, or return. -/
def turn (b : Vars n) (curIndex : Nat) (theChar : CChar) :
    Except Fault (Turn (Vars n) (Int × Vars n)) :=
  match b.curState with
  | .header =>
    if theChar = LF ∧ b.blockStarted then do
      let blockHeader ← storeAt b.blockHeader b.charCount 0
      return .again { b with curState := .openBrace, charCount := 0, blockHeader := blockHeader }
    else if ¬ b.blockStarted ∧ theChar ≤ 32 then return .again b
    else match VALID_CHAR theChar with
      | (true, theChar) =>
        let b := { b with blockStarted := true }
        if b.charCount < n - 1 then do
          let blockHeader ← storeAt b.blockHeader b.charCount theChar
          return .again { b with charCount := b.charCount + 1, blockHeader := blockHeader }
        else return .done (-curIndex, b)
      | (false, _) => return .done (-curIndex, b)
  | .openBrace =>
    if theChar = 123 then return .again { b with curState := .openLine }
    else return .done (-curIndex, b)
  | .openLine =>
    if theChar = LF then return .again { b with curState := .name, charCount := 0 }
    else return .done (-curIndex, b)
  | .name =>
    if theChar = 61 then
      if b.charCount < 32 then do
        let nb ← storeAt b.nb b.charCount 0
        return .again { b with curState := .value, charCount := 0, nb := nb }
      else return .done (-curIndex, b)
    else if theChar = 125 then return .again { b with curState := .close }
    else match VALID_CHAR theChar with
      | (true, theChar) =>
        if b.charCount < 31 then do
          let nb ← storeAt b.nb b.charCount theChar
          return .again { b with charCount := b.charCount + 1, nb := nb }
        else return .done (-curIndex, b)
      | (false, _) => return .done (-curIndex, b)
  | .value =>
    if theChar = LF then do
      let vb ← storeAt b.vb b.charCount 0
      let itemValue ← strdup vb
      let itemName ← strdup b.nb
      return .again { b with
        curState := .name
        charCount := 0
        vb := vb
        nvList := b.nvList ++ [newNameValueListEntry itemName itemValue] }
    else match VALID_CHAR theChar with
      | (valid, theChar) =>
        if valid ∨ theChar = 32 then
          if b.charCount < 31 then do
            let vb ← storeAt b.vb b.charCount theChar
            return .again { b with charCount := b.charCount + 1, vb := vb }
          else return .done (-curIndex, b)
        else return .done (-curIndex, b)
  | .close =>
    if theChar = LF then return .done (curIndex + 1, b)
    else return .done (-curIndex, b)

/-- The loop over the text, and what follows when it is used up. -/
def scan (theLength : Nat) : Nat → CString → Vars n → Except Fault (Int × Vars n)
  | _, [], b => .ok (if b.blockStarted then -theLength else 0, b)
  | curIndex, theChar :: rest, b => do
    match ← turn b curIndex theChar with
    | .done r => return r
    | .again b => scan theLength (curIndex + 1) rest b

/-- An array that has not been written. -/
def unwritten (n : Nat) : Buf n := ⟨List.replicate n none, List.length_replicate⟩

/-- `parseBlock`: the result, the header buffer and the list. -/
def parseBlock (nvList : List XplNameValueLE) (theText : CString) (blockHeader : Buf n) :
    Except Fault (Int × Buf n × List XplNameValueLE) := do
  let start := ⟨.header, 0, false, blockHeader, unwritten _, unwritten _, nvList⟩
  let (r, b) ← scan theText.length 0 theText start
  return (r, b.blockHeader, b.nvList)

/-! ## What a buffer holds -/

/-- A buffer begins with a text. -/
def Filled (buf : Buf n) (text : CString) : Prop := ∃ rest, buf.cells = text.map some ++ rest

/-- A buffer begins with a text and a NUL. -/
def Ended (buf : Buf n) (text : CString) : Prop :=
  ∃ rest, buf.cells = text.map some ++ some 0 :: rest

theorem filled_nil (buf : Buf n) : Filled buf [] := ⟨buf.cells, rfl⟩

/-- A character is written behind the text, if there is room. -/
theorem Filled.store {buf : Buf n} {text : CString} (h : Filled buf text)
    (hroom : text.length < n) (c : CChar) : ∃ buf' rest,
      storeAt buf text.length c = .ok buf' ∧ buf'.cells = text.map some ++ some c :: rest := by
  obtain ⟨rest, hcells⟩ := h
  have hsize : (text.map some ++ rest).length = n := hcells ▸ buf.size_eq
  rw [List.length_append, List.length_map] at hsize
  cases rest with
  | nil =>
    rw [List.length_nil] at hsize
    omega
  | cons old rest =>
    obtain ⟨buf', hwrite, hcells'⟩ :=
      Memory.write_over (show buf.cells = text.map some ++ ([old] ++ rest) from hcells)
        (show [some c].length = [old].length from rfl)
    rw [List.length_map] at hwrite
    refine ⟨buf', rest, ?_, hcells'⟩
    rw [storeAt, hwrite]

theorem Filled.put {buf : Buf n} {text : CString} (h : Filled buf text) (hroom : text.length < n)
    (c : CChar) : ∃ buf', storeAt buf text.length c = .ok buf' ∧ Filled buf' (text ++ [c]) := by
  obtain ⟨buf', rest, hstore, hcells⟩ := h.store hroom c
  refine ⟨buf', hstore, rest, ?_⟩
  rw [hcells, List.map_append, List.append_assoc]
  rfl

theorem Filled.terminate {buf : Buf n} {text : CString} (h : Filled buf text)
    (hroom : text.length < n) : ∃ buf', storeAt buf text.length 0 = .ok buf' ∧ Ended buf' text := by
  obtain ⟨buf', rest, hstore, hcells⟩ := h.store hroom 0
  exact ⟨buf', hstore, rest, hcells⟩

/-- A text that ends with a NUL is copied. -/
theorem Ended.strdup {buf : Buf n} {text : CString} (h : Ended buf text) (hnul : 0 ∉ text) :
    strdup buf = .ok text := by
  obtain ⟨rest, hcells⟩ := h
  have hstring : stringAt buf.cells = some text := by
    refine stringAt_iff.mpr ⟨hnul, ?_, ?_⟩
    · intro i hi
      rw [hcells, List.getElem?_append_left (by rwa [List.length_map]), List.getElem?_map,
        List.getElem?_eq_getElem hi]
      rfl
    · have hlen : text.length = (text.map some).length := (List.length_map some).symm
      rw [hcells, hlen, List.getElem?_append_right (Nat.le_refl _), Nat.sub_self]
      rfl
  rw [Buffers.strdup, hstring]

/-! ## The two decoders -/

/-- Behind the header, which has its NUL. -/
def Inside (b : Vars 64) (s : Scan) : Prop :=
  s.blockStarted = true ∧ Ended b.blockHeader s.blockHeader

/-- What the arrays hold of the texts in each state; the count is the
length of the text that grows. -/
def Fills (b : Vars 64) (s : Scan) : BlockState → Prop
  | .header => b.charCount = s.blockHeader.length ∧ Filled b.blockHeader s.blockHeader
  | .openBrace | .openLine | .close => Inside b s
  | .name => Inside b s ∧ b.charCount = s.nb.length ∧ Filled b.nb s.nb
  | .value => Inside b s ∧ b.charCount = s.vb.length ∧ Filled b.vb s.vb ∧ Ended b.nb s.nb

/-- The decoder with arrays is where the one with texts is. -/
structure Holds (b : Vars 64) (s : Scan) : Prop where
  curState : b.curState = s.curState
  blockStarted : b.blockStarted = s.blockStarted
  nvList : b.nvList = s.nvList
  inBounds : s.InBounds
  empty : s.blockStarted = false → s.blockHeader = []
  nul : 0 ∉ s.nb ∧ 0 ∉ s.vb
  fills : Fills b s s.curState

/-- The same step of both decoders. -/
inductive TurnSim : Except Fault (Turn Scan (Int × Scan)) →
    Except Fault (Turn (Vars 64) (Int × Vars 64)) → Prop
  | again {s b} (h : Holds b s) : TurnSim (.ok (.again s)) (.ok (.again b))
  | done {r s b} (h : Holds b s) : TurnSim (.ok (.done (r, s))) (.ok (.done (r, b)))

theorem stored_ne_nul (c : CChar) : 0 ≠ stored c := by
  by_cases hc : 32 ≤ c ∧ c < 123
  · rw [stored_of_range hc]
    rintro rfl
    exact absurd hc.1 (by decide)
  · rw [stored_of_not_range hc]
    decide

theorem nul_not_mem_snoc {text : CString} (h : 0 ∉ text) (c : CChar) :
    0 ∉ text ++ [stored c] := by
  rw [List.mem_append, List.mem_singleton, not_or]
  exact ⟨h, stored_ne_nul c⟩

theorem length_snoc (text : CString) (c : CChar) : (text ++ [c]).length = text.length + 1 := by
  rw [List.length_append, List.length_singleton]

theorem length_snoc_le {text : CString} {k : Nat} (h : text.length < k) (c : CChar) :
    (text ++ [c]).length ≤ k := by
  rw [length_snoc]
  exact h

section

variable {b : Vars 64} {s : Scan} (h : Holds b s) (i : Nat) (c : CChar)
include h

theorem turn_sim_header (hs : s.curState = .header) :
    TurnSim (blockStep 64 s i c) (turn b i c) := by
  have hb : b.curState = .header := h.curState.trans hs
  have hfills := h.fills
  rw [hs] at hfills
  obtain ⟨hcount, hfilled⟩ := hfills
  obtain ⟨hlen, hnb, hvb⟩ := h.inBounds
  cases hstarted : s.blockStarted with
  | false =>
    have hstarted' : b.blockStarted = false := h.blockStarted.trans hstarted
    by_cases hc : c ≤ 32
    · have hturn : turn b i c = .ok (.again b) := by
        simp only [turn, hb, hstarted', Bool.false_eq_true, and_false, if_false,
          not_false_eq_true, hc, and_self, if_true]
        rfl
      rw [step_junk hs hstarted hc, hturn]
      exact .again h
    · have hlt : s.blockHeader.length < 63 := by
        rw [h.empty hstarted]
        exact Nat.succ_pos 62
      obtain ⟨buf, hput, hbuf⟩ := hfilled.put (Nat.lt_succ_of_lt hlt) (stored c)
      have hturn : turn b i c = .ok (.again { b with
          blockStarted := true, charCount := s.blockHeader.length + 1, blockHeader := buf }) := by
        simp only [turn, hb, hstarted', Bool.false_eq_true, and_false, if_false, hc,
          VALID_CHAR_eq, hcount, hlt, if_true, hput]
        rfl
      rw [step_first hs hstarted (by grind) hlt, hturn]
      refine .again ⟨h.curState, rfl, h.nvList, ⟨length_snoc_le hlt _, hnb, hvb⟩, ?_, h.nul, ?_⟩
      · exact fun hfalse => by cases hfalse
      · rw [hs]
        exact ⟨(length_snoc _ _).symm, hbuf⟩
  | true =>
    have hstarted' : b.blockStarted = true := h.blockStarted.trans hstarted
    by_cases hc : c = LF
    · subst hc
      obtain ⟨buf, hput, hbuf⟩ := hfilled.terminate (Nat.lt_succ_of_le hlen)
      have hturn : turn b i LF = .ok (.again { b with
          curState := .openBrace, charCount := 0, blockHeader := buf }) := by
        simp only [turn, hb, hstarted', and_self, if_true, hcount, hput]
        rfl
      rw [step_header_end hs hstarted (Nat.lt_succ_of_le hlen), hturn]
      exact .again ⟨rfl, h.blockStarted, h.nvList, ⟨hlen, hnb, hvb⟩, h.empty, h.nul, hstarted, hbuf⟩
    by_cases hlt : s.blockHeader.length < 63
    · obtain ⟨buf, hput, hbuf⟩ := hfilled.put (Nat.lt_succ_of_lt hlt) (stored c)
      have hturn : turn b i c = .ok (.again { b with
          blockStarted := true, charCount := s.blockHeader.length + 1, blockHeader := buf }) := by
        simp only [turn, hb, hstarted', hc, false_and, if_false, not_true_eq_false,
          VALID_CHAR_eq, hcount, hlt, if_true, hput]
        rfl
      rw [step_header hs hstarted hc hlt, hturn]
      refine .again
        ⟨h.curState, hstarted.symm, h.nvList, ⟨length_snoc_le hlt _, hnb, hvb⟩, ?_, h.nul, ?_⟩
      · exact fun hfalse => absurd (hfalse.symm.trans hstarted) Bool.false_ne_true
      · rw [hs]
        exact ⟨(length_snoc _ _).symm, hbuf⟩
    · have hturn : turn b i c = .ok (.done (-i, { b with blockStarted := true })) := by
        simp only [turn, hb, hstarted', hc, false_and, if_false, not_true_eq_false,
          VALID_CHAR_eq, hcount, hlt]
        rfl
      rw [step_header_full hs hstarted hc hlt, hturn]
      refine .done ⟨h.curState, hstarted.symm, h.nvList, h.inBounds, h.empty, h.nul, ?_⟩
      rw [hs]
      exact ⟨hcount, hfilled⟩

theorem turn_sim_name (hs : s.curState = .name) :
    TurnSim (blockStep 64 s i c) (turn b i c) := by
  have hb : b.curState = .name := h.curState.trans hs
  have hfills := h.fills
  rw [hs] at hfills
  obtain ⟨hinside, hcount, hfilled⟩ := hfills
  obtain ⟨hheader, hnb, hvb⟩ := h.inBounds
  by_cases heq : c = 61
  · subst heq
    have hlt : s.nb.length < 32 := Nat.lt_succ_of_le hnb
    obtain ⟨buf, hput, hbuf⟩ := hfilled.terminate hlt
    have hturn : turn b i 61 = .ok (.again { b with
        curState := .value, charCount := 0, nb := buf }) := by
      simp only [turn, hb, if_true, hcount, hlt, hput]
      rfl
    rw [step_name_end hs hlt, hturn]
    exact .again ⟨rfl, h.blockStarted, h.nvList, ⟨hheader, hnb, Nat.zero_le _⟩, h.empty,
      ⟨h.nul.1, List.not_mem_nil⟩, hinside, rfl, filled_nil _, hbuf⟩
  by_cases hend : c = 125
  · subst hend
    have hturn : turn b i 125 = .ok (.again { b with curState := .close }) := by
      simp only [turn, hb, heq, if_false, if_true]
      rfl
    rw [step_body_end hs, hturn]
    exact .again ⟨rfl, h.blockStarted, h.nvList, ⟨hheader, hnb, hvb⟩, h.empty, h.nul, hinside⟩
  by_cases hlt : s.nb.length < 31
  · obtain ⟨buf, hput, hbuf⟩ := hfilled.put (Nat.lt_succ_of_lt hlt) (stored c)
    have hturn : turn b i c = .ok (.again { b with
        charCount := s.nb.length + 1, nb := buf }) := by
      simp only [turn, hb, heq, hend, if_false, VALID_CHAR_eq, hcount, hlt, if_true, hput]
      rfl
    rw [step_name hs ⟨heq, hend⟩ hlt, hturn]
    refine .again ⟨h.curState, h.blockStarted, h.nvList,
      ⟨hheader, length_snoc_le hlt _, hvb⟩, h.empty, ⟨nul_not_mem_snoc h.nul.1 c, h.nul.2⟩, ?_⟩
    rw [hs]
    exact ⟨hinside, (length_snoc _ _).symm, hbuf⟩
  · have hturn : turn b i c = .ok (.done (-i, b)) := by
      simp only [turn, hb, heq, hend, if_false, VALID_CHAR_eq, hcount, hlt]
      rfl
    rw [step_name_full hs ⟨heq, hend⟩ hlt, hturn]
    exact .done h

theorem turn_sim_value (hs : s.curState = .value) :
    TurnSim (blockStep 64 s i c) (turn b i c) := by
  have hb : b.curState = .value := h.curState.trans hs
  have hfills := h.fills
  rw [hs] at hfills
  obtain ⟨hinside, hcount, hfilled, hname⟩ := hfills
  obtain ⟨hheader, hnb, hvb⟩ := h.inBounds
  by_cases hc : c = LF
  · subst hc
    have hlt : s.vb.length < 32 := Nat.lt_succ_of_le hvb
    obtain ⟨buf, hput, hbuf⟩ := hfilled.terminate hlt
    have hturn : turn b i LF = .ok (.again { b with
        curState := .name
        charCount := 0
        vb := buf
        nvList := s.nvList ++ [newNameValueListEntry s.nb s.vb] }) := by
      simp only [turn, hb, if_true, hcount, hput, ok_bind, hbuf.strdup h.nul.2,
        hname.strdup h.nul.1, h.nvList]
      rfl
    rw [step_value_end hs hlt, hturn]
    exact .again ⟨rfl, h.blockStarted, rfl, ⟨hheader, Nat.zero_le _, hvb⟩, h.empty,
      ⟨List.not_mem_nil, h.nul.2⟩, hinside, rfl, filled_nil _⟩
  by_cases hlt : s.vb.length < 31
  · obtain ⟨buf, hput, hbuf⟩ := hfilled.put (Nat.lt_succ_of_lt hlt) (stored c)
    have hturn : turn b i c = .ok (.again { b with
        charCount := s.vb.length + 1, vb := buf }) := by
      simp only [turn, hb, hc, if_false, VALID_CHAR_eq, true_or, hcount, hlt, if_true, hput]
      rfl
    rw [step_value hs hc hlt, hturn]
    refine .again ⟨h.curState, h.blockStarted, h.nvList,
      ⟨hheader, hnb, length_snoc_le hlt _⟩, h.empty, ⟨h.nul.1, nul_not_mem_snoc h.nul.2 c⟩, ?_⟩
    rw [hs]
    exact ⟨hinside, (length_snoc _ _).symm, hbuf, hname⟩
  · have hturn : turn b i c = .ok (.done (-i, b)) := by
      simp only [turn, hb, hc, if_false, VALID_CHAR_eq, true_or, hcount, hlt, if_true]
      rfl
    rw [step_value_full hs hc hlt, hturn]
    exact .done h

/-- **A turn of the decoder with arrays** is a turn of the decoder with
texts. -/
theorem turn_sim : TurnSim (blockStep 64 s i c) (turn b i c) := by
  have hfills := h.fills
  cases hs : s.curState with
  | header => exact turn_sim_header h i c hs
  | name => exact turn_sim_name h i c hs
  | value => exact turn_sim_value h i c hs
  | openBrace =>
    have hb : b.curState = .openBrace := h.curState.trans hs
    rw [hs] at hfills
    obtain ⟨hheader, hnb, hvb⟩ := h.inBounds
    by_cases hc : c = 123
    · subst hc
      have hturn : turn b i 123 = .ok (.again { b with curState := .openLine }) := by
        simp only [turn, hb, if_true]
        rfl
      rw [step_openBrace hs, hturn]
      exact .again ⟨rfl, h.blockStarted, h.nvList, ⟨hheader, hnb, hvb⟩, h.empty, h.nul, hfills⟩
    · have hturn : turn b i c = .ok (.done (-i, b)) := by
        simp only [turn, hb, hc, if_false]
        rfl
      rw [step_openBrace_bad hs hc, hturn]
      exact .done h
  | openLine =>
    have hb : b.curState = .openLine := h.curState.trans hs
    rw [hs] at hfills
    obtain ⟨hheader, hnb, hvb⟩ := h.inBounds
    by_cases hc : c = LF
    · subst hc
      have hturn : turn b i LF = .ok (.again { b with curState := .name, charCount := 0 }) := by
        simp only [turn, hb, if_true]
        rfl
      rw [step_openLine hs, hturn]
      exact .again ⟨rfl, h.blockStarted, h.nvList, ⟨hheader, Nat.zero_le _, hvb⟩, h.empty,
        ⟨List.not_mem_nil, h.nul.2⟩, hfills, rfl, filled_nil _⟩
    · have hturn : turn b i c = .ok (.done (-i, b)) := by
        simp only [turn, hb, hc, if_false]
        rfl
      rw [step_openLine_bad hs hc, hturn]
      exact .done h
  | close =>
    have hb : b.curState = .close := h.curState.trans hs
    by_cases hc : c = LF
    · subst hc
      have hturn : turn b i LF = .ok (.done (i + 1, b)) := by
        simp only [turn, hb, if_true]
        rfl
      rw [step_close hs, hturn]
      exact .done h
    · have hturn : turn b i c = .ok (.done (-i, b)) := by
        simp only [turn, hb, hc, if_false]
        rfl
      rw [step_close_bad hs hc, hturn]
      exact .done h

end

/-- A run of the decoder with arrays. -/
theorem scan_sim {theLength : Nat} {r : Int} {s' : Scan} (t : CString) {i : Nat} {s : Scan}
    {b : Vars 64} (h : Holds b s) (hscan : blockScan 64 theLength i t s = .ok (r, s')) :
    ∃ b', scan theLength i t b = .ok (r, b') ∧ Holds b' s' := by
  induction t generalizing i s b with
  | nil =>
    rw [blockScan] at hscan
    cases hscan
    exact ⟨b, by rw [scan, h.blockStarted], h⟩
  | cons c t ih =>
    rw [blockScan] at hscan
    have hsim := turn_sim h i c
    generalize blockStep 64 s i c = step at hscan hsim
    generalize hturn : turn b i c = step' at hsim
    cases hsim with
    | again hnext =>
      obtain ⟨b', hrest, h'⟩ := ih hnext hscan
      exact ⟨b', by rw [scan, hturn]; exact hrest, h'⟩
    | done hlast =>
      cases hscan
      exact ⟨_, by rw [scan, hturn]; rfl, hlast⟩

/-! ## The result -/

/-- What the result of `parseBlock` says of the text. -/
structure ReadsBlock (theText : CString) (r : Int) : Prop where
  ge : -(theText.length : Int) ≤ r
  le : r ≤ theText.length
  zero : r = 0 ↔ ∀ c ∈ theText, c ≤ 32
  pos : 0 < r ↔ ∃ (b : RawBlock) (rest : CString), theText = b.text ++ rest
  /-- The next call begins behind the newline of the closing brace. -/
  behind : 0 < r → ∃ front rest, theText = front ++ [125, LF] ++ rest ∧
    theText[r.toNat - 1]? = some LF ∧ theText.drop r.toNat = rest

/-- Inside a block the result is not further from zero than the text goes,
and not zero. -/
theorem blockScan_range {theLength : Nat} {r : Int} {s' : Scan} (t : CString) {i : Nat} (hi : 0 < i)
    (hlen : i + t.length = theLength) {s : Scan} (hb : s.blockStarted = true) (hs : s.InBounds)
    (hscan : blockScan 64 theLength i t s = .ok (r, s')) :
    r ≠ 0 ∧ -(theLength : Int) ≤ r ∧ r ≤ theLength := by
  induction t generalizing i s with
  | nil =>
    rw [List.length_nil] at hlen
    rw [blockScan, if_pos hb] at hscan
    cases hscan
    omega
  | cons c t ih =>
    rw [List.length_cons] at hlen
    rcases blockStep_started hb hs i c with ⟨s₁, hstep, hb', hs'⟩ | hstep | hstep
    · rw [blockScan_again hstep] at hscan
      exact ih (Nat.succ_pos i) (by omega) hb' hs' hscan
    · rw [blockScan, hstep] at hscan
      cases hscan
      omega
    · rw [blockScan, hstep] at hscan
      cases hscan
      omega

/-- A text is junk, up to where a block begins. -/
theorem junk_split (theText : CString) : (∀ c ∈ theText, c ≤ 32) ∨
    ∃ junk c rest, theText = junk ++ c :: rest ∧ (∀ d ∈ junk, d ≤ 32) ∧ 32 < c := by
  induction theText with
  | nil => exact .inl fun c hc => absurd hc List.not_mem_nil
  | cons c t ih =>
    by_cases hc : c ≤ 32
    · rcases ih with hjunk | ⟨junk, d, rest, rfl, hjunk, hd⟩
      · exact .inl (List.forall_mem_cons.mpr ⟨hc, hjunk⟩)
      · exact .inr ⟨c :: junk, d, rest, rfl, List.forall_mem_cons.mpr ⟨hc, hjunk⟩, hd⟩
    · exact .inr ⟨[], c, t, rfl, fun d hd => absurd hd List.not_mem_nil, by grind⟩

/-- The sign of the result, and its range. -/
theorem blockScan_text (nvList : List XplNameValueLE) (theText : CString) : ∃ r s',
    blockScan 64 theText.length 0 theText (.start nvList) = .ok (r, s') ∧
      -(theText.length : Int) ≤ r ∧ r ≤ theText.length ∧ (r = 0 ↔ ∀ c ∈ theText, c ≤ 32) := by
  rcases junk_split theText with hjunk | ⟨junk, c, rest, htext, hjunk, hc⟩
  · have hscan : blockScan 64 theText.length 0 (theText ++ []) (.start nvList) = _ :=
      blockScan_junk hjunk [] 0 nvList
    rw [List.append_nil] at hscan
    exact ⟨0, .start nvList, hscan, by omega, by omega, iff_of_true rfl hjunk⟩
  · have hbegun : Scan.InBounds ⟨.header, true, [stored c], [], [], nvList⟩ :=
      ⟨Nat.le_add_left 1 62, Nat.zero_le _, Nat.zero_le _⟩
    have hlen : 0 + junk.length + 1 + rest.length = theText.length := by
      rw [htext, List.length_append, List.length_cons]
      omega
    have hpos : 0 < theText.length := by omega
    obtain ⟨r, s', hrest, -⟩ :=
      blockScan_started hpos rest (Nat.succ_pos (0 + junk.length)) rfl hbegun
    obtain ⟨hne, hge, hle⟩ :=
      blockScan_range rest (Nat.succ_pos (0 + junk.length)) hlen rfl hbegun hrest
    have hscan : blockScan 64 theText.length 0 (junk ++ c :: rest) (.start nvList) =
        .ok (r, s') := by
      rw [blockScan_junk hjunk,
        blockScan_again (step_first (s := .start nvList) rfl rfl hc (Nat.succ_pos 62))]
      exact hrest
    refine ⟨r, s', htext ▸ hscan, hge, hle, iff_of_false hne ?_⟩
    intro hall
    have hjunk' := hall c (htext ▸ List.mem_append_right junk List.mem_cons_self)
    grind

/-- A block ends with its closing brace and a newline. -/
theorem RawBlock.text_closes (b : RawBlock) : ∃ front, b.text = front ++ [125, LF] := by
  refine ⟨b.junk ++ b.header ++ [LF, 123, LF] ++ (b.pairs.flatMap RawPair.text ++ b.cut), ?_⟩
  simp only [RawBlock.text, bodyText, List.append_assoc]

theorem holds_start (nvList : List XplNameValueLE) (blockHeader : Buf 64) :
    Holds ⟨.header, 0, false, blockHeader, unwritten _, unwritten _, nvList⟩ (.start nvList) where
  curState := rfl
  blockStarted := rfl
  nvList := rfl
  inBounds := ⟨Nat.zero_le _, Nat.zero_le _, Nat.zero_le _⟩
  empty _ := rfl
  nul := ⟨List.not_mem_nil, List.not_mem_nil⟩
  fills := ⟨rfl, filled_nil _⟩

/-- **The decoder stays in its buffers, and its result tells what it has
read**: nothing but junk, a block to its end, or neither. -/
theorem parseBlock_reads (nvList : List XplNameValueLE) (theText : CString)
    (blockHeader : Buf 64) : ∃ r header list,
      parseBlock nvList theText blockHeader = .ok (r, header, list) ∧ ReadsBlock theText r := by
  obtain ⟨r, s', hscan, hge, hle, hzero⟩ := blockScan_text nvList theText
  obtain ⟨b', hrun, -⟩ := scan_sim theText (holds_start nvList blockHeader) hscan
  have htexts : Wire.parseBlock nvList theText [] 64 =
      .ok (r, if s'.blockStarted then s'.blockHeader else [], s'.nvList) := by
    rw [Wire.parseBlock, hscan]
    rfl
  refine ⟨r, b'.blockHeader, b'.nvList, ?_, hge, hle, hzero, ?_, ?_⟩
  · rw [parseBlock, hrun]
    rfl
  · rw [← parseBlock_pos_iff theText [] nvList]
    constructor
    · exact fun hr => ⟨_, _, _, htexts, hr⟩
    · rintro ⟨r', header, list, hparse, hr⟩
      rw [htexts] at hparse
      cases hparse
      exact hr
  · intro hr
    obtain ⟨b, rest, htext⟩ :=
      (parseBlock_pos_iff theText [] nvList).mp ⟨_, _, _, htexts, hr⟩
    have hlength : r = b.text.length := by
      rw [htext, parseBlock_text] at htexts
      exact (congrArg Prod.fst (Except.ok.inj htexts)).symm
    obtain ⟨front, hfront⟩ := RawBlock.text_closes b
    have hindex : r.toNat = front.length + 1 + 1 := by
      rw [hlength, hfront, List.length_append]
      rfl
    refine ⟨front, rest, by rw [htext, hfront], ?_, ?_⟩
    · rw [htext, hfront, hindex, Nat.add_sub_cancel, List.append_assoc,
        List.getElem?_append_right (Nat.le_add_right _ _), Nat.add_sub_cancel_left]
      rfl
    · rw [htext, hlength, Int.toNat_natCast, List.drop_left]

end Buffers

end XplEvent.Wire
