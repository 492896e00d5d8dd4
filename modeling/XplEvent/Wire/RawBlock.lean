import XplEvent.Wire.Block

/-!
# The texts `parseBlock` accepts

`RawBlock` is a text the decoder reads to the end: junk, a header line,
`name=value` lines, and a closing brace that may stand behind the
beginning of another name. What the decoder stores of it is the header
and the pairs, each character through `stored`; the name that is cut off
is dropped.

`parseBlock_pos_iff` says that the result is positive on these texts and
on no others, and what it is.
-/

namespace XplEvent.Wire

open Lib (Turn)

/-- A name as it may stand in a text: no `=` and no `}`. -/
def IsName (s : CString) : Prop := (∀ c ∈ s, c ≠ 61 ∧ c ≠ 125) ∧ s.length ≤ 31

/-- A value as it may stand in a text. -/
def IsValue (s : CString) : Prop := LF ∉ s ∧ s.length ≤ 31

/-- A `name=value` line. -/
structure RawPair where
  name : CString
  value : CString
  isName : IsName name
  isValue : IsValue value

def RawPair.text (p : RawPair) : CString := p.name ++ 61 :: p.value ++ [LF]

/-- The list entry made of a line. -/
def RawPair.entry (p : RawPair) : XplNameValueLE :=
  newNameValueListEntry (p.name.map stored) (p.value.map stored)

/-- An accepted text. The header is split into its first character, which
ends the junk, and the rest. -/
structure RawBlock where
  junk : CString
  first : CChar
  more : CString
  pairs : List RawPair
  cut : CString
  junk_le : ∀ c ∈ junk, c ≤ 32
  first_gt : 32 < first
  more_line : LF ∉ more
  more_length : more.length < 63
  isName_cut : IsName cut

def RawBlock.header (b : RawBlock) : CString := b.first :: b.more

/-- The lines between the braces, with the name that is cut off. -/
def bodyText (pairs : List RawPair) (cut : CString) : CString :=
  pairs.flatMap RawPair.text ++ cut ++ [125, LF]

def RawBlock.text (b : RawBlock) : CString :=
  b.junk ++ b.header ++ [LF, 123, LF] ++ bodyText b.pairs b.cut

/-! ## Characters -/

theorem stored_of_range {c : CChar} (h : 32 ≤ c ∧ c < 123) : stored c = c := by
  unfold stored VALID_CHAR
  rw [if_pos h]

theorem stored_of_not_range {c : CChar} (h : ¬ (32 ≤ c ∧ c < 123)) : stored c = 124 := by
  unfold stored VALID_CHAR
  rw [if_neg h]
  rfl

/-! ## Single characters -/

section

variable {s : Scan} {i : Nat} {c : CChar}

theorem step_junk (hs : s.curState = .header) (hb : s.blockStarted = false) (hc : c ≤ 32) :
    blockStep 64 s i c = .ok (.again s) := by
  simp only [blockStep, hs, hb, Bool.false_eq_true, and_false, if_false, not_false_eq_true, hc,
    and_self, if_true]
  rfl

/-- The first character of a header. -/
theorem step_first (hs : s.curState = .header) (hb : s.blockStarted = false) (hc : 32 < c)
    (hlen : s.blockHeader.length < 63) : blockStep 64 s i c = .ok (.again { s with
      blockStarted := true, blockHeader := s.blockHeader ++ [stored c] }) := by
  have hc' : ¬ c ≤ 32 := by grind
  simp only [blockStep, hs, hb, Bool.false_eq_true, and_false, if_false, hc', VALID_CHAR_eq,
    hlen, if_true, bufPut_ok (Nat.lt_succ_of_lt hlen)]
  rfl

theorem step_header (hs : s.curState = .header) (hb : s.blockStarted = true) (hc : c ≠ LF)
    (hlen : s.blockHeader.length < 63) : blockStep 64 s i c = .ok (.again { s with
      blockHeader := s.blockHeader ++ [stored c] }) := by
  simp only [blockStep, hs, hb, hc, false_and, if_false, not_true_eq_false, VALID_CHAR_eq,
    hlen, if_true, bufPut_ok (Nat.lt_succ_of_lt hlen)]
  rfl

theorem step_header_end (hs : s.curState = .header) (hb : s.blockStarted = true)
    (hlen : s.blockHeader.length < 64) :
    blockStep 64 s i LF = .ok (.again { s with curState := .openBrace }) := by
  simp only [blockStep, hs, hb, and_self, if_true, bufEnd_ok hlen]
  rfl

theorem step_openBrace (hs : s.curState = .openBrace) :
    blockStep 64 s i 123 = .ok (.again { s with curState := .openLine }) := by
  simp only [blockStep, hs, if_true]
  rfl

theorem step_openLine (hs : s.curState = .openLine) :
    blockStep 64 s i LF = .ok (.again { s with curState := .name, nb := [] }) := by
  simp only [blockStep, hs, if_true]
  rfl

theorem step_name (hs : s.curState = .name) (hc : c ≠ 61 ∧ c ≠ 125) (hlen : s.nb.length < 31) :
    blockStep 64 s i c = .ok (.again { s with nb := s.nb ++ [stored c] }) := by
  simp only [blockStep, hs, hc.1, hc.2, if_false, VALID_CHAR_eq, hlen, if_true,
    @bufPut_ok bufferSize _ (Nat.lt_succ_of_lt hlen)]
  rfl

theorem step_name_end (hs : s.curState = .name) (hlen : s.nb.length < 32) :
    blockStep 64 s i 61 = .ok (.again { s with curState := .value, vb := [] }) := by
  simp only [blockStep, hs, if_true, bufferSize, hlen, bufEnd_ok hlen]
  rfl

theorem step_body_end (hs : s.curState = .name) :
    blockStep 64 s i 125 = .ok (.again { s with curState := .close }) := by
  have hne : (125 : CChar) ≠ 61 := by decide
  simp only [blockStep, hs, hne, if_false, if_true]
  rfl

theorem step_value (hs : s.curState = .value) (hc : c ≠ LF) (hlen : s.vb.length < 31) :
    blockStep 64 s i c = .ok (.again { s with vb := s.vb ++ [stored c] }) := by
  simp only [blockStep, hs, hc, if_false, VALID_CHAR_eq, true_or, hlen, if_true,
    @bufPut_ok bufferSize _ (Nat.lt_succ_of_lt hlen)]
  rfl

theorem step_value_end (hs : s.curState = .value) (hlen : s.vb.length < 32) :
    blockStep 64 s i LF = .ok (.again { s with
      curState := .name
      nb := []
      nvList := s.nvList ++ [newNameValueListEntry s.nb s.vb] }) := by
  simp only [blockStep, hs, if_true, bufferSize, bufEnd_ok hlen]
  rfl

theorem step_close (hs : s.curState = .close) :
    blockStep 64 s i LF = .ok (.done (i + 1, s)) := by
  simp only [blockStep, hs, if_true]
  rfl

end

/-! ## Reading forward -/

section

variable {theLength : Nat}

theorem blockScan_again {curIndex : Nat} {c : CChar} {rest : CString} {s s' : Scan}
    (h : blockStep 64 s curIndex c = .ok (.again s')) :
    blockScan 64 theLength curIndex (c :: rest) s =
      blockScan 64 theLength (curIndex + 1) rest s' := by
  rw [blockScan, h]

theorem blockScan_junk {junk : CString} (h : ∀ c ∈ junk, c ≤ 32) (rest : CString) (i : Nat)
    (nvList : List XplNameValueLE) :
    blockScan 64 theLength i (junk ++ rest) (.start nvList) =
      blockScan 64 theLength (i + junk.length) rest (.start nvList) := by
  induction junk generalizing i with
  | nil => rfl
  | cons c junk ih =>
    rw [List.cons_append, blockScan_again (step_junk rfl rfl (h c List.mem_cons_self)),
      ih (fun d hd => h d (List.mem_cons_of_mem _ hd)), List.length_cons, Nat.add_assoc,
      Nat.add_comm 1]

theorem blockScan_header {more : CString} (h : LF ∉ more) (rest : CString) (i : Nat) {s : Scan}
    (hs : s.curState = .header) (hb : s.blockStarted = true)
    (hlen : s.blockHeader.length + more.length ≤ 63) :
    blockScan 64 theLength i (more ++ rest) s =
      blockScan 64 theLength (i + more.length) rest
        { s with blockHeader := s.blockHeader ++ more.map stored } := by
  induction more generalizing i s with
  | nil => simp only [List.nil_append, List.length_nil, Nat.add_zero, List.map_nil, List.append_nil]
  | cons c more ih =>
    rw [List.length_cons] at hlen
    have hc : c ≠ LF := fun heq => h (heq ▸ List.mem_cons_self)
    rw [List.cons_append, blockScan_again (step_header hs hb hc (by omega)),
      ih (fun hd => h (List.mem_cons_of_mem _ hd)) (i + 1) ?_ ?_ ?_]
    · simp only [List.length_cons, List.map_cons, List.append_assoc, List.singleton_append,
        Nat.add_assoc, Nat.add_comm 1]
    · exact hs
    · exact hb
    · rw [List.length_append, List.length_singleton]
      omega

theorem blockScan_name {name : CString} (h : ∀ c ∈ name, c ≠ 61 ∧ c ≠ 125) (rest : CString)
    (i : Nat) {s : Scan} (hs : s.curState = .name) (hlen : s.nb.length + name.length ≤ 31) :
    blockScan 64 theLength i (name ++ rest) s =
      blockScan 64 theLength (i + name.length) rest
        { s with nb := s.nb ++ name.map stored } := by
  induction name generalizing i s with
  | nil => simp only [List.nil_append, List.length_nil, Nat.add_zero, List.map_nil, List.append_nil]
  | cons c name ih =>
    rw [List.length_cons] at hlen
    rw [List.cons_append, blockScan_again (step_name hs (h c List.mem_cons_self) (by omega)),
      ih (fun d hd => h d (List.mem_cons_of_mem _ hd)) (i + 1) ?_ ?_]
    · simp only [List.length_cons, List.map_cons, List.append_assoc, List.singleton_append,
        Nat.add_assoc, Nat.add_comm 1]
    · exact hs
    · rw [List.length_append, List.length_singleton]
      omega

theorem blockScan_value {value : CString} (h : LF ∉ value) (rest : CString) (i : Nat) {s : Scan}
    (hs : s.curState = .value) (hlen : s.vb.length + value.length ≤ 31) :
    blockScan 64 theLength i (value ++ rest) s =
      blockScan 64 theLength (i + value.length) rest
        { s with vb := s.vb ++ value.map stored } := by
  induction value generalizing i s with
  | nil => simp only [List.nil_append, List.length_nil, Nat.add_zero, List.map_nil, List.append_nil]
  | cons c value ih =>
    rw [List.length_cons] at hlen
    have hc : c ≠ LF := fun heq => h (heq ▸ List.mem_cons_self)
    rw [List.cons_append, blockScan_again (step_value hs hc (by omega)),
      ih (fun hd => h (List.mem_cons_of_mem _ hd)) (i + 1) ?_ ?_]
    · simp only [List.length_cons, List.map_cons, List.append_assoc, List.singleton_append,
        Nat.add_assoc, Nat.add_comm 1]
    · exact hs
    · rw [List.length_append, List.length_singleton]
      omega

/-- The lines, from the beginning of a name on; the value buffer is left
over from the last of them. -/
theorem blockScan_pairs (pairs : List RawPair) (rest : CString) (i : Nat) {s : Scan}
    (hs : s.curState = .name) (hnb : s.nb = []) :
    ∃ vb, blockScan 64 theLength i (pairs.flatMap RawPair.text ++ rest) s =
      blockScan 64 theLength (i + (pairs.flatMap RawPair.text).length) rest
        { s with vb := vb, nvList := s.nvList ++ pairs.map RawPair.entry } := by
  induction pairs generalizing i s with
  | nil =>
    refine ⟨s.vb, ?_⟩
    simp only [List.flatMap_nil, List.nil_append, List.length_nil, Nat.add_zero, List.map_nil,
      List.append_nil]
  | cons p pairs ih =>
    have hname := p.isName.2
    have hvalue := p.isValue.2
    let s₁ : Scan := { s with
      curState := .name
      nb := []
      vb := p.value.map stored
      nvList := s.nvList ++ [p.entry] }
    have hpair : ∀ t : CString, blockScan 64 theLength i (p.text ++ t) s =
        blockScan 64 theLength (i + p.text.length) t s₁ := by
      intro t
      rw [RawPair.text, List.append_assoc, List.append_assoc, List.cons_append,
        blockScan_name p.isName.1 _ i hs (by rw [hnb, List.length_nil]; omega),
        blockScan_again (step_name_end ?_ ?_), blockScan_value p.isValue.1, List.singleton_append,
        blockScan_again (step_value_end ?_ ?_)]
      · simp only [hnb, List.nil_append, s₁, RawPair.entry, List.length_append, List.length_cons,
          List.length_nil, ← Nat.add_assoc, Nat.zero_add]
        rw [Nat.add_right_comm (i + p.name.length) 1]
      · rfl
      · simp only [List.nil_append, List.length_map]
        omega
      · rfl
      · simp only [List.length_nil, Nat.zero_add]
        exact hvalue
      · exact hs
      · simp only [hnb, List.nil_append, List.length_map]
        omega
    obtain ⟨vb, hrest⟩ := ih (i + p.text.length) (s := s₁) rfl rfl
    refine ⟨vb, ?_⟩
    rw [List.flatMap_cons, List.append_assoc, hpair, hrest]
    simp only [s₁, hs, hnb, List.length_append, List.map_cons, List.append_assoc,
      List.singleton_append, Nat.add_assoc]

/-- From the first name on to the end of the block. -/
theorem blockScan_body (pairs : List RawPair) {cut : CString} (hcut : IsName cut)
    (rest : CString) (i : Nat) {s : Scan} (hs : s.curState = .name) (hnb : s.nb = []) :
    ∃ s', blockScan 64 theLength i (bodyText pairs cut ++ rest) s =
        .ok (↑(i + (bodyText pairs cut).length), s') ∧
      s'.blockStarted = s.blockStarted ∧ s'.blockHeader = s.blockHeader ∧
      s'.nvList = s.nvList ++ pairs.map RawPair.entry := by
  have htext : bodyText pairs cut ++ rest =
      pairs.flatMap RawPair.text ++ (cut ++ 125 :: LF :: rest) := by
    simp only [bodyText, List.append_assoc, List.cons_append, List.nil_append]
  obtain ⟨vb, hpairs⟩ :
      ∃ vb, blockScan 64 theLength i (pairs.flatMap RawPair.text ++ (cut ++ 125 :: LF :: rest)) s =
        _ :=
    blockScan_pairs pairs _ i hs hnb
  refine ⟨{ s with
    curState := .close
    nb := cut.map stored
    vb := vb
    nvList := s.nvList ++ pairs.map RawPair.entry }, ?_, rfl, rfl, rfl⟩
  rw [htext, hpairs, blockScan_name hcut.1, blockScan_again (step_body_end ?_), blockScan,
    step_close ?_]
  · simp only [hnb, List.nil_append, bodyText, List.length_append, List.length_cons,
      List.length_nil]
    refine congrArg (fun r : Int => Except.ok (r, _)) ?_
    omega
  · rfl
  · exact hs
  · exact hs
  · simp only [hnb, List.length_nil, Nat.zero_add]
    exact hcut.2

end

/-- **An accepted text is read to its end**, whatever follows it. -/
theorem parseBlock_text (b : RawBlock) (rest blockHeader : CString)
    (nvList : List XplNameValueLE) : parseBlock nvList (b.text ++ rest) blockHeader 64 =
      .ok (b.text.length, b.header.map stored, nvList ++ b.pairs.map RawPair.entry) := by
  have htext : b.text ++ rest = b.junk ++ (b.first :: (b.more ++
      (LF :: 123 :: LF :: (bodyText b.pairs b.cut ++ rest)))) := by
    simp only [RawBlock.text, RawBlock.header, List.append_assoc, List.cons_append,
      List.nil_append]
  let theLength := (b.text ++ rest).length
  let s : Scan := { Scan.start nvList with
    curState := .name
    blockStarted := true
    blockHeader := b.header.map stored }
  let i := 0 + b.junk.length + 1 + b.more.length + 1 + 1 + 1
  have hopen : blockScan 64 theLength 0 (b.text ++ rest) (.start nvList) =
      blockScan 64 theLength i (bodyText b.pairs b.cut ++ rest) s := by
    rw [htext, blockScan_junk b.junk_le,
      blockScan_again (step_first (s := .start nvList) rfl rfl b.first_gt (Nat.succ_pos 62)),
      blockScan_header b.more_line _ _ rfl rfl ?_,
      blockScan_again (step_header_end rfl rfl ?_), blockScan_again (step_openBrace rfl),
      blockScan_again (step_openLine rfl)]
    · rfl
    · simp only [Scan.start, List.nil_append, List.length_append, List.length_singleton,
        List.length_map]
      have := b.more_length
      omega
    · simp only [Scan.start, List.nil_append, List.length_singleton]
      have := b.more_length
      omega
  obtain ⟨s', hbody, hstarted, hheader, hlist⟩ :
      ∃ s', blockScan 64 theLength i (bodyText b.pairs b.cut ++ rest) s = .ok (_, s') ∧ _ :=
    blockScan_body b.pairs b.isName_cut rest i rfl rfl
  have hlen : i + (bodyText b.pairs b.cut).length = b.text.length := by
    simp only [RawBlock.text, RawBlock.header, List.length_append, List.length_cons,
      List.length_nil, i]
    omega
  have hscan : blockScan 64 (b.text ++ rest).length 0 (b.text ++ rest) (.start nvList) =
      .ok (b.text.length, s') := by
    rw [← hlen]
    exact hopen.trans hbody
  rw [parseBlock, hscan]
  simp only [bind, Except.bind, hstarted, hheader, hlist]
  rfl

/-! ## Reading backward -/

section

variable {theLength : Nat} {r : Int} {s s' s₁ : Scan} {i : Nat} {c : CChar} {t : CString}

theorem blockScan_nil (h : blockScan 64 theLength i [] s = .ok (r, s')) : ¬ 0 < r := by
  rw [blockScan] at h
  cases h
  split <;> omega

theorem blockScan_failed (hstep : blockStep 64 s i c = .ok (.done (-i, s₁)))
    (h : blockScan 64 theLength i (c :: t) s = .ok (r, s')) : ¬ 0 < r := by
  rw [blockScan, hstep] at h
  cases h
  omega

theorem step_header_full (hs : s.curState = .header) (hb : s.blockStarted = true) (hc : c ≠ LF)
    (hlen : ¬ s.blockHeader.length < 63) : blockStep 64 s i c = .ok (.done (-i, s)) := by
  simp only [blockStep, hs, hb, hc, false_and, if_false, not_true_eq_false, VALID_CHAR_eq, hlen]
  rfl

theorem step_openBrace_bad (hs : s.curState = .openBrace) (hc : c ≠ 123) :
    blockStep 64 s i c = .ok (.done (-i, s)) := by
  simp only [blockStep, hs, hc, if_false]
  rfl

theorem step_openLine_bad (hs : s.curState = .openLine) (hc : c ≠ LF) :
    blockStep 64 s i c = .ok (.done (-i, s)) := by
  simp only [blockStep, hs, hc, if_false]
  rfl

theorem step_name_full (hs : s.curState = .name) (hc : c ≠ 61 ∧ c ≠ 125)
    (hlen : ¬ s.nb.length < 31) : blockStep 64 s i c = .ok (.done (-i, s)) := by
  simp only [blockStep, hs, hc.1, hc.2, if_false, VALID_CHAR_eq, hlen]
  rfl

theorem step_value_full (hs : s.curState = .value) (hc : c ≠ LF) (hlen : ¬ s.vb.length < 31) :
    blockStep 64 s i c = .ok (.done (-i, s)) := by
  simp only [blockStep, hs, hc, if_false, VALID_CHAR_eq, true_or, if_true, hlen]
  rfl

theorem step_close_bad (hs : s.curState = .close) (hc : c ≠ LF) :
    blockStep 64 s i c = .ok (.done (-i, s)) := by
  simp only [blockStep, hs, hc, if_false]
  rfl

/-- Behind the closing brace there is a newline. -/
theorem blockScan_close_inv (hr : 0 < r) (hs : s.curState = .close)
    (h : blockScan 64 theLength i t s = .ok (r, s')) : ∃ rest, t = LF :: rest := by
  cases t with
  | nil => exact absurd hr (blockScan_nil h)
  | cons c t =>
    by_cases hc : c = LF
    · exact ⟨t, by rw [hc]⟩
    · exact absurd hr (blockScan_failed (step_close_bad hs hc) h)

end

theorem IsName.snoc {nb : CString} {c : CChar} (h : IsName nb) (hc : c ≠ 61 ∧ c ≠ 125)
    (hlen : nb.length < 31) : IsName (nb ++ [c]) := by
  refine ⟨fun d hd => ?_, by rw [List.length_append, List.length_singleton]; omega⟩
  rcases List.mem_append.mp hd with hd | hd
  · exact h.1 d hd
  · rwa [List.mem_singleton.mp hd]

theorem IsValue.snoc {vb : CString} {c : CChar} (h : IsValue vb) (hc : c ≠ LF)
    (hlen : vb.length < 31) : IsValue (vb ++ [c]) := by
  refine ⟨fun hd => ?_, by rw [List.length_append, List.length_singleton]; omega⟩
  rcases List.mem_append.mp hd with hd | hd
  · exact h.1 hd
  · exact hc (List.mem_singleton.mp hd).symm

theorem isName_nil : IsName [] := ⟨fun _ hc => absurd hc List.not_mem_nil, Nat.zero_le _⟩

theorem isValue_nil : IsValue [] := ⟨List.not_mem_nil, Nat.zero_le _⟩

theorem stored_snoc {buf text : CString} (h : buf = text.map stored) (c : CChar) :
    buf ++ [stored c] = (text ++ [c]).map stored := by
  rw [h, List.map_append]
  rfl

/-- From the middle of a name or of a value on: a scan that ends well has
read lines, the beginning of a name, and the closing brace. What is in the
buffers stands in front of the text that is left. -/
theorem blockScan_body_inv {theLength : Nat} {r : Int} {s' : Scan} (hr : 0 < r) (t : CString) :
    (∀ (i : Nat) (s : Scan) (nb : CString), s.curState = .name → s.nb = nb.map stored →
      IsName nb → blockScan 64 theLength i t s = .ok (r, s') →
      ∃ pairs cut rest, nb ++ t = bodyText pairs cut ++ rest ∧ IsName cut) ∧
    (∀ (i : Nat) (s : Scan) (nb vb : CString), s.curState = .value → s.vb = vb.map stored →
      IsName nb → IsValue vb → blockScan 64 theLength i t s = .ok (r, s') →
      ∃ pairs cut rest, nb ++ 61 :: (vb ++ t) = bodyText pairs cut ++ rest ∧ IsName cut) := by
  induction t with
  | nil =>
    exact ⟨fun _ _ _ _ _ _ h => absurd hr (blockScan_nil h),
      fun _ _ _ _ _ _ _ _ h => absurd hr (blockScan_nil h)⟩
  | cons c t ih =>
    obtain ⟨ihName, ihValue⟩ := ih
    constructor
    · intro i s nb hs hnb hname hscan
      have hlen : s.nb.length = nb.length := by rw [hnb, List.length_map]
      by_cases heq : c = 61
      · have hlt : s.nb.length < 32 := by
          have := hname.2
          omega
        subst heq
        rw [blockScan_again (step_name_end hs hlt)] at hscan
        exact ihValue _ _ nb [] rfl rfl hname isValue_nil hscan
      by_cases hend : c = 125
      · subst hend
        rw [blockScan_again (step_body_end hs)] at hscan
        obtain ⟨rest, rfl⟩ := blockScan_close_inv hr rfl hscan
        exact ⟨[], nb, rest, by simp only [bodyText, List.flatMap_nil, List.nil_append,
          List.append_assoc, List.cons_append], hname⟩
      by_cases hlt : s.nb.length < 31
      · rw [blockScan_again (step_name hs ⟨heq, hend⟩ hlt)] at hscan
        obtain ⟨pairs, cut, rest, h, hcut⟩ := ihName _ { s with nb := s.nb ++ [stored c] }
          (nb ++ [c]) hs (stored_snoc hnb c) (hname.snoc ⟨heq, hend⟩ (by omega)) hscan
        exact ⟨pairs, cut, rest, by rw [← h, List.append_assoc, List.singleton_append], hcut⟩
      · exact absurd hr (blockScan_failed (step_name_full hs ⟨heq, hend⟩ hlt) hscan)
    · intro i s nb vb hs hvb hname hvalue hscan
      have hlen : s.vb.length = vb.length := by rw [hvb, List.length_map]
      by_cases hend : c = LF
      · have hlt : s.vb.length < 32 := by
          have := hvalue.2
          omega
        subst hend
        rw [blockScan_again (step_value_end hs hlt)] at hscan
        obtain ⟨pairs, cut, rest, h, hcut⟩ := ihName _ _ [] rfl rfl isName_nil hscan
        refine ⟨⟨nb, vb, hname, hvalue⟩ :: pairs, cut, rest, ?_, hcut⟩
        rw [List.nil_append] at h
        rw [h]
        simp only [bodyText, List.flatMap_cons, RawPair.text, List.append_assoc, List.cons_append,
          List.nil_append]
      by_cases hlt : s.vb.length < 31
      · rw [blockScan_again (step_value hs hend hlt)] at hscan
        obtain ⟨pairs, cut, rest, h, hcut⟩ := ihValue _ { s with vb := s.vb ++ [stored c] } nb
          (vb ++ [c]) hs (stored_snoc hvb c) hname (hvalue.snoc hend (by omega)) hscan
        exact ⟨pairs, cut, rest, by rw [← h, List.append_assoc, List.singleton_append], hcut⟩
      · exact absurd hr (blockScan_failed (step_value_full hs hend hlt) hscan)

/-- From the opening brace on. -/
theorem blockScan_open_inv {theLength : Nat} {r : Int} {s s' : Scan} (hr : 0 < r) {t : CString}
    {i : Nat} (hs : s.curState = .openBrace) (h : blockScan 64 theLength i t s = .ok (r, s')) :
    ∃ pairs cut rest, t = 123 :: LF :: (bodyText pairs cut ++ rest) ∧ IsName cut := by
  cases t with
  | nil => exact absurd hr (blockScan_nil h)
  | cons c t =>
    by_cases hc : c = 123
    · subst hc
      rw [blockScan_again (step_openBrace hs)] at h
      cases t with
      | nil => exact absurd hr (blockScan_nil h)
      | cons d t =>
        by_cases hd : d = LF
        · subst hd
          rw [blockScan_again (step_openLine rfl)] at h
          obtain ⟨pairs, cut, rest, ht, hcut⟩ :=
            (blockScan_body_inv hr t).1 _ _ [] rfl rfl isName_nil h
          exact ⟨pairs, cut, rest, by rw [← ht, List.nil_append], hcut⟩
        · exact absurd hr (blockScan_failed (step_openLine_bad rfl hd) h)
    · exact absurd hr (blockScan_failed (step_openBrace_bad hs hc) h)

/-- From the middle of a header on. -/
theorem blockScan_header_inv {theLength : Nat} {r : Int} {s' : Scan} (hr : 0 < r) {t : CString}
    {i : Nat} {s : Scan} (hs : s.curState = .header) (hb : s.blockStarted = true)
    (hlen : s.blockHeader.length ≤ 63) (h : blockScan 64 theLength i t s = .ok (r, s')) :
    ∃ more pairs cut rest, t = more ++ LF :: 123 :: LF :: (bodyText pairs cut ++ rest) ∧
      LF ∉ more ∧ s.blockHeader.length + more.length ≤ 63 ∧ IsName cut := by
  induction t generalizing i s with
  | nil => exact absurd hr (blockScan_nil h)
  | cons c t ih =>
    by_cases hc : c = LF
    · subst hc
      rw [blockScan_again (step_header_end hs hb (by omega))] at h
      obtain ⟨pairs, cut, rest, ht, hcut⟩ := blockScan_open_inv hr rfl h
      exact ⟨[], pairs, cut, rest, by rw [ht, List.nil_append], List.not_mem_nil, hlen, hcut⟩
    by_cases hlt : s.blockHeader.length < 63
    · rw [blockScan_again (step_header hs hb hc hlt)] at h
      obtain ⟨more, pairs, cut, rest, ht, hline, hmore, hcut⟩ :=
        ih (s := { s with blockHeader := s.blockHeader ++ [stored c] }) hs hb
          (by simp only [List.length_append, List.length_singleton]; omega) h
      simp only [List.length_append, List.length_singleton] at hmore
      refine ⟨c :: more, pairs, cut, rest, by rw [ht, List.cons_append], ?_, ?_, hcut⟩
      · exact fun hmem => (List.mem_cons.mp hmem).elim (fun heq => hc heq.symm) hline
      · rw [List.length_cons]
        omega
    · exact absurd hr (blockScan_failed (step_header_full hs hb hc hlt) h)

theorem blockScan_start_inv {theLength : Nat} {r : Int} {s' : Scan} (hr : 0 < r) {t : CString}
    {i : Nat} {nvList : List XplNameValueLE}
    (h : blockScan 64 theLength i t (.start nvList) = .ok (r, s')) :
    ∃ (b : RawBlock) (rest : CString), t = b.text ++ rest := by
  induction t generalizing i with
  | nil => exact absurd hr (blockScan_nil h)
  | cons c t ih =>
    by_cases hc : c ≤ 32
    · rw [blockScan_again (step_junk rfl rfl hc)] at h
      obtain ⟨b, rest, ht⟩ := ih h
      have hjunk : ∀ d ∈ c :: b.junk, d ≤ 32 := by
        intro d hd
        rcases List.mem_cons.mp hd with rfl | hd
        · exact hc
        · exact b.junk_le d hd
      exact ⟨{ b with junk := c :: b.junk, junk_le := hjunk }, rest, by rw [ht]; rfl⟩
    · have hgt : 32 < c := by grind
      rw [blockScan_again (step_first (s := .start nvList) rfl rfl hgt (Nat.succ_pos 62))] at h
      obtain ⟨more, pairs, cut, rest, ht, hline, hlen, hcut⟩ :=
        blockScan_header_inv (s := ⟨.header, true, [stored c], [], [], nvList⟩) hr rfl rfl
          (Nat.le_add_left 1 62) h
      have hmore : more.length < 63 := by
        rw [List.length_singleton] at hlen
        omega
      refine ⟨⟨[], c, more, pairs, cut, fun d hd => absurd hd List.not_mem_nil, hgt, hline, hmore,
        hcut⟩, rest, ?_⟩
      simp only [ht, RawBlock.text, RawBlock.header, List.nil_append, List.append_assoc,
        List.cons_append]

/-- **`parseBlock` reads exactly the raw blocks**: the result is positive
if and only if the text begins with one, and then it is its length. -/
theorem parseBlock_pos_iff (theText blockHeader : CString) (nvList : List XplNameValueLE) :
    (∃ r header list, parseBlock nvList theText blockHeader 64 = .ok (r, header, list) ∧ 0 < r) ↔
      ∃ (b : RawBlock) (rest : CString), theText = b.text ++ rest := by
  constructor
  · rintro ⟨r, header, list, h, hr⟩
    obtain ⟨⟨r', s⟩, hscan, hret⟩ := bind_ok h
    cases hret
    exact blockScan_start_inv hr hscan
  · rintro ⟨b, rest, rfl⟩
    refine ⟨_, _, _, parseBlock_text b rest blockHeader nvList, ?_⟩
    simp only [RawBlock.text, RawBlock.header, List.length_append, List.length_cons]
    omega

end XplEvent.Wire
