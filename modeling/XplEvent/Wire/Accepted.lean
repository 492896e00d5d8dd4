import XplEvent.Wire.RawBlock
import XplEvent.Wire.Received

/-!
# What `parseMessage` answers

For every text it answers: no buffer of `parseBlock` is overrun
(`blockScan_started`), and the entries the header is read from are as the
decoder makes them. What it answers is `NULL` or a message that satisfies
`XplMessage.Decoded`, and then the text begins with two whole blocks, the
first of which names `hop`, `source` and `target`.

The result of `parseBlock` has three meanings. A positive one is a raw
block (`parseBlock_pos_iff`); zero is a text of junk, and it leaves the
header buffer alone (`parseBlock_outcome`). The second call finds the
header of the first block in it then, which has no `.` in it.
-/

namespace XplEvent.Wire

open Lib (Turn)

/-! ## No text makes the block decoder fail -/

/-- The buffers have room for a terminator. -/
structure Scan.InBounds (s : Scan) : Prop where
  blockHeader : s.blockHeader.length ≤ 63
  nb : s.nb.length ≤ 31
  vb : s.vb.length ≤ 31

/-- A turn inside a block goes on inside it, or returns. -/
theorem blockStep_started {s : Scan} (hb : s.blockStarted = true) (hs : s.InBounds) (i : Nat)
    (c : CChar) :
    (∃ s', blockStep 64 s i c = .ok (.again s') ∧ s'.blockStarted = true ∧ s'.InBounds) ∨
      blockStep 64 s i c = .ok (.done (i + 1, s)) ∨ blockStep 64 s i c = .ok (.done (-i, s)) := by
  obtain ⟨hheader, hnb, hvb⟩ := hs
  have hgrown : ∀ {buf : CString} {n : Nat}, buf.length < n → (buf ++ [stored c]).length ≤ n := by
    intro buf n h
    rw [List.length_append, List.length_singleton]
    exact h
  cases hstate : s.curState with
  | header =>
    by_cases hc : c = LF
    · subst hc
      exact .inl ⟨_, step_header_end hstate hb (by omega), hb, hheader, hnb, hvb⟩
    by_cases hlt : s.blockHeader.length < 63
    · exact .inl ⟨_, step_header hstate hb hc hlt, hb, hgrown hlt, hnb, hvb⟩
    · exact .inr (.inr (step_header_full hstate hb hc hlt))
  | openBrace =>
    by_cases hc : c = 123
    · subst hc
      exact .inl ⟨_, step_openBrace hstate, hb, hheader, hnb, hvb⟩
    · exact .inr (.inr (step_openBrace_bad hstate hc))
  | openLine =>
    by_cases hc : c = LF
    · subst hc
      exact .inl ⟨_, step_openLine hstate, hb, hheader, Nat.zero_le _, hvb⟩
    · exact .inr (.inr (step_openLine_bad hstate hc))
  | name =>
    by_cases heq : c = 61
    · subst heq
      exact .inl ⟨_, step_name_end hstate (by omega), hb, hheader, hnb, Nat.zero_le _⟩
    by_cases hend : c = 125
    · subst hend
      exact .inl ⟨_, step_body_end hstate, hb, hheader, hnb, hvb⟩
    by_cases hlt : s.nb.length < 31
    · exact .inl ⟨_, step_name hstate ⟨heq, hend⟩ hlt, hb, hheader, hgrown hlt, hvb⟩
    · exact .inr (.inr (step_name_full hstate ⟨heq, hend⟩ hlt))
  | value =>
    by_cases hc : c = LF
    · subst hc
      exact .inl ⟨_, step_value_end hstate (by omega), hb, hheader, Nat.zero_le _, hvb⟩
    by_cases hlt : s.vb.length < 31
    · exact .inl ⟨_, step_value hstate hc hlt, hb, hheader, hnb, hgrown hlt⟩
    · exact .inr (.inr (step_value_full hstate hc hlt))
  | close =>
    by_cases hc : c = LF
    · subst hc
      exact .inr (.inl (step_close hstate))
    · exact .inr (.inr (step_close_bad hstate hc))

/-- A scan inside a block returns, and not zero. -/
theorem blockScan_started {theLength : Nat} (hlength : 0 < theLength) (t : CString) {i : Nat}
    (hi : 0 < i) {s : Scan} (hb : s.blockStarted = true) (hs : s.InBounds) :
    ∃ r s', blockScan 64 theLength i t s = .ok (r, s') ∧ r ≠ 0 := by
  induction t generalizing i s with
  | nil =>
    refine ⟨-theLength, s, ?_, by omega⟩
    rw [blockScan, if_pos hb]
  | cons c t ih =>
    rcases blockStep_started hb hs i c with ⟨s', hstep, hb', hs'⟩ | hstep | hstep
    · obtain ⟨r, s'', hscan, hr⟩ := ih (Nat.succ_pos i) hb' hs'
      exact ⟨r, s'', (blockScan_again hstep).trans hscan, hr⟩
    · exact ⟨_, s, by rw [blockScan, hstep], by omega⟩
    · exact ⟨_, s, by rw [blockScan, hstep], by omega⟩

/-- A scan that has not found a block returns zero and has stored nothing. -/
theorem blockScan_start {theLength : Nat} (hlength : 0 < theLength) (t : CString) (i : Nat)
    (nvList : List XplNameValueLE) :
    blockScan 64 theLength i t (.start nvList) = .ok (0, .start nvList) ∨
      ∃ r s', blockScan 64 theLength i t (.start nvList) = .ok (r, s') ∧ r ≠ 0 := by
  induction t generalizing i with
  | nil => exact .inl rfl
  | cons c t ih =>
    by_cases hc : c ≤ 32
    · rw [blockScan_again (step_junk rfl rfl hc)]
      exact ih (i + 1)
    · have hgt : 32 < c := by grind
      rw [blockScan_again (step_first (s := .start nvList) rfl rfl hgt (Nat.succ_pos 62))]
      exact .inr (blockScan_started hlength t (Nat.succ_pos i) rfl
        ⟨Nat.le_add_left 1 62, Nat.zero_le _, Nat.zero_le _⟩)

/-- **What `parseBlock` answers**: the length of a raw block the text
begins with, zero and nothing stored, or a negative number. -/
theorem parseBlock_outcome (nvList : List XplNameValueLE) (theText blockHeader : CString) :
    (∃ (b : RawBlock) (rest : CString), theText = b.text ++ rest) ∨
      parseBlock nvList theText blockHeader 64 = .ok (0, blockHeader, nvList) ∨
      ∃ r header list, parseBlock nvList theText blockHeader 64 = .ok (r, header, list) ∧ r < 0 := by
  cases htext : theText with
  | nil => exact .inr (.inl rfl)
  | cons c t =>
    rw [← htext]
    have hlength : 0 < theText.length := by
      rw [htext, List.length_cons]
      exact Nat.succ_pos _
    rcases blockScan_start hlength theText 0 nvList with hscan | ⟨r, s, hscan, hr⟩
    · refine .inr (.inl ?_)
      rw [parseBlock, hscan]
      rfl
    · have hparse : parseBlock nvList theText blockHeader 64 =
          .ok (r, if s.blockStarted then s.blockHeader else blockHeader, s.nvList) := by
        rw [parseBlock, hscan]
        rfl
      by_cases hpos : 0 < r
      · exact .inl ((parseBlock_pos_iff theText blockHeader nvList).mp ⟨_, _, _, hparse, hpos⟩)
      · exact .inr (.inr ⟨_, _, _, hparse, by omega⟩)

/-! ## The header -/

/-- The number `UtilStoi` finds fits an `int`. -/
theorem UtilStoi_le {val : Option CString} {n : Int} (h : UtilStoi val = .ok (some n)) :
    n ≤ INT_MAX := by
  unfold UtilStoi at h
  split at h
  · cases h
  · simp only [Except.ok.injEq] at h
    split at h
    · rename_i hval
      cases h
      exact hval.2.2.1
    · cases h

/-- What `parseMessageHeader` has read when it returns `TRUE`. -/
structure HeaderRead (xm : XplMessage) (list : List XplNameValueLE) (xm' : XplMessage) : Prop where
  named : ∀ name ∈ [cstr "hop", cstr "source", cstr "target"], ∃ nvp ∈ list, nvp.itemName = name
  read : ∃ hopCount v d i itemValue, 1 ≤ hopCount ∧ hopCount ≤ INT_MAX ∧
    45 ∉ v ∧ 46 ∉ d ∧ parseTarget { xm with
      hopCount := hopCount
      sourceVendor := some v
      sourceDeviceID := some d
      sourceInstanceID := some i } itemValue = some xm'

theorem getNamedValue_mem {name : CString} {list : List XplNameValueLE}
    (h : ∀ nvp ∈ list, nvp.Stored) {nvp : XplNameValueLE}
    (hfound : getNamedValue name list = .ok (some nvp)) : nvp ∈ list ∧ nvp.itemName = name := by
  rw [getNamedValue_eq_find fun q hq => (h q hq).valid] at hfound
  have hsome := Except.ok.inj hfound
  have hname := List.find?_some hsome
  exact ⟨List.mem_of_find?_eq_some hsome, (decide_eq_true_eq.mp hname).symm⟩

theorem parseMessageHeader_read {xm xm' : XplMessage} {list : List XplNameValueLE}
    (hlist : ∀ nvp ∈ list, nvp.Stored)
    (h : parseMessageHeader xm list = .ok (some xm')) : HeaderRead xm list xm' := by
  obtain ⟨hop, source, target, hopCount, tag, v, d, i, itemValue, hhop, hcount, hone, hsource, hcut,
    htarget, hset⟩ := parseMessageHeader_ok h
  obtain ⟨-, hv, hd⟩ := splitTag_ok hcut
  constructor
  · intro name hname
    rcases List.mem_cons.mp hname with rfl | hname
    · exact ⟨hop, getNamedValue_mem hlist hhop⟩
    rcases List.mem_cons.mp hname with rfl | hname
    · exact ⟨source, getNamedValue_mem hlist hsource⟩
    · rw [List.mem_singleton.mp hname]
      exact ⟨target, getNamedValue_mem hlist htarget⟩
  · exact ⟨hopCount, v, d, i, itemValue, hone, UtilStoi_le hcount, hv, hd, hset⟩

/-- Over entries that are as the decoder makes them it returns. -/
theorem parseMessageHeader_returns (xm : XplMessage) {list : List XplNameValueLE}
    (hlist : ∀ nvp ∈ list, nvp.Stored) : ∃ o, parseMessageHeader xm list = .ok o := by
  have hfind : ∀ name, getNamedValue name list =
      .ok (list.find? fun nvp => name = nvp.itemName) :=
    fun name => getNamedValue_eq_find fun q hq => (hlist q hq).valid
  have hvalue : ∀ {name nvp}, (list.find? fun nvp => name = nvp.itemName) = some nvp →
      ∃ value, nvp.itemValue = some value :=
    fun h => Option.isSome_iff_exists.mp (hlist _ (List.mem_of_find?_eq_some h)).value
  unfold parseMessageHeader
  rw [hfind, ok_bind]
  cases hhop : list.find? fun nvp => cstr "hop" = nvp.itemName with
  | none => exact ⟨_, rfl⟩
  | some hop =>
    obtain ⟨count, hcount⟩ := hvalue hhop
    simp only [hcount, UtilStoi, ok_bind]
    split
    · exact ⟨_, rfl⟩
    split
    · exact ⟨_, rfl⟩
    rw [hfind, ok_bind]
    cases hsource : list.find? fun nvp => cstr "source" = nvp.itemName with
    | none => exact ⟨_, rfl⟩
    | some source =>
      obtain ⟨tag, htag⟩ := hvalue hsource
      simp only [htag, deref_some, ok_bind]
      split
      · exact ⟨_, rfl⟩
      rw [hfind, ok_bind]
      cases htarget : list.find? fun nvp => cstr "target" = nvp.itemName with
      | none => exact ⟨_, rfl⟩
      | some target =>
        obtain ⟨itemValue, hitem⟩ := hvalue htarget
        simp only [hitem, deref_some, ok_bind]
        exact ⟨_, rfl⟩

/-! ## The whole text -/

/-- A list entry of a raw block, as short as its buffers. -/
theorem entry_short (p : RawPair) : p.entry.itemName.length ≤ 31 ∧
    ∃ value, p.entry.itemValue = some value ∧ value.length ≤ 31 := by
  refine ⟨?_, p.value.map stored, rfl, ?_⟩
  · exact Nat.le_trans (Nat.le_of_eq (List.length_map _)) p.isName.2
  · exact Nat.le_trans (Nat.le_of_eq (List.length_map _)) p.isValue.2

theorem stored_entries (b : RawBlock) : ∀ nvp ∈ b.pairs.map RawPair.entry, nvp.Stored := by
  intro nvp hmem
  obtain ⟨p, -, rfl⟩ := List.mem_map.mp hmem
  exact stored_entry _ _

/-- A message as `parseMessage` returns it. -/
structure XplMessage.Decoded (xm : XplMessage) : Prop where
  messageType : xm.messageType = .XPL_MESSAGE_COMMAND ∨ xm.messageType = .XPL_MESSAGE_STATUS ∨
    xm.messageType = .XPL_MESSAGE_TRIGGER
  hopCount : 1 ≤ xm.hopCount ∧ xm.hopCount ≤ INT_MAX
  sourceVendor : ∃ v, xm.sourceVendor = some v ∧ 45 ∉ v
  sourceDeviceID : ∃ d, xm.sourceDeviceID = some d ∧ 46 ∉ d
  sourceInstanceID : xm.sourceInstanceID.isSome = true
  schemaClass : ∃ c, xm.schemaClass = some c ∧ 46 ∉ c
  schemaType : xm.schemaType.isSome = true
  target : xm.isBroadcastMessage = true ∨ (xm.targetVendor.isSome = true ∧
    xm.targetDeviceID.isSome = true ∧ xm.targetInstanceID.isSome = true)
  nvList : ∀ nvp ∈ xm.nvList, nvp.itemName.length ≤ 31 ∧
    ∃ value, nvp.itemValue = some value ∧ value.length ≤ 31

/-- The text begins with two whole blocks, and the first of them names a
hop count, a source and a target. -/
def TwoBlocks (theText : CString) : Prop :=
  ∃ (b₁ b₂ : RawBlock) (rest : CString), theText = b₁.text ++ (b₂.text ++ rest) ∧
    ∀ name ∈ [cstr "hop", cstr "source", cstr "target"], ∃ p ∈ b₁.pairs, p.name = name

/-- A text is stored as it is when no `|` comes out. -/
theorem eq_of_map_stored {s t : CString} (h : s.map stored = t) (ht : 124 ∉ t) : s = t := by
  have hself : ∀ c ∈ s, stored c = c := by
    intro c hc
    by_cases hrange : 32 ≤ c ∧ c < 123
    · exact stored_of_range hrange
    · exact absurd (h ▸ List.mem_map.mpr ⟨c, hc, stored_of_not_range hrange⟩) ht
  exact (((List.map_congr_left hself).trans (List.map_id' s)).symm).trans h

/-- The header names of the three message types have no `.` in them. -/
theorem headerType_some {blockHeader : CString} {messageType : XPLMessageType}
    (h : headerType blockHeader = some messageType) : strchr blockHeader 46 = none ∧
      (messageType = .XPL_MESSAGE_COMMAND ∨ messageType = .XPL_MESSAGE_STATUS ∨
        messageType = .XPL_MESSAGE_TRIGGER) := by
  unfold headerType at h
  split at h
  · rename_i heq
    cases h
    rw [heq]
    exact ⟨rfl, .inl rfl⟩
  split at h
  · rename_i heq
    cases h
    rw [heq]
    exact ⟨rfl, .inr (.inl rfl)⟩
  split at h
  · rename_i heq
    cases h
    rw [heq]
    exact ⟨rfl, .inr (.inr rfl)⟩
  · cases h

/-- What has been read when a message comes out: two blocks, a header in
the first, a schema and the list in the second. -/
theorem parseMessage_read {theText : CString} {xm : XplMessage}
    (h : parseMessage theText = .ok (some xm)) :
    ∃ (b₁ b₂ : RawBlock) (rest : CString) (messageType : XPLMessageType) (xm₀ : XplMessage)
      (classType blockDelim : CString), theText = b₁.text ++ (b₂.text ++ rest) ∧
      headerType (b₁.header.map stored) = some messageType ∧
      HeaderRead (createReceivedMessage messageType) (b₁.pairs.map RawPair.entry) xm₀ ∧
      46 ∉ classType ∧
      xm = { xm₀ with
        nvList := b₂.pairs.map RawPair.entry
        schemaClass := some classType
        schemaType := some blockDelim } := by
  obtain ⟨n, n', header, header', classType, blockDelim, list, nvList, messageType, xm₀, hfirst,
    hpos, htype, hheader, hsecond, hnonneg, hschema, rfl⟩ := parseMessage_ok h
  obtain ⟨b₁, tail, rfl⟩ := (parseBlock_pos_iff theText [] []).mp ⟨_, _, _, hfirst, hpos⟩
  rw [parseBlock_text] at hfirst
  cases hfirst
  rw [Int.toNat_natCast, List.drop_left] at hsecond
  have hread := parseMessageHeader_read (stored_entries b₁) hheader
  rcases parseBlock_outcome [] tail (b₁.header.map stored) with ⟨b₂, rest, rfl⟩ | hzero | hneg
  · rw [parseBlock_text] at hsecond
    cases hsecond
    exact ⟨b₁, b₂, rest, messageType, xm₀, classType, blockDelim, rfl, htype, hread,
      (strchr_ok hschema).2, rfl⟩
  · -- the header of the first block is still in the buffer
    rw [hzero] at hsecond
    cases hsecond
    rw [(headerType_some htype).1] at hschema
    cases hschema
  · obtain ⟨r, header'', list', hparse, hr⟩ := hneg
    rw [hparse] at hsecond
    cases hsecond
    exact absurd hr (Int.not_lt.mpr hnonneg)

theorem parseMessage_decoded {theText : CString} {xm : XplMessage}
    (h : parseMessage theText = .ok (some xm)) : xm.Decoded := by
  obtain ⟨b₁, b₂, rest, messageType, xm₀, classType, blockDelim, -, htype, hread, hclass, rfl⟩ :=
    parseMessage_read h
  obtain ⟨hopCount, v, d, i, itemValue, hone, hmax, hv, hd, htarget⟩ := hread.read
  obtain ⟨⟨flag, tv, td, ti, rfl⟩, hset⟩ := parseTarget_wellFormed htarget
  exact {
    messageType := (headerType_some htype).2
    hopCount := ⟨hone, hmax⟩
    sourceVendor := ⟨v, rfl, hv⟩
    sourceDeviceID := ⟨d, rfl, hd⟩
    sourceInstanceID := rfl
    schemaClass := ⟨classType, rfl, hclass⟩
    schemaType := rfl
    target := by
      cases hflag : flag with
      | true => exact .inl rfl
      | false => exact .inr (hset hflag)
    nvList := by
      intro nvp hmem
      obtain ⟨p, -, rfl⟩ := List.mem_map.mp hmem
      exact entry_short p }

theorem parseMessage_twoRead {theText : CString} {xm : XplMessage}
    (h : parseMessage theText = .ok (some xm)) : TwoBlocks theText := by
  obtain ⟨b₁, b₂, rest, messageType, xm₀, classType, blockDelim, htext, -, hread, -, -⟩ :=
    parseMessage_read h
  refine ⟨b₁, b₂, rest, htext, fun name hname => ?_⟩
  obtain ⟨nvp, hmem, heq⟩ := hread.named name hname
  obtain ⟨p, hp, rfl⟩ := List.mem_map.mp hmem
  have hplain : ∀ t ∈ [cstr "hop", cstr "source", cstr "target"], 124 ∉ t := by decide
  exact ⟨p, hp, eq_of_map_stored heq (hplain name hname)⟩

theorem parseMessage_returns (theText : CString) : ∃ o, parseMessage theText = .ok o := by
  have hblock : ∀ (theText blockHeader : CString), ∃ r header list,
      parseBlock [] theText blockHeader 64 = .ok (r, header, list) ∧
        ∀ nvp ∈ list, nvp.Stored := by
    intro theText blockHeader
    have hreturns : ∃ r header list,
        parseBlock [] theText blockHeader 64 = .ok (r, header, list) := by
      rcases parseBlock_outcome [] theText blockHeader with ⟨b, rest, rfl⟩ | hzero | hneg
      · exact ⟨_, _, _, parseBlock_text b rest blockHeader []⟩
      · exact ⟨_, _, _, hzero⟩
      · obtain ⟨r, header, list, hparse, -⟩ := hneg
        exact ⟨r, header, list, hparse⟩
    obtain ⟨r, header, list, hparse⟩ := hreturns
    exact ⟨r, header, list, hparse, parseBlock_stored hparse⟩
  obtain ⟨r, header, list, hfirst, hlist⟩ := hblock theText []
  unfold parseMessage
  rw [hfirst, ok_bind]
  simp only
  split
  · exact ⟨_, rfl⟩
  split
  · exact ⟨_, rfl⟩
  split
  · exact ⟨_, rfl⟩
  rename_i messageType htype hempty
  obtain ⟨o, ho⟩ := parseMessageHeader_returns (createReceivedMessage messageType) hlist
  rw [ho, ok_bind]
  cases o with
  | none => exact ⟨_, rfl⟩
  | some xm =>
    obtain ⟨r', header', list', hsecond, -⟩ := hblock (theText.drop r.toNat) header
    simp only [hsecond, ok_bind]
    split
    · exact ⟨_, rfl⟩
    split
    · exact ⟨_, rfl⟩
    · exact ⟨_, rfl⟩

/-- **The decoder's postcondition**: it answers every text, a message it
answers with is decoded as dispatch and scripts rely on, and without two
whole blocks and the three header names the answer is `NULL`. -/
theorem parseMessage_postcondition (theText : CString) :
    ∃ o, parseMessage theText = .ok o ∧ (∀ xm, o = some xm → xm.Decoded) ∧
      (¬ TwoBlocks theText → o = none) := by
  obtain ⟨o, ho⟩ := parseMessage_returns theText
  refine ⟨o, ho, ?_, ?_⟩
  · rintro xm rfl
    exact parseMessage_decoded ho
  · intro hmissing
    cases o with
    | none => rfl
    | some xm => exact absurd (parseMessage_twoRead ho) hmissing

end XplEvent.Wire
