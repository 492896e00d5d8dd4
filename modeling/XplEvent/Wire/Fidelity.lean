import XplEvent.Lib.Split
import XplEvent.Wire.RawBlock

/-!
# What the block decoder alters and drops

The decoder is meant to store a text's characters as they are and to
reject a text with a character outside its alphabet. It does neither for
all texts: `VALID_CHAR` assigns where it should compare, so that such a
character is stored as 124, and a closing brace behind the beginning of a
name ends the block without it. `decodesFaithfully_iff` says for which
texts it is faithful.
-/

namespace XplEvent.Wire

/-- The text of a header and a list, as a block is written. -/
def blockText (header : CString) (nvList : List XplNameValueLE) : CString :=
  header ++ [LF, 123, LF] ++
    nvList.flatMap (fun e => e.itemName ++ 61 :: e.itemValue.getD [] ++ [LF]) ++ [125, LF]

/-- The alphabet `VALID_CHAR` names. -/
def InAlphabet (c : CChar) : Prop := (32 ≤ c ∧ c < 123) ∨ c = 124 ∨ c = 126

/-- If the decoder accepts the text, then what it has read is junk and the
block it has stored, character by character, and all that is stored is in
the alphabet. -/
def DecodesFaithfully (theText : CString) : Prop :=
  ∀ nvList blockHeader r header list,
    parseBlock nvList theText blockHeader 64 = .ok (r, header, list) → 0 < r →
    ∃ junk new, list = nvList ++ new ∧ (∀ c ∈ junk, c ≤ 32) ∧
      theText.take r.toNat = junk ++ blockText header new ∧
      (∀ c ∈ header, InAlphabet c) ∧
      ∀ e ∈ new, (∀ c ∈ e.itemName, InAlphabet c) ∧ ∀ c ∈ e.itemValue.getD [], InAlphabet c

/-- A character that is stored as it is. -/
def Kept (c : CChar) : Prop := (32 ≤ c ∧ c < 123) ∨ c = 124

instance : DecidablePred Kept := fun _ => inferInstanceAs (Decidable (_ ∨ _))

/-- Character by character, and not over all characters. -/
instance (s : CString) : Decidable (∀ c ∈ s, Kept c) := List.decidableBAll Kept s

/-- A raw block all of whose characters are kept, and no name cut off. -/
structure RawBlock.Plain (b : RawBlock) : Prop where
  header : ∀ c ∈ b.header, Kept c
  name : ∀ p ∈ b.pairs, ∀ c ∈ p.name, Kept c
  value : ∀ p ∈ b.pairs, ∀ c ∈ p.value, Kept c
  cut : b.cut = []

theorem stored_eq_iff {c : CChar} : stored c = c ↔ Kept c := by
  by_cases h : 32 ≤ c ∧ c < 123
  · exact iff_of_true (stored_of_range h) (.inl h)
  · rw [stored_of_not_range h, Kept]
    exact ⟨fun heq => .inr heq.symm, fun hk => (hk.resolve_left h).symm⟩

theorem stored_kept (c : CChar) : Kept (stored c) := by
  by_cases h : 32 ≤ c ∧ c < 123
  · rw [stored_of_range h]
    exact .inl h
  · rw [stored_of_not_range h]
    exact .inr rfl

theorem Kept.inAlphabet {c : CChar} (h : Kept c) : InAlphabet c := h.imp_right .inl

theorem map_stored_iff {s : CString} : s.map stored = s ↔ ∀ c ∈ s, Kept c := by
  constructor
  · intro h c hc
    rw [← h] at hc
    obtain ⟨d, -, rfl⟩ := List.mem_map.mp hc
    exact stored_kept d
  · intro h
    exact (List.map_congr_left fun c hc => stored_eq_iff.mpr (h c hc)).trans (List.map_id' s)

/-! ## A text is read in one way -/

theorem bodyText_inj {pairs pairs' : List RawPair} {cut cut' rest rest' : CString}
    (hcut : IsName cut) (hcut' : IsName cut')
    (h : bodyText pairs cut ++ rest = bodyText pairs' cut' ++ rest') :
    pairs = pairs' ∧ cut = cut' := by
  let ends : CChar → Prop := fun c => c = 61 ∨ c = 125
  have hname : ∀ {s : CString}, IsName s → ∀ c ∈ s, ¬ ends c :=
    fun hs c hc hend => hend.elim (hs.1 c hc).1 (hs.1 c hc).2
  have hne : (61 : CChar) ≠ 125 := by decide
  induction pairs generalizing pairs' with
  | nil =>
    cases pairs' with
    | nil =>
      simp only [bodyText, List.flatMap_nil, List.nil_append, List.append_assoc,
        List.cons_append] at h
      obtain ⟨hc, -, -⟩ := Lib.split_first (hname hcut) (.inr rfl) (hname hcut') (.inr rfl) h
      exact ⟨rfl, hc⟩
    | cons p' pairs' =>
      simp only [bodyText, List.flatMap_nil, List.flatMap_cons, RawPair.text, List.nil_append,
        List.append_assoc, List.cons_append] at h
      obtain ⟨-, heq, -⟩ := Lib.split_first (hname hcut) (.inr rfl) (hname p'.isName) (.inl rfl) h
      exact absurd heq.symm hne
  | cons p pairs ih =>
    cases pairs' with
    | nil =>
      simp only [bodyText, List.flatMap_nil, List.flatMap_cons, RawPair.text, List.nil_append,
        List.append_assoc, List.cons_append] at h
      obtain ⟨-, heq, -⟩ := Lib.split_first (hname p.isName) (.inl rfl) (hname hcut') (.inr rfl) h
      exact absurd heq hne
    | cons p' pairs' =>
      simp only [bodyText, List.flatMap_cons, RawPair.text, List.nil_append,
        List.append_assoc, List.cons_append] at h
      obtain ⟨hn, -, h⟩ := Lib.split_first (hname p.isName) (.inl rfl) (hname p'.isName) (.inl rfl) h
      have hline : ∀ {s : CString}, IsValue s → ∀ c ∈ s, ¬ c = LF :=
        fun hs c hc heq => hs.1 (heq ▸ hc)
      obtain ⟨hv, -, h⟩ := Lib.split_first (hline p.isValue) rfl (hline p'.isValue) rfl h
      have hbody : bodyText pairs cut ++ rest = bodyText pairs' cut' ++ rest' := by
        simpa only [bodyText, List.append_assoc, List.cons_append, List.nil_append] using h
      have hrest := ih hbody
      refine ⟨?_, hrest.2⟩
      rw [hrest.1]
      cases p
      cases p'
      cases hn
      cases hv
      rfl

theorem RawBlock.text_inj {b b' : RawBlock} {rest rest' : CString}
    (h : b.text ++ rest = b'.text ++ rest') :
    b.header = b'.header ∧ b.pairs = b'.pairs ∧ b.cut = b'.cut := by
  simp only [RawBlock.text, RawBlock.header, List.append_assoc, List.cons_append,
    List.nil_append] at h ⊢
  have hjunk : ∀ b : RawBlock, ∀ c ∈ b.junk, ¬ 32 < c := by
    intro b c hc
    have := b.junk_le c hc
    grind
  have hline : ∀ b : RawBlock, ∀ c ∈ b.more, ¬ c = LF :=
    fun b c hc heq => b.more_line (heq ▸ hc)
  obtain ⟨-, hfirst, h⟩ := Lib.split_first (hjunk b) b.first_gt (hjunk b') b'.first_gt h
  obtain ⟨hmore, -, h⟩ := Lib.split_first (hline b) rfl (hline b') rfl h
  obtain ⟨hpairs, hcut⟩ := bodyText_inj b.isName_cut b'.isName_cut (List.cons.inj (List.cons.inj h).2).2
  exact ⟨by rw [hfirst, hmore], hpairs, hcut⟩

/-! ## What is stored is a raw block too -/

theorem IsName.stored {s : CString} (h : IsName s) : IsName (s.map stored) := by
  refine ⟨fun c hc => ?_, by rw [List.length_map]; exact h.2⟩
  obtain ⟨d, hd, rfl⟩ := List.mem_map.mp hc
  by_cases hr : 32 ≤ d ∧ d < 123
  · rw [stored_of_range hr]
    exact h.1 d hd
  · rw [stored_of_not_range hr]
    decide

theorem not_mem_map_stored {s : CString} : LF ∉ s.map stored := by
  intro h
  obtain ⟨d, -, hd⟩ := List.mem_map.mp h
  rcases stored_kept d with hr | hr
  · rw [hd] at hr
    exact absurd hr.1 (by decide)
  · rw [hd] at hr
    exact absurd hr (by decide)

def RawPair.stored (p : RawPair) : RawPair where
  name := p.name.map Wire.stored
  value := p.value.map Wire.stored
  isName := p.isName.stored
  isValue := ⟨not_mem_map_stored, by rw [List.length_map]; exact p.isValue.2⟩

/-- The block that is stored, behind some junk. -/
def RawBlock.stored (b : RawBlock) (junk : CString) (h : ∀ c ∈ junk, c ≤ 32) : RawBlock where
  junk := junk
  first := Wire.stored b.first
  more := b.more.map Wire.stored
  pairs := b.pairs.map RawPair.stored
  cut := []
  junk_le := h
  first_gt := by
    have hgt := b.first_gt
    by_cases hr : 32 ≤ b.first ∧ b.first < 123
    · rw [stored_of_range hr]
      exact hgt
    · rw [stored_of_not_range hr]
      decide
  more_line := not_mem_map_stored
  more_length := by
    rw [List.length_map]
    exact b.more_length
  isName_cut := isName_nil

theorem RawPair.stored_text (p : RawPair) :
    p.stored.text = p.entry.itemName ++ 61 :: p.entry.itemValue.getD [] ++ [LF] := rfl

theorem RawBlock.stored_text (b : RawBlock) (junk : CString) (h : ∀ c ∈ junk, c ≤ 32) :
    (b.stored junk h).text =
      junk ++ blockText (b.header.map Wire.stored) (b.pairs.map RawPair.entry) := by
  simp only [RawBlock.text, RawBlock.header, RawBlock.stored, bodyText, blockText,
    List.flatMap_map, RawPair.stored_text, List.append_assoc, List.map_cons, List.cons_append,
    List.nil_append]

theorem RawPair.stored_eq_iff (p : RawPair) :
    p.stored = p ↔ (∀ c ∈ p.name, Kept c) ∧ ∀ c ∈ p.value, Kept c := by
  constructor
  · intro h
    exact ⟨map_stored_iff.mp (congrArg RawPair.name h), map_stored_iff.mp (congrArg RawPair.value h)⟩
  · rintro ⟨hname, hvalue⟩
    obtain ⟨name, value, isName, isValue⟩ := p
    simp only [RawPair.stored, map_stored_iff.mpr hname, map_stored_iff.mpr hvalue]

/-- A plain block is stored as it is. -/
theorem RawBlock.Plain.stored_eq {b : RawBlock} (h : b.Plain) : b.stored b.junk b.junk_le = b := by
  have hfirst := stored_eq_iff.mpr (h.header b.first List.mem_cons_self)
  have hmore := map_stored_iff.mpr fun c hc => h.header c (List.mem_cons_of_mem _ hc)
  have hpairs : b.pairs.map RawPair.stored = b.pairs :=
    (List.map_congr_left fun p hp =>
      p.stored_eq_iff.mpr ⟨h.name p hp, h.value p hp⟩).trans (List.map_id' b.pairs)
  have hcut := h.cut
  obtain ⟨junk, first, more, pairs, cut, _, _, _, _, _⟩ := b
  subst hcut
  simp only [RawBlock.stored, hfirst, hmore, hpairs]

/-! ## The exact condition -/

/-- **The decoder is faithful to a text exactly when the block the text
begins with, if any, is plain.** -/
theorem decodesFaithfully_iff (theText : CString) : DecodesFaithfully theText ↔
    ∀ (b : RawBlock) (rest : CString), theText = b.text ++ rest → b.Plain := by
  constructor
  · rintro h b rest rfl
    have hpos : 0 < (b.text.length : Int) := by
      simp only [RawBlock.text, RawBlock.header, List.length_append, List.length_cons]
      omega
    obtain ⟨junk, new, hnew, hjunk, htake, -⟩ := h [] [] _ _ _ (parseBlock_text b rest [] []) hpos
    rw [List.nil_append, List.nil_append] at hnew
    subst hnew
    rw [Int.toNat_natCast, List.take_left, ← b.stored_text junk hjunk] at htake
    have htext : b.text ++ [] = (b.stored junk hjunk).text ++ [] := by rw [htake]
    obtain ⟨hheader, hpairs, hcut⟩ := RawBlock.text_inj htext
    have hpair : ∀ p ∈ b.pairs, p.stored = p :=
      List.map_inj_left.mp (hpairs.symm.trans (List.map_id' b.pairs).symm)
    exact ⟨map_stored_iff.mp hheader.symm, fun p hp => (p.stored_eq_iff.mp (hpair p hp)).1,
      fun p hp => (p.stored_eq_iff.mp (hpair p hp)).2, hcut⟩
  · intro h nvList blockHeader r header list hparse hr
    obtain ⟨b, rest, rfl⟩ := (parseBlock_pos_iff theText blockHeader nvList).mp
      ⟨r, header, list, hparse, hr⟩
    have hstored := (h b rest rfl).stored_eq
    rw [parseBlock_text] at hparse
    cases hparse
    have halphabet : ∀ s : CString, ∀ c ∈ s.map stored, InAlphabet c := by
      intro s c hc
      obtain ⟨d, -, rfl⟩ := List.mem_map.mp hc
      exact (stored_kept d).inAlphabet
    refine ⟨b.junk, b.pairs.map RawPair.entry, rfl, b.junk_le, ?_, halphabet _, ?_⟩
    · rw [Int.toNat_natCast, List.take_left, ← b.stored_text b.junk b.junk_le, hstored]
    · intro e he
      obtain ⟨p, -, rfl⟩ := List.mem_map.mp he
      exact ⟨halphabet p.name, halphabet p.value⟩

/-- A tilde is in the alphabet and is not stored as it is. -/
theorem tilde_not_decoded :
    ¬ ∀ theText : CString, DecodesFaithfully theText := by
  intro h
  obtain ⟨junk, new, hnew, hjunk, htake, -⟩ :=
    h (cstr "~\n\x7b\n\x7d\n") [] [] 6 [124] [] rfl (by decide)
  rw [List.nil_append] at hnew
  subst hnew
  cases junk with
  | nil => exact absurd htake (by decide)
  | cons c junk =>
    have hlen := congrArg List.length htake
    simp only [List.length_append, List.length_cons, blockText, List.flatMap_nil,
      List.length_nil] at hlen
    have htext : (List.take (Int.toNat 6) (cstr "~\n\x7b\n\x7d\n")).length = 6 := by decide
    omega

end XplEvent.Wire
