import XplEvent.Script.Exec
import XplEvent.Wire.Parse

/-!
# The tag of an `xplcmd`

`ParserSplitXPLTag` looks for a `-`, then for a `.`, then for the end,
in one loop with one counter. `ParserSplitXPLTag_eq` says what comes out:
the tag is cut as `parseMessageHeader` cuts one, and then the lengths of
the parts are tested. The counter restarts before it is incremented, so
in the second and the third part it is one ahead of the length, and
`!j`, which is there to refuse an empty part, refuses only an empty
vendor.
-/

namespace XplEvent.Script

open Wire (splitTag strchr strchr_none strchr_ok splitTag_append splitTag_ok)

/-! ## The three states of the scanner -/

theorem splitTagLoop_finish (tag rest : CString) (i j begin_ : Nat) (vendor device : CString) :
    splitTagLoop tag rest i j begin_ .finish vendor device =
      if j + rest.length = 0 ∨ j + rest.length > 9 then none
      else some (vendor, device, (tag.drop begin_).take (j + rest.length - 1)) := by
  induction rest generalizing i j with
  | nil => rfl
  | cons c rest ih =>
    rw [splitTagLoop, ih, List.length_cons, Nat.add_right_comm j 1, ← Nat.add_assoc]

theorem splitTagLoop_dot {tag part : CString} (hpart : 46 ∉ part) (rest : CString)
    (i j begin_ : Nat) (vendor device : CString) :
    splitTagLoop tag (part ++ 46 :: rest) i j begin_ .dot vendor device =
      if j + part.length = 0 ∨ j + part.length > 9 then none
      else splitTagLoop tag rest (i + part.length + 1) 1 (i + part.length + 1) .finish vendor
        ((tag.drop begin_).take (j + part.length - 1)) := by
  induction part generalizing i j with
  | nil => rfl
  | cons c part ih =>
    have hc : c ≠ 46 := fun h => hpart (h ▸ List.mem_cons_self)
    have hrest := ih (fun h => hpart (List.mem_cons_of_mem c h)) (i + 1) (j + 1)
    rw [List.cons_append, splitTagLoop, if_neg hc, hrest, List.length_cons,
      Nat.add_right_comm j 1, Nat.add_right_comm i 1, ← Nat.add_assoc, ← Nat.add_assoc]

theorem splitTagLoop_hyphen {tag part : CString} (hpart : 45 ∉ part) (rest : CString)
    (i j begin_ : Nat) (vendor device : CString) :
    splitTagLoop tag (part ++ 45 :: rest) i j begin_ .hyphen vendor device =
      if j + part.length = 0 ∨ j + part.length > 9 then none
      else splitTagLoop tag rest (i + part.length + 1) 1 (i + part.length + 1) .dot
        (tag.take (j + part.length)) device := by
  induction part generalizing i j with
  | nil => rfl
  | cons c part ih =>
    have hc : c ≠ 45 := fun h => hpart (h ▸ List.mem_cons_self)
    have hrest := ih (fun h => hpart (List.mem_cons_of_mem c h)) (i + 1) (j + 1)
    rw [List.cons_append, splitTagLoop, if_neg hc, hrest, List.length_cons,
      Nat.add_right_comm j 1, Nat.add_right_comm i 1, ← Nat.add_assoc, ← Nat.add_assoc]

/-- A scanner that does not find its delimiter fails at the end. -/
theorem splitTagLoop_dot_none {rest : CString} (h : 46 ∉ rest) (tag : CString)
    (i j begin_ : Nat) (vendor device : CString) :
    splitTagLoop tag rest i j begin_ .dot vendor device = none := by
  induction rest generalizing i j with
  | nil => rfl
  | cons c rest ih =>
    have hc : c ≠ 46 := fun heq => h (heq ▸ List.mem_cons_self)
    rw [splitTagLoop, if_neg hc]
    exact ih (fun hmem => h (List.mem_cons_of_mem c hmem)) _ _

theorem splitTagLoop_hyphen_none {rest : CString} (h : 45 ∉ rest) (tag : CString)
    (i j begin_ : Nat) (vendor device : CString) :
    splitTagLoop tag rest i j begin_ .hyphen vendor device = none := by
  induction rest generalizing i j with
  | nil => rfl
  | cons c rest ih =>
    have hc : c ≠ 45 := fun heq => h (heq ▸ List.mem_cons_self)
    rw [splitTagLoop, if_neg hc]
    exact ih (fun hmem => h (List.mem_cons_of_mem c hmem)) _ _

/-! ## The scanner as a cut and a test -/

/-- The lengths the three tests on the counter let pass. -/
def TagLimits (vendor device instance_ : CString) : Prop :=
  vendor ≠ [] ∧ vendor.length ≤ 9 ∧ device.length ≤ 8 ∧ instance_.length ≤ 8

instance (vendor device instance_ : CString) : Decidable (TagLimits vendor device instance_) :=
  inferInstanceAs (Decidable (_ ∧ _))

theorem take_drop_append (before part rest : CString) :
    ((before ++ (part ++ rest)).drop before.length).take part.length = part := by
  rw [List.drop_left, List.take_left]

/-- The scanner on a tag that has its two delimiters. -/
theorem ParserSplitXPLTag_append {vendor device : CString} (hv : 45 ∉ vendor) (hd : 46 ∉ device)
    (instance_ : CString) :
    ParserSplitXPLTag (vendor ++ 45 :: (device ++ 46 :: instance_)) =
      if TagLimits vendor device instance_ then some (vendor, device, instance_) else none := by
  have hfirst : (vendor ++ 45 :: (device ++ 46 :: instance_)).take vendor.length = vendor :=
    List.take_left
  have hsecond : ((vendor ++ 45 :: (device ++ 46 :: instance_)).drop (vendor.length + 1)).take
      device.length = device := by
    have h := take_drop_append (vendor ++ [45]) device (46 :: instance_)
    rwa [List.length_append, List.append_assoc] at h
  have hthird : ((vendor ++ 45 :: (device ++ 46 :: instance_)).drop
      (vendor.length + 1 + device.length + 1)).take instance_.length = instance_ := by
    have h := take_drop_append (vendor ++ 45 :: (device ++ [46])) instance_ []
    rw [List.append_nil] at h
    simp only [List.length_append, List.append_assoc, List.cons_append, List.nil_append,
      List.length_cons, List.length_nil] at h
    rwa [show vendor.length + 1 + device.length + 1 = vendor.length + (device.length + (0 + 1) + 1)
      by omega]
  rw [ParserSplitXPLTag, splitTagLoop_hyphen hv, splitTagLoop_dot hd, splitTagLoop_finish]
  simp only [Nat.zero_add, Nat.add_sub_cancel_left, hfirst, hsecond, hthird]
  by_cases hlimits : TagLimits vendor device instance_
  · have ⟨hne, hv9, hd8, hi8⟩ := hlimits
    have hpos := List.length_pos_iff.mpr hne
    rw [if_pos hlimits, if_neg (by omega), if_neg (by omega), if_neg (by omega)]
  · rw [if_neg hlimits]
    split
    · rfl
    split
    · rfl
    split
    · rfl
    rename_i hvendor hdevice hinstance
    refine absurd ⟨?_, ?_, ?_, ?_⟩ hlimits
    · exact List.length_pos_iff.mp (by omega)
    · omega
    · omega
    · omega

/-- **The scanner cuts a tag as `parseMessageHeader` does**, and then
tests the lengths of the parts. -/
theorem ParserSplitXPLTag_eq (tag : CString) : ParserSplitXPLTag tag =
    (splitTag tag).filter fun (vendor, device, instance_) => TagLimits vendor device instance_ := by
  cases hcut : splitTag tag with
  | some parts =>
    obtain ⟨vendor, device, instance_⟩ := parts
    obtain ⟨rfl, hv, hd⟩ := splitTag_ok hcut
    rw [ParserSplitXPLTag_append hv hd]
    by_cases hlimits : TagLimits vendor device instance_
    · rw [if_pos hlimits, Option.filter_some, if_pos (decide_eq_true hlimits)]
    · rw [if_neg hlimits, Option.filter_some, if_neg (mt of_decide_eq_true hlimits)]
  | none =>
    rw [Option.filter_none]
    unfold splitTag at hcut
    cases hvendor : strchr tag 45 with
    | none => exact splitTagLoop_hyphen_none (strchr_none hvendor) tag 0 0 0 [] []
    | some parts =>
      obtain ⟨vendor, rest⟩ := parts
      obtain ⟨rfl, hv⟩ := strchr_ok hvendor
      cases hdevice : strchr rest 46 with
      | some parts =>
        rw [hvendor] at hcut
        simp only [hdevice, reduceCtorEq] at hcut
      | none =>
        rw [ParserSplitXPLTag, splitTagLoop_hyphen hv]
        split
        · rfl
        · exact splitTagLoop_dot_none (strchr_none hdevice) _ _ _ _ _ _

/-! ## What is accepted -/

/-- A tag in three parts, each as long as the scanner lets it be. -/
structure TagParts (tag vendor device instance_ : CString) : Prop where
  text : tag = vendor ++ 45 :: (device ++ 46 :: instance_)
  vendor_cut : 45 ∉ vendor
  device_cut : 46 ∉ device
  vendor_length : vendor.length ≤ 9
  device_length : device.length ≤ 8
  instance_length : instance_.length ≤ 8

/-- A tag in three parts none of which is empty. -/
structure FullTag (tag vendor device instance_ : CString) : Prop
    extends TagParts tag vendor device instance_ where
  vendor_ne : vendor ≠ []
  device_ne : device ≠ []
  instance_ne : instance_ ≠ []

/-- A tag whose device or instance is empty. -/
def HalfTag (tag : CString) : Prop :=
  ∃ vendor device instance_, TagParts tag vendor device instance_ ∧ vendor ≠ [] ∧
    (device = [] ∨ instance_ = [])

/-- `PASS` is three parts of which only the vendor is known not to be empty. -/
theorem ParserSplitXPLTag_some_iff {tag vendor device instance_ : CString} :
    ParserSplitXPLTag tag = some (vendor, device, instance_) ↔
      TagParts tag vendor device instance_ ∧ vendor ≠ [] := by
  constructor
  · intro h
    rw [ParserSplitXPLTag_eq, Option.filter_eq_some_iff] at h
    obtain ⟨hcut, hlimits⟩ := h
    obtain ⟨htext, hv, hd⟩ := splitTag_ok hcut
    obtain ⟨hne, hv9, hd8, hi8⟩ := of_decide_eq_true hlimits
    exact ⟨⟨htext, hv, hd, hv9, hd8, hi8⟩, hne⟩
  · rintro ⟨⟨rfl, hv, hd, hv9, hd8, hi8⟩, hne⟩
    rw [ParserSplitXPLTag_append hv hd, if_pos ⟨hne, hv9, hd8, hi8⟩]

section

variable {D σ : Type} (env : Env D σ) (mode : Mode)

/-- What the splitting of a tag is for: it passes exactly the full tags,
with the parts a message header would be cut into, and a tag that it does
not pass is only reported. -/
structure SplitsFully (tag : CString) : Prop where
  passes_iff : (ParserSplitXPLTag tag).isSome = true ↔
    ∃ vendor device instance_, FullTag tag vendor device instance_
  parts : ∀ vendor device instance_, ParserSplitXPLTag tag = some (vendor, device, instance_) →
    FullTag tag vendor device instance_ ∧ splitTag tag = some (vendor, device, instance_)
  fails : ParserSplitXPLTag tag = none → ∀ (st : Store σ) (class_ type_ hash : CString),
    sendCommand env mode st tag class_ type_ hash = .ok { st with failReason := some (.badTag tag) }

/-- **A tag is split as it should be unless its device or its instance is
empty.** -/
theorem splitsFully_iff (tag : CString) : SplitsFully env mode tag ↔ ¬ HalfTag tag := by
  constructor
  · rintro hfull ⟨vendor, device, instance_, hparts, hne, hempty⟩
    have hpass := ParserSplitXPLTag_some_iff.mpr ⟨hparts, hne⟩
    have htag := (hfull.parts vendor device instance_ hpass).1
    rcases hempty with hempty | hempty
    · exact htag.device_ne hempty
    · exact htag.instance_ne hempty
  · intro hhalf
    have hpass : ∀ vendor device instance_,
        ParserSplitXPLTag tag = some (vendor, device, instance_) →
          FullTag tag vendor device instance_ := by
      intro vendor device instance_ h
      obtain ⟨hparts, hne⟩ := ParserSplitXPLTag_some_iff.mp h
      refine ⟨hparts, hne, fun hempty => ?_, fun hempty => ?_⟩
      · exact hhalf ⟨vendor, device, instance_, hparts, hne, .inl hempty⟩
      · exact hhalf ⟨vendor, device, instance_, hparts, hne, .inr hempty⟩
    refine ⟨⟨fun h => ?_, ?_⟩, fun vendor device instance_ h => ?_, fun h st class_ type_ hash => ?_⟩
    · obtain ⟨⟨vendor, device, instance_⟩, hsome⟩ := Option.isSome_iff_exists.mp h
      exact ⟨vendor, device, instance_, hpass vendor device instance_ hsome⟩
    · rintro ⟨vendor, device, instance_, hfull⟩
      rw [ParserSplitXPLTag_some_iff.mpr ⟨hfull.toTagParts, hfull.vendor_ne⟩]
      rfl
    · have hfull := hpass vendor device instance_ h
      rw [hfull.text]
      exact ⟨hfull.text ▸ hfull, splitTag_append hfull.vendor_cut hfull.device_cut instance_⟩
    · rw [sendCommand, h]

end

/-- `a-.b` has no device and is accepted. -/
theorem splitsFully_fails :
    ¬ ∀ tag, SplitsFully Env.inert ⟨false, none, false⟩ tag := by
  intro h
  obtain ⟨hfull, -⟩ := (h (cstr "a-.b")).parts (cstr "a") [] (cstr "b") rfl
  exact hfull.device_ne rfl

end XplEvent.Script
