import Mathlib.Algebra.Group.Nat.Defs
import Mathlib.Data.List.TakeWhile
import XplEvent.Util.Split
import XplEvent.Wire.Parse

/-!
# Cron expressions

A cron expression is five fields: minute, hour, day of the month, month
and day of the week. A field is a number, a list of numbers, a wildcard or
a wildcard with an interval, and is held against a field of the broken-down
local time. The fields that match are counted, and the entry is executed
if all five do.

The broken-down time counts the months from 0.
-/

namespace XplEvent.Scheduler

open Util (splitString splitString_eq)
open Wire (strtoll isdigit digitsValue)

/-- The fields of `struct tm` that the scheduler reads. -/
structure Tm where
  tm_min : Int
  tm_hour : Int
  tm_mday : Int
  tm_mon : Int
  tm_wday : Int
deriving DecidableEq, Repr

/-- A zeroed `struct tm`. -/
def Tm.zero : Tm := ⟨0, 0, 0, 0, 0⟩

/-! ## The evaluation -/

/-- `atoi`: `strtol` and the conversion to an `int`. -/
def atoi (nptr : CString) : Int := (strtoll nptr).1.bmod (2 ^ 32)

/-- `cronNumEval`: `matchCount` is what is counted. -/
def cronNumEval (timeValue : Int) (subExpr : CString) (matchCount : Nat) : Except Fault Nat := do
  let values ← splitString subExpr 44
  return if values.any fun value => atoi value = timeValue then matchCount + 1 else matchCount

/-- `cronWildCardEval`. -/
def cronWildCardEval (timeValue : Int) (subExpr : CString) (matchCount : Nat) : Nat :=
  if subExpr[1]? = some 47 then
    let val := atoi (subExpr.drop 2)
    if val = 0 then matchCount
    else if timeValue.tmod val = 0 then matchCount + 1
    else matchCount
  else matchCount

/-- The field of the time that field `i` of an expression is about. -/
def Tm.field (tmNow : Tm) : Nat → Int
  | 0 => tmNow.tm_min
  | 1 => tmNow.tm_hour
  | 2 => tmNow.tm_mday
  | 3 => tmNow.tm_mon
  | _ => tmNow.tm_wday

/-- A turn of the loop over the fields: what is counted then, and whether
the loop goes on. -/
def cronField (timeValue : Int) (subExpr : CString) (matchCount : Nat) :
    Except Fault (Nat × Bool) :=
  if subExpr.head? = some 42 then
    match subExpr[1]? with
    | none => .ok (matchCount + 1, true)
    | some c =>
      if c = 47 then .ok (cronWildCardEval timeValue subExpr matchCount, true)
      else .ok (matchCount, true)
  else if subExpr.head?.any isdigit then do
    let matchCount ← cronNumEval timeValue subExpr matchCount
    return (matchCount, true)
  else .ok (matchCount, false)

/-- The loop over the fields `i` of an expression. -/
def cronFields (tmNow : Tm) (cronSubstrs : List CString) : List Nat → Nat → Except Fault Nat
  | [], matchCount => .ok matchCount
  | i :: fields, matchCount =>
    match cronSubstrs[i]? with
    -- not all five fields are populated
    | none => .ok matchCount
    | some subExpr => do
      let (matchCount, goesOn) ← cronField (tmNow.field i) subExpr matchCount
      if goesOn then cronFields tmNow cronSubstrs fields matchCount else return matchCount

/-- `matchCount` behind the loop. -/
def cronMatchCount (tmNow : Tm) (cronSubstrs : List CString) : Except Fault Nat :=
  cronFields tmNow cronSubstrs [0, 1, 2, 3, 4] 0

/-! ## The evaluation always returns -/

/-- What a field adds to the count, and whether the loop goes on. -/
def fieldResult (timeValue : Int) (subExpr : CString) : Nat × Bool :=
  if subExpr.head? = some 42 then
    match subExpr[1]? with
    | none => (1, true)
    | some c => if c = 47 then (cronWildCardEval timeValue subExpr 0, true) else (0, true)
  else if subExpr.head?.any isdigit then
    (if (Lib.words 44 subExpr).any fun value => atoi value = timeValue then 1 else 0, true)
  else (0, false)

theorem cronNumEval_eq (timeValue : Int) (subExpr : CString) (matchCount : Nat) :
    cronNumEval timeValue subExpr matchCount =
      .ok (matchCount +
        if (Lib.words 44 subExpr).any fun value => atoi value = timeValue then 1 else 0) := by
  rw [cronNumEval, splitString_eq, ok_bind]
  split
  · rfl
  · rfl

theorem cronWildCardEval_eq (timeValue : Int) (subExpr : CString) (matchCount : Nat) :
    cronWildCardEval timeValue subExpr matchCount =
      matchCount + cronWildCardEval timeValue subExpr 0 := by
  simp only [cronWildCardEval]
  split
  · split
    · rfl
    · split
      · rw [Nat.zero_add]
      · rfl
  · rfl

theorem cronField_eq (timeValue : Int) (subExpr : CString) (matchCount : Nat) :
    cronField timeValue subExpr matchCount =
      .ok (matchCount + (fieldResult timeValue subExpr).1, (fieldResult timeValue subExpr).2) := by
  unfold cronField fieldResult
  split
  · split
    · rfl
    · split
      · rw [cronWildCardEval_eq]
      · rfl
  · split
    · rw [cronNumEval_eq]
      rfl
    · rfl

/-- A malformed expression is passed over without harm. -/
theorem cronFields_returns (tmNow : Tm) (cronSubstrs : List CString) (fields : List Nat)
    (matchCount : Nat) : ∃ n, cronFields tmNow cronSubstrs fields matchCount = .ok n := by
  induction fields generalizing matchCount with
  | nil => exact ⟨matchCount, rfl⟩
  | cons i fields ih =>
    unfold cronFields
    split
    · exact ⟨matchCount, rfl⟩
    · rw [cronField_eq, ok_bind]
      simp only
      split
      · exact ih _
      · exact ⟨_, rfl⟩

/-! ## The fields and what they mean -/

/-- A decimal number below 2^31. -/
def IsNumber (s : CString) : Prop :=
  s ≠ [] ∧ (∀ c ∈ s, isdigit c = true) ∧ digitsValue s < 2 ^ 31

/-- A field: numbers, of which there is at least one, a wildcard, or a
wildcard with an interval. -/
inductive CronField
  | numbers (first : CString) (rest : List CString)
  | any
  | every (interval : CString)
deriving DecidableEq, Repr

/-- The text of a field. -/
def CronField.text : CronField → CString
  | .numbers first rest => first ++ rest.flatMap (44 :: ·)
  | .any => [42]
  | .every interval => 42 :: 47 :: interval

/-- The numbers of the field are numbers. -/
def CronField.Valid : CronField → Prop
  | .numbers first rest => ∀ s ∈ first :: rest, IsNumber s
  | .any => True
  | .every interval => IsNumber interval ∧ 1 ≤ digitsValue interval

/-- The field accepts a value: it is in the list, or divisible by the
interval. -/
def CronField.Accepts (v : Int) : CronField → Prop
  | .numbers first rest => ∃ s ∈ first :: rest, (digitsValue s : Int) = v
  | .any => True
  | .every interval => (digitsValue interval : Int) ∣ v

instance (s : CString) : Decidable (∀ c ∈ s, isdigit c = true) :=
  List.decidableBAll (fun c => isdigit c = true) s

instance (s : CString) : Decidable (IsNumber s) := inferInstanceAs (Decidable (_ ∧ _))

instance (f : CronField) : Decidable f.Valid :=
  match f with
  | .numbers first rest => inferInstanceAs (Decidable (∀ s ∈ first :: rest, IsNumber s))
  | .any => .isTrue trivial
  | .every _ => inferInstanceAs (Decidable (_ ∧ _))

instance (v : Int) (f : CronField) : Decidable (f.Accepts v) :=
  match f with
  | .numbers first rest => inferInstanceAs (Decidable (∃ s ∈ first :: rest, _))
  | .any => .isTrue trivial
  | .every _ => inferInstanceAs (Decidable (_ ∣ _))

/-- A number is read as what it stands for. -/
theorem atoi_number {s : CString} (h : IsNumber s) : atoi s = digitsValue s := by
  obtain ⟨hne, hdigits, hlt⟩ := h
  obtain ⟨c, t, rfl⟩ := List.exists_cons_of_ne_nil hne
  have hc : isdigit c = true := hdigits c List.mem_cons_self
  have hrange : 48 ≤ c ∧ c ≤ 57 := of_decide_eq_true hc
  have hspace : ¬ Wire.isspace c = true := by
    rw [Wire.isspace, decide_eq_true_iff]
    grind
  have hread : strtoll (c :: t) = ((digitsValue (c :: t) : Int), []) := by
    have htake : (c :: t).takeWhile isdigit = c :: t :=
      List.takeWhile_eq_self_iff.mpr hdigits
    have hdrop : (c :: t).dropWhile isdigit = [] := List.dropWhile_eq_nil_iff.mpr hdigits
    have hclamp : max Wire.LLONG_MIN (min Wire.LLONG_MAX (digitsValue (c :: t) : Int)) =
        digitsValue (c :: t) := by
      unfold Wire.LLONG_MIN Wire.LLONG_MAX
      omega
    have hminus : c ≠ 45 := by grind
    have hplus : c ≠ 43 := by grind
    unfold strtoll
    rw [List.dropWhile_cons_of_neg hspace]
    split
    rename_i negative digits hmatch
    split at hmatch
    · rename_i heq
      cases heq
      exact absurd rfl hminus
    · rename_i heq
      cases heq
      exact absurd rfl hplus
    · cases hmatch
      rw [htake, hdrop, if_neg (by simp)]
      simp only [Bool.false_eq_true, if_false, hclamp]
  rw [atoi, hread, Int.bmod_eq_of_le (by omega) (by omega)]

theorem IsNumber.head {s : CString} (h : IsNumber s) : ∃ c t, s = c :: t ∧ isdigit c = true := by
  obtain ⟨c, t, rfl⟩ := List.exists_cons_of_ne_nil h.1
  exact ⟨c, t, rfl, h.2.1 c List.mem_cons_self⟩

/-- A list of numbers is cut into its numbers. -/
theorem words_numbers {first : CString} {rest : List CString}
    (h : ∀ s ∈ first :: rest, IsNumber s) :
    Lib.words 44 (CronField.numbers first rest).text = first :: rest := by
  apply Lib.words_join
  intro s hs
  obtain ⟨hne, hdigits, -⟩ := h s hs
  refine ⟨hne, fun hcomma => ?_⟩
  exact absurd (hdigits 44 hcomma) (by decide)

theorem any_numbers {l : List CString} (h : ∀ s ∈ l, IsNumber s) (v : Int) :
    (l.any fun value => atoi value = v) = true ↔ ∃ s ∈ l, (digitsValue s : Int) = v := by
  rw [List.any_eq_true]
  refine exists_congr fun s => and_congr_right fun hs => ?_
  rw [decide_eq_true_iff, atoi_number (h s hs)]

/-- **A valid field counts exactly if it accepts the value.** -/
theorem cronField_valid {f : CronField} (h : f.Valid) (v : Int) (matchCount : Nat) :
    cronField v f.text matchCount =
      .ok (matchCount + if f.Accepts v then 1 else 0, true) := by
  rw [cronField_eq]
  cases f with
  | numbers first rest =>
    have hany := any_numbers h v
    obtain ⟨c, t, rfl, hc⟩ := (h first List.mem_cons_self).head
    have hstar : c ≠ 42 := by
      rintro rfl
      exact absurd hc (by decide)
    have hhead : (CronField.numbers (c :: t) rest).text.head? = some c := rfl
    unfold fieldResult
    rw [hhead, if_neg (fun heq => hstar (Option.some.inj heq)), words_numbers h, Option.any_some,
      if_pos hc]
    simp only [hany]
    rfl
  | any => rfl
  | every interval =>
    obtain ⟨hnumber, hpos⟩ := h
    have hval : atoi ((CronField.every interval).text.drop 2) = digitsValue interval :=
      atoi_number hnumber
    have hne : (digitsValue interval : Int) ≠ 0 := by omega
    have hstar : (CronField.every interval).text.head? = some 42 := rfl
    have hslash : (CronField.every interval).text[1]? = some 47 := rfl
    unfold fieldResult cronWildCardEval
    simp only [hstar, hslash, if_true, hval, hne, if_false, Nat.zero_add,
      ← Int.dvd_iff_tmod_eq_zero]
    rfl

/-! ## Five fields -/

/-- The fields of an expression. -/
structure CronFields where
  minute : CronField
  hour : CronField
  mday : CronField
  month : CronField
  wday : CronField
deriving DecidableEq, Repr

/-- The fields in the order they are written. -/
def CronFields.list (f : CronFields) : List CronField :=
  [f.minute, f.hour, f.mday, f.month, f.wday]

/-- The fields that the time meets, with the number of the month. -/
def CronFields.Meets (f : CronFields) (tm : Tm) (month : Int) : Prop :=
  f.minute.Accepts tm.tm_min ∧ f.hour.Accepts tm.tm_hour ∧ f.mday.Accepts tm.tm_mday ∧
    f.month.Accepts month ∧ f.wday.Accepts tm.tm_wday

instance (f : CronFields) (tm : Tm) (month : Int) : Decidable (f.Meets tm month) :=
  inferInstanceAs (Decidable (_ ∧ _))

/-- A match counts one. -/
def matchIncrement (v : Int) (f : CronField) : Nat := if f.Accepts v then 1 else 0

theorem matchIncrement_iff (v : Int) (f : CronField) : matchIncrement v f = 1 ↔ f.Accepts v := by
  unfold matchIncrement
  split
  · rename_i h
    exact iff_of_true rfl h
  · rename_i h
    exact iff_of_false Nat.zero_ne_one h

theorem matchIncrement_le (v : Int) (f : CronField) : matchIncrement v f ≤ 1 := by
  unfold matchIncrement
  split
  · exact Nat.le_refl 1
  · exact Nat.zero_le 1

/-- **The code counts five exactly if** all fields accept their part of
the time, the month as it is counted from 0. -/
theorem cronMatchCount_iff {f : CronFields} (h : ∀ g ∈ f.list, g.Valid) (tm : Tm) :
    ∃ n, cronMatchCount tm (f.list.map CronField.text) = .ok n ∧ (n = 5 ↔ f.Meets tm tm.tm_mon) := by
  have hturn : ∀ g ∈ f.list, ∀ v n, cronField v g.text n = .ok (n + matchIncrement v g, true) :=
    fun g hg v n => cronField_valid (h g hg) v n
  have hminute := hturn f.minute (by simp [CronFields.list]) tm.tm_min
  have hhour := hturn f.hour (by simp [CronFields.list]) tm.tm_hour
  have hmday := hturn f.mday (by simp [CronFields.list]) tm.tm_mday
  have hmonth := hturn f.month (by simp [CronFields.list]) tm.tm_mon
  have hwday := hturn f.wday (by simp [CronFields.list]) tm.tm_wday
  refine ⟨0 + matchIncrement tm.tm_min f.minute + matchIncrement tm.tm_hour f.hour +
    matchIncrement tm.tm_mday f.mday + matchIncrement tm.tm_mon f.month +
    matchIncrement tm.tm_wday f.wday, ?_, ?_⟩
  · simp only [cronMatchCount, cronFields, CronFields.list, List.map_cons, List.map_nil,
      List.getElem?_cons_zero, List.getElem?_cons_succ, Tm.field, hminute, hhour, hmday, hmonth,
      hwday, ok_bind, if_true]
  · unfold CronFields.Meets
    rw [← matchIncrement_iff, ← matchIncrement_iff, ← matchIncrement_iff, ← matchIncrement_iff,
      ← matchIncrement_iff]
    have hle₁ := matchIncrement_le tm.tm_min f.minute
    have hle₂ := matchIncrement_le tm.tm_hour f.hour
    have hle₃ := matchIncrement_le tm.tm_mday f.mday
    have hle₄ := matchIncrement_le tm.tm_mon f.month
    have hle₅ := matchIncrement_le tm.tm_wday f.wday
    omega

end XplEvent.Scheduler
