/-!
# Lines of a stream

A separator cuts a stream into lines. A line is complete when its
separator has come; what follows the last separator is the beginning of a
line. The words of a stream are its non-empty segments, the last one
included.
-/

namespace Lib

variable {α : Type _} [DecidableEq α] (sep : α)

/-- The complete lines of a stream. -/
def lines (s : List α) : List (List α) := (s.splitOn sep).dropLast

/-- Lines with their separators. -/
def terminated (ls : List (List α)) : List α := ls.flatMap (· ++ [sep])

/-- The non-empty segments of a stream. -/
def words (s : List α) : List (List α) := (s.splitOn sep).filter (· ≠ [])

/-- The non-empty segments between symbols that are told by a predicate. -/
def wordsP (isSep : α → Bool) (s : List α) : List (List α) := (s.splitOnP isSep).filter (· ≠ [])

variable {sep}

theorem words_eq_wordsP (s : List α) : words sep s = wordsP (· == sep) s := by
  rw [words, wordsP, List.splitOn_eq_splitOnP]

omit [DecidableEq α] in
theorem wordsP_of_forall {isSep : α → Bool} {s : List α} (h : ∀ c ∈ s, isSep c = false) :
    wordsP isSep s = if s = [] then [] else [s] := by
  rw [wordsP, List.splitOnP_eq_singleton h]
  by_cases hs : s = []
  · rw [if_pos hs, hs]
    rfl
  · rw [if_neg hs, List.filter_cons_of_pos (by simpa using hs)]
    rfl

omit [DecidableEq α] in
/-- A word, or nothing, and a separator in front of a stream. -/
theorem wordsP_line {isSep : α → Bool} {l : List α} (h : ∀ c ∈ l, isSep c = false) {c : α}
    (hc : isSep c = true) (s : List α) :
    wordsP isSep (l ++ c :: s) = if l = [] then wordsP isSep s else l :: wordsP isSep s := by
  rw [wordsP, List.splitOnP_append_cons_of_forall_mem h c hc]
  by_cases hl : l = []
  · rw [if_pos hl, List.filter_cons_of_neg (by simpa using hl)]
    rfl
  · rw [if_neg hl, List.filter_cons_of_pos (by simpa using hl)]
    rfl

omit [DecidableEq α] in
/-- Streams by their first separator. -/
theorem separated_induction (isSep : α → Bool) {motive : List α → Prop}
    (last : ∀ l, (∀ c ∈ l, isSep c = false) → motive l)
    (line : ∀ l c s, (∀ c ∈ l, isSep c = false) → isSep c = true → motive s →
      motive (l ++ c :: s)) (s : List α) : motive s := by
  suffices hbegun : ∀ s l : List α, (∀ c ∈ l, isSep c = false) → motive (l ++ s) from
    hbegun s [] fun _ hc => absurd hc List.not_mem_nil
  intro s
  induction s with
  | nil =>
    intro l hl
    rw [List.append_nil]
    exact last l hl
  | cons c s ih =>
    intro l hl
    cases hc : isSep c with
    | true => exact line l c s hl hc (ih [] fun _ hc => absurd hc List.not_mem_nil)
    | false =>
      rw [← List.singleton_append, ← List.append_assoc]
      apply ih
      intro c' hc'
      rcases List.mem_append.mp hc' with hc' | hc'
      · exact hl c' hc'
      · rwa [List.mem_singleton.mp hc']

omit [DecidableEq α] in
/-- A word is not empty and has no separator. -/
theorem of_mem_wordsP {isSep : α → Bool} {s w : List α} (h : w ∈ wordsP isSep s) :
    w ≠ [] ∧ ∀ c ∈ w, isSep c = false := by
  induction s using separated_induction isSep with
  | last l hl =>
    rw [wordsP_of_forall hl] at h
    split at h
    · cases h
    · rw [List.mem_singleton.mp h]
      exact ⟨‹_›, hl⟩
  | line l c s hl hc ih =>
    rw [wordsP_line hl hc] at h
    split at h
    · exact ih h
    · rcases List.mem_cons.mp h with rfl | h
      · exact ⟨‹_›, hl⟩
      · exact ih h

omit [DecidableEq α] in
/-- Words are what is left of a stream without its separators. -/
theorem wordsP_flatten (isSep : α → Bool) (s : List α) :
    (wordsP isSep s).flatten = s.filter fun c => !isSep c := by
  induction s using separated_induction isSep with
  | last l hl =>
    have hkept : l.filter (fun c => !isSep c) = l :=
      List.filter_eq_self.mpr fun c hc => by rw [hl c hc]; rfl
    rw [wordsP_of_forall hl, hkept]
    split
    · rw [‹l = []›]
      rfl
    · exact List.append_nil l
  | line l c s hl hc ih =>
    have hkept : l.filter (fun c => !isSep c) = l :=
      List.filter_eq_self.mpr fun c hc => by rw [hl c hc]; rfl
    rw [wordsP_line hl hc, List.filter_append, hkept, List.filter_cons_of_neg (by simp [hc]), ← ih]
    split
    · rw [‹l = []›]
      rfl
    · rfl

/-- **Words that are joined by a separator are found again.** -/
theorem words_intercalate {ws : List (List α)} (h : ∀ w ∈ ws, w ≠ [] ∧ sep ∉ w) :
    words sep ([sep].intercalate ws) = ws := by
  by_cases hws : ws = []
  · rw [hws]
    exact (words_eq_wordsP []).trans (wordsP_of_forall fun _ hc => absurd hc List.not_mem_nil)
  · rw [words, List.splitOn_intercalate sep (fun w hw => (h w hw).2) hws]
    exact List.filter_eq_self.mpr fun w hw => decide_eq_true (h w hw).1

theorem forall_beq_eq_false {l : List α} (h : sep ∉ l) : ∀ c ∈ l, (c == sep) = false :=
  fun _ hc => beq_eq_false_iff_ne.mpr (ne_of_mem_of_not_mem hc h)

theorem words_flatten (s : List α) : (words sep s).flatten = s.filter (· ≠ sep) := by
  rw [words_eq_wordsP, wordsP_flatten]
  exact List.filter_congr fun c _ => by by_cases hc : c = sep <;> simp [hc]

/-- There is no word among separators only. -/
theorem words_eq_nil_iff {s : List α} : words sep s = [] ↔ ∀ c ∈ s, c = sep := by
  have hflat : (words sep s).flatten = s.filter (· ≠ sep) := words_flatten s
  constructor
  · intro h c hc
    rw [h, List.flatten_nil] at hflat
    simpa using List.filter_eq_nil_iff.mp hflat.symm c hc
  · intro h
    have hnil : s.filter (· ≠ sep) = [] := List.filter_eq_nil_iff.mpr fun c hc => by simp [h c hc]
    rw [hnil] at hflat
    apply List.eq_nil_iff_forall_not_mem.mpr
    intro w hw
    have hempty : w = [] := List.flatten_eq_nil_iff.mp hflat w hw
    rw [words_eq_wordsP] at hw
    exact (of_mem_wordsP hw).1 hempty

theorem lines_of_not_mem {s : List α} (h : sep ∉ s) : lines sep s = [] := by
  rw [lines, List.splitOn_eq_singleton h]
  rfl

/-- A line and its separator in front of a stream. -/
theorem lines_line {l : List α} (h : sep ∉ l) (s : List α) :
    lines sep (l ++ sep :: s) = l :: lines sep s := by
  rw [lines, List.splitOn_append_cons_self_of_not_mem h,
    List.dropLast_cons_of_ne_nil (List.splitOn_ne_nil sep s)]
  rfl

theorem words_of_not_mem {s : List α} (h : sep ∉ s) :
    words sep s = if s = [] then [] else [s] := by
  rw [words_eq_wordsP, wordsP_of_forall (forall_beq_eq_false h)]

/-- A word, or nothing, and its separator in front of a stream. -/
theorem words_line {l : List α} (h : sep ∉ l) (s : List α) :
    words sep (l ++ sep :: s) = if l = [] then words sep s else l :: words sep s := by
  rw [words_eq_wordsP, wordsP_line (forall_beq_eq_false h) (beq_self_eq_true sep),
    words_eq_wordsP]

/-- The first word begins where the stream does, if that is no
separator. -/
theorem words_cons {c : α} (hc : c ≠ sep) (s : List α) :
    ∃ w ws, words sep (c :: s) = (c :: w) :: ws := by
  by_cases hs : sep ∈ s
  · obtain ⟨w, s', rfl, hw⟩ := List.eq_append_cons_of_mem hs
    have hfirst : sep ∉ c :: w := List.not_mem_cons_of_ne_of_not_mem hc.symm hw
    exact ⟨w, words sep s', (words_line hfirst s').trans (if_neg (List.cons_ne_nil c w))⟩
  · have hfirst : sep ∉ c :: s := List.not_mem_cons_of_ne_of_not_mem hc.symm hs
    exact ⟨s, [], (words_of_not_mem hfirst).trans (if_neg (List.cons_ne_nil c s))⟩

/-- **Words are read back from the stream they make** with a separator
between each two. -/
theorem words_join {first : List α} {rest : List (List α)}
    (h : ∀ l ∈ first :: rest, l ≠ [] ∧ sep ∉ l) :
    words sep (first ++ rest.flatMap (sep :: ·)) = first :: rest := by
  induction rest generalizing first with
  | nil =>
    obtain ⟨hne, hsep⟩ := h first List.mem_cons_self
    rw [List.flatMap_nil, List.append_nil, words_of_not_mem hsep, if_neg hne]
  | cons l rest ih =>
    obtain ⟨hne, hsep⟩ := h first List.mem_cons_self
    have hrest := ih fun l' hl' => h l' (List.mem_cons_of_mem first hl')
    rw [List.flatMap_cons, List.cons_append, words_line hsep, if_neg hne, hrest]

omit [DecidableEq α] in
theorem terminated_cons (l : List α) (ls : List (List α)) :
    terminated sep (l :: ls) = l ++ sep :: terminated sep ls := by
  rw [terminated, List.flatMap_cons, List.append_assoc]
  rfl

/-- The lines of a stream, in front of the beginning of another. -/
theorem lines_stream {ls : List (List α)} {rest : List α} (h : ∀ l ∈ ls, sep ∉ l)
    (hrest : sep ∉ rest) : lines sep (terminated sep ls ++ rest) = ls := by
  induction ls with
  | nil => exact lines_of_not_mem hrest
  | cons l ls ih =>
    rw [terminated_cons, List.append_assoc, List.cons_append,
      lines_line (h l List.mem_cons_self), ih fun l' hl' => h l' (List.mem_cons_of_mem l hl')]

/-- **Lines are read back from the stream they make.** -/
theorem lines_terminated {ls : List (List α)} (h : ∀ l ∈ ls, sep ∉ l) :
    lines sep (terminated sep ls) = ls := by
  have hstream := lines_stream h List.not_mem_nil
  rw [List.append_nil] at hstream
  exact hstream

/-- The words of a stream of lines are the lines that are not empty. -/
theorem words_terminated {ls : List (List α)} (h : ∀ l ∈ ls, sep ∉ l) :
    words sep (terminated sep ls) = ls.filter (· ≠ []) := by
  induction ls with
  | nil => exact (words_of_not_mem List.not_mem_nil).trans (if_pos rfl)
  | cons l ls ih =>
    rw [terminated_cons, words_line (h l List.mem_cons_self),
      ih fun l' hl' => h l' (List.mem_cons_of_mem l hl')]
    by_cases hl : l = []
    · rw [if_pos hl, List.filter_cons_of_neg (by simpa using hl)]
    · rw [if_neg hl, List.filter_cons_of_pos (by simpa using hl)]

/-- A stream is some lines and the beginning of another. -/
theorem exists_lines (sep : α) (s : List α) : ∃ ls rest, (∀ l ∈ ls, sep ∉ l) ∧ sep ∉ rest ∧
    s = terminated sep ls ++ rest := by
  induction s with
  | nil => exact ⟨[], [], fun _ hl => absurd hl List.not_mem_nil, List.not_mem_nil, rfl⟩
  | cons c s ih =>
    obtain ⟨ls, rest, hls, hrest, rfl⟩ := ih
    by_cases hc : c = sep
    · refine ⟨[] :: ls, rest, ?_, hrest, ?_⟩
      · intro l hl
        rcases List.mem_cons.mp hl with rfl | hl
        · exact List.not_mem_nil
        · exact hls l hl
      · rw [terminated_cons, hc]
        rfl
    · have hcons : ∀ l : List α, sep ∉ l → sep ∉ c :: l := by
        intro l hl hmem
        rcases List.mem_cons.mp hmem with heq | hmem
        · exact hc heq.symm
        · exact hl hmem
      cases ls with
      | nil => exact ⟨[], c :: rest, hls, hcons rest hrest, rfl⟩
      | cons l ls =>
        refine ⟨(c :: l) :: ls, rest, ?_, hrest, ?_⟩
        · intro l' hl'
          rcases List.mem_cons.mp hl' with rfl | hl'
          · exact hcons l (hls l List.mem_cons_self)
          · exact hls l' (List.mem_cons_of_mem l hl')
        · rw [terminated_cons, terminated_cons]
          rfl

/-- **A stream that ends in a separator is made of its lines.** -/
theorem exists_terminated {s : List α} (h : s.getLast? = some sep) :
    ∃ ls, (∀ l ∈ ls, sep ∉ l) ∧ ls ≠ [] ∧ s = terminated sep ls := by
  obtain ⟨ls, rest, hls, hrest, rfl⟩ := exists_lines sep s
  rcases List.eq_nil_or_concat rest with rfl | ⟨init, c, rfl⟩
  · refine ⟨ls, hls, ?_, List.append_nil _⟩
    rintro rfl
    cases h
  · rw [List.concat_eq_append, ← List.append_assoc, List.getLast?_concat] at h
    cases h
    rw [List.concat_eq_append] at hrest
    exact absurd List.mem_concat_self hrest

omit [DecidableEq α] in
theorem filter_terminated {p : α → Bool} (hp : p sep = true) (ls : List (List α)) :
    (terminated sep ls).filter p = terminated sep (ls.map (List.filter p)) := by
  induction ls with
  | nil => rfl
  | cons l ls ih =>
    rw [List.map_cons, terminated_cons, terminated_cons, List.filter_append,
      List.filter_cons_of_pos hp, ih]

/-- Symbols other than the separator may be taken out of a stream before
it is cut into lines. -/
theorem lines_filter {p : α → Bool} (hp : p sep = true) (s : List α) :
    lines sep (s.filter p) = (lines sep s).map (List.filter p) := by
  obtain ⟨ls, rest, hls, hrest, rfl⟩ := exists_lines sep s
  have hfiltered : ∀ l ∈ ls.map (List.filter p), sep ∉ l := by
    intro l hl
    obtain ⟨l', hl', rfl⟩ := List.mem_map.mp hl
    exact fun hmem => hls l' hl' (List.mem_filter.mp hmem).1
  rw [List.filter_append, filter_terminated hp, lines_stream hls hrest,
    lines_stream hfiltered fun hmem => hrest (List.mem_filter.mp hmem).1]

end Lib
