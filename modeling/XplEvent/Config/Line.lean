import XplEvent.Base
import XplEvent.Lib.Memory

/-!
# Lines of a configuration file

A configuration file is read with `fgets` into a buffer of 1024 characters,
so a line that is longer is read in pieces. Spaces and tabs are then taken
out of the line in place.

`removespctab` reads ahead of where it writes, until it has written as many
characters as the line had: it reads on behind the end of the line, as far
as there were blanks in it. `removespctab_eq` says when it stays in the
buffer: if the line is not longer than the characters in the buffer that
are no blanks, whatever they are left from. The line loses its blanks
(`stringOf_removed`).
-/

namespace XplEvent.Config

open Lib (Memory)

def MAX_CONFIG_LINE : Nat := 1024

/-- A space or a tab. -/
def isBlank (c : CChar) : Bool := c = 32 ∨ c = 9

/-- A text without its blanks. -/
def unblanked (text : CString) : CString := text.filter fun c => !isBlank c

/-! ## Reading a line -/

/-- The line buffer. -/
abbrev LineBuf := Memory CChar MAX_CONFIG_LINE

/-- `talloc_zero_array`. -/
def LineBuf.zero : LineBuf := ⟨List.replicate MAX_CONFIG_LINE 0, List.length_replicate⟩

/-- What successive calls of `fgets` read: a line with its newline, but not
more than fits the buffer with a NUL. `read` is what the call has read so
far. A call that reads up to an error returns `NULL`, whatever it has read. -/
def fgetsLines (ferror : Bool) : (read : CString) → CString → List CString
  | [], [] => []
  | read, [] => if ferror then [] else [read]
  | read, c :: text =>
    if c = LF ∨ read.length + 2 = MAX_CONFIG_LINE then
      (read ++ [c]) :: fgetsLines ferror [] text
    else fgetsLines ferror (read ++ [c]) text

/-- `fgets` stores what it has read, with a NUL. -/
def LineBuf.store (line : LineBuf) (read : CString) : Except Fault LineBuf :=
  match line.write 0 (read ++ [0]) with
  | none => .error .outOfBounds
  | some line => .ok line

/-- `line[i]`. -/
def LineBuf.get (line : LineBuf) (i : Nat) : Except Fault CChar :=
  match line.cells[i]? with
  | none => .error .outOfBounds
  | some c => .ok c

/-- `line[i] = c`. -/
def LineBuf.put (line : LineBuf) (i : Nat) (c : CChar) : Except Fault LineBuf :=
  match line.write i [c] with
  | none => .error .outOfBounds
  | some line => .ok line

/-- The loop of `removespctab`, with `left` characters from `di` to the end
of the buffer. -/
def removeLoop (line : LineBuf) (si : Nat) : (left : Nat) → Except Fault LineBuf
  | 0 => do
    if (← line.get si) = 0 then return line
    -- `di` is at the end of the buffer
    .error .outOfBounds
  | left + 1 => do
    if (← line.get si) = 0 then return line
    let c ← line.get (MAX_CONFIG_LINE - (left + 1))
    if isBlank c then removeLoop line si left
    else removeLoop (← line.put si c) (si + 1) left

/-- `removespctab`. -/
def removespctab (line : LineBuf) : Except Fault LineBuf := removeLoop line 0 MAX_CONFIG_LINE

/-- A line is stored, and loses its blanks. -/
def LineBuf.load (line : LineBuf) (read : CString) : Except Fault LineBuf := do
  removespctab (← line.store read)

/-! ## What is left in the buffer -/

/-- The string in the buffer. -/
def LineBuf.string (line : LineBuf) : CString := cutNul line.cells

/-- The string is not longer than there are characters in the buffer that
are no blanks. -/
def LineBuf.Fits (line : LineBuf) : Prop := line.string.length ≤ (unblanked line.cells).length

instance (line : LineBuf) : Decidable line.Fits := Nat.decLe _ _

/-- The characters of the buffer behind `removespctab`. -/
def LineBuf.removed (line : LineBuf) : CString :=
  (unblanked line.cells).take line.string.length ++ line.cells.drop line.string.length

theorem LineBuf.get_eq {line : LineBuf} {front rest : CString} {c : CChar}
    (h : line.cells = front ++ c :: rest) : line.get front.length = .ok c := by
  unfold LineBuf.get
  rw [h, List.getElem?_append_right (Nat.le_refl _), Nat.sub_self]
  rfl

theorem LineBuf.put_eq {line : LineBuf} {front rest : CString} {c : CChar}
    (h : line.cells = front ++ c :: rest) (d : CChar) : ∃ line',
      line.put front.length d = .ok line' ∧ line'.cells = front ++ d :: rest := by
  have hcell : line.cells = front ++ ([c] ++ rest) := h
  obtain ⟨line', hwrite, hcells⟩ := Memory.write_over hcell (show [d].length = [c].length from rfl)
  refine ⟨line', ?_, hcells⟩
  rw [LineBuf.put, hwrite]

theorem cutNul_cons {c : CChar} (h : c ≠ 0) (raw : CString) : cutNul (c :: raw) = c :: cutNul raw :=
  List.takeWhile_cons_of_pos (decide_eq_true h)

theorem unblanked_cons {c : CChar} (h : isBlank c = false) (text : CString) :
    unblanked (c :: text) = c :: unblanked text :=
  List.filter_cons_of_pos (by rw [h]; rfl)

theorem unblanked_blank {c : CChar} (h : isBlank c = true) (text : CString) :
    unblanked (c :: text) = unblanked text :=
  List.filter_cons_of_neg (by rw [h]; decide)

/-- The loop ends at the NUL. -/
theorem removeLoop_nul {line : LineBuf} {front rest : CString} (h : line.cells = front ++ 0 :: rest)
    (left : Nat) : removeLoop line front.length left = .ok line := by
  cases left with
  | zero =>
    rw [removeLoop, LineBuf.get_eq h, ok_bind, if_pos rfl]
    rfl
  | succ left =>
    rw [removeLoop, LineBuf.get_eq h, ok_bind, if_pos rfl]
    rfl

/-- There is nothing left to write then. -/
theorem removeLoop_done {line : LineBuf} {front tail : CString}
    (h : line.cells = front ++ 0 :: tail) (left : Nat) (found : CString) :
    (removeLoop line front.length left).map Memory.cells =
      if (cutNul (0 :: tail)).length ≤ found.length then
        .ok (front ++ found.take (cutNul (0 :: tail)).length ++
          (0 :: tail).drop (cutNul (0 :: tail)).length)
      else .error .outOfBounds := by
  rw [removeLoop_nul h]
  show Except.ok line.cells = _
  rw [h]
  simp [cutNul]

/-- A turn of the loop. -/
theorem removeLoop_turn {line : LineBuf} {front rest : CString} {m : CChar}
    (h : line.cells = front ++ m :: rest) (hm : m ≠ 0) (left : Nat) :
    removeLoop line front.length (left + 1) = (do
      let c ← line.get (MAX_CONFIG_LINE - (left + 1))
      if isBlank c then removeLoop line front.length left
      else removeLoop (← line.put front.length c) (front.length + 1) left) := by
  rw [removeLoop, LineBuf.get_eq h, ok_bind, if_neg hm]

/-- The loop, with `front` written, `mid` read and `rest` still to be read:
a character is written for each one up to the NUL, if there are enough. -/
theorem removeLoop_eq {line : LineBuf} {front mid rest : CString}
    (h : line.cells = front ++ (mid ++ rest)) (hnul : 0 ∈ mid ++ rest) :
    (removeLoop line front.length rest.length).map Memory.cells =
      if (cutNul (mid ++ rest)).length ≤ (unblanked rest).length then
        .ok (front ++ (unblanked rest).take (cutNul (mid ++ rest)).length ++
          (mid ++ rest).drop (cutNul (mid ++ rest)).length)
      else .error .outOfBounds := by
  induction rest generalizing line front mid with
  | nil =>
    obtain ⟨m, tail, hhead⟩ := List.exists_cons_of_ne_nil (List.ne_nil_of_mem hnul)
    rw [hhead] at h ⊢
    by_cases hm : m = 0
    · subst hm
      exact removeLoop_done h 0 _
    · rw [cutNul_cons hm, if_neg (by simp [unblanked]), List.length_nil, removeLoop,
        LineBuf.get_eq h, ok_bind, if_neg hm]
      rfl
  | cons c rest ih =>
    have hread : line.get (MAX_CONFIG_LINE - (rest.length + 1)) = .ok c := by
      have hsize : (front ++ (mid ++ c :: rest)).length = MAX_CONFIG_LINE := h ▸ line.size_eq
      have hindex : MAX_CONFIG_LINE - (rest.length + 1) = (front ++ mid).length := by
        simp only [List.length_append, List.length_cons] at hsize ⊢
        omega
      rw [hindex]
      exact LineBuf.get_eq (by rw [h, List.append_assoc])
    obtain ⟨m, mid', hhead⟩ : ∃ m mid', mid ++ c :: rest = m :: (mid' ++ rest) := by
      cases mid with
      | nil => exact ⟨c, [], rfl⟩
      | cons m mid => exact ⟨m, mid ++ [c], by simp⟩
    by_cases hm : m = 0
    · rw [hhead] at h ⊢
      subst hm
      exact removeLoop_done h _ _
    rw [List.length_cons, removeLoop_turn (hhead ▸ h) hm, hread, ok_bind]
    cases hblank : isBlank c with
    | true =>
      -- the character is passed over
      have hpassed : line.cells = front ++ ((mid ++ [c]) ++ rest) := by
        rw [h, List.append_assoc]
        rfl
      have hrest := ih hpassed (by rw [List.append_assoc]; exact hnul)
      rw [List.append_assoc, List.singleton_append] at hrest
      rw [if_pos rfl, unblanked_blank hblank]
      exact hrest
    | false =>
      -- the character is written behind `front`
      rw [hhead] at h hnul ⊢
      obtain ⟨line', hput, hcells⟩ := LineBuf.put_eq h c
      have hnul' : 0 ∈ mid' ++ rest := (List.mem_cons.mp hnul).resolve_left (Ne.symm hm)
      have hwritten : line'.cells = front ++ [c] ++ (mid' ++ rest) := by
        rw [hcells, List.append_assoc]
        rfl
      have hrest := ih hwritten hnul'
      rw [List.length_append, List.length_singleton] at hrest
      rw [if_neg Bool.false_ne_true, hput, ok_bind, hrest, cutNul_cons hm, unblanked_cons hblank]
      simp only [List.length_cons, Nat.add_le_add_iff_right, List.take_succ_cons,
        List.drop_succ_cons, List.append_assoc, List.cons_append, List.nil_append]

/-- **`removespctab` stays in the buffer exactly if** the string is not
longer than the characters of the buffer that are no blanks. -/
theorem removespctab_eq {line : LineBuf} (hnul : 0 ∈ line.cells) :
    (removespctab line).map Memory.cells =
      if line.Fits then .ok line.removed else .error .outOfBounds := by
  have hloop := removeLoop_eq (show line.cells = [] ++ ([] ++ line.cells) from rfl) hnul
  rw [line.size_eq] at hloop
  exact hloop

theorem removespctab_ok {line : LineBuf} (hnul : 0 ∈ line.cells) (h : line.Fits) :
    ∃ line', removespctab line = .ok line' ∧ line'.cells = line.removed := by
  have heq := removespctab_eq hnul
  rw [if_pos h] at heq
  exact map_ok heq

theorem removespctab_error {line : LineBuf} (hnul : 0 ∈ line.cells) (h : ¬ line.Fits) :
    removespctab line = .error .outOfBounds := by
  have heq := removespctab_eq hnul
  rw [if_neg h] at heq
  cases hline : removespctab line with
  | ok line' =>
    rw [hline] at heq
    cases heq
  | error f =>
    rw [hline] at heq
    cases heq
    rfl

/-- A string, and what is behind its NUL. -/
theorem cutNul_append (raw : CString) (h : 0 ∈ raw) :
    ∃ rest, raw = cutNul raw ++ 0 :: rest ∧ 0 ∉ cutNul raw := by
  induction raw with
  | nil => cases h
  | cons c raw ih =>
    by_cases hc : c = 0
    · subst hc
      exact ⟨raw, rfl, List.not_mem_nil⟩
    · obtain ⟨rest, hraw, hnot⟩ := ih ((List.mem_cons.mp h).resolve_left (Ne.symm hc))
      refine ⟨rest, ?_, ?_⟩
      · rw [cutNul_cons hc, List.cons_append, ← hraw]
      · rw [cutNul_cons hc, List.mem_cons, not_or]
        exact ⟨Ne.symm hc, hnot⟩

/-- What is behind a NUL does not matter. -/
theorem cutNul_append_nul (text rest : CString) : cutNul (text ++ 0 :: rest) = cutNul text := by
  induction text with
  | nil => rfl
  | cons c text ih =>
    by_cases hc : c = 0
    · subst hc
      rfl
    · rw [List.cons_append, cutNul_cons hc, cutNul_cons hc, ih]

theorem unblanked_append (s t : CString) : unblanked (s ++ t) = unblanked s ++ unblanked t :=
  List.filter_append ..

theorem mem_unblanked {c : CChar} {text : CString} (h : c ∈ unblanked text) : isBlank c = false := by
  have hkept := (List.mem_filter.mp h).2
  rwa [Bool.not_eq_true'] at hkept

theorem unblanked_eq_self {text : CString} (h : ∀ c ∈ text, isBlank c = false) :
    unblanked text = text :=
  List.filter_eq_self.mpr fun c hc => by rw [h c hc]; rfl

theorem unblanked_length_le (text : CString) : (unblanked text).length ≤ text.length :=
  List.length_filter_le ..

/-- The string behind `removespctab` is the line without its blanks. -/
theorem stringOf_removed {line line' : LineBuf} (hnul : 0 ∈ line.cells)
    (h : line'.cells = line.removed) : line'.string = unblanked line.string := by
  obtain ⟨rest, hcells, hnot⟩ := cutNul_append line.cells hnul
  have hnot' : 0 ∉ unblanked line.string := fun hmem => hnot (List.mem_filter.mp hmem).1
  have hstring : line.cells = line.string ++ 0 :: rest := hcells
  have hunblanked : unblanked line.cells = unblanked line.string ++ 0 :: unblanked rest := by
    rw [hstring, unblanked_append, unblanked_cons rfl]
  have hdrop := congrArg (List.drop line.string.length) hstring
  rw [List.drop_left] at hdrop
  rw [LineBuf.string, h, LineBuf.removed, hunblanked, hdrop]
  rcases Nat.eq_or_lt_of_le (unblanked_length_le line.string) with heq | hlt
  · rw [← heq, List.take_left]
    rw [cutNul_append_nul, cutNul_eq_self hnot']
  · obtain ⟨k, hk⟩ := Nat.exists_eq_add_of_lt hlt
    rw [hk, Nat.add_assoc, List.take_length_add_append, List.take_succ_cons, List.append_assoc,
      List.cons_append]
    rw [cutNul_append_nul, cutNul_eq_self hnot']

/-! ## A line that is read -/

/-- Blanks are only left among the first `m` characters of the buffer. -/
def LineBuf.BlanksBelow (line : LineBuf) (m : Nat) : Prop :=
  ∀ c ∈ line.cells.drop m, isBlank c = false

theorem LineBuf.zero_blanksBelow : LineBuf.zero.BlanksBelow 0 := by
  intro c hc
  rw [List.eq_of_mem_replicate hc]
  rfl

/-- What is read is in the buffer, with a NUL. -/
theorem LineBuf.store_eq (line : LineBuf) {read : CString} (h : read.length < MAX_CONFIG_LINE) :
    ∃ line', line.store read = .ok line' ∧
      line'.cells = read ++ 0 :: line.cells.drop (read.length + 1) := by
  have hcells : line.cells = [] ++ (line.cells.take (read.length + 1) ++
      line.cells.drop (read.length + 1)) := (List.take_append_drop _ _).symm
  have hlength : (read ++ [0]).length = (line.cells.take (read.length + 1)).length := by
    rw [List.length_append, List.length_singleton, List.length_take, line.size_eq]
    omega
  obtain ⟨line', hwrite, hcells'⟩ := Memory.write_over hcells hlength
  refine ⟨line', ?_, ?_⟩
  · rw [LineBuf.store]
    rw [List.length_nil] at hwrite
    rw [hwrite]
  · rw [hcells', List.nil_append, List.append_assoc]
    rfl

/-- No blanks come back. -/
theorem LineBuf.BlanksBelow.removed {line line' : LineBuf} {m : Nat} (h : line.BlanksBelow m)
    (hfits : line.Fits) (hremoved : line'.cells = line.removed) : line'.BlanksBelow m := by
  intro c hc
  rw [hremoved, LineBuf.removed, List.drop_append] at hc
  rcases List.mem_append.mp hc with hc | hc
  · exact mem_unblanked (List.mem_of_mem_take (List.mem_of_mem_drop hc))
  · rw [List.length_take, Nat.min_eq_left hfits, List.drop_drop] at hc
    apply h c
    have hle : m ≤ line.string.length + (m - line.string.length) := by omega
    obtain ⟨k, hk⟩ := Nat.exists_eq_add_of_le hle
    rw [hk, ← List.drop_drop] at hc
    exact List.mem_of_mem_drop hc

/-- A line with few blanks, or without any, is read whatever is left in the
buffer. -/
theorem LineBuf.load_below {line : LineBuf} {m : Nat} (h : line.BlanksBelow m) {read : CString}
    (hlen : read.length < MAX_CONFIG_LINE) (hblanks : ∀ c ∈ read.drop m, isBlank c = false)
    (hroom : (cutNul read).length + m ≤ MAX_CONFIG_LINE ∨ ∀ c ∈ read, isBlank c = false) :
    ∃ line', line.load read = .ok line' ∧ line'.string = unblanked (cutNul read) ∧
      line'.BlanksBelow m := by
  obtain ⟨stored, hstore, hcells⟩ := line.store_eq hlen
  have hnul : 0 ∈ stored.cells := hcells ▸ List.mem_append_right read List.mem_cons_self
  have hstring : stored.string = cutNul read := by
    rw [LineBuf.string, hcells, cutNul_append_nul]
  have hbelow : stored.BlanksBelow m := by
    intro c hc
    rw [hcells, List.drop_append] at hc
    rcases List.mem_append.mp hc with hc | hc
    · exact hblanks c hc
    · cases hgap : m - read.length with
      | zero =>
        rw [hgap, List.drop_zero] at hc
        rcases List.mem_cons.mp hc with rfl | hc
        · rfl
        · apply h c
          have hle : m ≤ read.length + 1 := by omega
          obtain ⟨k, hk⟩ := Nat.exists_eq_add_of_le hle
          rw [hk, ← List.drop_drop] at hc
          exact List.mem_of_mem_drop hc
      | succ gap =>
        rw [hgap, List.drop_succ_cons, List.drop_drop] at hc
        apply h c
        have hm : m = read.length + 1 + gap := by omega
        rw [hm]
        exact hc
  have hfits : stored.Fits := by
    unfold LineBuf.Fits
    rw [hstring]
    rcases hroom with hroom | hroom
    · have hsplit := congrArg unblanked (List.take_append_drop m stored.cells)
      rw [unblanked_append, unblanked_eq_self hbelow] at hsplit
      rw [← hsplit, List.length_append, List.length_drop, stored.size_eq]
      omega
    · rw [hcells, unblanked_append, unblanked_eq_self hroom, List.length_append]
      exact Nat.le_trans (List.takeWhile_sublist _).length_le (Nat.le_add_right _ _)
  obtain ⟨line', hremove, hremoved⟩ := removespctab_ok hnul hfits
  refine ⟨line', ?_, ?_, hbelow.removed hfits hremoved⟩
  · rw [LineBuf.load, hstore]
    exact hremove
  · rw [stringOf_removed hnul hremoved, hstring]

/-- A line and its blanks have room in the buffer. -/
def FitsLine (read : CString) : Prop :=
  read.length + read.countP isBlank ≤ MAX_CONFIG_LINE

instance (read : CString) : Decidable (FitsLine read) := Nat.decLe _ _

theorem unblanked_length (text : CString) :
    (unblanked text).length + text.countP isBlank = text.length := by
  induction text with
  | nil => rfl
  | cons c text ih =>
    cases hblank : isBlank c with
    | true =>
      rw [unblanked_blank hblank, List.countP_cons_of_pos hblank, List.length_cons]
      omega
    | false =>
      rw [unblanked_cons hblank, List.countP_cons_of_neg (by rw [hblank]; decide),
        List.length_cons, List.length_cons]
      omega

/-- A line in a buffer without other blanks fits if there is room for it
and its blanks. -/
theorem LineBuf.fits_iff {stored : LineBuf} {read rest : CString} (hnul : 0 ∉ read)
    (hcells : stored.cells = read ++ 0 :: rest) (hrest : ∀ c ∈ rest, isBlank c = false) :
    stored.Fits ↔ FitsLine read := by
  have hstring : stored.string = read := by
    rw [LineBuf.string, hcells, cutNul_append_nul, cutNul_eq_self hnul]
  have hsize : (read ++ 0 :: rest).length = MAX_CONFIG_LINE := hcells ▸ stored.size_eq
  have hlength := unblanked_length read
  rw [List.length_append, List.length_cons] at hsize
  unfold LineBuf.Fits FitsLine
  rw [hstring, hcells, unblanked_append, unblanked_cons rfl, unblanked_eq_self hrest,
    List.length_append, List.length_cons]
  omega

/-- In a buffer without blanks a line is read if there is room for it and
its blanks. -/
theorem LineBuf.load_clean {line : LineBuf} (h : line.BlanksBelow 0) {read : CString}
    (hlen : read.length < MAX_CONFIG_LINE) (hnul : 0 ∉ read) (hfits : FitsLine read) :
    ∃ line', line.load read = .ok line' ∧ line'.string = unblanked read ∧
      line'.BlanksBelow 0 := by
  obtain ⟨stored, hstore, hcells⟩ := line.store_eq hlen
  have hrest : ∀ c ∈ line.cells.drop (read.length + 1), isBlank c = false :=
    fun c hc => h c (List.mem_of_mem_drop hc)
  have hstring : stored.string = read := by
    rw [LineBuf.string, hcells, cutNul_append_nul, cutNul_eq_self hnul]
  have hnul' : 0 ∈ stored.cells := hcells ▸ List.mem_append_right read List.mem_cons_self
  obtain ⟨line', hremove, hremoved⟩ :=
    removespctab_ok hnul' ((LineBuf.fits_iff hnul hcells hrest).mpr hfits)
  refine ⟨line', ?_, ?_, ?_⟩
  · rw [LineBuf.load, hstore]
    exact hremove
  · rw [stringOf_removed hnul' hremoved, hstring]
  · intro c hc
    rw [hremoved, LineBuf.removed, hstring, List.drop_zero] at hc
    rcases List.mem_append.mp hc with hc | hc
    · exact mem_unblanked (List.mem_of_mem_take hc)
    · rw [hcells, List.drop_left] at hc
      rcases List.mem_cons.mp hc with rfl | hc
      · rfl
      · exact hrest c hc

/-- If there is no room, the buffer is read behind its end. -/
theorem LineBuf.load_error {line : LineBuf} (h : line.BlanksBelow 0) {read : CString}
    (hlen : read.length < MAX_CONFIG_LINE) (hnul : 0 ∉ read) (hfits : ¬ FitsLine read) :
    line.load read = .error .outOfBounds := by
  obtain ⟨stored, hstore, hcells⟩ := line.store_eq hlen
  have hrest : ∀ c ∈ line.cells.drop (read.length + 1), isBlank c = false :=
    fun c hc => h c (List.mem_of_mem_drop hc)
  have hnul' : 0 ∈ stored.cells := hcells ▸ List.mem_append_right read List.mem_cons_self
  rw [LineBuf.load, hstore]
  exact removespctab_error hnul' fun hfit => hfits ((LineBuf.fits_iff hnul hcells hrest).mp hfit)

/-! ## Blanks taken out in place -/

/-- `removespctab` stays in the buffer, and leaves the text without its
blanks. -/
def TakesOutBlanks (line : LineBuf) (text : CString) : Prop :=
  ∃ line', removespctab line = .ok line' ∧ line'.string = unblanked text

/-- As many characters as there are blanks in the text are read behind it. -/
theorem LineBuf.fits_iff_blanks {line : LineBuf} {text rest : CString}
    (hcells : line.cells = text ++ 0 :: rest) (hnul : 0 ∉ text) :
    line.Fits ↔ text.countP isBlank ≤ (unblanked rest).length + 1 := by
  have hstring : line.string = text := by
    rw [LineBuf.string, hcells, cutNul_append_nul, cutNul_eq_self hnul]
  have hlength := unblanked_length text
  unfold LineBuf.Fits
  rw [hstring, hcells, unblanked_append, unblanked_cons rfl, List.length_append, List.length_cons]
  omega

/-- **Blanks are taken out in place exactly if** the text has at most one
more of them than there are other characters in the buffer behind its NUL. -/
theorem takesOutBlanks_iff {line : LineBuf} {text rest : CString}
    (hcells : line.cells = text ++ 0 :: rest) (hnul : 0 ∉ text) :
    TakesOutBlanks line text ↔ text.countP isBlank ≤ (unblanked rest).length + 1 := by
  have hmem : 0 ∈ line.cells := hcells ▸ List.mem_append_right text List.mem_cons_self
  have hstring : line.string = text := by
    rw [LineBuf.string, hcells, cutNul_append_nul, cutNul_eq_self hnul]
  rw [← LineBuf.fits_iff_blanks hcells hnul]
  constructor
  · rintro ⟨line', hremove, -⟩
    by_cases hfits : line.Fits
    · exact hfits
    · rw [removespctab_error hmem hfits] at hremove
      cases hremove
  · intro hfits
    obtain ⟨line', hremove, hremoved⟩ := removespctab_ok hmem hfits
    exact ⟨line', hremove, by rw [stringOf_removed hmem hremoved, hstring]⟩

/-- A new buffer that holds a text. -/
def LineBuf.fresh (text : CString) (h : text.length < MAX_CONFIG_LINE) : LineBuf :=
  ⟨text ++ 0 :: List.replicate (MAX_CONFIG_LINE - (text.length + 1)) 0, by
    rw [List.length_append, List.length_cons, List.length_replicate]
    omega⟩

theorem takesOutBlanks_iff_indented :
    TakesOutBlanks (.fresh [9, 97, 32, 61, 32, 98, LF] (by decide)) [9, 97, 32, 61, 32, 98, LF] ↔
      [9, 97, 32, 61, 32, 98, LF].countP isBlank ≤
        (unblanked (List.replicate 1016 0)).length + 1 :=
  takesOutBlanks_iff rfl (by decide)

/-- 513 spaces have no room in a new buffer. -/
theorem takesOutBlanks_spaces :
    ¬ ∀ {line : LineBuf} {text rest : CString}, line.cells = text ++ 0 :: rest → 0 ∉ text →
      TakesOutBlanks line text := by
  intro hall
  have hlength : (List.replicate 513 (32 : CChar)).length < MAX_CONFIG_LINE := by
    rw [List.length_replicate]
    decide
  have hnul : (0 : CChar) ∉ List.replicate 513 32 := fun hmem =>
    absurd (List.eq_of_mem_replicate hmem) (by decide)
  have hblanks : (List.replicate 513 (32 : CChar)).countP isBlank = 513 := by
    rw [List.countP_replicate]
    rfl
  have hcells : (LineBuf.fresh _ hlength).cells =
      List.replicate 513 32 ++ 0 :: List.replicate (MAX_CONFIG_LINE - (_ + 1)) 0 := rfl
  obtain ⟨line', hremove, -⟩ := hall hcells hnul
  have hover : ¬ (LineBuf.fresh _ hlength).Fits := by
    rw [LineBuf.fits_iff_blanks hcells hnul, hblanks, List.length_replicate]
    have hbehind := unblanked_length_le (List.replicate (MAX_CONFIG_LINE - (513 + 1)) 0)
    rw [List.length_replicate] at hbehind
    have hsize : MAX_CONFIG_LINE = 1024 := rfl
    omega
  rw [removespctab_error (List.mem_append_right _ List.mem_cons_self) hover] at hremove
  cases hremove

/-! ## The lines of a text -/

variable {ferror : Bool}

/-- One more character of a line. -/
theorem fgetsLines_char {read : CString} {c : CChar} (hc : c ≠ LF)
    (hroom : read.length + 2 < MAX_CONFIG_LINE) (text : CString) :
    fgetsLines ferror read (c :: text) = fgetsLines ferror (read ++ [c]) text := by
  rw [fgetsLines, if_neg]
  rintro (hLF | hfull)
  · exact hc hLF
  · omega

/-- A line that fits the buffer is read at once. -/
theorem fgetsLines_line {read line : CString} (hline : LF ∉ line)
    (hlen : read.length + line.length + 1 < MAX_CONFIG_LINE) (text : CString) :
    fgetsLines ferror read (line ++ LF :: text) = (read ++ line ++ [LF]) :: fgetsLines ferror [] text := by
  induction line generalizing read with
  | nil => rw [List.nil_append, fgetsLines, if_pos (.inl rfl), List.append_nil]
  | cons c line ih =>
    rw [List.mem_cons, not_or] at hline
    rw [List.length_cons] at hlen
    have hroom : (read ++ [c]).length + line.length + 1 < MAX_CONFIG_LINE := by
      rw [List.length_append, List.length_singleton]
      omega
    rw [List.cons_append, fgetsLines_char (Ne.symm hline.1) (by omega), ih hline.2 hroom,
      List.append_assoc read, List.singleton_append]

/-- A line is cut off where the buffer is full. -/
theorem fgetsLines_full {read line : CString} (hline : LF ∉ line) (hne : line ≠ [])
    (hlen : read.length + line.length + 1 = MAX_CONFIG_LINE) (text : CString) :
    fgetsLines ferror read (line ++ text) = (read ++ line) :: fgetsLines ferror [] text := by
  induction line generalizing read with
  | nil => exact (hne rfl).elim
  | cons c line ih =>
    rw [List.mem_cons, not_or] at hline
    rw [List.length_cons] at hlen
    cases line with
    | nil =>
      rw [List.length_nil] at hlen
      rw [List.singleton_append, fgetsLines, if_pos (.inr (by omega))]
    | cons d line =>
      rw [List.length_cons] at hlen ih
      have hroom : (read ++ [c]).length + (line.length + 1) + 1 = MAX_CONFIG_LINE := by
        rw [List.length_append, List.length_singleton]
        omega
      rw [List.cons_append, fgetsLines_char (Ne.symm hline.1) (by omega),
        ih hline.2 (List.cons_ne_nil d line) hroom, List.append_assoc, List.singleton_append]

/-- A last line without a newline is read at once as well, unless an error
ends it. -/
theorem fgetsLines_last {read line : CString} (hline : LF ∉ line) (hne : read ++ line ≠ [])
    (hlen : read.length + line.length + 1 < MAX_CONFIG_LINE) :
    fgetsLines ferror read line = if ferror then [] else [read ++ line] := by
  induction line generalizing read with
  | nil =>
    rw [List.append_nil] at hne ⊢
    cases read with
    | nil => exact (hne rfl).elim
    | cons c read => rfl
  | cons c line ih =>
    rw [List.mem_cons, not_or] at hline
    rw [List.length_cons] at hlen
    have hroom : (read ++ [c]).length + line.length + 1 < MAX_CONFIG_LINE := by
      rw [List.length_append, List.length_singleton]
      omega
    rw [fgetsLines_char (Ne.symm hline.1) (by omega), ih hline.2 (by simp) hroom,
      List.append_assoc, List.singleton_append]

/-- Reading starts afresh behind a newline. -/
theorem fgetsLines_append (read front rest : CString) :
    fgetsLines ferror read (front ++ LF :: rest) =
      fgetsLines ferror read (front ++ [LF]) ++ fgetsLines ferror [] rest := by
  induction front generalizing read with
  | nil => rw [List.nil_append, List.nil_append, fgetsLines, fgetsLines, if_pos (.inl rfl),
      if_pos (.inl rfl), fgetsLines, List.singleton_append]
  | cons c front ih =>
    rw [List.cons_append, List.cons_append, fgetsLines, fgetsLines]
    split
    · rw [ih, List.cons_append]
    · exact ih (read ++ [c])

/-- Nothing is added, and nothing is lost but a line that an error ends. -/
theorem fgetsLines_flatten (read text : CString) :
    (fgetsLines ferror read text).flatten <+: read ++ text := by
  induction text generalizing read with
  | nil =>
    cases read with
    | nil => exact List.prefix_rfl
    | cons c read =>
      cases ferror with
      | false => simp [fgetsLines]
      | true => exact List.nil_prefix
  | cons c text ih =>
    rw [fgetsLines]
    split
    · have hrest := (List.prefix_append_right_inj (read ++ [c])).mpr (ih [])
      rwa [List.nil_append, List.append_assoc read [c] text] at hrest
    · have hrest := ih (read ++ [c])
      rwa [List.append_assoc] at hrest

/-- What is read at once leaves room for the NUL. -/
theorem fgetsLines_length {read text : CString} (h : read.length + 1 < MAX_CONFIG_LINE) :
    ∀ line ∈ fgetsLines ferror read text, line.length < MAX_CONFIG_LINE := by
  induction text generalizing read with
  | nil =>
    intro line hline
    cases read with
    | nil => cases hline
    | cons c read =>
      cases ferror with
      | false =>
        rw [List.mem_singleton.mp hline]
        omega
      | true => cases hline
  | cons c text ih =>
    intro line hline
    have hlength : (read ++ [c]).length = read.length + 1 := by
      rw [List.length_append, List.length_singleton]
    rw [fgetsLines] at hline
    split at hline
    · rcases List.mem_cons.mp hline with rfl | hline
      · rw [hlength]
        exact h
      · exact ih (by decide) line hline
    · rename_i hmore
      rw [not_or] at hmore
      refine ih ?_ line hline
      rw [hlength]
      omega

end XplEvent.Config
