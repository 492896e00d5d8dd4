import XplEvent.Config.Scan

/-!
# What a line can say

The scanner read as a grammar: a line is nothing, a section or a pair, and
then comes its end, which is a newline or a comment. `content_iff` has both
directions, so a line that is accepted is well formed, and a line that is
printed is read back.

At the end of a file there may be no newline. A line is then only ended by a
comment, and one that has nothing left to say is bad (`content_newline`).
-/

namespace XplEvent.Config

/-! ## The texts of the tokens -/

/-- A name of a section. -/
structure IsName (name : CString) : Prop where
  short : name.length + 1 < MAX_SECTION
  closed : ∀ c ∈ name, c ∉ cstr "]\n"

structure IsKey (key : CString) : Prop where
  short : key.length < MAX_KEY
  head : key.head?.any isalnum = true
  closed : ∀ c ∈ key, c ∉ cstr "=\n"

structure IsValue (value : CString) : Prop where
  short : value.length < MAX_VALUE
  closed : ∀ c ∈ value, c ∉ cstr "#;\n"

/-- The end of a line: its newline, or a comment. -/
def IsEnd (rest : CString) : Prop := ∃ c ∈ rest.head?, c ∈ cstr "#;\n"

/-- What can be said. -/
def Content.WellFormed : Content → Prop
  | .nothing => True
  | .sect name => IsName name
  | .pair key value => IsKey key ∧ IsValue value
  | .bad => False

/-- How it is said. -/
def Content.text : Content → CString
  | .nothing => []
  | .sect name => 91 :: (name ++ [93])
  | .pair key value => key ++ 61 :: value
  | .bad => []

theorem isEnd_cons {c : CChar} {rest : CString} : IsEnd (c :: rest) ↔ c ∈ cstr "#;\n" := by
  constructor
  · rintro ⟨d, hd, hmem⟩
    cases hd
    exact hmem
  · exact fun hmem => ⟨c, rfl, hmem⟩

theorem IsEnd.append {rest : CString} (h : IsEnd rest) (more : CString) : IsEnd (rest ++ more) := by
  cases rest with
  | nil =>
    obtain ⟨c, hc, -⟩ := h
    cases hc
  | cons c rest => exact isEnd_cons.mpr (isEnd_cons.mp h)

/-! ## Copying -/

/-- What is copied is in front of the rest, and has no stop character. -/
theorem copyLoop_inv {stopchrs : CString} {n : Nat} {src dest rest : CString} {stop : CChar}
    (h : copyLoop stopchrs n src = (dest, stop, rest)) :
    src = dest ++ rest ∧ dest.length ≤ n ∧ (∀ c ∈ dest, c ∉ stopchrs) ∧
      (stop ≠ 0 → rest.head? = some stop ∧ dest.length < n) := by
  induction n generalizing src dest with
  | zero =>
    cases h
    exact ⟨rfl, Nat.le_refl _, fun c hc => (List.not_mem_nil hc).elim, fun hne => (hne rfl).elim⟩
  | succ n ih =>
    cases src with
    | nil =>
      cases h
      exact ⟨rfl, Nat.zero_le _, fun c hc => (List.not_mem_nil hc).elim, fun hne => (hne rfl).elim⟩
    | cons c src =>
      rw [copyLoop] at h
      split at h
      · cases h
        exact ⟨rfl, Nat.zero_le _, fun d hd => (List.not_mem_nil hd).elim,
          fun _ => ⟨rfl, Nat.succ_pos n⟩⟩
      · rename_i hc
        rcases hcopy : copyLoop stopchrs n src with ⟨dest', stop', rest'⟩
        rw [hcopy] at h
        cases h
        obtain ⟨hsrc, hlen, hclosed, hstop⟩ := ih hcopy
        refine ⟨congrArg (c :: ·) hsrc, Nat.succ_le_succ hlen, ?_, ?_⟩
        · intro d hd
          rcases List.mem_cons.mp hd with rfl | hd
          · exact hc
          · exact hclosed d hd
        · intro hne
          exact ⟨(hstop hne).1, Nat.succ_lt_succ (hstop hne).2⟩

/-- A text without stop characters is copied up to the first one. -/
theorem copyLoop_text {stopchrs : CString} {n : Nat} {text : CString} {c : CChar}
    (hclosed : ∀ d ∈ text, d ∉ stopchrs) (hlen : text.length ≤ n) (hc : c ∈ stopchrs)
    (rest : CString) : copyLoop stopchrs n (text ++ c :: rest) =
      (text, if text.length < n then c else 0, c :: rest) := by
  induction text generalizing n with
  | nil =>
    cases n with
    | zero => rfl
    | succ n =>
      rw [List.nil_append, copyLoop, if_pos hc]
      rfl
  | cons d text ih =>
    cases n with
    | zero => cases hlen
    | succ n =>
      have hrest := ih (fun e he => hclosed e (List.mem_cons_of_mem d he))
        (Nat.le_of_succ_le_succ hlen)
      rw [List.cons_append, copyLoop, if_neg (hclosed d List.mem_cons_self), hrest]
      simp only [List.length_cons, Nat.add_lt_add_iff_right]

/-! ## Scanning -/

theorem linescan_section {name : CString} (h : IsName name) (rest : CString) :
    linescan (91 :: (name ++ 93 :: rest)) = (.TOK_SECTION name, rest) := by
  have hcopy : copyuntil (name ++ 93 :: rest) MAX_SECTION (cstr "]\n") = (name, 93, 93 :: rest) := by
    have hshort : name.length < MAX_SECTION - 1 := Nat.lt_sub_of_add_lt h.short
    rw [copyuntil, copyLoop_text h.closed (Nat.le_of_lt hshort) (by decide), if_pos hshort]
  rw [linescan, if_neg (by decide), if_neg (by decide), if_neg (by decide), if_pos rfl, hcopy]
  rfl

theorem linescan_value {value : CString} (h : IsValue value) {rest : CString} (hrest : IsEnd rest) :
    linescan (61 :: (value ++ rest)) = (.TOK_VALUE value, rest) := by
  cases rest with
  | nil =>
    obtain ⟨c, hc, -⟩ := hrest
    cases hc
  | cons c rest =>
    have hshort : value.length ≤ MAX_VALUE - 1 := Nat.le_sub_of_add_le h.short
    rw [linescan, if_neg (by decide), if_neg (by decide), if_pos rfl, copyuntil,
      copyLoop_text h.closed hshort (isEnd_cons.mp hrest)]

theorem isalnum_ne {c d : CChar} (h : isalnum c = true) (hd : isalnum d = false) : c ≠ d := by
  rintro rfl
  rw [h] at hd
  cases hd

theorem linescan_key {key : CString} (h : IsKey key) (rest : CString) :
    linescan (key ++ 61 :: rest) = (.TOK_KEY key, 61 :: rest) := by
  have hcopy : copyuntil (key ++ 61 :: rest) MAX_KEY (cstr "=\n") =
      (key, if key.length < MAX_KEY - 1 then 61 else 0, 61 :: rest) :=
    copyLoop_text h.closed (Nat.le_sub_of_add_le h.short) (by decide) rest
  cases key with
  | nil => cases h.head
  | cons c key =>
    have hc : isalnum c = true := h.head
    rw [List.cons_append] at hcopy ⊢
    rw [linescan, if_neg (isalnum_ne hc (by decide)),
      if_neg (not_or.mpr ⟨isalnum_ne hc (by decide), isalnum_ne hc (by decide)⟩),
      if_neg (isalnum_ne hc (by decide)), if_neg (isalnum_ne hc (by decide)), if_pos hc, hcopy]
    rfl

/-- The text of a token, and where the next one starts. -/
def Token.Found (p rest : CString) : Token → Prop
  | .TOK_ERR => True
  | .TOK_NL => IsEnd p
  | .TOK_COMMENT => IsEnd p
  | .TOK_SECTION name => IsName name ∧ p = 91 :: (name ++ 93 :: rest)
  | .TOK_KEY key => IsKey key ∧ p = key ++ rest ∧ rest.head? = some 61
  | .TOK_VALUE value => IsValue value ∧ p = 61 :: (value ++ rest)

/-- Every token has been found in the line. -/
theorem linescan_found (p : CString) : (linescan p).1.Found p (linescan p).2 := by
  cases p with
  | nil => trivial
  | cons c p =>
    rw [linescan]
    by_cases hLF : c = LF
    · rw [if_pos hLF]
      exact isEnd_cons.mpr (hLF ▸ by decide)
    by_cases hcomment : c = 59 ∨ c = 35
    · rw [if_neg hLF, if_pos hcomment]
      refine isEnd_cons.mpr ?_
      rcases hcomment with rfl | rfl
      · decide
      · decide
    by_cases hequals : c = 61
    · rw [if_neg hLF, if_neg hcomment, if_pos hequals]
      rcases hcopy : copyuntil p MAX_VALUE (cstr "#;\n") with ⟨value, stop, rest⟩
      obtain ⟨hsrc, hlen, hclosed, -⟩ := copyLoop_inv hcopy
      refine ⟨⟨Nat.lt_of_le_of_lt hlen (by decide), hclosed⟩, ?_⟩
      rw [hequals, hsrc]
    by_cases hopen : c = 91
    · rw [if_neg hLF, if_neg hcomment, if_neg hequals, if_pos hopen]
      rcases hcopy : copyuntil p MAX_SECTION (cstr "]\n") with ⟨name, stop, rest⟩
      obtain ⟨hsrc, -, hclosed, hstop⟩ := copyLoop_inv hcopy
      by_cases h93 : stop = 93
      · obtain ⟨hhead, hlen⟩ := hstop (by rw [h93]; decide)
        simp only [if_pos h93]
        refine ⟨⟨Nat.add_lt_of_lt_sub hlen, hclosed⟩, ?_⟩
        rw [h93] at hhead
        obtain ⟨tail, rfl⟩ := List.head?_eq_some_iff.mp hhead
        rw [hopen, hsrc]
        rfl
      · simp only [if_neg h93]
        trivial
    by_cases halnum : isalnum c = true
    · rw [if_neg hLF, if_neg hcomment, if_neg hequals, if_neg hopen, if_pos halnum]
      rcases hcopy : copyuntil (c :: p) MAX_KEY (cstr "=\n") with ⟨key, stop, rest⟩
      obtain ⟨hsrc, hlen, hclosed, -⟩ := copyLoop_inv hcopy
      by_cases h61 : rest.head? = some 61
      · simp only [if_pos h61]
        refine ⟨⟨Nat.lt_of_le_of_lt hlen (by decide), ?_, hclosed⟩, hsrc, h61⟩
        cases key with
        | nil =>
          rw [List.nil_append] at hsrc
          rw [← hsrc] at h61
          exact (hequals (Option.some.inj h61)).elim
        | cons d key =>
          cases hsrc
          exact halnum
      · simp only [if_neg h61]
        trivial
    · rw [if_neg hLF, if_neg hcomment, if_neg hequals, if_neg hopen, if_neg halnum]
      trivial

/-! ## Lines -/

theorem IsEnd.scan {p : CString} (h : IsEnd p) :
    linescan p = (.TOK_NL, p) ∨ linescan p = (.TOK_COMMENT, p) := by
  obtain ⟨c, hc, hmem⟩ := h
  obtain ⟨rest, rfl⟩ := List.head?_eq_some_iff.mp hc
  rcases List.mem_cons.mp hmem with rfl | hmem
  · exact .inr rfl
  rcases List.mem_cons.mp hmem with rfl | hmem
  · exact .inr rfl
  rw [List.mem_singleton.mp hmem]
  exact .inl rfl

theorem endsLine_iff {p : CString} : endsLine p = true ↔ IsEnd p := by
  constructor
  · intro h
    have hfound := linescan_found p
    unfold endsLine at h
    cases htoken : (linescan p).1 with
    | TOK_NL =>
      rw [htoken] at hfound
      exact hfound
    | TOK_COMMENT =>
      rw [htoken] at hfound
      exact hfound
    | TOK_ERR | TOK_SECTION _ | TOK_KEY _ | TOK_VALUE _ =>
      rw [htoken] at h
      cases h
  · intro h
    unfold endsLine
    rcases h.scan with hscan | hscan
    · rw [hscan]
    · rw [hscan]

/-- What is said well is read. -/
theorem content_text {c : Content} (h : c.WellFormed) {rest : CString} (hrest : IsEnd rest) :
    content (c.text ++ rest) = c := by
  have hends : endsLine rest = true := endsLine_iff.mpr hrest
  cases c with
  | nothing =>
    show content rest = .nothing
    unfold content
    rcases hrest.scan with hscan | hscan
    · rw [hscan]
    · rw [hscan]
  | sect name =>
    have hscan := linescan_section h rest
    show content (91 :: (name ++ [93] ++ rest)) = _
    rw [List.append_assoc, List.singleton_append]
    unfold content
    rw [hscan]
    exact if_pos hends
  | pair key value =>
    have hkey := linescan_key h.1 (value ++ rest)
    have hvalue := linescan_value h.2 hrest
    show content (key ++ 61 :: value ++ rest) = _
    rw [List.append_assoc, List.cons_append]
    unfold content
    rw [hkey]
    simp only [hvalue]
    exact if_pos hends
  | bad => exact h.elim

/-- What is read is said well. -/
theorem content_found {p : CString} {c : Content} (h : content p = c) (hc : c ≠ .bad) :
    c.WellFormed ∧ ∃ rest, p = c.text ++ rest ∧ IsEnd rest := by
  have hfound := linescan_found p
  unfold content at h
  rcases hscan : linescan p with ⟨_ | _ | name | key | value | _, rest⟩
  · rw [hscan] at h
    exact (hc h.symm).elim
  · rw [hscan] at h hfound
    subst h
    exact ⟨trivial, p, rfl, hfound⟩
  · rw [hscan] at h hfound
    obtain ⟨hname, rfl⟩ := hfound
    simp only at h
    split at h
    · rename_i hends
      subst h
      refine ⟨hname, rest, ?_, endsLine_iff.mp hends⟩
      show _ = 91 :: (name ++ [93] ++ rest)
      rw [List.append_assoc]
      rfl
    · exact (hc h.symm).elim
  · rw [hscan] at h hfound
    obtain ⟨hkey, rfl, hhead⟩ := hfound
    have hfound' := linescan_found rest
    simp only at h
    rcases hscan' : linescan rest with ⟨_ | _ | _ | _ | value | _, rest'⟩
    all_goals rw [hscan'] at h
    all_goals try exact (hc h.symm).elim
    rw [hscan'] at hfound'
    obtain ⟨hvalue, rfl⟩ := hfound'
    simp only at h
    split at h
    · rename_i hends
      subst h
      refine ⟨⟨hkey, hvalue⟩, rest', ?_, endsLine_iff.mp hends⟩
      show _ = key ++ 61 :: value ++ rest'
      rw [List.append_assoc]
      rfl
    · exact (hc h.symm).elim
  · rw [hscan] at h
    exact (hc h.symm).elim
  · rw [hscan] at h hfound
    subst h
    exact ⟨trivial, p, rfl, hfound⟩

/-! ## A line without its end -/

/-- A line that only misses its end. -/
def EndsOpen (p : CString) : Prop := ∃ c : Content, c.WellFormed ∧ p = c.text

/-- What is read does not change with what is put behind the line. -/
theorem content_append {p : CString} (h : content p ≠ .bad) (more : CString) :
    content (p ++ more) = content p := by
  obtain ⟨hform, rest, hp, hrest⟩ := content_found rfl h
  have hread := content_text hform (hrest.append more)
  rwa [← List.append_assoc, ← hp] at hread

/-- A line that misses its end is bad. -/
theorem EndsOpen.bad {p : CString} (h : EndsOpen p) : content p = .bad := by
  obtain ⟨c, hform, rfl⟩ := h
  by_cases hbad : content c.text = .bad
  · exact hbad
  · obtain ⟨-, rest, hp, hrest⟩ := content_found rfl hbad
    have hread : content (c.text ++ [LF]) = c := content_text hform (isEnd_cons.mpr (by decide))
    rw [content_append hbad] at hread
    -- the line has nothing behind what it says
    rw [hread] at hp
    rw [List.self_eq_append_right.mp hp] at hrest
    obtain ⟨d, hd, -⟩ := hrest
    cases hd

/-- **A newline behind the line matters exactly if the line only misses its
end.** -/
theorem content_newline {p : CString} :
    content (p ++ [LF]) = content p ↔ ¬ EndsOpen p := by
  constructor
  · intro heq hopen
    rw [hopen.bad] at heq
    obtain ⟨c, hform, rfl⟩ := hopen
    rw [content_text hform (isEnd_cons.mpr (by decide))] at heq
    subst heq
    exact hform
  · intro hopen
    by_cases hbad : content (p ++ [LF]) = .bad
    · by_cases hp : content p = .bad
      · rw [hbad, hp]
      · exact content_append hp [LF]
    · obtain ⟨hform, rest, hp, hrest⟩ := content_found rfl hbad
      obtain ⟨rest', hrest', hp'⟩ : ∃ rest', rest = rest' ++ [LF] ∧
          p = (content (p ++ [LF])).text ++ rest' := by
        rcases List.eq_nil_or_concat rest with rfl | ⟨rest', d, rfl⟩
        · obtain ⟨d, hd, -⟩ := hrest
          cases hd
        · rw [List.concat_eq_append, ← List.append_assoc] at hp
          obtain ⟨hfront, hlast⟩ := List.append_inj' hp rfl
          rw [List.concat_eq_append, ← List.singleton_inj.mp hlast]
          exact ⟨rest', rfl, hfront⟩
      cases rest' with
      | nil =>
        rw [List.append_nil] at hp'
        exact (hopen ⟨_, hform, hp'⟩).elim
      | cons d rest' =>
        -- the line is ended by a comment
        rw [hrest'] at hrest
        have hread := content_text hform (isEnd_cons.mpr (isEnd_cons.mp hrest) :
          IsEnd (d :: rest'))
        rw [← hp'] at hread
        exact hread.symm

end XplEvent.Config
