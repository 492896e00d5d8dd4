import XplEvent.Lib.Table
import XplEvent.Script.Symbols

/-!
# What the symbol table holds

The symbol table is a table of hashes by name, and a hash a table of
values by key. The entries carry the string hashes of their names and keys
and are compared by these first: a stored string hash is always the one of
the string beside it (`Hashed`), so that the comparison of the strings
decides. A key that is added is then the one row put in place in the one
table.
-/

namespace XplEvent.Script

open Lib

variable (UtilHash : CString → UInt32)

/-- The key list of a hash. One that is not in the table has no keys. -/
def keyList (steHead : List ParseHashSTE) (hashName : CString) : List ParseHashKV :=
  match findHash UtilHash steHead hashName with
  | none => []
  | some h => h.kvs

/-- A new key list entry. -/
def keyEntry (key value : CString) : ParseHashKV := ⟨UtilHash key, key, value⟩

/-- The hash stored beside a string is the one of the string. -/
structure Hashed (steHead : List ParseHashSTE) : Prop where
  names : ∀ se ∈ steHead, se.hash = UtilHash se.name
  keys : ∀ se ∈ steHead, ∀ ke ∈ se.kvs, ke.hash = UtilHash ke.key

variable {UtilHash}

/-- An entry answers to one name only. -/
theorem isNamed_unique {se : ParseHashSTE} {hashName hashName' : CString}
    (h : se.isNamed UtilHash hashName = true) (h' : se.isNamed UtilHash hashName' = true) :
    hashName' = hashName :=
  (of_decide_eq_true h').2.trans (of_decide_eq_true h).2.symm

theorem findHash_cons_of_pos {se : ParseHashSTE} {hashName : CString}
    (h : se.isNamed UtilHash hashName = true) (rest : List ParseHashSTE) :
    findHash UtilHash (se :: rest) hashName = some se := by
  rw [findHash, List.find?_cons_of_pos h]

theorem findHash_cons_of_neg {se : ParseHashSTE} {hashName : CString}
    (h : ¬ se.isNamed UtilHash hashName = true) (rest : List ParseHashSTE) :
    findHash UtilHash (se :: rest) hashName = findHash UtilHash rest hashName := by
  rw [findHash, List.find?_cons_of_neg h, findHash]

theorem keyList_cons_of_pos {se : ParseHashSTE} {hashName : CString}
    (h : se.isNamed UtilHash hashName = true) (rest : List ParseHashSTE) :
    keyList UtilHash (se :: rest) hashName = se.kvs := by
  rw [keyList, findHash_cons_of_pos h]

theorem keyList_cons_of_neg {se : ParseHashSTE} {hashName : CString}
    (h : ¬ se.isNamed UtilHash hashName = true) (rest : List ParseHashSTE) :
    keyList UtilHash (se :: rest) hashName = keyList UtilHash rest hashName := by
  rw [keyList, keyList, findHash_cons_of_neg h]

theorem hashed_nil : Hashed UtilHash [] :=
  ⟨fun _ h => absurd h List.not_mem_nil, fun _ h => absurd h List.not_mem_nil⟩

theorem Hashed.of_cons {se : ParseHashSTE} {rest : List ParseHashSTE}
    (h : Hashed UtilHash (se :: rest)) : Hashed UtilHash rest :=
  ⟨fun s hs => h.names s (List.mem_cons_of_mem se hs),
    fun s hs => h.keys s (List.mem_cons_of_mem se hs)⟩

/-- The name decides which entry is found. -/
theorem isNamed_iff {se : ParseHashSTE} (h : se.hash = UtilHash se.name) (hashName : CString) :
    se.isNamed UtilHash hashName = true ↔ se.name = hashName := by
  rw [ParseHashSTE.isNamed, decide_eq_true_iff, h]
  constructor
  · exact fun hn => hn.2.symm
  · rintro rfl
    exact ⟨rfl, rfl⟩

theorem findHash_eq {steHead : List ParseHashSTE} (h : Hashed UtilHash steHead)
    (hashName : CString) :
    findHash UtilHash steHead hashName = lookup ParseHashSTE.name steHead hashName := by
  exact find?_eq_lookup fun se hse => isNamed_iff (h.names se hse) hashName

/-- The keys of a key list carry their own hashes. -/
theorem Hashed.keyList {steHead : List ParseHashSTE} (h : Hashed UtilHash steHead)
    (hashName : CString) : ∀ ke ∈ keyList UtilHash steHead hashName, ke.hash = UtilHash ke.key := by
  unfold Script.keyList
  rw [findHash_eq h]
  cases hfound : lookup ParseHashSTE.name steHead hashName with
  | none => exact fun _ hke => absurd hke List.not_mem_nil
  | some se => exact h.keys se (lookup_mem hfound)

/-- **A value is what its key finds in the key list of its hash.** -/
theorem hashGetValue_eq {steHead : List ParseHashSTE} (h : Hashed UtilHash steHead)
    (hashName key : CString) : hashGetValue UtilHash steHead hashName key =
      (lookup ParseHashKV.key (keyList UtilHash steHead hashName) key).map ParseHashKV.value := by
  unfold hashGetValue keyList
  cases hse : findHash UtilHash steHead hashName with
  | none => rfl
  | some se =>
    have hkeys := h.keys se (List.mem_of_find?_eq_some hse)
    have hfound : se.kvs.find? (ParseHashKV.isKeyed UtilHash key) =
        lookup ParseHashKV.key se.kvs key := by
      refine find?_eq_lookup fun ke hke => ?_
      rw [ParseHashKV.isKeyed, decide_eq_true_iff, hkeys ke hke]
      constructor
      · exact fun hk => hk.2
      · rintro rfl
        exact ⟨rfl, rfl⟩
    exact congrArg (Option.map ParseHashKV.value) hfound

/-! ## Adding a key -/

theorem putKey_eq {kvs : List ParseHashKV} (h : ∀ ke ∈ kvs, ke.hash = UtilHash ke.key)
    (key value : CString) : putKey (keyEntry UtilHash key value) kvs =
      put ParseHashKV.key (keyEntry UtilHash key value) kvs := by
  induction kvs with
  | nil => rfl
  | cons ke kvs ih =>
    have hke := h ke List.mem_cons_self
    have hif : (keyEntry UtilHash key value).hash = ke.hash ∧
        ke.key = (keyEntry UtilHash key value).key ↔
        ke.key = (keyEntry UtilHash key value).key := by
      refine and_iff_right_of_imp fun heq => ?_
      rw [hke, heq]
      rfl
    rw [putKey, put, ih fun k hk => h k (List.mem_cons_of_mem ke hk)]
    simp only [hif]

/-- **A key is added by putting its row into the table of its hash**, and
that into the table of hashes. -/
theorem hashAddKeyValue_eq {steHead : List ParseHashSTE} (h : Hashed UtilHash steHead)
    (hashName key value : CString) : hashAddKeyValue UtilHash steHead hashName key value =
      put ParseHashSTE.name ⟨UtilHash hashName, hashName,
        put ParseHashKV.key (keyEntry UtilHash key value)
          (keyList UtilHash steHead hashName)⟩ steHead := by
  induction steHead with
  | nil => rfl
  | cons se rest ih =>
    have hse := isNamed_iff (h.names se List.mem_cons_self) hashName
    rw [hashAddKeyValue, put]
    by_cases hname : se.name = hashName
    · rw [if_pos (hse.mpr hname), if_pos hname, keyList_cons_of_pos (hse.mpr hname),
        ← putKey_eq (h.keys se List.mem_cons_self), ← hname, ← h.names se List.mem_cons_self]
      rfl
    · rw [if_neg (mt hse.mp hname), if_neg hname, keyList_cons_of_neg (mt hse.mp hname),
        ih h.of_cons]

theorem Hashed.add {steHead : List ParseHashSTE} (h : Hashed UtilHash steHead)
    (hashName key value : CString) :
    Hashed UtilHash (hashAddKeyValue UtilHash steHead hashName key value) := by
  rw [hashAddKeyValue_eq h]
  constructor
  · intro se hse
    rcases mem_put hse with rfl | hse
    · rfl
    · exact h.names se hse
  · intro se hse ke hke
    rcases mem_put hse with rfl | hse
    · rcases mem_put hke with rfl | hke
      · rfl
      · exact h.keyList hashName ke hke
    · exact h.keys se hse ke hke

/-- The hash of a key that was added is in the table. -/
theorem findHash_add {steHead : List ParseHashSTE} (h : Hashed UtilHash steHead)
    (hashName key value : CString) :
    (findHash UtilHash (hashAddKeyValue UtilHash steHead hashName key value) hashName).isSome =
      true := by
  rw [findHash_eq (h.add hashName key value), hashAddKeyValue_eq h, lookup_put, if_pos rfl]
  rfl

/-- Another hash is found as before a key is added. -/
theorem findHash_add_of_ne {steHead : List ParseHashSTE} (h : Hashed UtilHash steHead)
    {hashName hashName' : CString} (hne : hashName' ≠ hashName) (key value : CString) :
    findHash UtilHash (hashAddKeyValue UtilHash steHead hashName key value) hashName' =
      findHash UtilHash steHead hashName' := by
  rw [findHash_eq (h.add hashName key value), hashAddKeyValue_eq h, lookup_put, if_neg hne,
    findHash_eq h]

/-- The key lists behind an addition, whatever string hashes are stored. -/
theorem keyList_hashAddKeyValue (steHead : List ParseHashSTE) (hashName key value : CString)
    (hashName' : CString) :
    keyList UtilHash (hashAddKeyValue UtilHash steHead hashName key value) hashName' =
      if hashName' = hashName then
        putKey (keyEntry UtilHash key value) (keyList UtilHash steHead hashName)
      else keyList UtilHash steHead hashName' := by
  induction steHead with
  | nil =>
    let new : ParseHashSTE := ⟨UtilHash hashName, hashName, [keyEntry UtilHash key value]⟩
    have hadd : hashAddKeyValue UtilHash [] hashName key value = [new] := rfl
    have hnamed : new.isNamed UtilHash hashName = true := decide_eq_true ⟨rfl, rfl⟩
    rw [hadd]
    by_cases hname : hashName' = hashName
    · rw [if_pos hname, hname, keyList_cons_of_pos hnamed]
      rfl
    · rw [if_neg hname, keyList_cons_of_neg (fun h => hname (isNamed_unique hnamed h))]
  | cons se rest ih =>
    let se' : ParseHashSTE := { se with kvs := putKey (keyEntry UtilHash key value) se.kvs }
    have hkept : ∀ name, se'.isNamed UtilHash name = se.isNamed UtilHash name := fun _ => rfl
    by_cases hnamed : se.isNamed UtilHash hashName = true
    · have hadd : hashAddKeyValue UtilHash (se :: rest) hashName key value = se' :: rest :=
        if_pos hnamed
      rw [hadd]
      by_cases hname : hashName' = hashName
      · rw [if_pos hname, hname, keyList_cons_of_pos hnamed,
          keyList_cons_of_pos ((hkept hashName).trans hnamed)]
      · have hnot : ¬ se.isNamed UtilHash hashName' = true :=
          fun h => hname (isNamed_unique hnamed h)
        rw [if_neg hname, keyList_cons_of_neg hnot, keyList_cons_of_neg (hkept hashName' ▸ hnot)]
    · rw [hashAddKeyValue, if_neg hnamed, keyList_cons_of_neg hnamed]
      by_cases hnamed' : se.isNamed UtilHash hashName' = true
      · have hname : ¬ hashName' = hashName := fun h => hnamed (h ▸ hnamed')
        rw [if_neg hname, keyList_cons_of_pos hnamed', keyList_cons_of_pos hnamed']
      · rw [keyList_cons_of_neg hnamed', keyList_cons_of_neg hnamed', ih]

/-- The key lists behind an addition. -/
theorem keyList_add {steHead : List ParseHashSTE} (h : Hashed UtilHash steHead)
    (hashName key value hashName' : CString) :
    keyList UtilHash (hashAddKeyValue UtilHash steHead hashName key value) hashName' =
      if hashName' = hashName then
        put ParseHashKV.key (keyEntry UtilHash key value) (keyList UtilHash steHead hashName)
      else keyList UtilHash steHead hashName' := by
  rw [keyList_hashAddKeyValue, putKey_eq (h.keyList hashName)]

/-! ## Emptying a hash -/

/-- The entry of a hash without its keys. -/
def emptied (se : ParseHashSTE) : ParseHashSTE := { se with kvs := [] }

theorem mem_deleteHashContents {steHead : List ParseHashSTE} {hashName : CString}
    {se : ParseHashSTE} (h : se ∈ deleteHashContents UtilHash steHead hashName) :
    se ∈ steHead ∨ ∃ s ∈ steHead, se = emptied s := by
  induction steHead with
  | nil => exact .inl h
  | cons s rest ih =>
    rw [deleteHashContents] at h
    split at h
    · rcases List.mem_cons.mp h with rfl | h
      · exact .inr ⟨s, List.mem_cons_self, rfl⟩
      · exact .inl (List.mem_cons_of_mem s h)
    · rcases List.mem_cons.mp h with rfl | h
      · exact .inl List.mem_cons_self
      · rcases ih h with h | ⟨s', hs', rfl⟩
        · exact .inl (List.mem_cons_of_mem s h)
        · exact .inr ⟨s', List.mem_cons_of_mem s hs', rfl⟩

theorem Hashed.delete {steHead : List ParseHashSTE} (h : Hashed UtilHash steHead)
    (hashName : CString) : Hashed UtilHash (deleteHashContents UtilHash steHead hashName) := by
  constructor
  · intro se hse
    rcases mem_deleteHashContents hse with hse | ⟨s, hs, rfl⟩
    · exact h.names se hse
    · exact h.names s hs
  · intro se hse ke hke
    rcases mem_deleteHashContents hse with hse | ⟨s, hs, rfl⟩
    · exact h.keys se hse ke hke
    · cases hke

/-- **The entry of a hash that is emptied loses its keys**, and no other
entry does. -/
theorem findHash_delete (steHead : List ParseHashSTE) (hashName hashName' : CString) :
    findHash UtilHash (deleteHashContents UtilHash steHead hashName) hashName' =
      (findHash UtilHash steHead hashName').map fun se =>
        if hashName' = hashName then emptied se else se := by
  induction steHead with
  | nil => rfl
  | cons se rest ih =>
    have hemptied : (emptied se).isNamed UtilHash hashName' = se.isNamed UtilHash hashName' := rfl
    rw [deleteHashContents]
    by_cases hnamed : se.isNamed UtilHash hashName = true
    · rw [if_pos hnamed]
      show findHash UtilHash (emptied se :: rest) hashName' = _
      by_cases hname : hashName' = hashName
      · have hfound : se.isNamed UtilHash hashName' = true := hname ▸ hnamed
        rw [findHash_cons_of_pos (hemptied.trans hfound), findHash_cons_of_pos hfound,
          Option.map_some, if_pos hname]
      · have hnot : ¬ se.isNamed UtilHash hashName' = true :=
          fun hnamed' => hname (isNamed_unique hnamed hnamed')
        rw [findHash_cons_of_neg (hemptied ▸ hnot), findHash_cons_of_neg hnot]
        simp only [if_neg hname, Option.map_id']
    · rw [if_neg hnamed]
      by_cases hnamed' : se.isNamed UtilHash hashName' = true
      · have hname : ¬ hashName' = hashName := fun hname => hnamed (hname ▸ hnamed')
        rw [findHash_cons_of_pos hnamed', findHash_cons_of_pos hnamed', Option.map_some,
          if_neg hname]
      · rw [findHash_cons_of_neg hnamed', findHash_cons_of_neg hnamed', ih]

/-- The key lists behind an emptying. -/
theorem keyList_delete (steHead : List ParseHashSTE) (hashName hashName' : CString) :
    keyList UtilHash (deleteHashContents UtilHash steHead hashName) hashName' =
      if hashName' = hashName then [] else keyList UtilHash steHead hashName' := by
  rw [keyList, findHash_delete, keyList]
  by_cases hname : hashName' = hashName
  · simp only [if_pos hname]
    cases findHash UtilHash steHead hashName' with
    | none => rfl
    | some se => rfl
  · simp only [if_neg hname, Option.map_id']

/-- Only the entry that is found loses its keys. -/
theorem deleteHashContents_append {steHead : List ParseHashSTE} {hashName : CString}
    {se : ParseHashSTE} (h : findHash UtilHash steHead hashName = some se) :
    ∃ front rest, steHead = front ++ se :: rest ∧
      deleteHashContents UtilHash steHead hashName = front ++ emptied se :: rest := by
  induction steHead with
  | nil => cases h
  | cons s table ih =>
    rw [deleteHashContents]
    by_cases hnamed : s.isNamed UtilHash hashName = true
    · rw [findHash_cons_of_pos hnamed] at h
      cases h
      exact ⟨[], table, rfl, if_pos hnamed⟩
    · rw [findHash_cons_of_neg hnamed] at h
      obtain ⟨front, rest, rfl, hdelete⟩ := ih h
      rw [if_neg hnamed, hdelete]
      exact ⟨s :: front, rest, rfl, rfl⟩

/-! ## Adding the pairs of a list -/

/-- The pairs of a list added to a hash in order. -/
def addPairs (UtilHash : CString → UInt32) (steHead : List ParseHashSTE) (hashName : CString)
    (pairs : List (CString × CString)) : List ParseHashSTE :=
  pairs.foldl (fun steHead p => hashAddKeyValue UtilHash steHead hashName p.1 p.2) steHead

theorem Hashed.addPairs {steHead : List ParseHashSTE} (h : Hashed UtilHash steHead)
    (hashName : CString) (pairs : List (CString × CString)) :
    Hashed UtilHash (addPairs UtilHash steHead hashName pairs) := by
  induction pairs generalizing steHead with
  | nil => exact h
  | cons p pairs ih => exact ih (h.add hashName p.1 p.2)

/-- **Pairs that are added to a hash are put into its key list**, and no
other hash changes. -/
theorem keyList_addPairs {steHead : List ParseHashSTE} (h : Hashed UtilHash steHead)
    (hashName : CString) (pairs : List (CString × CString)) (hashName' : CString) :
    keyList UtilHash (addPairs UtilHash steHead hashName pairs) hashName' =
      if hashName' = hashName then
        putAll ParseHashKV.key (keyList UtilHash steHead hashName)
          (pairs.map fun p => keyEntry UtilHash p.1 p.2)
      else keyList UtilHash steHead hashName' := by
  induction pairs generalizing steHead with
  | nil =>
    split
    · rename_i hname
      rw [hname]
      rfl
    · rfl
  | cons p pairs ih =>
    refine (ih (h.add hashName p.1 p.2)).trans ?_
    rw [keyList_add h, keyList_add h, if_pos rfl]
    split
    · rfl
    · rfl

/-- A hash is in the table when pairs have been added to it. -/
theorem findHash_addPairs {steHead : List ParseHashSTE} (h : Hashed UtilHash steHead)
    (hashName : CString) {pairs : List (CString × CString)} (hne : pairs ≠ []) :
    (findHash UtilHash (addPairs UtilHash steHead hashName pairs) hashName).isSome = true := by
  obtain ⟨init, last, rfl⟩ := List.eq_nil_or_concat pairs |>.resolve_left hne
  rw [List.concat_eq_append, addPairs, List.foldl_append]
  exact findHash_add (h.addPairs hashName init) hashName last.1 last.2

/-! ## Assignments to any hash -/

/-- A sequence of assignments: the hash, the key and the value of each. -/
def addAll (UtilHash : CString → UInt32) (steHead : List ParseHashSTE)
    (ops : List (CString × CString × CString)) : List ParseHashSTE :=
  ops.foldl (fun steHead op => hashAddKeyValue UtilHash steHead op.1 op.2.1 op.2.2) steHead

/-- What assignments make of a hash depends on its own key list only. -/
theorem keyList_addAll_congr {steHead steHead' : List ParseHashSTE} {hashName : CString}
    (h : keyList UtilHash steHead hashName = keyList UtilHash steHead' hashName)
    (ops : List (CString × CString × CString)) :
    keyList UtilHash (addAll UtilHash steHead ops) hashName =
      keyList UtilHash (addAll UtilHash steHead' ops) hashName := by
  induction ops generalizing steHead steHead' with
  | nil => exact h
  | cons op ops ih =>
    refine ih ?_
    rw [keyList_hashAddKeyValue, keyList_hashAddKeyValue]
    by_cases hname : hashName = op.1
    · rw [if_pos hname, if_pos hname, ← hname, h]
    · rw [if_neg hname, if_neg hname, h]

theorem mem_putKey {ke new : ParseHashKV} {kvs : List ParseHashKV} (h : ke ∈ putKey new kvs) :
    ke = new ∨ ke ∈ kvs := by
  induction kvs with
  | nil => exact .inl (List.mem_singleton.mp h)
  | cons k kvs ih =>
    rw [putKey] at h
    split at h
    · rcases List.mem_cons.mp h with h | h
      · exact .inl h
      · exact .inr (List.mem_cons_of_mem k h)
    · rcases List.mem_cons.mp h with rfl | h
      · exact .inr List.mem_cons_self
      · exact (ih h).imp id (List.mem_cons_of_mem k)

/-- A key behind a sequence of assignments was there before or has been
assigned. -/
theorem mem_keyList_addAll {steHead : List ParseHashSTE} {hashName : CString} {ke : ParseHashKV}
    {ops : List (CString × CString × CString)}
    (h : ke ∈ keyList UtilHash (addAll UtilHash steHead ops) hashName) :
    ke ∈ keyList UtilHash steHead hashName ∨ (hashName, ke.key, ke.value) ∈ ops := by
  induction ops generalizing steHead with
  | nil => exact .inl h
  | cons op ops ih =>
    rcases ih h with h | h
    · rw [keyList_hashAddKeyValue] at h
      by_cases hname : hashName = op.1
      · rw [if_pos hname] at h
        rcases mem_putKey h with rfl | h
        · exact .inr (hname ▸ List.mem_cons_self)
        · exact .inl (hname ▸ h)
      · rw [if_neg hname] at h
        exact .inl h
    · exact .inr (List.mem_cons_of_mem op h)

end XplEvent.Script
