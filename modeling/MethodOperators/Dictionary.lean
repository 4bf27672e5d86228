import MethodOperators.Common

/-!
# Dictionaries

A dictionary holds at most one value for each key. Its entries are kept in a list in the order in
which their keys were first inserted; that order is no part of its meaning, which lies in the
look-ups `find?` alone.
-/

namespace MethodOperators

namespace Dictionary

/-- Puts `a` in the place of the value of `k`, or at the end if `k` has none. -/
def insertEntry {κ α : Type} [DecidableEq κ] (k : κ) (a : α) : List (κ × α) → List (κ × α)
  | [] => [(k, a)]
  | e :: rest => if e.1 = k then (k, a) :: rest else e :: insertEntry k a rest

theorem map_fst_insertEntry {κ α : Type} [DecidableEq κ] (k : κ) (a : α) (es : List (κ × α)) :
    (insertEntry k a es).map Prod.fst =
      if k ∈ es.map Prod.fst then es.map Prod.fst else es.map Prod.fst ++ [k] := by
  induction es with
  | nil => rfl
  | cons e rest ih =>
    by_cases h : e.1 = k
    · simp [insertEntry, h]
    · have h' : ¬ k = e.1 := fun he => h he.symm
      simp only [insertEntry, if_neg h, List.map_cons, ih, List.mem_cons, h', false_or]
      split <;> simp

theorem lookup_insertEntry {κ α : Type} [DecidableEq κ] (k l : κ) (a : α) (es : List (κ × α)) :
    (insertEntry k a es).lookup l = if l = k then some a else es.lookup l := by
  induction es with
  | nil => rw [insertEntry, lookup_cons_eq_ite]
  | cons e rest ih =>
    by_cases he : e.1 = k
    · rw [insertEntry, if_pos he, lookup_cons_eq_ite, lookup_cons_eq_ite, he]
      split <;> rfl
    · rw [insertEntry, if_neg he, lookup_cons_eq_ite, lookup_cons_eq_ite, ih]
      by_cases hl : l = e.1
      · rw [if_pos hl, if_neg fun h => he (hl ▸ h), if_pos hl]
      · rw [if_neg hl, if_neg hl]

theorem insertEntry_of_lookup {κ α : Type} [DecidableEq κ] {k : κ} {a : α} {es : List (κ × α)}
    (h : es.lookup k = some a) : insertEntry k a es = es := by
  induction es with
  | nil => cases h
  | cons e es ih =>
    obtain ⟨l, b⟩ := e
    rw [lookup_cons_eq_ite] at h
    by_cases hk : k = l
    · subst hk
      rw [if_pos rfl] at h
      obtain rfl := Option.some.inj h
      rw [insertEntry, if_pos rfl]
    · rw [if_neg hk] at h
      rw [insertEntry, if_neg fun hl => hk hl.symm, ih h]

theorem insertEntry_of_lookup_eq_none {κ α : Type} [DecidableEq κ] {k : κ} {a : α}
    {es : List (κ × α)} (h : es.lookup k = none) : insertEntry k a es = es ++ [(k, a)] := by
  induction es with
  | nil => rfl
  | cons e es ih =>
    rw [lookup_cons_eq_ite] at h
    split at h
    · cases h
    · rename_i hk
      rw [insertEntry, if_neg fun he => hk he.symm, ih h, List.cons_append]

theorem lookup_filter_ne {κ α : Type} [DecidableEq κ] (k l : κ) (es : List (κ × α)) :
    (es.filter fun e => decide (e.1 ≠ k)).lookup l = if l = k then none else es.lookup l := by
  induction es with
  | nil => rw [List.filter_nil, List.lookup_nil, ite_self]
  | cons e rest ih =>
    by_cases he : e.1 = k
    · rw [List.filter_cons_of_neg (by simp [he]), ih, lookup_cons_eq_ite, he]
      split <;> rfl
    · rw [List.filter_cons_of_pos (by simp [he]), lookup_cons_eq_ite, lookup_cons_eq_ite, ih]
      by_cases hl : l = e.1
      · rw [if_pos hl, if_neg fun h => he (hl ▸ h), if_pos hl]
      · rw [if_neg hl, if_neg hl]

/-- Puts an entry before the first one whose key is not smaller. -/
def insertInOrder {α : Type} (e : String × α) : List (String × α) → List (String × α)
  | [] => [e]
  | f :: rest => if e.1 ≤ f.1 then e :: f :: rest else f :: insertInOrder e rest

end Dictionary

/-- A finite map from keys to values. -/
structure Dictionary (κ α : Type) where
  /-- Keys with their values. -/
  entries : List (κ × α)
  /-- No key has two values. -/
  nodup : (entries.map Prod.fst).Nodup

namespace Dictionary

variable {κ α : Type}

/-- The dictionary without entries. -/
def empty : Dictionary κ α := ⟨[], List.nodup_nil⟩

instance : Inhabited (Dictionary κ α) := ⟨empty⟩

/-- Number of keys that have a value. -/
def size (d : Dictionary κ α) : Nat := d.entries.length

/-- Whether no key has a value. -/
def isEmpty (d : Dictionary κ α) : Bool := d.entries.isEmpty

variable [DecidableEq κ]

/-- The value of `k`, if it has one. -/
def find? (d : Dictionary κ α) (k : κ) : Option α := d.entries.lookup k

/-- Whether `k` has a value. -/
def contains (d : Dictionary κ α) (k : κ) : Bool := (d.find? k).isSome

/-- Makes `a` the value of `k`. -/
def insert (d : Dictionary κ α) (k : κ) (a : α) : Dictionary κ α where
  entries := insertEntry k a d.entries
  nodup := by
    rw [map_fst_insertEntry]
    split
    · exact d.nodup
    · rename_i h
      exact List.nodup_append.2 ⟨d.nodup, by simp, by
        intro x hx y hy
        rw [List.mem_singleton.1 hy]
        exact fun hxk => h (hxk ▸ hx)⟩

/-- Makes `a` the value of `k` unless `k` has one. -/
def insertIfNew (d : Dictionary κ α) (k : κ) (a : α) : Dictionary κ α :=
  if d.contains k then d else d.insert k a

/-- Takes the value of `k` away. -/
def erase (d : Dictionary κ α) (k : κ) : Dictionary κ α where
  entries := d.entries.filter (fun e => decide (e.1 ≠ k))
  nodup := d.nodup.sublist (List.filter_sublist.map Prod.fst)

/-- The dictionary of a list of entries; of two entries for one key the later one counts. -/
def ofList (es : List (κ × α)) : Dictionary κ α := es.foldl (fun d e => d.insert e.1 e.2) empty

@[simp]
theorem find?_empty (k : κ) : (empty : Dictionary κ α).find? k = none := rfl

theorem find?_insert (d : Dictionary κ α) (k l : κ) (a : α) :
    (d.insert k a).find? l = if l = k then some a else d.find? l :=
  lookup_insertEntry k l a d.entries

/-- Making a value the value of its key again changes nothing, not even the order of entries. -/
theorem insert_of_find? {d : Dictionary κ α} {k : κ} {a : α} (h : d.find? k = some a) :
    d.insert k a = d := by
  obtain ⟨es, hes⟩ := d
  simp only [insert, insertEntry_of_lookup h]

/-- The value of a new key is put behind the other entries. -/
theorem entries_insertIfNew {d : Dictionary κ α} {k : κ} {a : α} (h : d.contains k = false) :
    (d.insertIfNew k a).entries = d.entries ++ [(k, a)] := by
  have hnone : d.find? k = none := by simpa [contains] using h
  rw [insertIfNew, if_neg (by simp [h])]
  exact insertEntry_of_lookup_eq_none hnone

theorem find?_insertIfNew (d : Dictionary κ α) (k l : κ) (a : α) :
    (d.insertIfNew k a).find? l = if l = k then some ((d.find? k).getD a) else d.find? l := by
  cases hk : d.find? k with
  | none => rw [insertIfNew, if_neg (by simp [contains, hk]), find?_insert, Option.getD_none]
  | some b =>
    rw [insertIfNew, if_pos (by simp [contains, hk]), Option.getD_some]
    split
    · subst l
      exact hk
    · rfl

theorem find?_erase (d : Dictionary κ α) (k l : κ) :
    (d.erase k).find? l = if l = k then none else d.find? l :=
  lookup_filter_ne k l d.entries

/-- The entries of a dictionary are the look-ups that have a value. -/
theorem mem_entries_iff {d : Dictionary κ α} {k : κ} {a : α} :
    (k, a) ∈ d.entries ↔ d.find? k = some a := by
  obtain ⟨es, hes⟩ := d
  simp only [find?]
  induction es with
  | nil => simp
  | cons e rest ih =>
    rw [List.map_cons, List.nodup_cons] at hes
    rw [List.mem_cons, lookup_cons_eq_ite, Prod.ext_iff]
    by_cases hk : k = e.1
    · have hrest : (k, a) ∉ rest := fun h => hes.1 (List.mem_map.2 ⟨_, h, hk⟩)
      rw [if_pos hk, or_iff_left hrest, Option.some_inj, eq_comm (a := e.2)]
      exact and_iff_right hk
    · rw [if_neg hk, ← ih hes.2]
      exact or_iff_right fun h => hk h.1

/-- Later entries are found first, and what the entries were put into is found last. -/
theorem find?_foldl_insert (es : List (κ × α)) (d : Dictionary κ α) (k : κ) :
    (es.foldl (fun d e => d.insert e.1 e.2) d).find? k =
      (es.reverse.lookup k).or (d.find? k) := by
  induction es generalizing d with
  | nil => rfl
  | cons e es ih =>
    rw [List.foldl_cons, ih, find?_insert, List.reverse_cons, List.lookup_append,
      lookup_cons_eq_ite]
    split <;> simp

/-- Entries that are put into a dictionary replace what it has for their keys, and nothing else. -/
theorem find?_foldl_insert_eq_some_iff {es : List (κ × α)} (hnodup : (es.map Prod.fst).Nodup)
    {d : Dictionary κ α} {k : κ} {a : α} :
    (es.foldl (fun d e => d.insert e.1 e.2) d).find? k = some a ↔
      (k, a) ∈ es ∨ k ∉ es.map Prod.fst ∧ d.find? k = some a := by
  have hreverse : (es.reverse.map Prod.fst).Nodup := by
    rw [List.map_reverse]
    exact List.pairwise_reverse.2 (hnodup.imp Ne.symm)
  have hmem (b : α) : (k, b) ∈ es ↔ es.reverse.lookup k = some b := by
    rw [← List.mem_reverse]
    exact mem_entries_iff (d := ⟨es.reverse, hreverse⟩)
  rw [find?_foldl_insert, hmem]
  cases hlookup : es.reverse.lookup k with
  | some b =>
    have hkey : k ∈ es.map Prod.fst := List.mem_map.2 ⟨(k, b), (hmem b).2 hlookup, rfl⟩
    simp [hkey]
  | none =>
    have hkey : k ∉ es.map Prod.fst := by
      intro hk
      obtain ⟨⟨_, b⟩, hb, rfl⟩ := List.mem_map.1 hk
      rw [(hmem b).1 hb] at hlookup
      cases hlookup
    simp [hkey]

theorem foldl_insert_of_find? {d : Dictionary κ α} {es : List (κ × α)}
    (h : ∀ e ∈ es, d.find? e.1 = some e.2) : es.foldl (fun d e => d.insert e.1 e.2) d = d := by
  induction es with
  | nil => rfl
  | cons e es ih =>
    rw [List.foldl_cons, insert_of_find? (h e List.mem_cons_self)]
    exact ih fun e he => h e (List.mem_cons_of_mem _ he)

theorem find?_ofList (es : List (κ × α)) (k : κ) : (ofList es).find? k = es.reverse.lookup k := by
  simpa [ofList] using find?_foldl_insert es empty k

/-- Whether two dictionaries have the same number of keys and every entry of the first is in the
second, which makes all their look-ups equal. -/
def agrees [DecidableEq α] (d e : Dictionary κ α) : Bool :=
  d.size == e.size && d.entries.all (fun entry => decide (e.find? entry.1 = some entry.2))

/-- The entries in increasing order of their keys, by code point. -/
def inOrder (d : Dictionary String α) : List (String × α) := d.entries.foldr insertInOrder []

end Dictionary

end MethodOperators
