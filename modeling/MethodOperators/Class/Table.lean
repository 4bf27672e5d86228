import MethodOperators.Class.Basic
import MethodOperators.Dictionary

/-!
# Class tables

The declarations of a program by the classes that they declare. A table can only grow: a class that
has been declared keeps its declaration.
-/

namespace MethodOperators

namespace ClassTable

/-- Every declaration is stored under the identity of the class that it declares. -/
def Keyed (classes : Dictionary ClassId ClassDecl) : Prop :=
  ∀ id d, classes.find? id = some d → d.id = id

theorem Keyed.insert {classes : Dictionary ClassId ClassDecl} (h : Keyed classes) (d : ClassDecl) :
    Keyed (classes.insert d.id d) := by
  intro id e he
  rw [Dictionary.find?_insert] at he
  split at he
  · rename_i hid
    rw [hid, Option.some.inj he]
  · exact h id e he

theorem Keyed.insertIfNew {classes : Dictionary ClassId ClassDecl} (h : Keyed classes)
    (d : ClassDecl) : Keyed (classes.insertIfNew d.id d) := by
  rw [Dictionary.insertIfNew]
  split
  · exact h
  · exact h.insert d

/-- Of the declarations that are added, the first for a class counts, and only if the class had none
before. -/
theorem find?_foldl_insertIfNew (ds : List ClassDecl) (classes : Dictionary ClassId ClassDecl)
    (id : ClassId) :
    (ds.foldl (fun classes d => classes.insertIfNew d.id d) classes).find? id =
      (classes.find? id).or (ds.find? fun d => decide (d.id = id)) := by
  induction ds generalizing classes with
  | nil => simp
  | cons d ds ih =>
    rw [List.foldl_cons, ih, Dictionary.find?_insertIfNew]
    by_cases hid : id = d.id
    · subst hid
      cases classes.find? d.id <;> simp
    · have hid' : ¬ d.id = id := fun h => hid h.symm
      simp [hid, hid']

theorem Keyed.foldl_insertIfNew {classes : Dictionary ClassId ClassDecl} (h : Keyed classes)
    (ds : List ClassDecl) :
    Keyed (ds.foldl (fun classes d => classes.insertIfNew d.id d) classes) := by
  induction ds generalizing classes with
  | nil => exact h
  | cons d ds ih => exact ih (h.insertIfNew d)

end ClassTable

/-- Declarations by the classes that they declare. -/
structure ClassTable extends Dictionary ClassId ClassDecl where
  /-- A class is found under its own identity. -/
  keyed : ClassTable.Keyed toDictionary

namespace ClassTable

/-- The table without declarations. -/
def empty : ClassTable := ⟨.empty, nofun⟩

instance : Inhabited ClassTable := ⟨empty⟩

/-- The declarations, the latest last. -/
def decls (t : ClassTable) : List ClassDecl := t.entries.map Prod.snd

theorem id_of_find? {t : ClassTable} {id : ClassId} {d : ClassDecl} (h : t.find? id = some d) :
    d.id = id :=
  t.keyed id d h

theorem find?_eq_some_iff {t : ClassTable} {id : ClassId} {d : ClassDecl} :
    t.find? id = some d ↔ d ∈ t.decls ∧ d.id = id := by
  constructor
  · intro h
    exact ⟨List.mem_map.2 ⟨_, Dictionary.mem_entries_iff.2 h, rfl⟩, id_of_find? h⟩
  · rintro ⟨hmem, rfl⟩
    obtain ⟨⟨id, d⟩, hentry, rfl⟩ := List.mem_map.1 hmem
    have hfind := Dictionary.mem_entries_iff.1 hentry
    exact (id_of_find? hfind).symm ▸ hfind

theorem mem_of_find? {t : ClassTable} {id : ClassId} {d : ClassDecl} (h : t.find? id = some d) :
    d ∈ t.decls :=
  (find?_eq_some_iff.1 h).1

theorem find?_of_mem {t : ClassTable} {d : ClassDecl} (h : d ∈ t.decls) :
    t.find? d.id = some d :=
  find?_eq_some_iff.2 ⟨h, rfl⟩

/-- The keys of a table are the identities of its declarations. -/
theorem map_id_decls (t : ClassTable) : t.decls.map ClassDecl.id = t.entries.map Prod.fst := by
  rw [decls, List.map_map]
  refine List.map_congr_left fun e he => ?_
  exact id_of_find? (Dictionary.mem_entries_iff.1 he)

theorem nodup_decls (t : ClassTable) : (t.decls.map ClassDecl.id).Nodup := by
  rw [map_id_decls]
  exact t.nodup

/-! ### Declaring -/

/-- Adds a declaration. A class that is declared already keeps the declaration it has. -/
def declare (t : ClassTable) (d : ClassDecl) : ClassTable where
  toDictionary := t.toDictionary.insertIfNew d.id d
  keyed := t.keyed.insertIfNew d

theorem find?_declare (t : ClassTable) (d : ClassDecl) (id : ClassId) :
    (t.declare d).find? id =
      if id = d.id then some ((t.find? d.id).getD d) else t.find? id :=
  t.toDictionary.find?_insertIfNew d.id id d

/-! ### Unseen classes -/

/-- Number of declared classes that are not in `seen`. -/
def unseen (t : ClassTable) (seen : List ClassId) : Nat :=
  t.entries.countP (fun e => decide (e.1 ∉ seen))

/-- Seeing more classes never raises the number of unseen ones. -/
theorem unseen_le_of_subset (t : ClassTable) {seen seen' : List ClassId} (h : seen ⊆ seen') :
    t.unseen seen' ≤ t.unseen seen := by
  refine List.countP_mono_left fun e _ he => ?_
  simp only [decide_eq_true_eq] at he ⊢
  exact fun hseen => he (h hseen)

theorem unseen_cons_le (t : ClassTable) (id : ClassId) (seen : List ClassId) :
    t.unseen (id :: seen) ≤ t.unseen seen :=
  t.unseen_le_of_subset (List.subset_cons_self id seen)

/-- Seeing a declared class for the first time lowers the number of unseen ones. -/
theorem unseen_cons_lt {t : ClassTable} {id : ClassId} {d : ClassDecl} {seen : List ClassId}
    (hd : t.find? id = some d) (hs : id ∉ seen) : t.unseen (id :: seen) < t.unseen seen := by
  obtain ⟨before, after, hsplit⟩ := List.append_of_mem (Dictionary.mem_entries_iff.2 hd)
  have hle (es : List (ClassId × ClassDecl)) : es.countP (fun e => decide (e.1 ∉ id :: seen)) ≤
      es.countP (fun e => decide (e.1 ∉ seen)) := by
    refine List.countP_mono_left fun e _ he => ?_
    simp only [List.mem_cons, not_or, decide_eq_true_eq] at he ⊢
    exact he.2
  have hb := hle before
  have ha := hle after
  simp only [unseen, hsplit, List.countP_append]
  rw [List.countP_cons_of_neg (by simp), List.countP_cons_of_pos (by simpa using hs)]
  omega

end ClassTable

end MethodOperators
