import MethodOperators.Proofs.Substitution
import Mathlib.Data.List.Sort
import Mathlib.Data.List.Perm.Subperm
import Mathlib.Data.String.Basic

/-! Dictionaries that are laid over each other, and entries that are looked up in any order. -/

namespace MethodOperators

namespace Dictionary

section

variable {κ α β : Type} [DecidableEq κ]

theorem lookup_of_perm {d : Dictionary κ α} {es : List (κ × α)} (h : es.Perm d.entries) (k : κ) :
    es.lookup k = d.find? k := by
  have hkeys : (es.map Prod.fst).Nodup := (h.map Prod.fst).nodup_iff.2 d.nodup
  let d' : Dictionary κ α := ⟨es, hkeys⟩
  show d'.find? k = d.find? k
  ext a
  rw [← mem_entries_iff, ← mem_entries_iff, h.mem_iff]

/-- The entries of `e` laid over those of `d`. -/
def override (d e : Dictionary κ α) : Dictionary κ α :=
  e.entries.foldl (fun d entry => d.insert entry.1 entry.2) d

theorem find?_override (d e : Dictionary κ α) (k : κ) :
    (d.override e).find? k = (e.find? k).or (d.find? k) := by
  rw [override, find?_foldl_insert, lookup_of_perm (List.reverse_perm _)]

/-- Applies a function to every value. -/
def mapValues (f : α → β) (d : Dictionary κ α) : Dictionary κ β where
  entries := d.entries.map fun entry => (entry.1, f entry.2)
  nodup := by
    rw [List.map_map]
    exact d.nodup

theorem find?_mapValues (f : α → β) (d : Dictionary κ α) (k : κ) :
    (d.mapValues f).find? k = (d.find? k).map f :=
  lookup_map_value f d.entries k

omit [DecidableEq κ] in
theorem nodup_entries (d : Dictionary κ α) : d.entries.Nodup := d.nodup.of_map Prod.fst

theorem agrees_iff [DecidableEq α] {d e : Dictionary κ α} :
    d.agrees e = true ↔ ∀ k, d.find? k = e.find? k := by
  simp only [agrees, size, Bool.and_eq_true, beq_iff_eq, List.all_eq_true, decide_eq_true_eq]
  constructor
  · rintro ⟨hsize, hentries⟩ k
    have hsubset : d.entries ⊆ e.entries := fun entry hentry =>
      mem_entries_iff.2 (hentries entry hentry)
    -- As many entries, and all of them in the other one: so none is missing here.
    have hperm : d.entries.Perm e.entries :=
      (d.nodup_entries.subperm hsubset).perm_of_length_le (Nat.le_of_eq hsize.symm)
    exact lookup_of_perm hperm k
  · intro h
    have hperm : d.entries.Perm e.entries := by
      refine (List.perm_ext_iff_of_nodup d.nodup_entries e.nodup_entries).2 fun entry => ?_
      rw [mem_entries_iff, mem_entries_iff, h]
    refine ⟨hperm.length_eq, fun entry hentry => ?_⟩
    rw [← h]
    exact mem_entries_iff.1 hentry

end

/-! ### Entries in order -/

section

variable {α : Type}

theorem insertInOrder_eq_orderedInsert (e : String × α) (es : List (String × α)) :
    insertInOrder e es = es.orderedInsert (fun e f => e.1 ≤ f.1) e := by
  induction es with
  | nil => rfl
  | cons f es ih => rw [insertInOrder, List.orderedInsert_cons, ih]

theorem inOrder_eq_insertionSort (d : Dictionary String α) :
    d.inOrder = d.entries.insertionSort (fun e f => e.1 ≤ f.1) := by
  rw [inOrder]
  induction d.entries with
  | nil => rfl
  | cons e es ih => rw [List.foldr_cons, ih, insertInOrder_eq_orderedInsert, List.insertionSort_cons]

theorem perm_inOrder (d : Dictionary String α) : d.inOrder.Perm d.entries := by
  rw [inOrder_eq_insertionSort]
  exact List.perm_insertionSort _ _

theorem pairwise_inOrder (d : Dictionary String α) :
    d.inOrder.Pairwise fun e f => e.1 < f.1 := by
  have htotal : Std.Total fun e f : String × α => e.1 ≤ f.1 := ⟨fun e f => le_total e.1 f.1⟩
  have htrans : IsTrans (String × α) fun e f => e.1 ≤ f.1 := ⟨fun _ _ _ => le_trans⟩
  have hle : d.inOrder.Pairwise fun e f => e.1 ≤ f.1 := by
    rw [inOrder_eq_insertionSort]
    exact List.pairwise_insertionSort _ _
  have hne : d.inOrder.Pairwise fun e f => e.1 ≠ f.1 :=
    List.pairwise_map.1 ((d.perm_inOrder.map Prod.fst).nodup_iff.2 d.nodup)
  exact hle.imp₂ (fun _ _ => lt_of_le_of_ne) hne

end

end Dictionary

end MethodOperators
