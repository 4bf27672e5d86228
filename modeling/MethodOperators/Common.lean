/-!
# Lists and results

General facts about lists, association lists and results that may be errors.
-/

namespace MethodOperators

variable {ε κ α β : Type}

/-! ### Results -/

theorem bind_eq_ok_iff {x : Except ε α} {f : α → Except ε β} {b : β} :
    (x >>= f) = .ok b ↔ ∃ a, x = .ok a ∧ f a = .ok b := by
  cases x with
  | error e => simp [bind, Except.bind]
  | ok a => simp [bind, Except.bind]

theorem exists_ok_of_map_eq_ok {f : α → β} {x : Except ε α} {b : β} (h : x.map f = .ok b) :
    ∃ a, x = .ok a := by
  cases x with
  | error e => simp [Except.map] at h
  | ok a => exact ⟨a, rfl⟩

/-! ### Lists -/

theorem getElem?_concat_eq_some_iff {xs : List α} {x y : α} {i : Nat} :
    (xs ++ [x])[i]? = some y ↔ xs[i]? = some y ∨ i = xs.length ∧ x = y := by
  rcases Nat.lt_trichotomy i xs.length with hlt | rfl | hgt
  · simp [List.getElem?_append_left hlt, Nat.ne_of_lt hlt]
  · simp
  · rw [List.getElem?_eq_none (by simp; omega), List.getElem?_eq_none (by omega)]
    simp [Nat.ne_of_gt hgt]

theorem take_of_eq_append {as rest gone : List α} (h : as = rest ++ gone) :
    as.take (as.length - gone.length) = rest := by
  subst h
  rw [List.length_append, Nat.add_sub_cancel, List.take_left]

/-! ### Association lists -/

theorem lookup_cons_eq_ite [DecidableEq κ] (e : κ × α) (l : κ) (es : List (κ × α)) :
    (e :: es).lookup l = if l = e.1 then some e.2 else es.lookup l := by
  rw [List.lookup_cons]
  by_cases h : l = e.1
  · simp [h]
  · have hl : (l == e.1) = false := by simpa using h
    rw [hl, if_neg h]

theorem lookup_map_value [DecidableEq κ] (f : α → β) (es : List (κ × α)) (k : κ) :
    (es.map fun e => (e.1, f e.2)).lookup k = (es.lookup k).map f := by
  induction es with
  | nil => rfl
  | cons e es ih =>
    rw [List.map_cons, lookup_cons_eq_ite, lookup_cons_eq_ite, ih]
    split <;> rfl

end MethodOperators
