import Mathlib.Data.String.Basic

/-! Texts are ordered by the numbers of their characters, which is the order of their bytes in
UTF-8. -/

namespace MethodOperators

namespace Utf8

/-- The bytes of a text in UTF-8. -/
def bytes (s : String) : List UInt8 := s.toUTF8.data.toList

theorem bytes_eq_flatMap (s : String) :
    bytes s = s.toList.flatMap String.utf8EncodeChar := by
  have hbytes : s.toUTF8 = s.toList.utf8Encode := String.utf8Encode_toList.symm
  rw [bytes, hbytes, List.utf8Encode]
  exact List.toList_data_toByteArray

/-! ### Characters -/

theorem ofNat_cons_lt_iff {m n : Nat} (hm : m < 256) (hn : n < 256) (xs ys : List UInt8) :
    UInt8.ofNat m :: xs < UInt8.ofNat n :: ys ↔ m < n ∨ m = n ∧ xs < ys := by
  rw [List.cons_lt_cons_iff, UInt8.ofNat_lt_iff_lt hm hn, UInt8.ofNat_eq_iff_mod_eq_toNat,
    UInt8.toNat_ofNat_of_lt' hn, Nat.mod_eq_of_lt hm]

/-- The last `k` bytes of a character, of which `n` is the number. -/
def trail : (k n : Nat) → List UInt8
  | 0, _ => []
  | k + 1, n => trail k (n / 64) ++ [UInt8.ofNat (n % 64 + 128)]

theorem trail_append_lt {k m n : Nat} (h : m < n) (hdiv : m / 64 ^ k = n / 64 ^ k)
    (xs ys : List UInt8) : trail k m ++ xs < trail k n ++ ys := by
  induction k generalizing m n xs ys with
  | zero =>
    rw [pow_zero, Nat.div_one, Nat.div_one] at hdiv
    exact absurd hdiv (Nat.ne_of_lt h)
  | succ k ih =>
    simp only [trail, List.append_assoc, List.singleton_append]
    by_cases hhigh : m / 64 < n / 64
    · refine ih hhigh ?_ _ _
      rwa [Nat.div_div_eq_div_mul, Nat.div_div_eq_div_mul, ← pow_succ']
    · -- The bytes before the last one are the same.
      have heq : m / 64 = n / 64 := by omega
      rw [heq]
      refine List.append_left_lt ((ofNat_cons_lt_iff ?_ ?_ _ _).2 (.inl ?_)) <;> omega

/-- How many bytes come after the first one. -/
def following (n : Nat) : Nat :=
  if n ≤ 127 then 0 else if n ≤ 2047 then 1 else if n ≤ 65535 then 2 else 3

/-- What the first byte holds besides the highest bits, so that it says how many bytes follow. -/
def mark : Nat → Nat
  | 0 => 0
  | 1 => 192
  | 2 => 224
  | _ => 240

def lead (n : Nat) : Nat := n / 64 ^ following n + mark (following n)

theorem lead_lt_of_following_ne {m n : Nat} (h : m < n) (hne : following m ≠ following n) :
    lead m < lead n := by
  unfold lead
  unfold following at hne ⊢
  split_ifs at hne ⊢ <;> simp only [mark, Nat.reducePow, Nat.div_one] <;> omega

theorem lead_lt {n : Nat} (h : n < 1114112) : lead n < 256 := by
  unfold lead following
  split_ifs <;> simp only [mark, Nat.reducePow, Nat.div_one] <;> omega

theorem toNat_val_lt (c : Char) : c.val.toNat < 1114112 := by
  rcases c.valid with h | h
  · exact Nat.lt_trans h (by decide)
  · exact h.2

theorem utf8EncodeChar_eq (c : Char) :
    String.utf8EncodeChar c =
      UInt8.ofNat (lead c.val.toNat) :: trail (following c.val.toNat) c.val.toNat := by
  have hmax := toNat_val_lt c
  unfold String.utf8EncodeChar lead following
  generalize c.val.toNat = n at *
  dsimp only
  split_ifs <;>
    simp only [mark, trail, Nat.reducePow, Nat.div_one, Nat.add_zero, List.nil_append,
      List.cons_append, List.cons.injEq, and_true, Nat.div_div_eq_div_mul, Nat.reduceMul]
  · rw [Nat.mod_eq_of_lt (by omega)]
  · rw [Nat.mod_eq_of_lt (by omega)]
  · rw [Nat.mod_eq_of_lt (by omega)]

theorem utf8EncodeChar_append_lt {c d : Char} (h : c < d) (xs ys : List UInt8) :
    String.utf8EncodeChar c ++ xs < String.utf8EncodeChar d ++ ys := by
  have hval : c.val.toNat < d.val.toNat := h
  rw [utf8EncodeChar_eq, utf8EncodeChar_eq, List.cons_append, List.cons_append,
    ofNat_cons_lt_iff (lead_lt (toNat_val_lt c)) (lead_lt (toNat_val_lt d))]
  by_cases hsize : following c.val.toNat = following d.val.toNat
  · rw [lead, lead, hsize]
    have hdiv := Nat.div_le_div_right (c := 64 ^ following d.val.toNat) (Nat.le_of_lt hval)
    rcases Nat.lt_or_eq_of_le hdiv with hlt | heq
    · exact .inl (Nat.add_lt_add_right hlt _)
    · exact .inr ⟨congrArg (· + _) heq, trail_append_lt hval heq xs ys⟩
  · exact .inl (lead_lt_of_following_ne hval hsize)

/-! ### Texts -/

theorem flatMap_utf8EncodeChar_lt {cs ds : List Char} (h : cs < ds) :
    cs.flatMap String.utf8EncodeChar < ds.flatMap String.utf8EncodeChar := by
  induction h with
  | nil =>
    rw [List.flatMap_nil, List.flatMap_cons, utf8EncodeChar_eq]
    exact List.nil_lt_cons _ _
  | rel hcd => exact utf8EncodeChar_append_lt hcd _ _
  | cons _ ih => exact List.append_left_lt ih

theorem bytes_lt_of_lt {s t : String} (h : s < t) : bytes s < bytes t := by
  rw [bytes_eq_flatMap, bytes_eq_flatMap]
  exact flatMap_utf8EncodeChar_lt (String.lt_iff.1 h)

theorem bytes_lt_iff {s t : String} : bytes s < bytes t ↔ s < t := by
  refine ⟨fun h => ?_, bytes_lt_of_lt⟩
  rcases lt_trichotomy s t with hlt | rfl | hgt
  · exact hlt
  · exact absurd h (List.lt_irrefl _)
  · exact absurd (bytes_lt_of_lt hgt) (List.lt_asymm h)

end Utf8

end MethodOperators
