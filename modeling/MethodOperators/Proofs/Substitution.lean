import MethodOperators.Type.Substitution

/-! What a substitution does to a type is settled by what it does to the parameters that occur in
it. -/

namespace MethodOperators

/-! ### Parameters that occur -/

namespace Ty

mutual

/-- The type parameters that occur in a type. -/
def vars : Ty → List TypeVar
  | .primitive _ => []
  | .nominal _ args => varsAll args
  | .var v => [v]
  | .array element => vars element
  | .null => []

def varsAll : List Ty → List TypeVar
  | [] => []
  | t :: ts => vars t ++ varsAll ts

end

theorem varsAll_eq_flatMap (ts : List Ty) : varsAll ts = ts.flatMap vars := by
  induction ts with
  | nil => rfl
  | cons t ts ih => rw [varsAll, ih, List.flatMap_cons]

/-- Induction on types, with all arguments of a class at once. -/
@[elab_as_elim]
theorem induct {motive : Ty → Prop} (primitive : ∀ kind, motive (.primitive kind))
    (nominal : ∀ id args, (∀ arg ∈ args, motive arg) → motive (.nominal id args))
    (var : ∀ v, motive (.var v)) (array : ∀ element, motive element → motive (.array element))
    (null : motive .null) : ∀ t, motive t
  | .primitive kind => primitive kind
  | .nominal id args => nominal id args fun arg _ => induct primitive nominal var array null arg
  | .var v => var v
  | .array element => array element (induct primitive nominal var array null element)
  | .null => null

end Ty

def ClassType.vars (ct : ClassType) : List TypeVar := ct.args.flatMap Ty.vars

def Signature.vars (sig : Signature Ty) : List TypeVar :=
  sig.params.flatMap Ty.vars ++ sig.result.vars

/-! ### Dictionaries of entries -/

namespace Dictionary

variable {κ α β : Type} [DecidableEq κ]

theorem mem_of_find?_ofList {es : List (κ × α)} {k : κ} {a : α}
    (h : (ofList es).find? k = some a) : (k, a) ∈ es := by
  rw [find?_ofList, List.lookup_eq_some_iff] at h
  obtain ⟨before, after, hsplit, _⟩ := h
  rw [← List.mem_reverse, hsplit]
  exact List.mem_append_right _ List.mem_cons_self

theorem find?_ofList_isSome {es : List (κ × α)} {k : κ} :
    ((ofList es).find? k).isSome = true ↔ k ∈ es.map Prod.fst := by
  rw [find?_ofList, List.lookup_isSome_iff, List.mem_map]
  constructor
  · rintro ⟨e, he, hk⟩
    exact ⟨e, List.mem_reverse.1 he, (beq_iff_eq.1 hk).symm⟩
  · rintro ⟨e, he, rfl⟩
    exact ⟨e, List.mem_reverse.2 he, beq_self_eq_true _⟩

theorem find?_ofList_map (f : α → β) (es : List (κ × α)) (k : κ) :
    (ofList (es.map fun e => (e.1, f e.2))).find? k = ((ofList es).find? k).map f := by
  rw [find?_ofList, find?_ofList, ← List.map_reverse, lookup_map_value]

end Dictionary

/-! ### What becomes of a type -/

namespace Substitution

/-- What becomes of a type parameter: its replacement, or itself if it has none. -/
def image (s : Substitution) (v : TypeVar) : Ty := (s.find? v).getD (.var v)

theorem replace_eq_self {s : Substitution} {t : Ty} (h : ∀ v ∈ t.vars, s.image v = .var v) :
    s.replace t = t := by
  induction t using Ty.induct with
  | primitive kind => rfl
  | null => rfl
  | var v => exact h v (List.mem_singleton_self v)
  | array element ih => exact congrArg Ty.array (ih h)
  | nominal id args ih =>
    rw [Ty.vars, Ty.varsAll_eq_flatMap] at h
    rw [replace, replaceAll_eq_map]
    congr 1
    refine (List.map_congr_left fun arg harg => ?_).trans (List.map_id' args)
    exact ih arg harg fun v hv => h v (List.mem_flatMap.2 ⟨arg, harg, hv⟩)

/-- Handing a type back as it is and replacing nothing in it are the same. -/
theorem apply_eq_replace (s : Substitution) (t : Ty) : s.apply t = s.replace t := by
  unfold apply
  split
  · rename_i hempty
    refine (replace_eq_self fun v _ => ?_).symm
    have hentries : s.replacements.entries = [] := List.isEmpty_iff.1 hempty
    simp [image, find?, Dictionary.find?, hentries]
  · rfl

theorem apply_eq_self {s : Substitution} {t : Ty} (h : ∀ v ∈ t.vars, s.image v = .var v) :
    s.apply t = t := by
  rw [apply_eq_replace]
  exact replace_eq_self h

theorem apply_of_vars_eq_nil (s : Substitution) {t : Ty} (h : t.vars = []) : s.apply t = t :=
  apply_eq_self fun v hv => by simp [h] at hv

/-- Two substitutions one after the other are a single one if that one does the same to the
parameters of the type. -/
theorem apply_apply {s r both : Substitution} {t : Ty}
    (h : ∀ v ∈ t.vars, both.image v = r.apply (s.image v)) :
    r.apply (s.apply t) = both.apply t := by
  simp only [apply_eq_replace] at h ⊢
  induction t using Ty.induct with
  | primitive kind => rfl
  | null => rfl
  | var v => exact (h v (List.mem_singleton_self v)).symm
  | array element ih => exact congrArg Ty.array (ih h)
  | nominal id args ih =>
    rw [Ty.vars, Ty.varsAll_eq_flatMap] at h
    simp only [replace, replaceAll_eq_map, List.map_map]
    congr 1
    exact List.map_congr_left fun arg harg =>
      ih arg harg fun v hv => h v (List.mem_flatMap.2 ⟨arg, harg, hv⟩)

theorem mem_vars_apply {s : Substitution} {t : Ty} {v : TypeVar} :
    v ∈ (s.apply t).vars ↔ ∃ w ∈ t.vars, v ∈ (s.image w).vars := by
  rw [apply_eq_replace]
  induction t using Ty.induct with
  | primitive kind => simp [replace, Ty.vars]
  | null => simp [replace, Ty.vars]
  | var w => simp [replace, Ty.vars, image]
  | array element ih => exact ih
  | nominal id args ih =>
    simp only [replace, replaceAll_eq_map, Ty.vars, Ty.varsAll_eq_flatMap, List.mem_flatMap,
      List.mem_map]
    constructor
    · rintro ⟨_, ⟨arg, harg, rfl⟩, hv⟩
      obtain ⟨w, hw, hv⟩ := (ih arg harg).1 hv
      exact ⟨w, ⟨arg, harg, hw⟩, hv⟩
    · rintro ⟨w, ⟨arg, harg, hw⟩, hv⟩
      exact ⟨_, ⟨arg, harg, rfl⟩, (ih arg harg).2 ⟨w, hw, hv⟩⟩

theorem mem_vars_map_apply {s : Substitution} {ts : List Ty} {v : TypeVar} :
    v ∈ (ts.map s.apply).flatMap Ty.vars ↔ ∃ w ∈ ts.flatMap Ty.vars, v ∈ (s.image w).vars := by
  simp only [List.flatMap_map, List.mem_flatMap, mem_vars_apply]
  constructor
  · rintro ⟨t, ht, w, hw, hv⟩
    exact ⟨w, ⟨t, ht, hw⟩, hv⟩
  · rintro ⟨w, ⟨t, ht, hw⟩, hv⟩
    exact ⟨t, ht, w, hw, hv⟩

theorem mem_vars_applyToClass {s : Substitution} {ct : ClassType} {v : TypeVar} :
    v ∈ (s.applyToClass ct).vars ↔ ∃ w ∈ ct.vars, v ∈ (s.image w).vars :=
  mem_vars_map_apply

theorem mem_vars_applyToSignature {s : Substitution} {sig : Signature Ty} {v : TypeVar} :
    v ∈ (s.applyToSignature sig).vars ↔ ∃ w ∈ sig.vars, v ∈ (s.image w).vars := by
  show v ∈ (sig.params.map s.apply).flatMap Ty.vars ++ (s.apply sig.result).vars ↔ _
  simp only [Signature.vars, List.mem_append, mem_vars_map_apply, mem_vars_apply, or_and_right,
    exists_or]

theorem applyToClass_applyToClass {s r both : Substitution} {ct : ClassType}
    (h : ∀ t : Ty, (∀ v ∈ t.vars, v ∈ ct.vars) → r.apply (s.apply t) = both.apply t) :
    r.applyToClass (s.applyToClass ct) = both.applyToClass ct := by
  simp only [applyToClass, List.map_map]
  congr 1
  exact List.map_congr_left fun t ht => h t fun v hv => List.mem_flatMap.2 ⟨t, ht, hv⟩

theorem applyToSignature_applyToSignature {s r both : Substitution} {sig : Signature Ty}
    (h : ∀ t : Ty, (∀ v ∈ t.vars, v ∈ sig.vars) → r.apply (s.apply t) = both.apply t) :
    r.applyToSignature (s.applyToSignature sig) = both.applyToSignature sig := by
  simp only [applyToSignature, Signature.map, List.map_map]
  congr 1
  · exact List.map_congr_left fun t ht =>
      h t fun v hv => List.mem_append_left _ (List.mem_flatMap.2 ⟨t, ht, hv⟩)
  · exact h sig.result fun v hv => List.mem_append_right _ hv

/-! ### Arguments of a declaration -/

theorem exists_find?_ofArgs {params : List TypeVar} {args : List Ty}
    (hlength : params.length = args.length) {v : TypeVar} (hv : v ∈ params) :
    ∃ t ∈ args, (ofArgs params args).find? v = some t := by
  have hsome : ((Dictionary.ofList (params.zip args)).find? v).isSome = true := by
    rw [Dictionary.find?_ofList_isSome, List.map_fst_zip (Nat.le_of_eq hlength)]
    exact hv
  obtain ⟨t, ht⟩ := Option.isSome_iff_exists.1 hsome
  refine ⟨t, (List.of_mem_zip (Dictionary.mem_of_find?_ofList ht)).2, ?_⟩
  rw [ofArgs, if_pos hlength]
  exact ht

theorem image_ofArgs_map (s : Substitution) {params : List TypeVar} {args : List Ty}
    (hlength : params.length = args.length) {v : TypeVar} (hv : v ∈ params) :
    (ofArgs params (args.map s.apply)).image v = s.apply ((ofArgs params args).image v) := by
  have hzip : params.zip (args.map s.apply) =
      (params.zip args).map fun e => (e.1, s.apply e.2) := by
    rw [List.zip_map_right]
    rfl
  have hlength' : params.length = (args.map s.apply).length := by rw [hlength, List.length_map]
  obtain ⟨t, -, ht⟩ := exists_find?_ofArgs hlength hv
  rw [ofArgs, if_pos hlength, find?] at ht
  rw [ofArgs, if_pos hlength', ofArgs, if_pos hlength, hzip]
  simp only [image, find?, Dictionary.find?_ofList_map, ht, Option.map_some, Option.getD_some]

/-- It makes no difference whether a substitution is carried out on the arguments of a declaration
or on what the declaration becomes under them. -/
theorem apply_apply_ofArgs (s : Substitution) {params : List TypeVar} {args : List Ty}
    (hlength : params.length = args.length) {t : Ty} (ht : ∀ v ∈ t.vars, v ∈ params) :
    s.apply ((ofArgs params args).apply t) = (ofArgs params (args.map s.apply)).apply t :=
  apply_apply fun v hv => image_ofArgs_map s hlength (ht v hv)

theorem apply_ofArgs_vars (params : List TypeVar) (t : Ty) :
    (ofArgs params (params.map .var)).apply t = t := by
  refine apply_eq_self fun v _ => ?_
  rw [ofArgs, if_pos (List.length_map _).symm]
  simp only [image, find?]
  cases hfind : (Dictionary.ofList (params.zip (params.map Ty.var))).find? v with
  | none => rfl
  | some t =>
    have hmem := Dictionary.mem_of_find?_ofList hfind
    rw [← List.map_prod_left_eq_zip, List.mem_map] at hmem
    obtain ⟨w, _, heq⟩ := hmem
    obtain ⟨rfl, rfl⟩ := Prod.mk.inj heq
    rfl

end Substitution

end MethodOperators
