import MethodOperators.Proofs.Dictionaries
import MethodOperators.Proofs.Enumeration

/-! One substitution after another does what a single one does. The laws are proved for types, and
carry over to everything that is made of types and substituted into part by part. -/

namespace MethodOperators

namespace Substitution

/-! ### Two substitutions as one -/

/-- The substitution that does at once what `s` and after it `r` do. -/
def andThen (s r : Substitution) : Substitution :=
  ⟨r.replacements.override (s.replacements.mapValues r.apply)⟩

theorem find?_andThen (s r : Substitution) (v : TypeVar) :
    (s.andThen r).find? v = ((s.find? v).map r.apply).or (r.find? v) := by
  simp only [find?, andThen, Dictionary.find?_override, Dictionary.find?_mapValues]

theorem apply_var (s : Substitution) (v : TypeVar) : s.apply (.var v) = s.image v := by
  rw [apply_eq_replace, replace, image]

theorem image_andThen (s r : Substitution) (v : TypeVar) :
    (s.andThen r).image v = r.apply (s.image v) := by
  rw [image, find?_andThen]
  cases hs : s.find? v with
  | some t => simp [image, hs]
  | none =>
    have hv : s.image v = .var v := by simp [image, hs]
    rw [hv, apply_var]
    rfl

theorem apply_apply_eq_andThen (s r : Substitution) (t : Ty) :
    r.apply (s.apply t) = (s.andThen r).apply t :=
  apply_apply fun v _ => image_andThen s r v

/-- Two substitutions do the same to a type exactly if they do the same to the parameters in it. -/
theorem apply_eq_apply_iff {s r : Substitution} {t : Ty} :
    s.apply t = r.apply t ↔ ∀ v ∈ t.vars, s.image v = r.image v := by
  simp only [apply_eq_replace]
  induction t using Ty.induct with
  | primitive kind => simp [replace, Ty.vars]
  | null => simp [replace, Ty.vars]
  | var v => simp [replace, Ty.vars, image]
  | array element ih => simp only [replace, Ty.vars, Ty.array.injEq, ih]
  | nominal id args ih =>
    simp only [replace, replaceAll_eq_map, Ty.vars, Ty.varsAll_eq_flatMap, Ty.nominal.injEq,
      true_and, List.map_inj_left, List.mem_flatMap]
    constructor
    · rintro h v ⟨arg, harg, hv⟩
      exact (ih arg harg).1 (h arg harg) v hv
    · intro h arg harg
      exact (ih arg harg).2 fun v hv => h v ⟨arg, harg, hv⟩

/-! ### The laws -/

/-- The laws of a way to substitute into things of one kind, in which parameters may occur. -/
structure Lawful {α : Type} (act : Substitution → α → α) (vars : α → List TypeVar) : Prop where
  /-- Two substitutions one after the other do what a single one does. -/
  andThen : ∀ (s r : Substitution) (x : α), act r (act s x) = act (s.andThen r) x
  /-- Nothing counts but what becomes of the parameters that occur. -/
  occurring : ∀ (s r : Substitution) (x : α),
    act s x = act r x ↔ ∀ v ∈ vars x, s.image v = r.image v
  /-- Where only the parameters of a declaration occur, it can be substituted into the arguments
  before they replace the parameters. A parameter may be listed more than once. -/
  ofArgs : ∀ (s : Substitution) (params : List TypeVar) (args : List Ty) (x : α),
    params.length = args.length → (∀ v ∈ vars x, v ∈ params) →
      act s (act (ofArgs params args) x) = act (ofArgs params (args.map s.apply)) x
  /-- A declared class applied to its own parameters changes nothing. -/
  ownType : ∀ (reg : Registry) (id : ClassId) (decl : ClassDecl) (x : α),
    reg.class? id = some decl → act (reg.bindingOf decl.ownType) x = x

/-- The laws carry over to things that are made of types: to substitute into them is to substitute
into their parts and to leave their shape as it is. -/
theorem Lawful.of_parts {α σ : Type} {act : Substitution → α → α} {vars : α → List TypeVar}
    (parts : α → List Ty) (shape : α → σ) (hvars : ∀ x, vars x = (parts x).flatMap Ty.vars)
    (hparts : ∀ s x, parts (act s x) = (parts x).map s.apply)
    (hshape : ∀ s x, shape (act s x) = shape x)
    (hext : ∀ x y, shape x = shape y → parts x = parts y → x = y) : Lawful act vars where
  andThen s r x := by
    refine hext _ _ (by simp only [hshape]) ?_
    simp only [hparts, List.map_map]
    exact List.map_congr_left fun t _ => apply_apply_eq_andThen s r t
  occurring s r x := by
    have hact : act s x = act r x ↔ ∀ t ∈ parts x, s.apply t = r.apply t := by
      rw [← List.map_inj_left, ← hparts, ← hparts]
      exact ⟨congrArg parts, hext _ _ (by simp only [hshape])⟩
    simp only [hact, apply_eq_apply_iff, hvars, List.mem_flatMap]
    exact ⟨fun h v ⟨t, ht, hv⟩ => h t ht v hv, fun h t ht v hv => h v ⟨t, ht, hv⟩⟩
  ofArgs s params args x hlength hx := by
    refine hext _ _ (by simp only [hshape]) ?_
    simp only [hparts, List.map_map]
    refine List.map_congr_left fun t ht => apply_apply_ofArgs s hlength fun v hv => hx v ?_
    rw [hvars]
    exact List.mem_flatMap.2 ⟨t, ht, hv⟩
  ownType reg id decl x hdecl := by
    refine hext _ _ (hshape _ x) ?_
    rw [hparts, Registry.bindingOf_ownType_apply hdecl, List.map_id']

/-- A type is its own only part. -/
theorem lawful_apply : Lawful apply Ty.vars :=
  .of_parts (fun t => [t]) (fun _ => ()) (fun t => (List.flatMap_singleton _ t).symm)
    (fun _ _ => rfl) (fun _ _ => rfl) (fun _ _ _ h => (List.cons.inj h).1)

theorem lawful_applyToClass : Lawful applyToClass ClassType.vars := by
  refine .of_parts ClassType.args ClassType.id (fun _ => rfl) (fun _ _ => rfl) (fun _ _ => rfl) ?_
  rintro ⟨id, args⟩ ⟨id', args'⟩ hid hargs
  obtain rfl : id = id' := hid
  obtain rfl : args = args' := hargs
  rfl

theorem lawful_applyToSignature : Lawful applyToSignature Signature.vars := by
  refine .of_parts (fun sig => sig.params ++ [sig.result]) (fun _ => ()) ?_ ?_ ?_ ?_
  · intro sig
    rw [List.flatMap_append, List.flatMap_singleton]
    rfl
  · intro s sig
    rw [List.map_append]
    rfl
  · exact fun _ _ => rfl
  · rintro ⟨ps, t⟩ ⟨qs, u⟩ - h
    obtain ⟨hparams, hresult⟩ := List.append_inj' h rfl
    obtain rfl : ps = qs := hparams
    obtain rfl : t = u := (List.cons.inj hresult).1
    rfl

/-- Two substitutions compose to one, whose replacements are those of the first, substituted into by
the second, and for all other parameters those of the second. It makes no difference that nothing is
done for a substitution without entries. What substitutions do to types, class types and signatures
follows the laws. -/
theorem substitutions_compose :
    (∀ (s r : Substitution) (v : TypeVar),
      (s.andThen r).find? v = ((s.find? v).map r.apply).or (r.find? v)) ∧
    (∀ (s : Substitution) (t : Ty), s.apply t = s.replace t) ∧
    Lawful apply Ty.vars ∧ Lawful applyToClass ClassType.vars ∧
    Lawful applyToSignature Signature.vars :=
  ⟨find?_andThen, apply_eq_replace, lawful_apply, lawful_applyToClass, lawful_applyToSignature⟩

/-- It replaces two parameters by each other. -/
def swapping : Substitution :=
  ofArgs [⟨0⟩, ⟨1⟩] [.var ⟨1⟩, .var ⟨0⟩]

/-- Replacements that mention replaced parameters are not replaced again, and the last argument counts
for a parameter that is listed twice. -/
theorem substitutions_compose_swapping :
    (swapping.andThen swapping).find? ⟨0⟩ = some (.var ⟨0⟩) ∧
    (∀ t, swapping.apply (swapping.apply t) = (swapping.andThen swapping).apply t) ∧
    swapping.apply ((ofArgs [⟨0⟩, ⟨0⟩] [.null, .array (.var ⟨1⟩)]).apply (.var ⟨0⟩)) =
      .array (.var ⟨0⟩) ∧
    (∀ t, (Registry.boxRegistry.bindingOf Registry.boxDecl.ownType).apply t = t) := by
  obtain ⟨hfind, -, htypes, -, -⟩ := substitutions_compose
  refine ⟨(hfind swapping swapping ⟨0⟩).trans (by decide), htypes.andThen swapping swapping, ?_,
    fun t => htypes.ownType Registry.boxRegistry ⟨1⟩ Registry.boxDecl t (by decide)⟩
  have hvars : ∀ v ∈ (Ty.var ⟨0⟩).vars, v ∈ [(⟨0⟩ : TypeVar), ⟨0⟩] := by decide
  rw [htypes.ofArgs swapping _ _ _ rfl hvars]
  decide

end Substitution

end MethodOperators
