import MethodOperators.Proofs.Construction

/-! What every call on the tables of a registry keeps, in whatever order the calls come. A call does
all that it is made for, or is refused and writes nothing. -/

namespace MethodOperators

open Registry (Edit builtinDecls builtinBoxes builtinNames builtinDecl objectName boxNames)

namespace Registry.Edit

/-- Whether a call allocates a type parameter. -/
def allocates : Edit → Bool
  | .param .. => true
  | .declare _ | .root _ | .box .. | .builtins | .watch _ => false

/-- What a call is made for holds of its answer and the tables. -/
def TookEffect : (e : Edit) → e.Result → Store → Prop
  | .param name bound, _, s => s.typeParams.back? = some ⟨name, bound⟩
  | .declare decl, id, s => id = decl.id ∧ s.classes.find? id = some decl
  | .root id, _, s => s.root = some id
  | .box kind id, _, s => s.boxes.find? kind = some id ∧ s.unboxes.find? id = some kind
  | .builtins, _, s => (∀ decl ∈ builtinDecls, s.classes.contains decl.id = true) ∧
      s.root = some (ClassId.ofName objectName) ∧
      ∀ kind id, (kind, id) ∈ builtinBoxes →
        s.boxes.find? kind = some id ∧ s.unboxes.find? id = some kind
  | .watch flag, _, s => s.flag = flag

end Registry.Edit

namespace Store

variable {s s' : Store}

/-! ### Refusals -/

/-- Each call makes all its checks before its first write. -/
theorem perform_of_error {e : Edit} {err : DeclarationError} (h : (s.perform e).1 = .error err) :
    (s.perform e).2 = s := by
  cases e with
  | param name bound => cases h
  | declare decl =>
    rw [perform_declare] at h ⊢
    split at h
    · rw [if_pos (by assumption)]
    · rw [if_neg (by assumption)]
      split at h
      · rfl
      · cases h
  | root id =>
    rw [perform_root] at h ⊢
    split at h
    · cases h
    · rw [if_neg (by assumption)]
  | box kind id =>
    rw [perform_box] at h ⊢
    split at h
    · cases h
    · rw [if_neg (by assumption)]
  | builtins => cases h
  | watch flag => cases h

/-- What a call has written stays written when it is refused after that. -/
example : ∃ (call : Call Unit) (s : Store) (err : DeclarationError),
    (call.on s).1 = .error err ∧ (call.on s).2 ≠ s := by
  let call : Call Unit := do
    modify fun s => { s with root := some ⟨1⟩ }
    setRoot ⟨2⟩
  exact ⟨call, .empty ⟨0⟩, .undeclaredSpecial ⟨2⟩, rfl, fun h => nomatch congrArg Store.root h⟩

/-! ### The built-in classes -/

theorem answer_builtins (s : Store) : (s.perform .builtins).1 = .ok () := by
  rw [perform_builtins]

theorem classes_builtins (s : Store) : (s.perform .builtins).2.classes =
    builtinDecls.foldl (fun classes d => classes.insertIfNew d.id d) s.classes := by
  simp only [perform_builtins]

theorem find?_classes_builtins (s : Store) (id : ClassId) :
    (s.perform .builtins).2.classes.find? id =
      (s.classes.find? id).or (builtinDecls.find? fun d => decide (d.id = id)) := by
  rw [classes_builtins, ClassTable.find?_foldl_insertIfNew]

theorem typeParams_builtins (s : Store) : (s.perform .builtins).2.typeParams = s.typeParams := by
  simp only [perform_builtins]

theorem flag_builtins (s : Store) : (s.perform .builtins).2.flag = s.flag := by
  simp only [perform_builtins]

theorem root_builtins (s : Store) :
    (s.perform .builtins).2.root = some (ClassId.ofName objectName) := by
  simp only [perform_builtins]

theorem contains_builtins {decl : ClassDecl} (h : decl ∈ builtinDecls) :
    (s.perform .builtins).2.classes.contains decl.id = true := by
  rw [Dictionary.contains, find?_classes_builtins, Option.isSome_or, Bool.or_eq_true]
  exact .inr (List.find?_isSome.2 ⟨decl, h, decide_eq_true rfl⟩)

theorem contains_builtins_object :
    (s.perform .builtins).2.classes.contains (ClassId.ofName objectName) = true := by
  have hmem : ClassDecl.ofName objectName ∈ builtinDecls := List.mem_cons_self
  rw [← ClassDecl.id_ofName]
  exact contains_builtins hmem

theorem contains_builtins_of_mem_builtinBoxes {kind : Primitive} {id : ClassId}
    (h : (kind, id) ∈ builtinBoxes) : (s.perform .builtins).2.classes.contains id = true := by
  obtain ⟨⟨k, name⟩, hmem, heq⟩ := List.mem_map.1 h
  obtain ⟨rfl, rfl⟩ := Prod.mk.inj heq
  have hname : name ∈ builtinNames := List.mem_cons_of_mem _ (List.mem_map_of_mem hmem)
  have hdecl : builtinDecl name ∈ builtinDecls :=
    List.mem_cons_of_mem _ (List.mem_map_of_mem hname)
  have hid : (builtinDecl name).id = ClassId.ofName name := rfl
  rw [← hid]
  exact contains_builtins hdecl

theorem typeParams_of_mem_builtinDecls {decl : ClassDecl} (h : decl ∈ builtinDecls) :
    decl.typeParams = [] := by
  rcases List.mem_cons.1 h with rfl | hmem
  · rfl
  · obtain ⟨name, -, rfl⟩ := List.mem_map.1 hmem
    rfl

theorem foldl_insertIfNew_of_contains {classes : Dictionary ClassId ClassDecl}
    {ds : List ClassDecl} (h : ∀ d ∈ ds, classes.contains d.id = true) :
    ds.foldl (fun classes d => classes.insertIfNew d.id d) classes = classes := by
  induction ds with
  | nil => rfl
  | cons d ds ih =>
    rw [List.foldl_cons, Dictionary.insertIfNew, if_pos (h d List.mem_cons_self)]
    exact ih fun e he => h e (List.mem_cons_of_mem d he)

/-- Once the built-in classes have been added, adding them again changes nothing. -/
theorem perform_builtins_builtins (s : Store) :
    (s.perform .builtins).2.perform .builtins = s.perform .builtins := by
  have hboxes : ∀ e ∈ builtinBoxes, (s.perform .builtins).2.boxes.find? e.1 = some e.2 :=
    fun _ he => find?_boxes_builtins_eq_some_iff.2 (.inl he)
  have hunboxes : ∀ e ∈ builtinBoxes.map Prod.swap,
      (s.perform .builtins).2.unboxes.find? e.1 = some e.2 := by
    intro e he
    obtain ⟨_, hmem, rfl⟩ := List.mem_map.1 he
    exact find?_unboxes_builtins_eq_some_iff.2 (.inl hmem)
  refine Prod.ext ((answer_builtins _).trans (answer_builtins s).symm)
    (Store.ext ?_ ?_ ?_ ?_ ?_ ?_)
  · rw [classes_builtins]
    exact foldl_insertIfNew_of_contains fun decl hdecl => contains_builtins hdecl
  · exact typeParams_builtins _
  · rw [boxes_builtins]
    exact Dictionary.foldl_insert_of_find? hboxes
  · rw [unboxes_builtins]
    exact Dictionary.foldl_insert_of_find? hunboxes
  · rw [root_builtins, root_builtins]
  · rw [flag_builtins]

/-! ### Nothing is taken back -/

/-- What was declared in `s` is declared in `s'`, and in the same way. -/
structure Grows (s s' : Store) : Prop where
  classes : ∀ id decl, s.classes.find? id = some decl → s'.classes.find? id = some decl
  typeParams : ∀ v param, s.typeParam? v = some param → s'.typeParam? v = some param

theorem Grows.of_eq (hclasses : s'.classes = s.classes) (hparams : s'.typeParams = s.typeParams) :
    s.Grows s' := by
  constructor
  · intro id decl h
    rw [hclasses]
    exact h
  · intro v param h
    rw [typeParam?, hparams]
    exact h

theorem Grows.contains (h : s.Grows s') {id : ClassId} (hid : s.classes.contains id = true) :
    s'.classes.contains id = true := by
  obtain ⟨decl, hdecl⟩ := Option.isSome_iff_exists.1 hid
  exact Option.isSome_iff_exists.2 ⟨decl, h.classes id decl hdecl⟩

theorem Grows.typeParam?_isSome (h : s.Grows s') {v : TypeVar}
    (hv : (s.typeParam? v).isSome = true) : (s'.typeParam? v).isSome = true := by
  obtain ⟨param, hparam⟩ := Option.isSome_iff_exists.1 hv
  exact Option.isSome_iff_exists.2 ⟨param, h.typeParams v param hparam⟩

theorem grows_param (s : Store) (name : String) (bound : Option Ty) :
    s.Grows (s.perform (.param name bound)).2 := by
  refine ⟨fun _ _ h => h, ?_⟩
  intro v param h
  have hlt : v.index.toNat < s.typeParams.size := (Array.getElem?_eq_some_iff.1 h).1
  show (s.typeParams.push ⟨name, bound⟩)[v.index.toNat]? = some param
  rw [Array.getElem?_push, if_neg (by omega)]
  exact h

theorem grows_declare (s : Store) (decl : ClassDecl) : s.Grows (s.perform (.declare decl)).2 := by
  rw [perform_declare]
  split
  · exact .of_eq rfl rfl
  · rename_i hnew
    split
    · exact .of_eq rfl rfl
    · refine ⟨fun id old hold => ?_, fun _ _ h => h⟩
      have hne : id ≠ decl.id := by
        rintro rfl
        exact hnew (Option.isSome_iff_exists.2 ⟨old, hold⟩)
      rw [Dictionary.find?_insert, if_neg hne]
      exact hold

theorem grows_perform (s : Store) (e : Edit) : s.Grows (s.perform e).2 := by
  cases e with
  | param name bound => exact grows_param s name bound
  | declare decl => exact grows_declare s decl
  | root id =>
    rw [perform_root]
    split <;> exact .of_eq rfl rfl
  | box kind id =>
    rw [perform_box]
    split <;> exact .of_eq rfl rfl
  | builtins =>
    constructor
    · intro id decl h
      rw [find?_classes_builtins, h, Option.some_or]
    · intro v param h
      rw [typeParam?, typeParams_builtins]
      exact h
  | watch flag => exact .of_eq rfl rfl

/-! ### Well-formed tables -/

/-- Each class is stored under its own identity, its type parameters have been allocated, and the
classes that play a special part are declared. -/
structure WellFormed (s : Store) : Prop where
  ids : ∀ id decl, s.classes.find? id = some decl → decl.id = id
  params : ∀ id decl, s.classes.find? id = some decl →
    ∀ v ∈ decl.typeParams, (s.typeParam? v).isSome = true
  root : ∀ id, s.root = some id → s.classes.contains id = true
  boxes : ∀ kind id, s.boxes.find? kind = some id → s.classes.contains id = true
  unboxes : ∀ id kind, s.unboxes.find? id = some kind → s.classes.contains id = true

theorem wellFormed_empty (flag : Flag) : (empty flag).WellFormed where
  ids _ _ h := nomatch h
  params _ _ h := nomatch h
  root _ h := nomatch h
  boxes _ _ h := nomatch h
  unboxes _ _ h := nomatch h

/-- What a call adds has to be well-formed itself; the rest is as it was. -/
theorem WellFormed.of_grows (h : s.WellFormed) (hgrows : s.Grows s')
    (hids : ∀ id decl, s'.classes.find? id = some decl → decl.id = id)
    (hparams : ∀ id decl, s'.classes.find? id = some decl → s.classes.find? id = some decl ∨
      ∀ v ∈ decl.typeParams, (s'.typeParam? v).isSome = true)
    (hroot : ∀ id, s'.root = some id → s.root = some id ∨ s'.classes.contains id = true)
    (hboxes : ∀ kind id, s'.boxes.find? kind = some id →
      s.boxes.find? kind = some id ∨ s'.classes.contains id = true)
    (hunboxes : ∀ id kind, s'.unboxes.find? id = some kind →
      s.unboxes.find? id = some kind ∨ s'.classes.contains id = true) : s'.WellFormed where
  ids := hids
  params id decl hdecl := by
    rcases hparams id decl hdecl with hold | hnew
    · exact fun v hv => hgrows.typeParam?_isSome (h.params id decl hold v hv)
    · exact hnew
  root id hid := (hroot id hid).elim (fun hold => hgrows.contains (h.root id hold)) fun hnew => hnew
  boxes kind id hid :=
    (hboxes kind id hid).elim (fun hold => hgrows.contains (h.boxes kind id hold)) fun hnew => hnew
  unboxes id kind hid :=
    (hunboxes id kind hid).elim (fun hold => hgrows.contains (h.unboxes id kind hold))
      fun hnew => hnew

theorem WellFormed.builtins (h : s.WellFormed) : (s.perform .builtins).2.WellFormed := by
  refine h.of_grows (grows_perform s _) (keyed_perform h.ids _) ?_ ?_ ?_ ?_
  · intro id decl hdecl
    rw [find?_classes_builtins, Option.or_eq_some_iff] at hdecl
    rcases hdecl with hold | ⟨-, hnew⟩
    · exact .inl hold
    · rw [typeParams_of_mem_builtinDecls (List.mem_of_find?_eq_some hnew)]
      exact .inr nofun
  · intro id hid
    rw [root_builtins] at hid
    obtain rfl := Option.some.inj hid
    exact .inr contains_builtins_object
  · intro kind id hid
    rcases find?_boxes_builtins_eq_some_iff.1 hid with hmem | ⟨-, hold⟩
    · exact .inr (contains_builtins_of_mem_builtinBoxes hmem)
    · exact .inl hold
  · intro id kind hid
    rcases find?_unboxes_builtins_eq_some_iff.1 hid with hmem | ⟨-, hold⟩
    · exact .inr (contains_builtins_of_mem_builtinBoxes hmem)
    · exact .inl hold

theorem WellFormed.declare (h : s.WellFormed) (decl : ClassDecl) :
    (s.perform (.declare decl)).2.WellFormed := by
  have hgrows := grows_perform s (.declare decl)
  have hids := keyed_perform h.ids (.declare decl)
  cases hanswer : (s.perform (.declare decl)).1 with
  | error err => rwa [perform_of_error hanswer]
  | ok id =>
    have hperform : s.perform (.declare decl) = (.ok id, (s.perform (.declare decl)).2) :=
      Prod.ext hanswer rfl
    obtain ⟨⟨-, hparams⟩, -, hs'⟩ := perform_declare_eq_ok_iff.1 hperform
    rw [hs'] at hgrows hids ⊢
    refine h.of_grows hgrows hids ?_ (fun _ hold => .inl hold) (fun _ _ hold => .inl hold)
      fun _ _ hold => .inl hold
    intro id decl' hdecl
    rw [Dictionary.find?_insert] at hdecl
    split at hdecl
    · rw [← Option.some.inj hdecl]
      exact .inr hparams
    · exact .inl hdecl

theorem WellFormed.box (h : s.WellFormed) (kind : Primitive) (id : ClassId) :
    (s.perform (.box kind id)).2.WellFormed := by
  have hgrows := grows_perform s (.box kind id)
  by_cases hid : s.classes.contains id = true
  · have htables : (s.perform (.box kind id)).2.classes = s.classes ∧
        (s.perform (.box kind id)).2.root = s.root := by
      rw [perform_box, if_pos hid]
      exact ⟨rfl, rfl⟩
    refine h.of_grows hgrows (keyed_perform h.ids _) ?_ ?_ ?_ ?_
    · rw [htables.1]
      exact fun _ _ hold => .inl hold
    · rw [htables.2]
      exact fun _ hold => .inl hold
    · intro k i hbox
      rcases (find?_boxes_box_eq_some_iff hid).1 hbox with ⟨-, rfl⟩ | ⟨-, hold⟩
      · exact .inr (hgrows.contains hid)
      · exact .inl hold
    · intro i k hunbox
      rcases (find?_unboxes_box_eq_some_iff hid).1 hunbox with ⟨-, rfl⟩ | ⟨-, -, hold⟩
      · exact .inr (hgrows.contains hid)
      · exact .inl hold
  · rw [perform_box, if_neg hid]
    exact h

theorem WellFormed.perform (h : s.WellFormed) (e : Edit) : (s.perform e).2.WellFormed := by
  have hgrows := grows_perform s e
  cases e with
  | param name bound =>
    exact h.of_grows hgrows h.ids (fun _ _ hold => .inl hold) (fun _ hold => .inl hold)
      (fun _ _ hold => .inl hold) fun _ _ hold => .inl hold
  | declare decl => exact h.declare decl
  | root id =>
    rw [perform_root]
    split
    · rename_i hid
      refine ⟨h.ids, h.params, ?_, h.boxes, h.unboxes⟩
      rintro _ ⟨⟩
      exact hid
    · exact h
  | box kind id => exact h.box kind id
  | builtins => exact h.builtins
  | watch flag => exact ⟨h.ids, h.params, h.root, h.boxes, h.unboxes⟩

theorem WellFormed.build (h : s.WellFormed) (edits : List Edit) : (s.build edits).WellFormed := by
  induction edits using List.reverseRecOn with
  | nil => exact h
  | append_singleton edits e ih =>
    rw [build_concat]
    exact ih.perform e

/-! ### Type parameters -/

theorem size_typeParams_perform (s : Store) (e : Edit) :
    (s.perform e).2.typeParams.size = s.typeParams.size + if e.allocates then 1 else 0 := by
  cases e with
  | param name bound => exact Array.size_push _
  | declare decl =>
    rw [perform_declare]
    split
    · rfl
    · split <;> rfl
  | root id =>
    rw [perform_root]
    split <;> rfl
  | box kind id =>
    rw [perform_box]
    split <;> rfl
  | builtins =>
    rw [typeParams_builtins]
    rfl
  | watch flag => rfl

theorem size_typeParams_build (s : Store) (edits : List Edit) :
    (s.build edits).typeParams.size = s.typeParams.size + edits.countP Edit.allocates := by
  induction edits using List.reverseRecOn with
  | nil => rfl
  | append_singleton edits e ih =>
    rw [build_concat, size_typeParams_perform, ih, List.countP_append, List.countP_singleton,
      Nat.add_assoc]

/-- The parameter that would be allocated next. -/
def nextParam (s : Store) : TypeVar := ⟨UInt32.ofNat s.typeParams.size⟩

theorem perform_param (s : Store) (name : String) (bound : Option Ty) :
    s.perform (.param name bound) =
      (.ok s.nextParam, { s with typeParams := s.typeParams.push ⟨name, bound⟩ }) := rfl

theorem toNat_index_nextParam (h : s.typeParams.size < UInt32.size) :
    s.nextParam.index.toNat = s.typeParams.size :=
  UInt32.toNat_ofNat_of_lt h

theorem nextParam_ne (h : s.typeParams.size < s'.typeParams.size)
    (hsize : s'.typeParams.size < UInt32.size) : s.nextParam ≠ s'.nextParam := by
  intro heq
  have hindex := congrArg (fun v => v.index.toNat) heq
  simp only [toNat_index_nextParam hsize, toNat_index_nextParam (Nat.lt_trans h hsize)] at hindex
  omega

/-! ### What a call is made for -/

theorem tookEffect_of_ok {e : Edit} {result : e.Result} (h : (s.perform e).1 = .ok result) :
    e.TookEffect result (s.perform e).2 := by
  cases e with
  | param name bound => exact Array.back?_push
  | declare decl =>
    have hperform : s.perform (.declare decl) = (.ok result, (s.perform (.declare decl)).2) :=
      Prod.ext h rfl
    obtain ⟨-, rfl, hs'⟩ := perform_declare_eq_ok_iff.1 hperform
    rw [hs']
    refine ⟨rfl, ?_⟩
    rw [Dictionary.find?_insert, if_pos rfl]
  | root id =>
    rw [perform_root] at h ⊢
    split at h
    · rw [if_pos (by assumption)]
      rfl
    · cases h
  | box kind id =>
    have hid : s.classes.contains id = true := by
      rw [perform_box] at h
      split at h
      · assumption
      · cases h
    exact ⟨(find?_boxes_box_eq_some_iff hid).2 (.inl ⟨rfl, rfl⟩),
      (find?_unboxes_box_eq_some_iff hid).2 (.inl ⟨rfl, rfl⟩)⟩
  | builtins =>
    refine ⟨fun decl hdecl => contains_builtins hdecl, root_builtins s, ?_⟩
    intro kind id hmem
    exact ⟨find?_boxes_builtins_eq_some_iff.2 (.inl hmem),
      find?_unboxes_builtins_eq_some_iff.2 (.inl hmem)⟩
  | watch flag => rfl

/-! ### All calls -/

/-- Let tables be built from the empty ones, or from those of the built-in classes, by any calls.
They are well-formed. The next call, whichever it is, changes nothing that was declared; it is
refused and leaves the tables as they are, or it takes effect. As long as fewer than `UInt32.size`
type parameters have been allocated, the next one is told apart from all before it and has the name
and the bound that it was given. Adding the built-in classes twice is adding them once. A registry
with the first tables has these tables after the same calls, and the next call on it has the same
answer and leaves the same tables. -/
theorem build_wellFormed_atomic {start : Store} {flag : Flag}
    (hstart : start = empty flag ∨ start = builtin flag) (edits : List Edit) :
    let s := start.build edits
    s.WellFormed ∧
    (∀ e, s.Grows (s.perform e).2) ∧
    (∀ e err, (s.perform e).1 = .error err → (s.perform e).2 = s) ∧
    (∀ e result, (s.perform e).1 = .ok result → e.TookEffect result (s.perform e).2) ∧
    (edits.countP Edit.allocates < UInt32.size → ∀ name bound, ∃ v,
      (s.perform (.param name bound)).1 = .ok v ∧
      (s.perform (.param name bound)).2.typeParam? v = some ⟨name, bound⟩ ∧
      ∀ before name' bound' after, edits = before ++ .param name' bound' :: after →
        ((start.build before).perform (.param name' bound')).1 ≠ .ok v) ∧
    (s.perform .builtins).2.perform .builtins = s.perform .builtins ∧
    (∀ reg : Registry, reg.store = start → (reg.build edits).store = s ∧
      ∀ e, ((reg.build edits).perform e).1 = (s.perform e).1 ∧
        ((reg.build edits).perform e).2.store = (s.perform e).2) := by
  intro s
  have hwellFormed : start.WellFormed := by
    rcases hstart with rfl | rfl
    · exact wellFormed_empty flag
    · exact (wellFormed_empty flag).builtins
  have hnone : start.typeParams.size = 0 := by
    rcases hstart with rfl | rfl
    · rfl
    · exact congrArg Array.size (typeParams_builtins (empty flag))
  have hsize (calls : List Edit) :
      (start.build calls).typeParams.size = calls.countP Edit.allocates := by
    rw [size_typeParams_build, hnone, Nat.zero_add]
  refine ⟨hwellFormed.build edits, fun e => grows_perform s e, fun e err => perform_of_error,
    fun e result => tookEffect_of_ok, ?_, perform_builtins_builtins s, ?_⟩
  · intro hcount name bound
    rw [← hsize edits] at hcount
    refine ⟨s.nextParam, rfl, ?_, ?_⟩
    · rw [perform_param, typeParam?, toNat_index_nextParam hcount]
      exact Array.getElem?_push_size
    · -- Fewer parameters had been allocated before the earlier call, so that its index is smaller.
      intro before name' bound' after hsplit heq
      have hfewer : (start.build before).typeParams.size < s.typeParams.size := by
        rw [hsize, hsize, hsplit, List.countP_append, List.countP_cons_of_pos rfl]
        omega
      rw [perform_param] at heq
      exact nextParam_ne hfewer hcount (Except.ok.inj heq)
  · rintro reg rfl
    have hstore : (reg.build edits).store = s := reg.store_build edits
    refine ⟨hstore, fun e => ?_⟩
    rw [← hstore]
    exact ⟨rfl, rfl⟩

/-- A class that is its own superclass, and whose parameter is bounded by it, is the root and stands
for `int`. It cannot be declared again, and a class that is not declared cannot take its place. -/
theorem build_wellFormed_atomic_cell :
    let cell : ClassDecl := { id := ⟨1⟩, name := "Cell", typeParams := [⟨0⟩],
                              superclass := some ⟨⟨1⟩, [.array (.var ⟨0⟩)]⟩ }
    let edits : List Edit :=
      [.param "T" (some (.simple ⟨1⟩)), .declare cell, .root ⟨1⟩, .box .int ⟨1⟩]
    let s := (empty ⟨0⟩).build edits
    s.WellFormed ∧ ((Registry.empty ⟨0⟩).build edits).store = s ∧
      s.perform (.declare cell) = (.error (.duplicateClass "Cell"), s) ∧
      s.perform (.box .int ⟨2⟩) = (.error (.undeclaredSpecial ⟨2⟩), s) ∧
      ∃ v, (s.perform (.param "T" none)).1 = .ok v ∧
        (s.perform (.param "T" none)).2.typeParam? v = some ⟨"T", none⟩ ∧
        ((empty ⟨0⟩).perform (.param "T" (some (.simple ⟨1⟩)))).1 ≠ .ok v := by
  intro cell edits s
  obtain ⟨hwellFormed, -, hrefused, -, hparam, -, hregistry⟩ :=
    build_wellFormed_atomic (.inl rfl : empty ⟨0⟩ = empty ⟨0⟩ ∨ empty ⟨0⟩ = builtin ⟨0⟩) edits
  obtain ⟨v, hanswer, hlookup, hne⟩ := hparam (by decide) "T" none
  exact ⟨hwellFormed, (hregistry (.empty ⟨0⟩) rfl).1, Prod.ext rfl (hrefused _ _ rfl),
    Prod.ext rfl (hrefused _ _ rfl), v, hanswer, hlookup, hne [] "T" (some (.simple ⟨1⟩)) _ rfl⟩

end Store

end MethodOperators
