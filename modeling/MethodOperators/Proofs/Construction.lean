import MethodOperators.Registry.Basic
import Mathlib.Data.List.Induction

/-! Boxes are kept in two tables, one for each direction. Not every call keeps the tables inverse to
each other: a class that comes to stand for a second primitive type stays the box of the first one,
and the boxes that built-in ones replace go on standing for their primitive types. -/

namespace MethodOperators

open Registry (builtinBoxes)

/-! ### Boxes in the tables -/

namespace Store

variable {s : Store}

theorem find?_boxes_box_eq_some_iff {kind k : Primitive} {id i : ClassId}
    (h : s.classes.contains id = true) :
    (s.perform (.box kind id)).2.boxes.find? k = some i ↔
      k = kind ∧ id = i ∨ k ≠ kind ∧ s.boxes.find? k = some i := by
  simp only [perform_box, h, if_true, Dictionary.find?_insert]
  by_cases hk : k = kind <;> simp [hk]

/-- The class that stood for the primitive type before is found no longer. -/
theorem find?_unboxes_box {kind : Primitive} {id : ClassId} (h : s.classes.contains id = true)
    (i : ClassId) :
    (s.perform (.box kind id)).2.unboxes.find? i =
      if i = id then some kind
      else if s.boxes.find? kind = some i then none else s.unboxes.find? i := by
  simp only [perform_box, h, if_true, Dictionary.find?_insert]
  cases hbox : s.boxes.find? kind with
  | none => simp
  | some previous => simp [Dictionary.find?_erase, eq_comm]

theorem find?_unboxes_box_eq_some_iff {kind k : Primitive} {id i : ClassId}
    (h : s.classes.contains id = true) :
    (s.perform (.box kind id)).2.unboxes.find? i = some k ↔
      kind = k ∧ i = id ∨ i ≠ id ∧ s.boxes.find? kind ≠ some i ∧ s.unboxes.find? i = some k := by
  rw [find?_unboxes_box h]
  by_cases hi : i = id
  · simp [hi]
  · by_cases hprevious : s.boxes.find? kind = some i <;> simp [hi, hprevious]

theorem nodup_kinds_builtinBoxes : (builtinBoxes.map Prod.fst).Nodup := by
  decide +kernel

-- The names of the built-in boxes have different hashes.
theorem nodup_ids_builtinBoxes : (builtinBoxes.map Prod.snd).Nodup := by
  decide +kernel

theorem boxes_builtins (s : Store) : (s.perform .builtins).2.boxes =
    builtinBoxes.foldl (fun boxes e => boxes.insert e.1 e.2) s.boxes := by
  simp only [perform_builtins]

theorem find?_boxes_builtins_eq_some_iff {kind : Primitive} {id : ClassId} :
    (s.perform .builtins).2.boxes.find? kind = some id ↔
      (kind, id) ∈ builtinBoxes ∨
        kind ∉ builtinBoxes.map Prod.fst ∧ s.boxes.find? kind = some id := by
  rw [boxes_builtins]
  exact Dictionary.find?_foldl_insert_eq_some_iff nodup_kinds_builtinBoxes

/-- The second table is filled with the same pairs, the other way round. -/
theorem unboxes_builtins (s : Store) : (s.perform .builtins).2.unboxes =
    (builtinBoxes.map Prod.swap).foldl (fun d e => d.insert e.1 e.2) s.unboxes := by
  simp only [perform_builtins, List.foldl_map, Prod.fst_swap, Prod.snd_swap]

theorem find?_unboxes_builtins_eq_some_iff {kind : Primitive} {id : ClassId} :
    (s.perform .builtins).2.unboxes.find? id = some kind ↔
      (kind, id) ∈ builtinBoxes ∨
        id ∉ builtinBoxes.map Prod.snd ∧ s.unboxes.find? id = some kind := by
  have hkeys : (builtinBoxes.map Prod.swap).map Prod.fst = builtinBoxes.map Prod.snd := by
    rw [List.map_map]
    rfl
  have hswap : (id, kind) ∈ builtinBoxes.map Prod.swap ↔ (kind, id) ∈ builtinBoxes := by
    constructor
    · intro h
      obtain ⟨⟨_, _⟩, hmem, heq⟩ := List.mem_map.1 h
      obtain ⟨rfl, rfl⟩ := Prod.mk.inj heq
      exact hmem
    · intro h
      exact List.mem_map_of_mem h
  rw [unboxes_builtins, Dictionary.find?_foldl_insert_eq_some_iff (hkeys ▸ nodup_ids_builtinBoxes),
    hkeys, hswap]

end Store

namespace Registry

/-- What some calls, one after the other, make of a registry. -/
def build (reg : Registry) (edits : List Edit) : Registry := edits.foldl edit reg

variable {reg : Registry}

theorem build_concat (reg : Registry) (edits : List Edit) (e : Edit) :
    reg.build (edits ++ [e]) = (reg.build edits).edit e := by
  rw [build, List.foldl_append]
  rfl

/-- The calls on a registry are those on its tables. -/
theorem store_build (reg : Registry) (edits : List Edit) :
    (reg.build edits).store = reg.store.build edits := by
  induction edits generalizing reg with
  | nil => rfl
  | cons e edits ih => exact ih (reg.edit e)

theorem edit_box_of_undeclared {kind : Primitive} {id : ClassId} (h : ¬ reg.contains id = true) :
    reg.edit (.box kind id) = reg := by
  have hstore : ¬ reg.store.classes.contains id = true := h
  have hperform : (reg.store.perform (.box kind id)).2 = reg.store := by
    rw [Store.perform_box, if_neg hstore]
  exact store_inj.1 hperform

theorem box?_edit_box_eq_some_iff {kind k : Primitive} {id i : ClassId}
    (h : reg.contains id = true) :
    (reg.edit (.box kind id)).box? k = some i ↔
      k = kind ∧ id = i ∨ k ≠ kind ∧ reg.box? k = some i :=
  Store.find?_boxes_box_eq_some_iff (s := reg.store) h

theorem unbox?_edit_box_eq_some_iff {kind k : Primitive} {id i : ClassId}
    (h : reg.contains id = true) :
    (reg.edit (.box kind id)).unbox? i = some k ↔
      kind = k ∧ i = id ∨ i ≠ id ∧ reg.box? kind ≠ some i ∧ reg.unbox? i = some k :=
  Store.find?_unboxes_box_eq_some_iff (s := reg.store) h

theorem box?_addBuiltins_eq_some_iff {kind : Primitive} {id : ClassId} :
    reg.addBuiltins.box? kind = some id ↔
      (kind, id) ∈ builtinBoxes ∨
        kind ∉ builtinBoxes.map Prod.fst ∧ reg.box? kind = some id :=
  Store.find?_boxes_builtins_eq_some_iff (s := reg.store)

theorem unbox?_addBuiltins_eq_some_iff {kind : Primitive} {id : ClassId} :
    reg.addBuiltins.unbox? id = some kind ↔
      (kind, id) ∈ builtinBoxes ∨
        id ∉ builtinBoxes.map Prod.snd ∧ reg.unbox? id = some kind :=
  Store.find?_unboxes_builtins_eq_some_iff (s := reg.store)

/-! ### Inverse tables -/

/-- The two tables of boxes are inverse to each other. -/
def BoxesInverse (reg : Registry) : Prop :=
  ∀ kind id, reg.box? kind = some id ↔ reg.unbox? id = some kind

/-- The calls that keep the tables of boxes inverse. A class that becomes the box of a primitive
type must not be the box of another one. When the built-in boxes are added, each pair of a primitive
type and its box must be built-in on both sides or on neither. -/
def Edit.KeepsBoxes (reg : Registry) : Edit → Prop
  | .box kind id => reg.contains id = true → ∀ other, reg.box? other = some id → other = kind
  | .builtins => ∀ kind id, reg.box? kind = some id →
      (kind ∈ builtinBoxes.map Prod.fst ↔ id ∈ builtinBoxes.map Prod.snd)
  | .param .. | .declare _ | .root _ | .watch _ => True

theorem boxesInverse_empty (flag : Flag) : (empty flag).BoxesInverse := by
  intro kind id
  simp [box?, unbox?, empty]

theorem boxesInverse_congr {reg' : Registry} (hboxes : reg'.boxes = reg.boxes)
    (hunboxes : reg'.unboxes = reg.unboxes) : reg'.BoxesInverse ↔ reg.BoxesInverse := by
  simp only [BoxesInverse, box?, unbox?, hboxes, hunboxes]

theorem boxesInverse_edit_box_iff (h : reg.BoxesInverse) {kind : Primitive} {id : ClassId}
    (hid : reg.contains id = true) :
    (reg.edit (.box kind id)).BoxesInverse ↔ ∀ other, reg.box? other = some id → other = kind := by
  constructor
  · intro hinverse other hother
    by_contra hne
    have hbox := (box?_edit_box_eq_some_iff hid).2 (.inr ⟨hne, hother⟩)
    rcases (unbox?_edit_box_eq_some_iff hid).1 ((hinverse other id).1 hbox) with ⟨heq, -⟩ | hold
    · exact hne heq.symm
    · exact hold.1 rfl
  · intro hother k i
    rw [box?_edit_box_eq_some_iff hid, unbox?_edit_box_eq_some_iff hid, ← h k i]
    refine or_congr (and_congr eq_comm eq_comm) ⟨?_, ?_⟩
    · rintro ⟨hk, hbox⟩
      refine ⟨?_, ?_, hbox⟩
      · rintro rfl
        exact hk (hother k hbox)
      · intro hprevious
        have hunbox : some k = some kind := ((h k i).1 hbox).symm.trans ((h kind i).1 hprevious)
        exact hk (Option.some.inj hunbox)
    · rintro ⟨-, hprevious, hbox⟩
      exact ⟨fun hk => hprevious (hk ▸ hbox), hbox⟩

theorem boxesInverse_addBuiltins_iff (h : reg.BoxesInverse) :
    reg.addBuiltins.BoxesInverse ↔ ∀ kind id, reg.box? kind = some id →
      (kind ∈ builtinBoxes.map Prod.fst ↔ id ∈ builtinBoxes.map Prod.snd) := by
  constructor
  · intro hinverse kind id hbox
    constructor
    · intro hkind
      by_contra hid
      have hunbox := unbox?_addBuiltins_eq_some_iff.2 (.inr ⟨hid, (h kind id).1 hbox⟩)
      rcases box?_addBuiltins_eq_some_iff.1 ((hinverse kind id).2 hunbox) with hmem | ⟨hnot, -⟩
      · exact hid (List.mem_map_of_mem hmem)
      · exact hnot hkind
    · intro hid
      by_contra hkind
      have hbox' := box?_addBuiltins_eq_some_iff.2 (.inr ⟨hkind, hbox⟩)
      rcases unbox?_addBuiltins_eq_some_iff.1 ((hinverse kind id).1 hbox') with hmem | ⟨hnot, -⟩
      · exact hkind (List.mem_map_of_mem hmem)
      · exact hnot hid
  · intro hpairs kind id
    rw [box?_addBuiltins_eq_some_iff, unbox?_addBuiltins_eq_some_iff, ← h kind id]
    refine or_congr_right (and_congr_left fun hbox => ?_)
    exact not_congr (hpairs kind id hbox)

theorem boxesInverse_edit_iff (h : reg.BoxesInverse) (e : Edit) :
    (reg.edit e).BoxesInverse ↔ e.KeepsBoxes reg := by
  have hsame {reg' : Registry} (hboxes : reg'.boxes = reg.boxes)
      (hunboxes : reg'.unboxes = reg.unboxes) : reg'.BoxesInverse ↔ True :=
    iff_true_intro ((boxesInverse_congr hboxes hunboxes).2 h)
  cases e with
  | param name bound => exact hsame rfl rfl
  | watch flag => exact hsame rfl rfl
  | root id =>
    have htables : (reg.store.perform (.root id)).2.boxes = reg.boxes ∧
        (reg.store.perform (.root id)).2.unboxes = reg.unboxes := by
      rw [Store.perform_root]
      split <;> exact ⟨rfl, rfl⟩
    exact hsame htables.1 htables.2
  | declare decl =>
    have htables : (reg.store.perform (.declare decl)).2.boxes = reg.boxes ∧
        (reg.store.perform (.declare decl)).2.unboxes = reg.unboxes := by
      rw [Store.perform_declare]
      split
      · exact ⟨rfl, rfl⟩
      · split <;> exact ⟨rfl, rfl⟩
    exact hsame htables.1 htables.2
  | box kind id =>
    by_cases hid : reg.contains id = true
    · rw [boxesInverse_edit_box_iff h hid]
      simp [Edit.KeepsBoxes, hid]
    · rw [edit_box_of_undeclared hid]
      simp [Edit.KeepsBoxes, hid, h]
  | builtins => exact boxesInverse_addBuiltins_iff h

/-! ### All calls -/

theorem boxesInverse_builtin (flag : Flag) : (builtin flag).BoxesInverse := by
  refine (boxesInverse_addBuiltins_iff (boxesInverse_empty flag)).2 ?_
  intro kind id hbox
  simp [box?, empty] at hbox

theorem boxesInverse_build_iff (h : reg.BoxesInverse) (edits : List Edit) :
    (∀ before, before <+: edits → (reg.build before).BoxesInverse) ↔
      ∀ before e after, edits = before ++ e :: after → e.KeepsBoxes (reg.build before) := by
  constructor
  · rintro hinverse before e after rfl
    have hbefore := hinverse before (List.prefix_append before (e :: after))
    have hnext := hinverse (before ++ [e]) ⟨after, by simp⟩
    rw [build_concat] at hnext
    exact (boxesInverse_edit_iff hbefore e).1 hnext
  · intro hkeeps before
    induction before using List.reverseRecOn with
    | nil => exact fun _ => h
    | append_singleton before e ih =>
      rintro ⟨after, rfl⟩
      have hbefore : (reg.build before).BoxesInverse := ih ⟨e :: after, by simp⟩
      rw [build_concat]
      exact (boxesInverse_edit_iff hbefore e).2 (hkeeps before e after (by simp))

/-- From the empty registry or the one of the built-in classes, the tables of boxes stay inverse to
each other through a number of calls just as long as no call among them is one that breaks them. -/
theorem build_boxesInverse_iff {start : Registry} {flag : Flag}
    (hstart : start = empty flag ∨ start = builtin flag) (edits : List Edit) :
    (∀ before, before <+: edits →
      ∀ kind id, (start.build before).box? kind = some id ↔
        (start.build before).unbox? id = some kind) ↔
      ∀ before e after, edits = before ++ e :: after → e.KeepsBoxes (start.build before) := by
  have hinverse : start.BoxesInverse := by
    rcases hstart with rfl | rfl
    · exact boxesInverse_empty flag
    · exact boxesInverse_builtin flag
  exact boxesInverse_build_iff hinverse edits

/-- A class of one's own takes the place of a built-in box. -/
theorem build_boxesInverse_iff_myInt :
    let edits : List Edit :=
      [.declare (ClassDecl.ofName "MyInt"), .box .int (ClassId.ofName "MyInt")]
    ∀ kind id, ((builtin ⟨0⟩).build edits).box? kind = some id ↔
      ((builtin ⟨0⟩).build edits).unbox? id = some kind := by
  intro edits
  have hkeeps : ∀ before e after, edits = before ++ e :: after →
      e.KeepsBoxes ((builtin ⟨0⟩).build before) := by
    intro before e after hsplit
    match before with
    | [] =>
      obtain ⟨rfl, -⟩ := List.cons.inj hsplit
      exact trivial
    | [_] =>
      obtain ⟨rfl, hrest⟩ := List.cons.inj hsplit
      obtain ⟨rfl, -⟩ := List.cons.inj hrest
      intro _ other
      cases other <;> decide +kernel
    | _ :: _ :: _ => simp [edits] at hsplit
  exact (build_boxesInverse_iff (.inr rfl) edits).2 hkeeps edits (List.prefix_refl edits)

/-- Adding the built-in boxes leaves a class of one's own standing for `int`, for which `Integer`
now stands. -/
theorem not_boxesInverse_builtins_after_box :
    ¬ ∀ kind id,
      ((empty ⟨0⟩).build [.declare (ClassDecl.ofName "MyInt"), .box .int (ClassId.ofName "MyInt"),
        .builtins]).box? kind = some id ↔
      ((empty ⟨0⟩).build [.declare (ClassDecl.ofName "MyInt"), .box .int (ClassId.ofName "MyInt"),
        .builtins]).unbox? id = some kind := by
  intro hinverse
  have hbox := (hinverse .int (ClassId.ofName "MyInt")).2 (by decide +kernel)
  exact absurd hbox (by decide +kernel)

end Registry

end MethodOperators
