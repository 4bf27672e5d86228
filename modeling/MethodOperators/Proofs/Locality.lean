import MethodOperators.Proofs.Applicability
import MethodOperators.Proofs.Enumeration

/-! Resolving a call looks at the classes above its receiver and arguments, above their bounds and
above the classes that stand for them, and at no others. -/

namespace MethodOperators

open Relation (ReflTransGen)

namespace Ty

mutual

/-- The classes that occur in a type. -/
def classes : Ty → List ClassId
  | .primitive _ => []
  | .nominal id args => id :: classesAll args
  | .var _ => []
  | .array element => classes element
  | .null => []

def classesAll : List Ty → List ClassId
  | [] => []
  | t :: ts => classes t ++ classesAll ts

end

end Ty

/-! ### Registries that agree -/

namespace Registry

variable {reg reg' : Registry} {P : ClassId → Prop}

/-- `reg.AgreeOn P reg'` says that the two registries differ at most in the declarations of classes
outside `P`, and that no class of `P` has a supertype outside. -/
structure AgreeOn (P : ClassId → Prop) (reg reg' : Registry) : Prop where
  class?_eq : ∀ id, P id → reg'.class? id = reg.class? id
  typeParams_eq : reg'.typeParams = reg.typeParams
  boxes_eq : reg'.boxes = reg.boxes
  unboxes_eq : reg'.unboxes = reg.unboxes
  root_eq : reg'.root = reg.root
  flag_eq : reg'.flag = reg.flag
  closed : ∀ id sup, P id → reg.Extends id sup → P sup

namespace AgreeOn

theorem bound?_eq (h : AgreeOn P reg reg') (v : TypeVar) : reg'.bound? v = reg.bound? v := by
  simp only [bound?, typeParam?, h.typeParams_eq]

theorem box?_eq (h : AgreeOn P reg reg') (kind : Primitive) : reg'.box? kind = reg.box? kind := by
  simp only [box?, h.boxes_eq]

theorem unbox?_eq (h : AgreeOn P reg reg') (id : ClassId) : reg'.unbox? id = reg.unbox? id := by
  simp only [unbox?, h.unboxes_eq]

theorem isRoot_eq (h : AgreeOn P reg reg') (id : ClassId) : reg'.isRoot id = reg.isRoot id := by
  simp only [isRoot, h.root_eq]

theorem contains_eq (h : AgreeOn P reg reg') {id : ClassId} (hid : P id) :
    reg'.contains id = reg.contains id :=
  congrArg Option.isSome (h.class?_eq id hid)

theorem bindingOf_eq (h : AgreeOn P reg reg') {ct : ClassType} (hct : P ct.id) :
    reg'.bindingOf ct = reg.bindingOf ct := by
  have herasing (params : List TypeVar) : reg'.erasing params = reg.erasing params := by
    simp only [erasing, erasure?, h.bound?_eq, h.root_eq]
  simp only [bindingOf, h.class?_eq ct.id hct, herasing]

theorem supertypes_eq (h : AgreeOn P reg reg') {ct : ClassType} (hct : P ct.id) :
    reg'.supertypes ct = reg.supertypes ct := by
  simp only [supertypes, h.class?_eq ct.id hct, h.bindingOf_eq hct, implicitRoot?, h.root_eq]

theorem ownOverloads_eq (h : AgreeOn P reg reg') {ct : ClassType} (hct : P ct.id)
    (name : String) : reg'.ownOverloads name ct = reg.ownOverloads name ct := by
  simp only [ownOverloads, h.class?_eq ct.id hct, h.bindingOf_eq hct]

theorem of_step (h : AgreeOn P reg reg') {ct sup : ClassType} (hct : P ct.id)
    (hsup : reg.Step ct sup) : P sup.id :=
  h.closed ct.id sup.id hct (extends_iff.2 ⟨sup, hsup, rfl⟩)

/-- A walk that starts inside `P` meets what is inside `P` only, so that it goes the same way. -/
theorem walk_eq (h : AgreeOn P reg reg') (order : Order) (seen : List ClassId)
    (pending : List ClassType) (hpending : ∀ ct ∈ pending, P ct.id) :
    reg'.walk order seen pending = reg.walk order seen pending := by
  induction seen, pending using walk_induction reg order with
  | nil seen => rw [walk_nil, walk_nil]
  | skip seen ct pending hmem ih =>
    rw [walk_cons_of_mem hmem, walk_cons_of_mem hmem]
    exact ih fun x hx => hpending x (List.mem_cons_of_mem ct hx)
  | visit seen ct pending hmem ih =>
    have hct : P ct.id := hpending ct List.mem_cons_self
    rw [walk_cons_of_notMem hmem, walk_cons_of_notMem hmem, h.supertypes_eq hct, ih]
    intro x hx
    rcases Order.mem_schedule.1 hx with hmet | hlater
    · exact h.of_step hct hmet
    · exact hpending x (List.mem_cons_of_mem ct hlater)

theorem ancestors_eq (h : AgreeOn P reg reg') (order : Order) {ct : ClassType} (hct : P ct.id) :
    reg'.ancestors order ct = reg.ancestors order ct := by
  refine h.walk_eq order [] [ct] fun x hx => ?_
  rwa [List.mem_singleton.1 hx]

theorem of_mem_ancestors (h : AgreeOn P reg reg') {order : Order} {ct x : ClassType}
    (hct : P ct.id) (hx : x ∈ reg.ancestors order ct) : P x.id := by
  have hreach := reaches_of_mem_ancestors hx
  clear hx
  induction hreach with
  | refl => exact hct
  | tail _ hstep ih => exact h.of_step ih hstep

theorem overloads_eq (h : AgreeOn P reg reg') {id : ClassId} (hid : P id) (name : String) :
    reg'.overloads id name = reg.overloads id name := by
  have hclass := h.class?_eq id hid
  cases hdecl : reg.class? id with
  | none => simp only [overloads, hclass, hdecl]
  | some decl =>
    have hown : P decl.ownType.id := by
      rw [ClassDecl.ownType, id_of_class? hdecl]
      exact hid
    -- The look beforehand changes no answer, so that only the two walks have to be compared.
    rw [overloads_eq_overloadsOf hdecl, overloads_eq_overloadsOf (hclass.trans hdecl), overloadsOf,
      overloadsOf, h.ancestors_eq .depthFirst hown]
    exact List.flatMap_congr fun x hx => h.ownOverloads_eq (h.of_mem_ancestors hown hx) name

theorem isSubtype_eq (h : AgreeOn P reg reg') {sub : ClassType} (hsub : P sub.id)
    (sup : ClassType) : reg'.isSubtype sub sup = reg.isSubtype sub sup := by
  simp only [isSubtype, h.isRoot_eq, h.ancestors_eq .breadthFirst hsub]

/-- The way from a type to what it stands for leads to bounds and boxes. If these are made of classes
in `P` as the type is, every conversion of it is. -/
theorem assignableWithin_eq (h : AgreeOn P reg reg')
    (hbounds : ∀ v t, reg.bound? v = some t → ∀ id ∈ t.classes, P id)
    (hboxes : ∀ kind id, reg.box? kind = some id → P id) (fuel : Nat) (target source : Ty)
    (hsource : ∀ id ∈ source.classes, P id) :
    reg'.assignableWithin fuel target source = reg.assignableWithin fuel target source := by
  induction fuel generalizing target source with
  | zero => rfl
  | succ fuel ih =>
    have hbox (kind : Primitive) :
        ((reg'.box? kind).any fun box => reg'.assignableWithin fuel target (.simple box)) =
          (reg.box? kind).any fun box => reg.assignableWithin fuel target (.simple box) := by
      rw [h.box?_eq]
      cases hkind : reg.box? kind with
      | none => rfl
      | some id =>
        refine ih target (.simple id) fun x hx => ?_
        rw [List.mem_singleton.1 hx]
        exact hboxes kind id hkind
    unfold assignableWithin
    split
    · rfl
    · split
      · rfl
      · cases source with
        | null => rfl
        | primitive k =>
          cases target with
          | primitive l => rfl
          | null => rfl
          | nominal | var | array => exact hbox k
        | nominal sub args =>
          cases target with
          | primitive l => simp only [h.unbox?_eq]
          | nominal sup params =>
            have hsub : P (ClassType.mk sub args).id := hsource sub List.mem_cons_self
            exact h.isSubtype_eq hsub ⟨sup, params⟩
          | null | var | array => rfl
        | array s =>
          cases target with
          | nominal id params => exact h.isRoot_eq id
          | array t => simp only [ih t s hsource]
          | primitive | null | var => rfl
        | var v =>
          cases target with
          | primitive | null => rfl
          | nominal | var | array =>
            simp only [h.bound?_eq, h.isRoot_eq]
            cases hv : reg.bound? v with
            | none => rfl
            | some bound => exact ih _ bound (hbounds v bound hv)

end AgreeOn

end Registry

/-! ### Questions of a call -/

variable {S : TypeSystem} {α β : Type}

namespace Inquiry

variable {answer : (question : Question S) → question.Answer} {Q : Question S → Prop}

/-- Under given answers an inquiry asks only questions with some property, also after it has been
refused an answer. -/
def AsksOnly (answer : (question : Question S) → question.Answer) (Q : Question S → Prop)
    (m : Inquiry S α) : Prop :=
  Dialogue.AsksOnly (fun question reply => ∀ a, reply = .ok a → a = answer question) Q
    (ExceptT.run m)

theorem asksOnly_pure (a : α) : (pure a : Inquiry S α).AsksOnly answer Q := trivial

theorem asksOnly_ask_bind {question : Question S} {f : question.Answer → Inquiry S α}
    (hquestion : Q question) (hf : (f (answer question)).AsksOnly answer Q) :
    (ask question >>= f).AsksOnly answer Q := by
  refine ⟨hquestion, fun reply hreply => ?_⟩
  cases reply with
  | error e => exact trivial
  | ok a =>
    obtain rfl := hreply a rfl
    exact hf

theorem AsksOnly.bind {m : Inquiry S α} {f : α → Inquiry S β} (hm : m.AsksOnly answer Q)
    (hf : ∀ a, (f a).AsksOnly answer Q) : (m >>= f).AsksOnly answer Q :=
  Dialogue.AsksOnly.bind hm hf

end Inquiry

section Asking

variable {answer : (question : Question S) → question.Answer} {Q : Question S → Prop}

open Inquiry (asksOnly_pure asksOnly_ask_bind)

theorem asksOnly_accepts {s : S.Subst} {params args : List S.Ty}
    (hassign : ∀ target, ∀ arg ∈ args, Q (.assignable target arg)) :
    (accepts s params args).AsksOnly answer Q := by
  induction params generalizing args with
  | nil => cases args <;> exact asksOnly_pure _
  | cons param params ih =>
    cases args with
    | nil => exact asksOnly_pure _
    | cons arg args =>
      refine asksOnly_ask_bind (hassign _ arg List.mem_cons_self) ?_
      split
      · exact ih fun target t ht => hassign target t (List.mem_cons_of_mem arg ht)
      · exact asksOnly_pure _

theorem asksOnly_firstApplicable {s : S.Subst} {args : List S.Ty} {sigs : List (Signature S.Ty)}
    (hassign : ∀ target, ∀ arg ∈ args, Q (.assignable target arg)) :
    (firstApplicable s args sigs).AsksOnly answer Q := by
  induction sigs with
  | nil => exact asksOnly_pure _
  | cons sig sigs ih =>
    rw [firstApplicable]
    split
    · refine (asksOnly_accepts hassign).bind fun accepted => ?_
      split
      · exact asksOnly_pure _
      · exact ih
    · exact ih

theorem mem_of_allKnown {args : List (Option α)} {known : List α} (h : allKnown args = some known)
    {a : α} (ha : a ∈ known) : some a ∈ args := by
  rw [allKnown_eq_some_iff.1 h]
  exact List.mem_map_of_mem ha

/-- The resolution of a call asks for the declaration of the receiver, for the methods of that
declaration, for how the receiver fills its parameters, and for what may be used for an argument. -/
theorem asksOnly_resolve {receiver : Option S.Ty} {name : String} {args : List (Option S.Ty)}
    (hdecl : ∀ t, receiver = some t → Q (.declaration t))
    (hmethods : ∀ t d, receiver = some t → answer (.declaration t) = some d → Q (.methods d name))
    (hbinding : ∀ t, receiver = some t → Q (.binding t))
    (hassign : ∀ target t, some t ∈ args → Q (.assignable target t)) :
    (resolve receiver name args).AsksOnly answer Q := by
  unfold resolve
  split
  · rename_i t known hknown
    split
    · exact asksOnly_pure _
    · refine asksOnly_ask_bind (hdecl t rfl) ?_
      split
      · exact asksOnly_pure _
      · rename_i d hd
        refine asksOnly_ask_bind (hmethods t d rfl hd) ?_
        split
        · exact asksOnly_pure _
        · refine asksOnly_ask_bind (hbinding t rfl) ?_
          exact asksOnly_firstApplicable fun target arg harg =>
            hassign target arg (mem_of_allKnown hknown harg)
  · exact asksOnly_pure _

end Asking

namespace Registry

variable {reg reg' : Registry} {P : ClassId → Prop}

theorem run_host_congr (hflag : reg'.flag = reg.flag) {m : Inquiry classTypes α}
    (h : m.AsksOnly reg.answer fun question => reg'.answer question = reg.answer question)
    (flags : Flags) (asked : List (Question classTypes)) :
    m.run (reg'.host flags) asked = m.run (reg.host flags) asked := by
  unfold Inquiry.AsksOnly at h
  unfold Inquiry.run
  generalize ExceptT.run m = m at h ⊢
  suffices hrun : m.run (reg'.host flags) asked = m.run (reg.host flags) asked by rw [hrun]
  induction m generalizing asked with
  | done outcome => rfl
  | ask question next ih =>
    have hhost : reg'.host flags asked question = reg.host flags asked question := by
      simp only [host, hflag, h.1]
    simp only [Dialogue.run, hhost]
    exact ih _ _ (h.2 _ fun _ hanswer => answer_of_host_eq_ok hanswer)

/-! ### A class out of reach -/

/-- The classes at which the resolution of a call starts to look: those of its receiver and its
arguments, of the bounds of type parameters, and those that stand for primitive types. -/
inductive Mentions (reg : Registry) (receiver : Option Ty) (args : List (Option Ty)) :
    ClassId → Prop
  | receiver {t : Ty} {id : ClassId} (ht : receiver = some t) (hid : id ∈ t.classes) :
      Mentions reg receiver args id
  | arg {t : Ty} {id : ClassId} (ht : some t ∈ args) (hid : id ∈ t.classes) :
      Mentions reg receiver args id
  | bound {v : TypeVar} {t : Ty} {id : ClassId} (ht : reg.bound? v = some t)
      (hid : id ∈ t.classes) : Mentions reg receiver args id
  | box {kind : Primitive} {id : ClassId} (hid : reg.box? kind = some id) :
      Mentions reg receiver args id

theorem AgreeOn.isAssignable_eq (h : AgreeOn P reg reg') {receiver : Option Ty}
    {args : List (Option Ty)} (hmentions : ∀ id, reg.Mentions receiver args id → P id)
    (target : Ty) {t : Ty} (ht : some t ∈ args) :
    reg'.isAssignable target t = reg.isAssignable target t :=
  h.assignableWithin_eq (fun _ _ hbound _ hid => hmentions _ (.bound hbound hid))
    (fun _ _ hbox => hmentions _ (.box hbox)) _ target t fun _ hid => hmentions _ (.arg ht hid)

theorem AgreeOn.run_resolve_eq (h : AgreeOn P reg reg') {receiver : Option Ty}
    {args : List (Option Ty)} (hmentions : ∀ id, reg.Mentions receiver args id → P id)
    (name : String) (flags : Flags) (asked : List (Question classTypes)) :
    (resolve (S := classTypes) receiver name args).run (reg'.host flags) asked =
      (resolve (S := classTypes) receiver name args).run (reg.host flags) asked := by
  have hclass (ct : ClassType) (hct : receiver = some ct.toTy) : P ct.id :=
    hmentions _ (.receiver hct List.mem_cons_self)
  refine run_host_congr h.flag_eq (asksOnly_resolve ?_ ?_ ?_ ?_) flags asked
  · intro t ht
    cases t with
    | nominal id params =>
      have hcontains : reg'.contains id = reg.contains id :=
        h.contains_eq (hclass ⟨id, params⟩ ht)
      simp only [answer, Ty.asClass?, Option.map_some, Option.filter, hcontains]
    | primitive | var | array | null => rfl
  · intro t id ht hid
    cases t with
    | nominal id' params =>
      have hdeclared : (some id').filter reg.contains = some id := hid
      obtain ⟨hsome, -⟩ := Option.filter_eq_some_iff.1 hdeclared
      obtain rfl : id' = id := Option.some.inj hsome
      exact h.overloads_eq (hclass ⟨id', params⟩ ht) name
    | primitive | var | array | null => cases hid
  · intro t ht
    cases t with
    | nominal id params => exact h.bindingOf_eq (hclass ⟨id, params⟩ ht)
    | primitive | var | array | null => rfl
  · intro target t ht
    exact h.isAssignable_eq hmentions target ht

/-- Let a class be declared that cannot be reached from the classes at which the resolution of a call
starts to look. The call is resolved as before, by the same questions, and what may be used for its
arguments is the same. -/
theorem declareClass_leaves_call {decl : ClassDecl} (hdecl : reg.declareClass decl = .ok reg')
    {receiver : Option Ty} {args : List (Option Ty)}
    (hfar : ∀ id, reg.Mentions receiver args id → ¬ ReflTransGen reg.Extends id decl.id)
    (name : String) :
    (∀ (flags : Flags) (asked : List (Question classTypes)),
      (resolve (S := classTypes) receiver name args).run (reg'.host flags) asked =
        (resolve (S := classTypes) receiver name args).run (reg.host flags) asked) ∧
    ∀ target t, some t ∈ args → reg'.isAssignable target t = reg.isAssignable target t := by
  obtain ⟨-, -, rfl⟩ := declareClass_eq_ok_iff.1 hdecl
  have hagree : AgreeOn (fun id => ¬ ReflTransGen reg.Extends id decl.id) reg
      { reg with classes := reg.classes.declare decl } := by
    refine ⟨fun id hid => ?_, rfl, rfl, rfl, rfl, rfl, fun id sup hid hsup hreach => ?_⟩
    · have hne : id ≠ decl.id := by
        rintro rfl
        exact hid .refl
      rw [class?, ClassTable.find?_declare, if_neg hne]
      rfl
    · exact hid (.head hsup hreach)
  exact ⟨hagree.run_resolve_eq hfar name, fun target t => hagree.isAssignable_eq hfar target⟩

theorem eq_of_reaches_of_unnamed {id far : ClassId}
    (hclauses : ∀ decl ∈ reg.classes.decls, ∀ ct ∈ decl.clauses, ct.id ≠ far)
    (hroot : reg.root ≠ some far) (h : ReflTransGen reg.Extends id far) : id = far := by
  cases h with
  | refl => rfl
  | tail _ hlast =>
    cases hlast with
    | clause hdecl hsup => exact absurd rfl (hclauses _ (ClassTable.mem_of_find? hdecl) _ hsup)
    | root _ _ hroot' _ => exact absurd hroot' hroot

/-- The classes of `boxRegistry` with a class that stands for `int` and a bound. -/
def boundedBoxRegistry : Registry :=
  { boxRegistry with
    boxes := .ofList [(.int, ⟨3⟩)]
    typeParams := #[⟨"T", some (.array (.simple ⟨2⟩))⟩, ⟨"U", none⟩] }

/-- A class `Crate` that extends `Box<Crate>`, and has a method of the name that is called. -/
def crateDecl : ClassDecl where
  id := ⟨7⟩
  name := "Crate"
  superclass := some ⟨⟨1⟩, [.simple ⟨7⟩]⟩
  methods := [⟨"add", ⟨[.primitive .int], .simple ⟨7⟩⟩, ⟨false⟩⟩]

/-- No class names `Crate`, so that a call of `add` on a `Box` and an `int` takes no notice of it. -/
theorem declareClass_leaves_call_crate :
    ∃ reg', boundedBoxRegistry.declareClass crateDecl = .ok reg' ∧
      ∀ (flags : Flags) (asked : List (Question classTypes)),
        (resolve (S := classTypes) (some (.nominal ⟨1⟩ [.var ⟨0⟩])) "add"
            [some (.primitive .int)]).run (reg'.host flags) asked =
          (resolve (S := classTypes) (some (.nominal ⟨1⟩ [.var ⟨0⟩])) "add"
            [some (.primitive .int)]).run (boundedBoxRegistry.host flags) asked := by
  have hunnamed {id : ClassId}
      (hreach : ReflTransGen boundedBoxRegistry.Extends id crateDecl.id) : id = ⟨7⟩ :=
    eq_of_reaches_of_unnamed (by decide) (by decide) hreach
  have hbounds : ∀ param ∈ boundedBoxRegistry.typeParams,
      (⟨7⟩ : ClassId) ∉ (param.bound.map Ty.classes).getD [] := by decide
  obtain ⟨reg', hdecl⟩ : ∃ reg', boundedBoxRegistry.declareClass crateDecl = .ok reg' := ⟨_, rfl⟩
  refine ⟨reg', hdecl, (declareClass_leaves_call hdecl ?_ "add").1⟩
  intro id hmentions hreach
  obtain rfl := hunnamed hreach
  cases hmentions with
  | receiver ht hid =>
    obtain rfl := Option.some.inj ht
    revert hid
    decide
  | arg ht hid =>
    obtain rfl := Option.some.inj (List.mem_singleton.1 ht)
    cases hid
  | @bound v t _ ht hid =>
    obtain ⟨param, hparam, hbound⟩ := Option.bind_eq_some_iff.1 ht
    refine hbounds param (Array.mem_of_getElem? hparam) ?_
    rw [hbound]
    exact hid
  | @box kind _ hid =>
    revert hid
    cases kind <;> decide

end Registry

end MethodOperators
