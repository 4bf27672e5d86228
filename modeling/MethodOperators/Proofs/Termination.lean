import MethodOperators.Proofs.Collection
import MethodOperators.Registry.Subtyping

/-! The search that decides subtyping and the procedure that collects methods, cut into turns.
Clauses may go round, and what waits may be ever larger and ever more. Both come to an end because a
class is marked before its declaration is opened. -/

namespace MethodOperators

open Relation (ReflTransGen)

/-! ### Procedures that go turn by turn -/

/-- What a turn comes to: the result, or a state to go on from. In the latter case the turn may have
opened the declaration of a class. -/
inductive Turn (σ α : Type) where
  | stop (result : α)
  | goOn (opened : Option ClassId) (next : σ)

namespace Turn

variable {σ α : Type} {turn : σ → Turn σ α}

/-- The procedure ends: after finitely many turns from a state there is a result. The classes that were
opened on the way are listed in order. -/
inductive EndsWith (turn : σ → Turn σ α) : σ → List ClassId → α → Prop
  | stop {s : σ} {result : α} (h : turn s = .stop result) : EndsWith turn s [] result
  | goOn {s next : σ} {opened : Option ClassId} {later : List ClassId} {result : α}
    (h : turn s = .goOn opened next) (hnext : EndsWith turn next later result) :
    EndsWith turn s (opened.toList ++ later) result

theorem EndsWith.result_of_stop {s : σ} {opened : List ClassId} {result result' : α}
    (h : EndsWith turn s opened result) (hturn : turn s = .stop result') : result = result' := by
  cases h with
  | stop h => exact stop.inj (h.symm.trans hturn)
  | goOn h _ => cases h.symm.trans hturn

theorem EndsWith.of_goOn {s next : σ} {opened : List ClassId} {id : Option ClassId} {result : α}
    (h : EndsWith turn s opened result) (hturn : turn s = .goOn id next) :
    ∃ later, EndsWith turn next later result := by
  cases h with
  | stop h => cases h.symm.trans hturn
  | goOn h hnext =>
    obtain ⟨-, rfl⟩ := goOn.inj (h.symm.trans hturn)
    exact ⟨_, hnext⟩

theorem exists_endsWith (turn : σ → Turn σ α) (measure : σ → Nat × Nat)
    (h : ∀ s opened next, turn s = .goOn opened next →
      Prod.Lex (· < ·) (· < ·) (measure next) (measure s)) (s : σ) :
    ∃ opened result, EndsWith turn s opened result := by
  have hwf : WellFounded (InvImage (Prod.Lex (· < ·) (· < ·)) measure) :=
    InvImage.wf measure (Prod.lex Nat.lt_wfRel Nat.lt_wfRel).wf
  induction s using hwf.induction with
  | _ s ih =>
    cases hturn : turn s with
    | stop result => exact ⟨[], result, .stop hturn⟩
    | goOn opened next =>
      obtain ⟨later, result, hnext⟩ := ih next (h s opened next hturn)
      exact ⟨_, result, .goOn hturn hnext⟩

/-- A turn leaves all marks in place. Where it opens a class, that class has no mark before and has one
afterwards. -/
structure Marks (turn : σ → Turn σ α) (marked : σ → List ClassId) : Prop where
  kept : ∀ s opened next, turn s = .goOn opened next → marked s ⊆ marked next
  fresh : ∀ s id next, turn s = .goOn (some id) next → id ∉ marked s ∧ id ∈ marked next

theorem Marks.nodup {marked : σ → List ClassId} (h : Marks turn marked) {s : σ}
    {opened : List ClassId} {result : α} (hend : EndsWith turn s opened result) :
    opened.Nodup ∧ ∀ id ∈ opened, id ∉ marked s := by
  induction hend with
  | stop => simp
  | @goOn s next opened later result hturn _ ih =>
    have hlater (id : ClassId) (hid : id ∈ later) : id ∉ marked s := fun hmark =>
      ih.2 id hid (h.kept s opened next hturn hmark)
    cases opened with
    | none => exact ⟨ih.1, hlater⟩
    | some id =>
      obtain ⟨hfresh, hmark⟩ := h.fresh s id next hturn
      refine ⟨List.nodup_cons.2 ⟨fun hid => ih.2 id hid hmark, ih.1⟩, fun id' hid' => ?_⟩
      rcases List.mem_cons.1 hid' with rfl | hid'
      · exact hfresh
      · exact hlater id' hid'

end Turn

namespace Registry

variable {reg : Registry}

/-- Marking a class lowers the number of declared classes without a mark, or else less is waiting. -/
theorem lex_of_mark {id : ClassId} {seen : List ClassId} {after before : Nat} (hs : id ∉ seen)
    (h : reg.class? id = none → after < before) :
    Prod.Lex (· < ·) (· < ·) (reg.classes.unseen (id :: seen), after)
      (reg.classes.unseen seen, before) := by
  cases hdecl : reg.class? id with
  | some decl => exact .left _ _ (ClassTable.unseen_cons_lt hdecl hs)
  | none =>
    rcases Nat.lt_or_eq_of_le (reg.classes.unseen_cons_le id seen) with hlt | heq
    · exact .left _ _ hlt
    · rw [heq]
      exact .right _ (h hdecl)

/-! ### The search for a supertype -/

/-- Where a search stands. -/
structure Search where
  seen : List ClassId
  /-- The class types that wait, the next one first. -/
  queue : List ClassType

/-- The declared classes that are not marked, and the class types that wait. -/
def Search.measure (reg : Registry) (s : Search) : Nat × Nat :=
  (reg.classes.unseen s.seen, s.queue.length)

/-- One turn of the search for `sup`. A class that is marked is passed over. The class of `sup` settles
the search if its arguments fit, and its supertypes are of no interest. Any other class is opened, and
its supertypes go to the end of the queue. -/
def searchTurn (reg : Registry) (sup : ClassType) : Search → Turn Search Bool
  | ⟨_, []⟩ => .stop false
  | ⟨seen, ct :: queue⟩ =>
    if ct.id ∈ seen then .goOn none ⟨seen, queue⟩
    else if ct.id = sup.id then
      if ct.fits sup then .stop true else .goOn none ⟨ct.id :: seen, queue⟩
    else .goOn (some ct.id) ⟨ct.id :: seen, queue ++ reg.supertypes ct⟩

theorem searchTurn_cases {sup : ClassType} {s next : Search} {opened : Option ClassId}
    (h : reg.searchTurn sup s = .goOn opened next) :
    ∃ ct queue, s.queue = ct :: queue ∧
      (ct.id ∈ s.seen ∧ opened = none ∧ next = ⟨s.seen, queue⟩ ∨
       ct.id ∉ s.seen ∧ ct.id = sup.id ∧ ct.fits sup = false ∧ opened = none ∧
         next = ⟨ct.id :: s.seen, queue⟩ ∨
       ct.id ∉ s.seen ∧ ct.id ≠ sup.id ∧ opened = some ct.id ∧
         next = ⟨ct.id :: s.seen, queue ++ reg.supertypes ct⟩) := by
  obtain ⟨seen, _ | ⟨ct, queue⟩⟩ := s
  · cases h
  · refine ⟨ct, queue, rfl, ?_⟩
    simp only [searchTurn] at h
    by_cases hseen : ct.id ∈ seen
    · rw [if_pos hseen] at h
      obtain ⟨rfl, rfl⟩ := Turn.goOn.inj h
      exact .inl ⟨hseen, rfl, rfl⟩
    · rw [if_neg hseen] at h
      by_cases hid : ct.id = sup.id
      · rw [if_pos hid] at h
        split at h
        · cases h
        · rename_i hfits
          obtain ⟨rfl, rfl⟩ := Turn.goOn.inj h
          exact .inr (.inl ⟨hseen, hid, Bool.eq_false_iff.2 hfits, rfl, rfl⟩)
      · rw [if_neg hid] at h
        obtain ⟨rfl, rfl⟩ := Turn.goOn.inj h
        exact .inr (.inr ⟨hseen, hid, rfl, rfl⟩)

theorem searchTurn_lowers {sup : ClassType} {s next : Search} {opened : Option ClassId}
    (h : reg.searchTurn sup s = .goOn opened next) :
    Prod.Lex (· < ·) (· < ·) (next.measure reg) (s.measure reg) := by
  obtain ⟨ct, queue, hqueue, ⟨-, -, rfl⟩ | ⟨hseen, -, -, -, rfl⟩ | ⟨hseen, -, -, rfl⟩⟩ :=
    searchTurn_cases h
  · rw [Search.measure, Search.measure, hqueue]
    exact .right _ (Nat.lt_succ_self _)
  · rw [Search.measure, Search.measure, hqueue]
    exact lex_of_mark hseen fun _ => Nat.lt_succ_self _
  · rw [Search.measure, Search.measure, hqueue]
    refine lex_of_mark hseen fun hnone => ?_
    rw [supertypes_of_undeclared hnone, List.append_nil]
    exact Nat.lt_succ_self _

theorem searchTurn_marks (reg : Registry) (sup : ClassType) :
    Turn.Marks (reg.searchTurn sup) Search.seen where
  kept s opened next h := by
    obtain ⟨ct, queue, -, ⟨-, -, rfl⟩ | ⟨-, -, -, -, rfl⟩ | ⟨-, -, -, rfl⟩⟩ := searchTurn_cases h
    · exact List.Subset.refl _
    · exact List.subset_cons_self _ _
    · exact List.subset_cons_self _ _
  fresh s id next h := by
    obtain ⟨ct, queue, -, ⟨-, hid, -⟩ | ⟨-, -, -, hid, -⟩ | ⟨hseen, -, hid, rfl⟩⟩ :=
      searchTurn_cases h
    · cases hid
    · cases hid
    · obtain rfl := Option.some.inj hid
      exact ⟨hseen, List.mem_cons_self⟩

/-- A walk that has looked at the class of `sup` finds nothing that fits any more. -/
theorem any_fits_walk_of_mem {order : Order} {sup : ClassType} {seen : List ClassId}
    (h : sup.id ∈ seen) (pending : List ClassType) :
    (reg.walk order seen pending).any (fun ct => ct.fits sup) = false := by
  refine List.any_eq_false.2 fun ct hct hfits => ?_
  have hid : ct.id = sup.id := by
    rw [ClassType.fits, Bool.and_eq_true, decide_eq_true_eq] at hfits
    exact hfits.1
  exact id_notMem_of_mem_walk seen pending ct hct (hid ▸ h)

/-- The search finds what a whole walk would find, though it stops early and leaves out what is above
the class of `sup`. -/
theorem search_answer {sup : ClassType} {s : Search} {opened : List ClassId} {answer : Bool}
    (h : Turn.EndsWith (reg.searchTurn sup) s opened answer) :
    answer = (reg.walk .breadthFirst s.seen s.queue).any fun ct => ct.fits sup := by
  induction h with
  | @stop s answer hstop =>
    obtain ⟨seen, _ | ⟨ct, queue⟩⟩ := s
    · obtain rfl : false = answer := Turn.stop.inj hstop
      rw [walk_nil, List.any_nil]
    · simp only [searchTurn] at hstop
      split_ifs at hstop with hseen hid hfits
      obtain rfl : true = answer := Turn.stop.inj hstop
      rw [walk_cons_of_notMem hseen, List.any_cons, hfits, Bool.true_or]
  | @goOn s next opened later answer hturn _ ih =>
    obtain ⟨seen, queue⟩ := s
    obtain ⟨ct, queue, rfl, ⟨hseen, -, rfl⟩ | ⟨hseen, hid, hfits, -, rfl⟩ | ⟨hseen, hid, -, rfl⟩⟩ :=
      searchTurn_cases hturn
    · rw [ih, walk_cons_of_mem hseen]
    · have hmark : sup.id ∈ ct.id :: seen := hid ▸ List.mem_cons_self
      rw [ih, walk_cons_of_notMem hseen, List.any_cons, hfits, Bool.false_or,
        any_fits_walk_of_mem hmark, any_fits_walk_of_mem hmark]
    · have hfits : ct.fits sup = false := by
        rw [ClassType.fits, decide_eq_false hid, Bool.false_and]
      rw [ih, walk_cons_of_notMem hseen, List.any_cons, hfits, Bool.false_or]
      rfl

/-! ### Collecting methods -/

/-- Where the collecting of methods stands. -/
structure Collecting where
  seen : List ClassId
  /-- For each call that has not come back, the supertypes that it has yet to go on to, the innermost
  call first. -/
  calls : List (List ClassType)
  found : List (Signature Ty)

/-- The declared classes that are not marked, and the supertypes that calls have yet to go on to
together with the calls themselves. -/
def Collecting.measure (reg : Registry) (s : Collecting) : Nat × Nat :=
  (reg.classes.unseen s.seen, s.calls.flatten.length + s.calls.length)

/-- One turn of collecting. A call without further supertypes comes back. It goes on to its next
supertype by a call of its own, which comes back at once if the class is marked or not declared, and
otherwise opens the class and lists the methods that it declares. -/
def collectTurn (reg : Registry) (name : String) : Collecting → Turn Collecting (List (Signature Ty))
  | ⟨_, [], found⟩ => .stop found
  | ⟨seen, [] :: calls, found⟩ => .goOn none ⟨seen, calls, found⟩
  | ⟨seen, (ct :: rest) :: calls, found⟩ =>
    if ct.id ∈ seen then .goOn none ⟨seen, rest :: calls, found⟩
    else match reg.class? ct.id with
      | none => .goOn none ⟨ct.id :: seen, rest :: calls, found⟩
      | some _ => .goOn (some ct.id)
          ⟨ct.id :: seen, reg.supertypes ct :: rest :: calls, found ++ reg.ownOverloads name ct⟩

theorem collectTurn_cases {name : String} {s next : Collecting} {opened : Option ClassId}
    (h : reg.collectTurn name s = .goOn opened next) :
    (∃ calls, s.calls = [] :: calls ∧ opened = none ∧ next = ⟨s.seen, calls, s.found⟩) ∨
    ∃ ct rest calls, s.calls = (ct :: rest) :: calls ∧
      (ct.id ∈ s.seen ∧ opened = none ∧ next = ⟨s.seen, rest :: calls, s.found⟩ ∨
       ct.id ∉ s.seen ∧ reg.class? ct.id = none ∧ opened = none ∧
         next = ⟨ct.id :: s.seen, rest :: calls, s.found⟩ ∨
       ct.id ∉ s.seen ∧ reg.contains ct.id = true ∧ opened = some ct.id ∧
         next = ⟨ct.id :: s.seen, reg.supertypes ct :: rest :: calls,
           s.found ++ reg.ownOverloads name ct⟩) := by
  obtain ⟨seen, _ | ⟨_ | ⟨ct, rest⟩, calls⟩, found⟩ := s
  · cases h
  · obtain ⟨rfl, rfl⟩ := Turn.goOn.inj h
    exact .inl ⟨calls, rfl, rfl, rfl⟩
  · refine .inr ⟨ct, rest, calls, rfl, ?_⟩
    simp only [collectTurn] at h
    by_cases hseen : ct.id ∈ seen
    · rw [if_pos hseen] at h
      obtain ⟨rfl, rfl⟩ := Turn.goOn.inj h
      exact .inl ⟨hseen, rfl, rfl⟩
    · rw [if_neg hseen] at h
      cases hdecl : reg.class? ct.id with
      | none =>
        rw [hdecl] at h
        obtain ⟨rfl, rfl⟩ := Turn.goOn.inj h
        exact .inr (.inl ⟨hseen, rfl, rfl, rfl⟩)
      | some decl =>
        rw [hdecl] at h
        obtain ⟨rfl, rfl⟩ := Turn.goOn.inj h
        exact .inr (.inr ⟨hseen, Option.isSome_iff_exists.2 ⟨decl, hdecl⟩, rfl, rfl⟩)

theorem collectTurn_lowers {name : String} {s next : Collecting} {opened : Option ClassId}
    (h : reg.collectTurn name s = .goOn opened next) :
    Prod.Lex (· < ·) (· < ·) (next.measure reg) (s.measure reg) := by
  rcases collectTurn_cases h with ⟨calls, hcalls, -, rfl⟩ | ⟨ct, rest, calls, hcalls, hturn⟩
  · rw [Collecting.measure, Collecting.measure, hcalls]
    exact .right _ (Nat.lt_succ_self _)
  · rw [Collecting.measure, Collecting.measure, hcalls]
    have hless : (rest :: calls).flatten.length + (rest :: calls).length <
        ((ct :: rest) :: calls).flatten.length + ((ct :: rest) :: calls).length := by
      simp only [List.flatten_cons, List.cons_append, List.length_cons]
      omega
    rcases hturn with ⟨-, -, rfl⟩ | ⟨hseen, -, -, rfl⟩ | ⟨hseen, hcontains, -, rfl⟩
    · exact .right _ hless
    · exact lex_of_mark hseen fun _ => hless
    · refine lex_of_mark hseen fun hnone => ?_
      obtain ⟨decl, hdecl⟩ := Option.isSome_iff_exists.1 hcontains
      cases hnone.symm.trans hdecl

theorem collectTurn_marks (reg : Registry) (name : String) :
    Turn.Marks (reg.collectTurn name) Collecting.seen where
  kept s opened next h := by
    rcases collectTurn_cases h with ⟨calls, -, -, rfl⟩ | ⟨ct, rest, calls, -, hturn⟩
    · exact List.Subset.refl _
    · rcases hturn with ⟨-, -, rfl⟩ | ⟨-, -, -, rfl⟩ | ⟨-, -, -, rfl⟩
      · exact List.Subset.refl _
      · exact List.subset_cons_self _ _
      · exact List.subset_cons_self _ _
  fresh s id next h := by
    rcases collectTurn_cases h with ⟨calls, -, hid, -⟩ | ⟨ct, rest, calls, -, hturn⟩
    · cases hid
    · rcases hturn with ⟨-, hid, -⟩ | ⟨-, -, hid, -⟩ | ⟨hseen, -, hid, rfl⟩
      · cases hid
      · cases hid
      · obtain rfl := Option.some.inj hid
        exact ⟨hseen, List.mem_cons_self⟩

/-- Collecting opens the declared classes that a depth-first walk looks at. What calls have yet to go on
to is what is pending in the walk. -/
theorem collecting_opened {name : String} {s : Collecting} {opened : List ClassId}
    {methods : List (Signature Ty)} (h : Turn.EndsWith (reg.collectTurn name) s opened methods) :
    opened = ((reg.walk .depthFirst s.seen s.calls.flatten).filter fun ct =>
      reg.contains ct.id).map ClassType.id := by
  induction h with
  | @stop s methods hstop =>
    obtain ⟨seen, _ | ⟨_ | ⟨ct, rest⟩, calls⟩, found⟩ := s
    · rw [List.flatten_nil, walk_nil, List.filter_nil, List.map_nil]
    · cases hstop
    · simp only [collectTurn] at hstop
      split_ifs at hstop
      split at hstop <;> cases hstop
  | @goOn s next opened later methods hturn _ ih =>
    obtain ⟨seen, calls, found⟩ := s
    rcases collectTurn_cases hturn with ⟨calls, rfl, rfl, rfl⟩ | ⟨ct, rest, calls, rfl, hcase⟩
    · exact ih
    · -- A new class is looked at by the walk too, and its supertypes come before what is pending.
      have hline (hseen : ct.id ∉ seen) : reg.walk .depthFirst seen ((ct :: rest) :: calls).flatten =
          ct :: reg.walk .depthFirst (ct.id :: seen) (reg.supertypes ct :: rest :: calls).flatten :=
        walk_cons_of_notMem hseen
      rcases hcase with ⟨hseen, rfl, rfl⟩ | ⟨hseen, hnone, rfl, rfl⟩ | ⟨hseen, hcontains, rfl, rfl⟩
      · rw [List.flatten_cons, List.cons_append, walk_cons_of_mem hseen]
        exact ih
      · have hundeclared : reg.contains ct.id = false := by
          simpa [contains, Dictionary.contains, class?] using hnone
        rw [hline hseen, supertypes_of_undeclared hnone]
        simp only [List.filter_cons, hundeclared]
        exact ih
      · rw [hline hseen]
        simp only [List.filter_cons, hcontains, if_true, List.map_cons]
        exact congrArg (ct.id :: ·) ih

/-- The innermost call comes back with what the procedure that calls itself collects from the
supertypes which the call has yet to go on to. -/
theorem collecting_call {name : String} (seen : List ClassId) (cts : List ClassType) :
    ∀ {calls : List (List ClassType)} {found methods : List (Signature Ty)} {opened : List ClassId},
      Turn.EndsWith (reg.collectTurn name) ⟨seen, cts :: calls, found⟩ opened methods →
        ∃ later, Turn.EndsWith (reg.collectTurn name) ⟨(reg.collect name seen cts).seen, calls,
          found ++ (reg.collect name seen cts).methods⟩ later methods := by
  induction seen, cts using collect_induction reg name with
  | nil seen =>
    intro calls found methods opened h
    rw [collect_nil, List.append_nil]
    exact h.of_goOn rfl
  | skip seen ct rest hmem ih =>
    intro calls found methods opened h
    obtain ⟨later, hlater⟩ := h.of_goOn (if_pos hmem)
    rw [collect_cons_of_mem hmem]
    exact ih hlater
  | visit seen ct rest hmem ihabove ihrest =>
    intro calls found methods opened h
    obtain ⟨hseen, hmethods⟩ := reg.collect_cons_of_notMem name rest hmem
    rw [hseen, hmethods]
    cases hdecl : reg.class? ct.id with
    | none =>
      have hturn : reg.collectTurn name ⟨seen, (ct :: rest) :: calls, found⟩ =
          .goOn none ⟨ct.id :: seen, rest :: calls, found⟩ := by
        simp only [collectTurn, if_neg hmem, hdecl]
      obtain ⟨later, hlater⟩ := h.of_goOn hturn
      have hown : reg.ownOverloads name ct = [] := by simp only [ownOverloads, hdecl]
      rw [supertypes_of_undeclared hdecl, collect_nil] at ihrest ⊢
      rw [hown]
      exact ihrest hlater
    | some decl =>
      have hturn : reg.collectTurn name ⟨seen, (ct :: rest) :: calls, found⟩ = .goOn (some ct.id)
          ⟨ct.id :: seen, reg.supertypes ct :: rest :: calls, found ++ reg.ownOverloads name ct⟩ := by
        simp only [collectTurn, if_neg hmem, hdecl]
      obtain ⟨later, hlater⟩ := h.of_goOn hturn
      -- The call for `ct` comes back first, and then the call that made it goes on with `rest`.
      obtain ⟨later, hlater⟩ := ihabove hlater
      obtain ⟨later, hlater⟩ := ihrest hlater
      refine ⟨later, ?_⟩
      simpa only [List.append_assoc] using hlater

/-- Cut into turns, the procedure that calls itself finds the same methods. -/
theorem collecting_methods {name : String} {start : ClassType} {opened : List ClassId}
    {methods : List (Signature Ty)}
    (h : Turn.EndsWith (reg.collectTurn name) ⟨[], [[start]], []⟩ opened methods) :
    methods = (reg.collect name [] [start]).methods := by
  obtain ⟨later, hlater⟩ := collecting_call [] [start] h
  exact hlater.result_of_stop rfl

/-! ### Both procedures -/

/-- Every turn of the search and of collecting lowers their measures, and so both come to an end, from
every class type and in every registry. The search opens no class twice, and its answer decides
subtyping where the root does not. Collecting opens every declared class once that can be reached, in
the order of a depth-first walk, and finds the methods of the class type. A walk in either order meets
no class twice. -/
theorem hierarchy_walks_end (reg : Registry) (start : ClassType) :
    (∀ order, ((reg.ancestors order start).map ClassType.id).Nodup) ∧
    (∀ sup : ClassType,
      (∀ s opened next, reg.searchTurn sup s = .goOn opened next →
        Prod.Lex (· < ·) (· < ·) (next.measure reg) (s.measure reg)) ∧
      ∃ opened answer, Turn.EndsWith (reg.searchTurn sup) ⟨[], [start]⟩ opened answer ∧
        opened.Nodup ∧ reg.isSubtype start sup = (reg.isRoot sup.id || answer)) ∧
    (∀ name : String,
      (∀ s opened next, reg.collectTurn name s = .goOn opened next →
        Prod.Lex (· < ·) (· < ·) (next.measure reg) (s.measure reg)) ∧
      ∃ opened, Turn.EndsWith (reg.collectTurn name) ⟨[], [[start]], []⟩ opened
          (reg.overloadsOf name start) ∧
        opened.Nodup ∧ opened = (reg.declaredAncestors start).map ClassType.id ∧
        ∀ id, id ∈ opened ↔ reg.contains id = true ∧ ReflTransGen reg.Extends start.id id) := by
  refine ⟨fun order => nodup_ancestors order start,
    fun sup => ⟨fun _ _ _ => searchTurn_lowers, ?_⟩,
    fun name => ⟨fun _ _ _ => collectTurn_lowers, ?_⟩⟩
  · obtain ⟨opened, answer, hend⟩ := Turn.exists_endsWith (reg.searchTurn sup)
      (Search.measure reg) (fun _ _ _ => searchTurn_lowers) ⟨[], [start]⟩
    refine ⟨opened, answer, hend, ((searchTurn_marks reg sup).nodup hend).1, ?_⟩
    rw [search_answer hend]
    rfl
  · obtain ⟨opened, methods, hend⟩ := Turn.exists_endsWith (reg.collectTurn name)
      (Collecting.measure reg) (fun _ _ _ => collectTurn_lowers) ⟨[], [[start]], []⟩
    obtain rfl : methods = reg.overloadsOf name start :=
      (collecting_methods hend).trans (overloadsOf_eq_collect name start).symm
    have hopened : opened = (reg.declaredAncestors start).map ClassType.id := collecting_opened hend
    refine ⟨opened, hend, ((collectTurn_marks reg name).nodup hend).1, hopened, fun id => ?_⟩
    rw [hopened]
    exact id_mem_declaredAncestors_iff

/-- A class `C<T>` that extends `D<C<C<T>>>`. -/
def growingDecl : ClassDecl where
  id := ⟨1⟩
  name := "C"
  typeParams := [⟨0⟩]
  superclass := some ⟨⟨2⟩, [.nominal ⟨1⟩ [.nominal ⟨1⟩ [.var ⟨0⟩]]]⟩
  methods := [⟨"add", ⟨[.var ⟨0⟩], .var ⟨0⟩⟩, ⟨false⟩⟩]

/-- A class `D<U>` that extends `C<U>`. -/
def returningDecl : ClassDecl where
  id := ⟨2⟩
  name := "D"
  typeParams := [⟨1⟩]
  superclass := some ⟨⟨1⟩, [.var ⟨1⟩]⟩
  methods := [⟨"add", ⟨[.array (.var ⟨1⟩)], .var ⟨1⟩⟩, ⟨false⟩⟩]

def growingRegistry : Registry :=
  { Registry.empty ⟨0⟩ with
    classes := (ClassTable.empty.declare growingDecl).declare returningDecl
    typeParams := #[⟨"T", none⟩, ⟨"U", none⟩] }

/-- `C<C<...<T>...>>`. -/
def nested : Nat → Ty
  | 0 => .var ⟨0⟩
  | depth + 1 => .nominal ⟨1⟩ [nested depth]

theorem growingRegistry_step_C (t : Ty) :
    growingRegistry.Step ⟨⟨1⟩, [t]⟩ ⟨⟨2⟩, [.nominal ⟨1⟩ [.nominal ⟨1⟩ [t]]]⟩ :=
  step_iff.2 ⟨growingDecl, rfl, .inl ⟨_, List.mem_singleton_self _, rfl⟩⟩

theorem growingRegistry_step_D (t : Ty) : growingRegistry.Step ⟨⟨2⟩, [t]⟩ ⟨⟨1⟩, [t]⟩ :=
  step_iff.2 ⟨returningDecl, rfl, .inl ⟨_, List.mem_singleton_self _, rfl⟩⟩

theorem growingRegistry_reaches (n : Nat) :
    ReflTransGen growingRegistry.Step ⟨⟨1⟩, [nested 0]⟩ ⟨⟨1⟩, [nested (2 * n)]⟩ := by
  induction n with
  | zero => exact .refl
  | succ n ih =>
    exact (ih.tail (growingRegistry_step_C (nested (2 * n)))).tail (growingRegistry_step_D _)

/-- From `C<T>` class types of any depth can be reached, and still both procedures end. -/
theorem hierarchy_walks_end_growing :
    (∀ n, ReflTransGen growingRegistry.Step ⟨⟨1⟩, [nested 0]⟩ ⟨⟨1⟩, [nested (2 * n)]⟩) ∧
    (∃ opened answer, Turn.EndsWith (growingRegistry.searchTurn (.simple ⟨3⟩))
        ⟨[], [⟨⟨1⟩, [nested 0]⟩]⟩ opened answer ∧ opened.Nodup ∧
        growingRegistry.isSubtype ⟨⟨1⟩, [nested 0]⟩ (.simple ⟨3⟩) =
          (growingRegistry.isRoot ⟨3⟩ || answer)) ∧
    (∃ opened, Turn.EndsWith (growingRegistry.collectTurn "add") ⟨[], [[⟨⟨1⟩, [nested 0]⟩]], []⟩
        opened (growingRegistry.overloadsOf "add" ⟨⟨1⟩, [nested 0]⟩) ∧ opened.Nodup) := by
  obtain ⟨-, hsearch, hcollect⟩ := hierarchy_walks_end growingRegistry ⟨⟨1⟩, [nested 0]⟩
  obtain ⟨opened, hend, hnodup, -⟩ := (hcollect "add").2
  exact ⟨growingRegistry_reaches, (hsearch (.simple ⟨3⟩)).2, opened, hend, hnodup⟩

-- Each of the two classes is opened once, and then `C` is met again under larger arguments.
example : Turn.EndsWith (growingRegistry.searchTurn (.simple ⟨3⟩)) ⟨[], [⟨⟨1⟩, [nested 0]⟩]⟩
    ((some ⟨1⟩).toList ++ ((some ⟨2⟩).toList ++ (none.toList ++ []))) false :=
  .goOn rfl (.goOn rfl (.goOn rfl (.stop rfl)))

end Registry

end MethodOperators
