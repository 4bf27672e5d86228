import MethodOperators.Proofs.CalledOffChecks
import Mathlib.Data.List.DropRight
import Mathlib.Data.List.Induction

/-! The single changes of a buffer during a run, in order. They can be carried out again one by one,
and what the buffer holds in the end can be read off them. -/

namespace MethodOperators

/-! ### Runs -/

/-- What the checker has just looked at, with the checks that are to be made: those that go with the
shape of an expression, those of one shape only, or those of a variable. -/
inductive Occasion (S : TypeSystem) where
  | expression (e : Expr S.Ty)
  | chain (e : Expr S.Ty)
  | unary (e : Expr S.Ty)
  | index (e : Expr S.Ty)
  | assignment (e : Expr S.Ty)
  | variable (v : VarDecl S.Ty)

def OperatorTable.checksOn {S : TypeSystem} (t : OperatorTable) : Occasion S → List (Check S)
  | .expression e => t.expressionChecks e
  | .chain e => t.chainChecks e
  | .unary e => t.unaryChecks e
  | .index e => t.indexChecks e
  | .assignment e => t.assignmentChecks e
  | .variable v => t.variableChecks v

/-- Something that is done to a buffer. Each time that expressions are looked at, there may be
another type system, another host and another table of operators. -/
inductive Action : Type 1 where
  | add (d : Diagnostic)
  | extend (ds : List Diagnostic)
  | clear
  | retract
  | settle {S : TypeSystem} (host : Host S) (t : OperatorTable) (asked : List (Question S))
      (occasion : Occasion S)

/-- A single change of a buffer. -/
inductive Change where
  | added (d : Diagnostic)
  | takenBack (d : Diagnostic)
  | cleared
  deriving DecidableEq

namespace Change

def added? : Change → Option Diagnostic
  | added d => some d
  | takenBack _ | cleared => none

def takenBack? : Change → Option Diagnostic
  | takenBack d => some d
  | added _ | cleared => none

/-- The changes since a buffer was cleared last. -/
def sinceCleared (log : List Change) : List Change := log.rtakeWhile (fun c => decide (c ≠ cleared))

end Change

/-- The reports that were added since a buffer was cleared last. -/
def addedSinceCleared (log : List Change) : List Diagnostic :=
  (Change.sinceCleared log).filterMap Change.added?

/-- The reports that were taken back since a buffer was cleared last. -/
def takenBackSinceCleared (log : List Change) : List Diagnostic :=
  (Change.sinceCleared log).filterMap Change.takenBack?

namespace Buffer

/-- What an action makes of a buffer. -/
def perform (b : Buffer) : Action → Buffer
  | .add d => b.add d
  | .extend ds => b.extend ds
  | .clear => b.clear
  | .retract => b.retract.2
  | .settle host t asked occasion =>
    (MethodOperators.settle host Buffer.sink (t.checksOn occasion) asked b).reports

/-- What some actions, one after the other, make of the empty buffer. -/
def after (actions : List Action) : Buffer := actions.foldl perform empty

/-- The changes that an action makes. What is missing from the end of the buffer afterwards has been
taken back, the newest report first. -/
def changes (b : Buffer) (a : Action) : List Change :=
  match a with
  | .add d => [.added d]
  | .extend ds => ds.map .added
  | .clear => [.cleared]
  | .retract | .settle .. => (b.toList.drop (b.perform a).count).reverse.map .takenBack

/-- The changes that some actions make one after the other. -/
def log (b : Buffer) : List Action → List Change
  | [] => []
  | a :: actions => b.changes a ++ (b.perform a).log actions

/-- Carries out a change if it is possible. A report can be taken back if it is the newest one and
an error, and the running count is not at zero. -/
def carryOut? (b : Buffer) : Change → Option Buffer
  | .added d => some (b.add d)
  | .cleared => some b.clear
  | .takenBack d =>
    if b.last? = some d ∧ d.isError = true ∧ 0 < b.errorCount then
      some ⟨b.diagnostics.pop, b.errorCount - 1⟩
    else none

/-- Carries out changes in order if each of them is possible at its turn. -/
def replay? (b : Buffer) (log : List Change) : Option Buffer := log.foldlM carryOut? b

/-! ### Single changes -/

theorem toList_add (b : Buffer) (d : Diagnostic) : (b.add d).toList = b.toList ++ [d] := by
  simp [add, toList]

theorem Counted.add {b : Buffer} (hb : b.Counted) (d : Diagnostic) : (b.add d).Counted := by
  rw [Counted] at hb
  rw [Counted, errors, toList_add, List.filter_append, List.length_append, ← errors, ← hb]
  by_cases hd : d.isError = true <;> simp [Buffer.add, hd]

theorem carryOut?_cases {b left : Buffer} {c : Change} (h : b.carryOut? c = some left) :
    (∃ d, c = .added d ∧ left = b.add d) ∨ (c = .cleared ∧ left = empty) ∨
      ∃ d, c = .takenBack d ∧ d.isError = true ∧ b.toList = left.toList ++ [d] ∧
        b.errorCount = left.errorCount + 1 := by
  cases c with
  | added d => exact .inl ⟨d, rfl, (Option.some.inj h).symm⟩
  | cleared => exact .inr (.inl ⟨rfl, (Option.some.inj h).symm⟩)
  | takenBack d =>
    by_cases hpossible : b.last? = some d ∧ d.isError = true ∧ 0 < b.errorCount
    · rw [carryOut?, if_pos hpossible] at h
      obtain ⟨hlast, herror, hcount⟩ := hpossible
      obtain rfl := Option.some.inj h
      refine .inr (.inr ⟨d, rfl, herror, toList_of_last? hlast, ?_⟩)
      show b.errorCount = b.errorCount - 1 + 1
      omega
    · rw [carryOut?, if_neg hpossible] at h
      cases h

theorem Counted.carryOut? {b left : Buffer} (hb : b.Counted) {c : Change}
    (h : b.carryOut? c = some left) : left.Counted := by
  obtain ⟨d, -, rfl⟩ | ⟨-, rfl⟩ | ⟨d, -, herror, hlist, hcount⟩ := carryOut?_cases h
  · exact hb.add d
  · rfl
  · have hlength : b.errors.length = left.errors.length + 1 := by
      rw [errors, hlist, List.filter_append, List.length_append]
      simp [herror, errors]
    rw [Counted] at hb ⊢
    omega

theorem replay?_append (b : Buffer) (before after : List Change) :
    b.replay? (before ++ after) = (b.replay? before).bind fun mid => mid.replay? after := by
  rw [replay?, List.foldlM_append]
  rfl

theorem replay?_cons (b : Buffer) (c : Change) (log : List Change) :
    b.replay? (c :: log) = (b.carryOut? c).bind fun mid => mid.replay? log := by
  rw [replay?, List.foldlM_cons]
  rfl

theorem Counted.replay? {b left : Buffer} (hb : b.Counted) {log : List Change}
    (h : b.replay? log = some left) : left.Counted := by
  induction log generalizing b with
  | nil =>
    obtain rfl := Option.some.inj h
    exact hb
  | cons c log ih =>
    rw [replay?_cons] at h
    obtain ⟨mid, hmid, hleft⟩ := Option.bind_eq_some_iff.1 h
    exact ih (hb.carryOut? hmid) hleft

/-! ### Taking back -/

/-- `b.TookBack gone left` says that `left` is `b` without its newest reports `gone`, and that these
can be taken back one after the other. -/
def TookBack (b : Buffer) (gone : List Diagnostic) (left : Buffer) : Prop :=
  b.toList = left.toList ++ gone ∧ b.replay? (gone.reverse.map .takenBack) = some left

theorem TookBack.refl (b : Buffer) : b.TookBack [] b :=
  ⟨(List.append_nil _).symm, rfl⟩

theorem TookBack.trans {b mid left : Buffer} {first second : List Diagnostic}
    (hfirst : b.TookBack first mid) (hsecond : mid.TookBack second left) :
    b.TookBack (second ++ first) left := by
  obtain ⟨hlist, hreplay⟩ := hfirst
  obtain ⟨hlist', hreplay'⟩ := hsecond
  constructor
  · rw [hlist, hlist', List.append_assoc]
  · rw [List.reverse_append, List.map_append, replay?_append, hreplay]
    exact hreplay'

/-- What is missing from the end of the buffer is what was taken back. -/
theorem TookBack.replay?_drop {b left : Buffer} {gone : List Diagnostic}
    (h : b.TookBack gone left) :
    b.replay? ((b.toList.drop left.count).reverse.map .takenBack) = some left := by
  have hdrop : b.toList.drop left.count = gone := by
    rw [h.1]
    exact List.drop_left
  rw [hdrop]
  exact h.2

theorem Counted.tookBack_retract {b : Buffer} (hb : b.Counted) :
    ∃ gone, b.TookBack gone b.retract.2 := by
  cases hlast : b.last? with
  | none =>
    have hsame : b.retract.2 = b := by simp [Buffer.retract, hlast]
    rw [hsame]
    exact ⟨[], .refl b⟩
  | some d =>
    by_cases herror : d.isError = true
    · have hretract : b.retract.2 = ⟨b.diagnostics.pop, b.errorCount - 1⟩ := by
        simp [Buffer.retract, hlast, herror]
      have hcount := hb.errorCount_pos hlast herror
      refine ⟨[d], ?_, ?_⟩
      · rw [hretract]
        exact toList_of_last? hlast
      · have hcarry : b.carryOut? (.takenBack d) = some b.retract.2 := by
          rw [Buffer.carryOut?, if_pos ⟨hlast, herror, hcount⟩, hretract]
        rw [List.reverse_singleton, List.map_singleton, replay?_cons, hcarry]
        rfl
    · have hsame : b.retract.2 = b := by simp [Buffer.retract, hlast, herror]
      rw [hsame]
      exact ⟨[], .refl b⟩

/-- Checks take back the newest reports one after the other, whether or not they come to an end. -/
theorem Counted.tookBack_settle {S : TypeSystem} {b : Buffer} (hb : b.Counted) (host : Host S)
    (checks : List (Check S)) (asked : List (Question S)) :
    ∃ gone, b.TookBack gone (settle host Buffer.sink checks asked b).reports := by
  induction checks generalizing asked b with
  | nil => exact ⟨[], .refl b⟩
  | cons check checks ih =>
    rcases settle_cons_cases host Buffer.sink check asked b with ⟨_, -, hcons⟩ | ⟨asked', hcons⟩
    · rw [(hcons checks).2]
      exact ⟨[], .refl b⟩
    · rw [(hcons checks).2.2]
      obtain ⟨first, hfirst⟩ : ∃ gone, b.TookBack gone (check.left host Buffer.sink asked b) := by
        rw [Check.left]
        split
        · exact hb.tookBack_retract
        · exact ⟨[], .refl b⟩
      obtain ⟨second, hsecond⟩ := ih (hb.replay? hfirst.2) asked'
      exact ⟨second ++ first, hfirst.trans hsecond⟩

/-! ### Whole runs -/

theorem replay?_map_added (b : Buffer) (ds : List Diagnostic) :
    b.replay? (ds.map .added) = some (b.extend ds) := by
  induction ds generalizing b with
  | nil => rfl
  | cons d ds ih =>
    rw [List.map_cons, replay?_cons]
    exact ih (b.add d)

/-- The changes of one action lead to the buffer that the action leaves. -/
theorem Counted.replay?_changes {b : Buffer} (hb : b.Counted) (a : Action) :
    b.replay? (b.changes a) = some (b.perform a) := by
  cases a with
  | add d => rfl
  | extend ds => exact replay?_map_added b ds
  | clear => rfl
  | retract =>
    obtain ⟨gone, hgone⟩ := hb.tookBack_retract
    exact hgone.replay?_drop
  | settle host t asked occasion =>
    obtain ⟨gone, hgone⟩ := hb.tookBack_settle host (t.checksOn occasion) asked
    exact hgone.replay?_drop

theorem Counted.replay?_log {b : Buffer} (hb : b.Counted) (actions : List Action) :
    b.replay? (b.log actions) = some (actions.foldl perform b) := by
  induction actions generalizing b with
  | nil => rfl
  | cons a actions ih =>
    have hfirst := hb.replay?_changes a
    rw [log, replay?_append, hfirst]
    exact ih (hb.replay? hfirst)

/-! ### What is held -/

theorem sinceCleared_concat (log : List Change) (c : Change) :
    Change.sinceCleared (log ++ [c]) =
      if c = .cleared then [] else Change.sinceCleared log ++ [c] := by
  by_cases hc : c = .cleared
  · rw [Change.sinceCleared, List.rtakeWhile_concat_neg _ _ _ (by simp [hc]), if_pos hc]
  · rw [Change.sinceCleared, List.rtakeWhile_concat_pos _ _ _ (by simp [hc]), if_neg hc]
    rfl

/-- A buffer holds what was added since it was cleared last, in order and without what was taken
back. Only errors were taken back. -/
structure Holds (b : Buffer) (log : List Change) : Prop where
  sublist : b.toList.Sublist (addedSinceCleared log)
  perm : (addedSinceCleared log).Perm (b.toList ++ takenBackSinceCleared log)
  takenBack_isError : ∀ d ∈ takenBackSinceCleared log, d.isError = true

theorem Holds.concat_added {b : Buffer} {log : List Change} (h : b.Holds log) (d : Diagnostic) :
    (b.add d).Holds (log ++ [.added d]) := by
  have hadded : addedSinceCleared (log ++ [.added d]) = addedSinceCleared log ++ [d] := by
    simp [addedSinceCleared, sinceCleared_concat, Change.added?]
  have htaken : takenBackSinceCleared (log ++ [.added d]) = takenBackSinceCleared log := by
    simp [takenBackSinceCleared, sinceCleared_concat, Change.takenBack?]
  refine ⟨?_, ?_, ?_⟩
  · rw [hadded, toList_add]
    exact h.sublist.append (List.Sublist.refl [d])
  · rw [hadded, htaken, toList_add, List.append_assoc]
    refine (h.perm.append_right [d]).trans ?_
    rw [List.append_assoc]
    exact List.perm_append_comm.append_left b.toList
  · rw [htaken]
    exact h.takenBack_isError

theorem holds_concat_cleared (log : List Change) : empty.Holds (log ++ [.cleared]) := by
  refine ⟨List.nil_sublist _, ?_, ?_⟩
  · simp [addedSinceCleared, takenBackSinceCleared, sinceCleared_concat, empty, toList]
  · simp [takenBackSinceCleared, sinceCleared_concat]

theorem Holds.concat_takenBack {b left : Buffer} {log : List Change} (h : b.Holds log)
    {d : Diagnostic} (herror : d.isError = true) (hlist : b.toList = left.toList ++ [d]) :
    left.Holds (log ++ [.takenBack d]) := by
  have hadded : addedSinceCleared (log ++ [.takenBack d]) = addedSinceCleared log := by
    simp [addedSinceCleared, sinceCleared_concat, Change.added?]
  have htaken : takenBackSinceCleared (log ++ [.takenBack d]) =
      takenBackSinceCleared log ++ [d] := by
    simp [takenBackSinceCleared, sinceCleared_concat, Change.takenBack?]
  have hsublist := h.sublist
  have hperm := h.perm
  rw [hlist] at hsublist hperm
  refine ⟨?_, ?_, ?_⟩
  · rw [hadded]
    exact (List.sublist_append_left left.toList [d]).trans hsublist
  · rw [List.append_assoc] at hperm
    rw [hadded, htaken]
    exact hperm.trans (List.perm_append_comm.append_left left.toList)
  · rw [htaken]
    intro x hx
    rcases List.mem_append.1 hx with hx | hx
    · exact h.takenBack_isError x hx
    · rwa [List.mem_singleton.1 hx]

theorem Holds.carryOut? {b left : Buffer} {log : List Change} (h : b.Holds log) {c : Change}
    (hc : b.carryOut? c = some left) : left.Holds (log ++ [c]) := by
  obtain ⟨d, rfl, rfl⟩ | ⟨rfl, rfl⟩ | ⟨d, rfl, herror, hlist, -⟩ := carryOut?_cases hc
  · exact h.concat_added d
  · exact holds_concat_cleared log
  · exact h.concat_takenBack herror hlist

theorem holds_of_replay? {b : Buffer} {log : List Change} (h : empty.replay? log = some b) :
    b.Holds log := by
  induction log using List.reverseRecOn generalizing b with
  | nil =>
    obtain rfl := Option.some.inj h
    exact ⟨.refl _, .refl _, fun d hd => absurd hd List.not_mem_nil⟩
  | append_singleton log c ih =>
    rw [replay?_append] at h
    obtain ⟨mid, hmid, hlast⟩ := Option.bind_eq_some_iff.1 h
    have hcarry : mid.carryOut? c = some b := by
      rw [replay?_cons] at hlast
      obtain ⟨left, hleft, hend⟩ := Option.bind_eq_some_iff.1 hlast
      rw [hleft, Option.some.inj hend]
    exact (ih hmid).carryOut? hcarry

/-- Reports that are no errors are never missing. -/
theorem Holds.filter_eq {b : Buffer} {log : List Change} (h : b.Holds log) :
    b.toList.filter (fun d => !d.isError) =
      (addedSinceCleared log).filter (fun d => !d.isError) := by
  have hnone : (takenBackSinceCleared log).filter (fun d => !d.isError) = [] := by
    refine List.filter_eq_nil_iff.2 fun d hd => ?_
    simp [h.takenBack_isError d hd]
  have hlength := (h.perm.filter fun d => !d.isError).length_eq
  rw [List.filter_append, hnone, List.append_nil] at hlength
  exact (h.sublist.filter _).eq_of_length hlength.symm

theorem Counted.newestIsErrorAt_iff {b : Buffer} (hb : b.Counted) (span : Span) :
    Buffer.sink.newestIsErrorAt b span = true ↔
      ∃ d, b.last? = some d ∧ d.isError = true ∧ d.span = span := by
  rw [hb.newestIsErrorAt, Option.isSome_iff_exists, last?_eq_getLast?]
  exact exists_congr fun d => errorAt?_eq_some_iff

/-- Whatever is done to a buffer that starts out empty, its running count is the number of errors it
holds, so that the newest report is found flagged just if it is an error with the range in question.
The log of what was done can be carried out change by change: each report that was taken back is an
error and the newest one at its turn, and the count does not stop at zero. Of the reports that were
added since the buffer was cleared last it holds, in order, all but those that were taken back, and
none of these is anything but an error. -/
theorem after_follows_log (actions : List Action) :
    (after actions).errorCount = (after actions).errors.length ∧
    (∀ span, Buffer.sink.newestIsErrorAt (after actions) span = true ↔
      ∃ d, (after actions).last? = some d ∧ d.isError = true ∧ d.span = span) ∧
    empty.replay? (empty.log actions) = some (after actions) ∧
    (after actions).toList.Sublist (addedSinceCleared (empty.log actions)) ∧
    (after actions).toList.filter (fun d => !d.isError) =
      (addedSinceCleared (empty.log actions)).filter (fun d => !d.isError) ∧
    (addedSinceCleared (empty.log actions)).Perm
      ((after actions).toList ++ takenBackSinceCleared (empty.log actions)) ∧
    ∀ d ∈ takenBackSinceCleared (empty.log actions), d.isError = true := by
  have hempty : empty.Counted := rfl
  have hreplay : empty.replay? (empty.log actions) = some (after actions) :=
    hempty.replay?_log actions
  have hcounted : (after actions).Counted := hempty.replay? hreplay
  have hholds : (after actions).Holds (empty.log actions) := holds_of_replay? hreplay
  exact ⟨hcounted, hcounted.newestIsErrorAt_iff, hreplay, hholds.sublist, hholds.filter_eq,
    hholds.perm, hholds.takenBack_isError⟩

-- The checks are called off after the error about the element was taken back.
example :
    empty.log [.extend elementReports,
      .settle (obligingHost.limit 5) .standard [] (.expression elementAssignment)] =
      elementReports.map .added ++ (elementReports.drop 2).map .takenBack := by
  decide

end Buffer

end MethodOperators
