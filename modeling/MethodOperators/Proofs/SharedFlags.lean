import MethodOperators.Registry.Host
import Mathlib.Logic.Relation

/-! A flag is held through any number of handles. Which of them belong together can be told from
what was done with them: those that a chain of clones joins. -/

namespace MethodOperators

open Relation (EqvGen)

/-! ### Handles -/

/-- Something that is done with handles, which are numbered in the order in which they come about.
To create a flag gives a handle on it, to take one clones the handle that the registry has, and to
let the registry watch one replaces that handle. -/
inductive HandleAct where
  | create
  | clone (handle : Nat)
  | take
  | watch (handle : Nat)
  | cancel (handle : Nat)
  deriving DecidableEq, Repr

/-- The flags in existence, the flag of each handle, and a registry. -/
structure HandleState where
  flags : Flags
  handles : List Flag
  registry : Registry

namespace HandleState

/-- A registry with a flag of its own, of which it has the first handle. -/
def start (reg : Registry) : HandleState :=
  let (flag, flags) := Flags.empty.fresh
  { flags, handles := [flag], registry := reg.withFlag flag }

/-- Does something with a handle, if the handle exists. -/
def step (s : HandleState) : HandleAct → Option HandleState
  | .create =>
    let (flag, flags) := s.flags.fresh
    some { s with flags, handles := s.handles ++ [flag] }
  | .clone h => s.handles[h]?.map fun flag => { s with handles := s.handles ++ [flag] }
  | .take => some { s with handles := s.handles ++ [s.registry.flag] }
  | .watch h => s.handles[h]?.map fun flag => { s with registry := s.registry.withFlag flag }
  | .cancel h => s.handles[h]?.map fun flag => { s with flags := s.flags.cancel flag }

def run (s : HandleState) (acts : List HandleAct) : Option HandleState := acts.foldlM step s

/-- Whether the flag of a handle is raised. -/
def reads (s : HandleState) (handle : Nat) : Option Bool := s.handles[handle]?.map s.flags.isRaised

end HandleState

/-! ### What the acts say -/

/-- What can be told of handles from the acts alone: the handle that each one was cloned from,
unless it came with a new flag, the one that the registry was given last, and those that were
cancelled. -/
structure Lineage where
  parents : List (Option Nat)
  held : Nat
  cancelled : List Nat

namespace Lineage

/-- The registry's first handle. -/
def start : Lineage := ⟨[none], 0, []⟩

/-- Takes note of an act, which must name a handle that exists. -/
def record (l : Lineage) : HandleAct → Option Lineage
  | .create => some { l with parents := l.parents ++ [none] }
  | .clone h =>
    if h < l.parents.length then some { l with parents := l.parents ++ [some h] } else none
  | .take => some { l with parents := l.parents ++ [some l.held] }
  | .watch h => if h < l.parents.length then some { l with held := h } else none
  | .cancel h =>
    if h < l.parents.length then some { l with cancelled := h :: l.cancelled } else none

def ofActs (acts : List HandleAct) : Option Lineage := acts.foldlM record start

def ClonedFrom (l : Lineage) (clone parent : Nat) : Prop := l.parents[clone]? = some (some parent)

/-- A chain of clones joins two handles, in whichever direction. -/
def SameOrigin (l : Lineage) : Nat → Nat → Prop := EqvGen l.ClonedFrom

theorem clonedFrom_concat_iff {l l' : Lineage} {parent : Option Nat}
    (h : l'.parents = l.parents ++ [parent]) {c p : Nat} :
    l'.ClonedFrom c p ↔ l.ClonedFrom c p ∨ c = l.parents.length ∧ parent = some p := by
  rw [ClonedFrom, ClonedFrom, h, getElem?_concat_eq_some_iff]

theorem SameOrigin.concat {l l' : Lineage} {parent : Option Nat}
    (h : l'.parents = l.parents ++ [parent]) {a b : Nat} (hab : l.SameOrigin a b) :
    l'.SameOrigin a b :=
  EqvGen.mono (fun _ _ hclone => (clonedFrom_concat_iff h).2 (.inl hclone)) _ _ hab

end Lineage

/-! ### Acts and flags -/

/-- What the acts say about the handles is what the flags make of them. -/
structure Tracks (l : Lineage) (s : HandleState) : Prop where
  length_eq : s.handles.length = l.parents.length
  exist : ∀ f ∈ s.handles, f.index < s.flags.raised.size
  held : s.handles[l.held]? = some s.registry.flag
  cloned : ∀ {c p : Nat}, l.ClonedFrom c p → s.handles[c]? = s.handles[p]?
  sameOrigin : ∀ {a b : Nat} {f : Flag}, s.handles[a]? = some f → s.handles[b]? = some f →
    l.SameOrigin a b
  cancelled_lt : ∀ h ∈ l.cancelled, h < l.parents.length
  isRaised_iff : ∀ f, s.flags.isRaised f = true ↔ ∃ h ∈ l.cancelled, s.handles[h]? = some f

namespace Tracks

variable {l : Lineage} {s : HandleState}

theorem start (reg : Registry) : Tracks .start (.start reg) where
  length_eq := rfl
  exist := by
    intro f hf
    obtain rfl := List.mem_singleton.1 hf
    exact Nat.zero_lt_one
  held := rfl
  cloned := by
    intro c p h
    have hc : c < 1 := (List.getElem?_eq_some_iff.1 h).1
    obtain rfl : c = 0 := by omega
    cases h
  sameOrigin := by
    intro a b f ha hb
    have ha' : a < 1 := (List.getElem?_eq_some_iff.1 ha).1
    have hb' : b < 1 := (List.getElem?_eq_some_iff.1 hb).1
    obtain rfl : a = b := by omega
    exact .refl a
  cancelled_lt := by simp [Lineage.start]
  isRaised_iff := by
    intro f
    have hf : (HandleState.start reg).flags.isRaised f = Flags.empty.isRaised f :=
      Flags.isRaised_fresh .empty f
    rw [hf]
    simp [Flags.isRaised, Flags.empty, Lineage.start]

theorem exists_flag (h : Tracks l s) {i : Nat} (hi : i < l.parents.length) :
    ∃ f, s.handles[i]? = some f :=
  ⟨_, List.getElem?_eq_getElem (h.length_eq ▸ hi)⟩

theorem getElem?_eq_of_sameOrigin (h : Tracks l s) {a b : Nat} (hab : l.SameOrigin a b) :
    s.handles[a]? = s.handles[b]? := by
  induction hab with
  | rel a b hclone => exact h.cloned hclone
  | refl a => rfl
  | symm a b _ ih => exact ih.symm
  | trans a b c _ _ ihab ihbc => exact ihab.trans ihbc

/-- One more handle, either a clone on the flag of its parent or the first one on its flag. -/
theorem concat (h : Tracks l s) {parent : Option Nat} {f : Flag} {fs : Flags}
    (hsize : s.flags.raised.size ≤ fs.raised.size) (hf : f.index < fs.raised.size)
    (hraised : ∀ g, fs.isRaised g = s.flags.isRaised g)
    (hparent : ∀ p : Nat, parent = some p → s.handles[p]? = some f)
    (hshared : ∀ a : Nat, s.handles[a]? = some f → ∃ p, parent = some p) :
    Tracks { l with parents := l.parents ++ [parent] }
      { s with flags := fs, handles := s.handles ++ [f] } where
  length_eq := by simp [h.length_eq]
  exist := by
    intro g hg
    rcases List.mem_append.1 hg with hold | hnew
    · exact Nat.lt_of_lt_of_le (h.exist g hold) hsize
    · rwa [List.mem_singleton.1 hnew]
  held := getElem?_concat_eq_some_iff.2 (.inl h.held)
  cloned := by
    intro c p hclone
    rcases (Lineage.clonedFrom_concat_iff rfl).1 hclone with hold | ⟨rfl, hnew⟩
    · obtain ⟨g, hc⟩ := h.exists_flag (List.getElem?_eq_some_iff.1 hold).1
      have hp : s.handles[p]? = some g := h.cloned hold ▸ hc
      rw [getElem?_concat_eq_some_iff.2 (.inl hc), getElem?_concat_eq_some_iff.2 (.inl hp)]
    · rw [getElem?_concat_eq_some_iff.2 (.inr ⟨h.length_eq.symm, rfl⟩),
        getElem?_concat_eq_some_iff.2 (.inl (hparent p hnew))]
  sameOrigin := by
    -- The new handle is joined to its parent, and so to each old one with the same flag.
    have hjoin {a : Nat} (ha : s.handles[a]? = some f) :
        Lineage.SameOrigin { l with parents := l.parents ++ [parent] } s.handles.length a := by
      obtain ⟨p, hp⟩ := hshared a ha
      have hclone : Lineage.ClonedFrom { l with parents := l.parents ++ [parent] }
          s.handles.length p :=
        (Lineage.clonedFrom_concat_iff rfl).2 (.inr ⟨h.length_eq, hp⟩)
      exact .trans _ p _ (.rel _ _ hclone) ((h.sameOrigin (hparent p hp) ha).concat rfl)
    intro a b g ha hb
    rcases getElem?_concat_eq_some_iff.1 ha with ha | ⟨rfl, rfl⟩
    · rcases getElem?_concat_eq_some_iff.1 hb with hb | ⟨rfl, rfl⟩
      · exact (h.sameOrigin ha hb).concat rfl
      · exact .symm _ _ (hjoin ha)
    · rcases getElem?_concat_eq_some_iff.1 hb with hb | ⟨rfl, -⟩
      · exact hjoin hb
      · exact .refl _
  cancelled_lt := by
    intro i hi
    have hlt := h.cancelled_lt i hi
    rw [List.length_append]
    omega
  isRaised_iff := by
    -- Handles that were cancelled are old ones, so that the new handle is none of them.
    intro g
    rw [hraised, h.isRaised_iff]
    refine exists_congr fun i => and_congr_right fun hi => ?_
    rw [List.getElem?_append_left (h.length_eq ▸ h.cancelled_lt i hi)]

theorem create (h : Tracks l s) :
    Tracks { l with parents := l.parents ++ [none] }
      { s with flags := s.flags.fresh.2, handles := s.handles ++ [s.flags.fresh.1] } := by
  have hsize : s.flags.fresh.2.raised.size = s.flags.raised.size + 1 := Array.size_push ..
  refine h.concat (by omega) ?_ s.flags.isRaised_fresh nofun ?_
  · rw [hsize]
    exact Nat.lt_succ_self _
  · -- No handle is on a flag that did not exist.
    intro a ha
    have hlt := h.exist _ (List.mem_of_getElem? ha)
    exact absurd hlt (Nat.lt_irrefl _)

theorem clone (h : Tracks l s) {p : Nat} {f : Flag} (hp : s.handles[p]? = some f) :
    Tracks { l with parents := l.parents ++ [some p] } { s with handles := s.handles ++ [f] } := by
  refine h.concat (Nat.le_refl _) (h.exist f (List.mem_of_getElem? hp)) (fun _ => rfl) ?_ ?_
  · intro q hq
    rwa [← Option.some.inj hq]
  · exact fun _ _ => ⟨p, rfl⟩

theorem watch (h : Tracks l s) {i : Nat} {f : Flag} (hi : s.handles[i]? = some f) :
    Tracks { l with held := i } { s with registry := s.registry.withFlag f } :=
  { h with held := hi }

theorem cancel (h : Tracks l s) {i : Nat} {f : Flag} (hi : s.handles[i]? = some f) :
    Tracks { l with cancelled := i :: l.cancelled } { s with flags := s.flags.cancel f } := by
  have hf : f.index < s.flags.raised.size := h.exist f (List.mem_of_getElem? hi)
  refine { h with exist := ?_, cancelled_lt := ?_, isRaised_iff := ?_ }
  · intro g hg
    rw [Flags.cancel, Array.size_setIfInBounds]
    exact h.exist g hg
  · intro j hj
    rcases List.mem_cons.1 hj with rfl | hj
    · exact h.length_eq ▸ (List.getElem?_eq_some_iff.1 hi).1
    · exact h.cancelled_lt j hj
  · intro g
    rw [Flags.isRaised_cancel_iff, and_iff_left hf, h.isRaised_iff, @eq_comm _ g f]
    simp only [List.mem_cons, exists_eq_or_imp, hi, Option.some.injEq]

/-- Whatever the acts allow can be done, and they go on telling what the flags make of it. -/
theorem step (h : Tracks l s) {act : HandleAct} {l' : Lineage} (hl : l.record act = some l') :
    ∃ s', s.step act = some s' ∧ Tracks l' s' := by
  have hexists {i : Nat} {next : Lineage}
      (hnext : (if i < l.parents.length then some next else none) = some l') :
      (∃ f, s.handles[i]? = some f) ∧ next = l' := by
    obtain ⟨hi, hnext⟩ := Option.ite_none_right_eq_some.1 hnext
    exact ⟨h.exists_flag hi, Option.some.inj hnext⟩
  cases act with
  | create =>
    obtain rfl := Option.some.inj hl
    exact ⟨_, rfl, h.create⟩
  | clone i =>
    obtain ⟨⟨f, hf⟩, rfl⟩ := hexists hl
    exact ⟨_, by rw [HandleState.step, hf]; rfl, h.clone hf⟩
  | take =>
    obtain rfl := Option.some.inj hl
    exact ⟨_, rfl, h.clone h.held⟩
  | watch i =>
    obtain ⟨⟨f, hf⟩, rfl⟩ := hexists hl
    exact ⟨_, by rw [HandleState.step, hf]; rfl, h.watch hf⟩
  | cancel i =>
    obtain ⟨⟨f, hf⟩, rfl⟩ := hexists hl
    exact ⟨_, by rw [HandleState.step, hf]; rfl, h.cancel hf⟩

theorem run (h : Tracks l s) {acts : List HandleAct} {l' : Lineage}
    (hl : acts.foldlM Lineage.record l = some l') : ∃ s', s.run acts = some s' ∧ Tracks l' s' := by
  induction acts generalizing l s with
  | nil =>
    obtain rfl := Option.some.inj hl
    exact ⟨s, rfl, h⟩
  | cons act acts ih =>
    rw [List.foldlM_cons] at hl
    obtain ⟨l₁, hl₁, hrest⟩ := Option.bind_eq_some_iff.1 hl
    obtain ⟨s₁, hs₁, h₁⟩ := h.step hl₁
    obtain ⟨s', hs', h'⟩ := ih h₁ hrest
    refine ⟨s', ?_, h'⟩
    rw [HandleState.run, List.foldlM_cons, hs₁]
    exact hs'

theorem reads_eq_true_iff (h : Tracks l s) (i : Nat) :
    s.reads i = some true ↔ ∃ j ∈ l.cancelled, l.SameOrigin j i := by
  constructor
  · intro hi
    obtain ⟨f, hf, hraised⟩ := Option.map_eq_some_iff.1 hi
    obtain ⟨j, hj, hjf⟩ := (h.isRaised_iff f).1 hraised
    exact ⟨j, hj, h.sameOrigin hjf hf⟩
  · rintro ⟨j, hj, hji⟩
    obtain ⟨f, hf⟩ := h.exists_flag (h.cancelled_lt j hj)
    have hi : s.handles[i]? = some f := h.getElem?_eq_of_sameOrigin hji ▸ hf
    rw [HandleState.reads, hi, Option.map_some, (h.isRaised_iff f).2 ⟨j, hj, hf⟩]

end Tracks

/-! ### Raised for good -/

namespace HandleState

/-- No act takes a handle away, and none lowers a flag. -/
theorem step_keeps {s s' : HandleState} {act : HandleAct} (h : s.step act = some s') {i : Nat}
    {f : Flag} (hf : s.handles[i]? = some f) (hraised : s.flags.isRaised f = true) :
    s'.handles[i]? = some f ∧ s'.flags.isRaised f = true := by
  have hconcat (g : Flag) : (s.handles ++ [g])[i]? = some f :=
    getElem?_concat_eq_some_iff.2 (.inl hf)
  cases act with
  | create =>
    obtain rfl := Option.some.inj h
    exact ⟨hconcat _, (s.flags.isRaised_fresh f).trans hraised⟩
  | clone j =>
    obtain ⟨g, -, rfl⟩ := Option.map_eq_some_iff.1 h
    exact ⟨hconcat g, hraised⟩
  | take =>
    obtain rfl := Option.some.inj h
    exact ⟨hconcat _, hraised⟩
  | watch j =>
    obtain ⟨g, -, rfl⟩ := Option.map_eq_some_iff.1 h
    exact ⟨hf, hraised⟩
  | cancel j =>
    obtain ⟨g, -, rfl⟩ := Option.map_eq_some_iff.1 h
    exact ⟨hf, Flags.isRaised_cancel_iff.2 (.inr hraised)⟩

theorem run_keeps {s s' : HandleState} {acts : List HandleAct} (h : s.run acts = some s') {i : Nat}
    (hi : s.reads i = some true) : s'.reads i = some true := by
  induction acts generalizing s with
  | nil =>
    obtain rfl := Option.some.inj h
    exact hi
  | cons act acts ih =>
    rw [run, List.foldlM_cons] at h
    obtain ⟨s₁, hs₁, hrest⟩ := Option.bind_eq_some_iff.1 h
    obtain ⟨f, hf, hraised⟩ := Option.map_eq_some_iff.1 hi
    obtain ⟨hf₁, hraised₁⟩ := step_keeps hs₁ hf hraised
    exact ih hrest (by rw [reads, hf₁, Option.map_some, hraised₁])

end HandleState

/-- Let acts start from a registry with a flag of its own, each with handles that exist. Then all of
them can be done. A handle reads raised just when one of the handles that a chain of clones joins to
it was cancelled, and once it does so it always will. All answers of the registry are cancellations
if the handle that was given to it last reads raised, and none is if it does not. -/
theorem handles_follow_lineage (reg : Registry) {acts : List HandleAct} {l : Lineage}
    (hl : Lineage.ofActs acts = some l) :
    ∃ s, (HandleState.start reg).run acts = some s ∧
      (∀ i, s.reads i = some true ↔ ∃ j ∈ l.cancelled, l.SameOrigin j i) ∧
      (∀ later s', s.run later = some s' → ∀ i, s.reads i = some true → s'.reads i = some true) ∧
      ∃ raised, s.reads l.held = some raised ∧
        ∀ asked question, s.registry.host s.flags asked question =
          if raised then .error .cancelled else .ok (s.registry.answer question) := by
  obtain ⟨s, hrun, h⟩ := (Tracks.start reg).run hl
  refine ⟨s, hrun, h.reads_eq_true_iff, fun _ _ hlater _ => HandleState.run_keeps hlater,
    s.flags.isRaised s.registry.flag, ?_, ?_⟩
  · rw [HandleState.reads, h.held, Option.map_some]
  · intro asked question
    cases hflag : s.flags.isRaised s.registry.flag with
    | true => exact Registry.host_of_raised hflag asked question
    | false => exact Registry.host_of_not_raised hflag asked question

/-- A clone of a created flag's handle is given to the registry and taken from it again. To cancel
what was taken raises the created flag and calls off the registry, and leaves the flag that the
registry had first as it was. -/
theorem handles_follow_lineage_taken :
    let acts : List HandleAct := [.create, .clone 1, .watch 2, .take, .cancel 3]
    Lineage.ofActs acts = some ⟨[none, none, some 1, some 2], 2, [3]⟩ ∧
      ∃ s, (HandleState.start (.builtin ⟨0⟩)).run acts = some s ∧
        s.reads 0 = some false ∧ s.reads 1 = some true ∧
        (∀ later s', s.run later = some s' → s'.reads 1 = some true) ∧
        ∀ asked question, s.registry.host s.flags asked question = .error .cancelled := by
  intro acts
  have hl : Lineage.ofActs acts = some ⟨[none, none, some 1, some 2], 2, [3]⟩ := rfl
  obtain ⟨s, hrun, hreads, hkeeps, raised, hheld, hhost⟩ :=
    handles_follow_lineage (.builtin ⟨0⟩) hl
  have hcreated : s.reads 1 = some true :=
    (hreads 1).2 ⟨3, List.mem_singleton_self 3, .trans 3 2 1 (.rel 3 2 rfl) (.rel 2 1 rfl)⟩
  have hraised : raised = true :=
    Option.some.inj (hheld.symm.trans
      ((hreads 2).2 ⟨3, List.mem_singleton_self 3, .rel 3 2 rfl⟩))
  refine ⟨hl, s, hrun, ?_, hcreated, fun later s' hs' => hkeeps later s' hs' 1 hcreated, ?_⟩
  · obtain rfl := Option.some.inj hrun
    rfl
  · intro asked question
    rw [hhost asked question, hraised, if_pos rfl]

end MethodOperators
