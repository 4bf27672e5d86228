/-!
# Cancellation

A host that no longer needs an answer raises a flag, and whoever watches the flag gives up. A flag
can be shared: everyone who holds it sees it raised, and nobody can lower it again. The flags in
existence and their states are kept in one place, and a `Flag` is a handle on one of them.
-/

namespace MethodOperators

/-- The failure of work that the host called off. -/
inductive Cancelled where
  | cancelled
  deriving DecidableEq, Repr

/-- The text of the failure. -/
def Cancelled.message (_ : Cancelled) : String := "operation cancelled by the host"

/-- A handle on a flag. Two handles on one flag are equal. -/
structure Flag where
  /-- Number of flags that existed before it. -/
  index : Nat
  deriving DecidableEq, Repr

/-- All flags in existence. -/
structure Flags where
  /-- Whether each flag is raised. -/
  raised : Array Bool
  deriving DecidableEq, Repr

namespace Flags

/-- No flags. -/
def empty : Flags := ⟨#[]⟩

instance : Inhabited Flags := ⟨empty⟩

/-- Creates a flag that is not raised. -/
def fresh (fs : Flags) : Flag × Flags := (⟨fs.raised.size⟩, ⟨fs.raised.push false⟩)

/-- Whether a flag is raised. -/
def isRaised (fs : Flags) (f : Flag) : Bool := fs.raised.getD f.index false

/-- Raises a flag. -/
def cancel (fs : Flags) (f : Flag) : Flags := ⟨fs.raised.setIfInBounds f.index true⟩

/-- A new flag is not raised, and the states of the others stay as they are. -/
theorem isRaised_fresh (fs : Flags) (f : Flag) : fs.fresh.2.isRaised f = fs.isRaised f := by
  simp only [fresh, isRaised, Array.getD_eq_getD_getElem?, Array.getElem?_push]
  split
  · rename_i h
    simp [h]
  · rfl

/-- Raising a flag raises this flag alone, if it exists. -/
theorem isRaised_cancel_iff {fs : Flags} {f g : Flag} :
    (fs.cancel f).isRaised g = true ↔ g = f ∧ f.index < fs.raised.size ∨ fs.isRaised g = true := by
  simp only [cancel, isRaised, Array.getD_eq_getD_getElem?, Array.getElem?_setIfInBounds]
  by_cases hg : g = f
  · subst hg
    by_cases hsize : g.index < fs.raised.size <;> simp [hsize]
  · have hindex : f.index ≠ g.index := fun h => hg (by cases f; cases g; simp_all)
    simp [hg, hindex]

/-- Fails if a flag is raised. -/
def check (fs : Flags) (f : Flag) : Except Cancelled Unit :=
  if fs.isRaised f then .error .cancelled else .ok ()

end Flags

end MethodOperators
