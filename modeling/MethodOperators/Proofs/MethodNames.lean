import MethodOperators.Operator.Call
import MethodOperators.Operator.Config
import MethodOperators.Proofs.Substitution
import MethodOperators.Registry.Host

/-! However configurations are laid over each other, nothing in an operator table is empty, so that
the guard against calls without a name is never needed by an operator. -/

namespace MethodOperators

/-! ### Tables without empty names -/

namespace Dictionary

/-- No key and no value is empty. -/
def NoneEmpty (d : Dictionary String String) : Prop :=
  ∀ key value, d.find? key = some value → key ≠ "" ∧ value ≠ ""

theorem noneEmpty_empty : (empty : Dictionary String String).NoneEmpty := nofun

theorem noneEmpty_ofList {es : List (String × String)} (h : ∀ e ∈ es, e.1 ≠ "" ∧ e.2 ≠ "") :
    (ofList es).NoneEmpty :=
  fun key value hfind => h (key, value) (mem_of_find?_ofList hfind)

theorem NoneEmpty.insert {d : Dictionary String String} (h : d.NoneEmpty) {key value : String}
    (hkey : key ≠ "") (hvalue : value ≠ "") : (d.insert key value).NoneEmpty := by
  intro k v hfind
  rw [find?_insert] at hfind
  split at hfind
  · subst k
    exact ⟨hkey, Option.some.inj hfind ▸ hvalue⟩
  · exact h k v hfind

end Dictionary

namespace OperatorTable

/-- No token and no method name of a table is empty, and there are names to try for elements. -/
structure WellNamed (t : OperatorTable) : Prop where
  tokens : ∀ part, (t.tokens part).NoneEmpty
  names : ∀ list, t.names list ≠ [] ∧ ∀ name ∈ t.names list, name ≠ ""
  valueOf : t.valueOf ≠ ""

theorem wellNamed_standard : standard.WellNamed where
  tokens part := by
    cases part <;> exact Dictionary.noneEmpty_ofList (by decide)
  names list := by
    cases list <;> decide
  valueOf := by decide

end OperatorTable

namespace Config

theorem noneEmpty_of_addEntries {part : TokenSection} {entries : List (String × String)}
    {table table' : Dictionary String String} (htable : table.NoneEmpty)
    (h : addEntries part entries table = .ok table') : table'.NoneEmpty := by
  induction entries generalizing table with
  | nil =>
    obtain rfl := Except.ok.inj h
    exact htable
  | cons e entries ih =>
    obtain ⟨token, name⟩ := e
    rw [addEntries] at h
    split at h
    · cases h
    · rename_i htoken
      split at h
      · cases h
      · rename_i hname
        refine ih (htable.insert ?_ ?_) h
        · simpa using htoken
        · simpa using hname

theorem candidates_ok {list : CandidateList} {names : Option (List String)}
    {inTable result : List String} (htable : inTable ≠ [] ∧ ∀ name ∈ inTable, name ≠ "")
    (h : candidates list names inTable = .ok result) :
    result ≠ [] ∧ ∀ name ∈ result, name ≠ "" := by
  cases names with
  | none =>
    obtain rfl := Except.ok.inj h
    exact htable
  | some names =>
    rw [candidates] at h
    split at h
    · cases h
    · rename_i hnames
      obtain rfl := Except.ok.inj h
      obtain ⟨hnil, hempty⟩ : names ≠ [] ∧ "" ∉ names := by simpa using hnames
      exact ⟨hnil, fun _ hname => ne_of_mem_of_not_mem hname hempty⟩

theorem conversion_ok {name : Option String} {inTable result : String} (htable : inTable ≠ "")
    (h : conversion name inTable = .ok result) : result ≠ "" := by
  cases name with
  | none =>
    obtain rfl := Except.ok.inj h
    exact htable
  | some name =>
    rw [conversion] at h
    split at h
    · cases h
    · rename_i hname
      obtain rfl := Except.ok.inj h
      simpa using hname

end Config

namespace OperatorTable

/-- The tokens that a configuration is laid over. -/
def tokensFor (c : Config) (tokens : Dictionary String String) : Dictionary String String :=
  if c.inheritDefaults then tokens else .empty

theorem noneEmpty_tokensFor {c : Config} {tokens : Dictionary String String}
    (h : tokens.NoneEmpty) : (tokensFor c tokens).NoneEmpty := by
  unfold tokensFor
  split
  · exact h
  · exact Dictionary.noneEmpty_empty

/-- A configuration is laid over a table part by part. -/
theorem configure_eq_ok_iff {t t' : OperatorTable} {c : Config} :
    t.configure c = .ok t' ↔
      (∀ part, Config.addSection part (c.tokens part) (tokensFor c (t.tokens part)) =
        .ok (t'.tokens part)) ∧
      (∀ list, Config.candidates list (c.names? list) (t.names list) = .ok (t'.names list)) ∧
      Config.conversion c.valueOf t.valueOf = .ok t'.valueOf := by
  simp only [configure, bind_eq_ok_iff]
  constructor
  · rintro ⟨_, hbinary, _, hunary, _, hcomparison, _, hget, _, hset, _, hvalue, h⟩
    obtain rfl := Except.ok.inj h
    refine ⟨fun part => ?_, fun list => ?_, hvalue⟩
    · cases part with
      | binary => exact hbinary
      | unary => exact hunary
      | comparison => exact hcomparison
    · cases list with
      | indexGet => exact hget
      | indexSet => exact hset
  · rintro ⟨hsections, hlists, hvalue⟩
    exact ⟨_, hsections .binary, _, hsections .unary, _, hsections .comparison, _,
      hlists .indexGet, _, hlists .indexSet, _, hvalue, rfl⟩

theorem WellNamed.configure {t t' : OperatorTable} {c : Config} (ht : t.WellNamed)
    (h : t.configure c = .ok t') : t'.WellNamed := by
  obtain ⟨hsections, hlists, hvalue⟩ := configure_eq_ok_iff.mp h
  exact {
    tokens := fun part =>
      Config.noneEmpty_of_addEntries (noneEmpty_tokensFor (ht.tokens part)) (hsections part)
    names := fun list => Config.candidates_ok (ht.names list) (hlists list)
    valueOf := Config.conversion_ok ht.valueOf hvalue }

/-- The tables that configurations make of the standard one, laid over each other in any number. -/
inductive Configured : OperatorTable → Prop where
  | standard : Configured standard
  | toTable {c : Config} {t : OperatorTable} (h : c.toTable = .ok t) : Configured t
  | configure {c : Config} {t t' : OperatorTable} (ht : Configured t) (h : t.configure c = .ok t') :
    Configured t'

theorem Configured.wellNamed {t : OperatorTable} (h : t.Configured) : t.WellNamed := by
  induction h with
  | standard => exact wellNamed_standard
  | toTable h => exact wellNamed_standard.configure h
  | configure _ h ih => exact ih.configure h

end OperatorTable

/-! ### The calls of an operator -/

section

variable {S : TypeSystem} {α β : Type}

namespace Calls

/-- Every method that is called has a name, whatever becomes of the calls before it. -/
def HaveNames (calls : Calls S α) : Prop :=
  Dialogue.AsksOnly (fun _ _ => True) (fun c => c.name ≠ "") (ExceptT.run calls)

theorem haveNames_pure (a : α) : (pure a : Calls S α).HaveNames := trivial

theorem haveNames_call {receiver : Option S.Ty} {name : String} {args : List (Option S.Ty)}
    (h : name ≠ "") : (call receiver name args).HaveNames :=
  ⟨h, fun _ _ => trivial⟩

/-- A call without a name is none the less a call, though nothing is asked about it. -/
example : ¬ (call none "" [] : Calls S (Resolution S.Ty)).HaveNames := fun h => h.1 rfl

theorem HaveNames.bind {calls : Calls S α} {f : α → Calls S β} (h : calls.HaveNames)
    (hf : ∀ a, (f a).HaveNames) : (calls >>= f).HaveNames :=
  Dialogue.AsksOnly.bind h hf

end Calls

end

namespace OperatorTable

open Calls (haveNames_pure haveNames_call)

variable {S : TypeSystem} {t : OperatorTable}

/-- The calls of all operators that are looked up by their token. -/
theorem WellNamed.haveNames_namedCall (h : t.WellNamed) (part : TokenSection) (token : String)
    (receiver : Option S.Ty) (args : List (Option S.Ty)) :
    (namedCall (t.name? part token) receiver args).HaveNames := by
  cases hname : t.name? part token with
  | none => exact haveNames_pure _
  | some name => exact haveNames_call (h.tokens part token name hname).2

theorem WellNamed.haveNames_binaryCalls (h : t.WellNamed) (lhs rhs : Option S.Ty)
    (token : String) : (t.binaryCalls lhs rhs token).HaveNames :=
  h.haveNames_namedCall .binary token lhs [rhs]

theorem WellNamed.haveNames_foldCalls (h : t.WellNamed) (read : Option S.Ty)
    (operands : List (Option S.Ty)) (tokens : List String) :
    (t.foldCalls read operands tokens).HaveNames := by
  fun_induction foldCalls t read operands tokens with
  | case1 tokens read => exact haveNames_pure read
  | case2 read operand operands ih => exact ih
  | case3 read operand operands token tokens ih =>
    exact (h.haveNames_binaryCalls read operand token).bind ih

theorem WellNamed.haveNames_chainCalls (h : t.WellNamed) (operands : List (Option S.Ty))
    (tokens : List String) : (t.chainCalls operands tokens).HaveNames := by
  match operands with
  | [] => exact haveNames_pure _
  | [_] => exact haveNames_pure _
  | first :: second :: rest =>
    exact (h.haveNames_foldCalls first (second :: rest) tokens).bind fun _ => haveNames_pure _

theorem haveNames_candidateCalls (receiver : S.Ty) (args : List S.Ty) {names : List String}
    (h : ∀ name ∈ names, name ≠ "") : (candidateCalls receiver args names).HaveNames := by
  induction names with
  | nil => exact haveNames_pure _
  | cons name names ih =>
    refine (haveNames_call (h name List.mem_cons_self)).bind fun found => ?_
    cases found with
    | resolved ty => exact haveNames_pure _
    | unresolved => exact ih fun name hname => h name (List.mem_cons_of_mem _ hname)

theorem WellNamed.haveNames_readCalls (h : t.WellNamed) (container index : Option (Expr S.Ty)) :
    (t.readCalls container index).HaveNames := by
  unfold readCalls
  split
  · exact haveNames_candidateCalls _ _ (h.names .indexGet).2
  · exact haveNames_pure _

theorem WellNamed.haveNames_writeCalls (h : t.WellNamed)
    (container index value : Option (Expr S.Ty)) :
    (t.writeCalls container index value).HaveNames := by
  unfold writeCalls
  split
  · exact haveNames_candidateCalls _ _ (h.names .indexSet).2
  · exact haveNames_pure _

theorem WellNamed.haveNames_conversionCalls (h : t.WellNamed) (target : Option S.Ty)
    (source : Option (Expr S.Ty)) : (t.conversionCalls target source).HaveNames := by
  unfold conversionCalls
  split
  · exact (haveNames_call h.valueOf).bind fun _ => haveNames_pure _
  · exact haveNames_pure _

/-- In a table made by configurations nothing is empty, so every call that an operator makes by it
is of a method with a name. -/
theorem configured_calls_have_names (h : t.Configured) :
    t.WellNamed ∧
    (∀ (lhs rhs : Option S.Ty) (token : String), (t.binaryCalls lhs rhs token).HaveNames) ∧
    (∀ (operands : List (Option S.Ty)) (tokens : List String),
      (t.chainCalls operands tokens).HaveNames) ∧
    (∀ (lhs rhs : Option S.Ty) (token : String), (t.comparisonCalls lhs rhs token).HaveNames) ∧
    (∀ (operand : Option S.Ty) (token : String), (t.unaryCalls operand token).HaveNames) ∧
    (∀ container index : Option (Expr S.Ty), (t.readCalls container index).HaveNames) ∧
    (∀ container index value : Option (Expr S.Ty),
      (t.writeCalls container index value).HaveNames) ∧
    (∀ (target : Option S.Ty) (source : Option (Expr S.Ty)),
      (t.conversionCalls target source).HaveNames) := by
  have ht := h.wellNamed
  exact ⟨ht, ht.haveNames_binaryCalls, ht.haveNames_chainCalls,
    fun lhs rhs token => ht.haveNames_namedCall .comparison token lhs [rhs],
    fun operand token => ht.haveNames_namedCall .unary token operand [], ht.haveNames_readCalls,
    ht.haveNames_writeCalls, ht.haveNames_conversionCalls⟩

/-- The standard table when its tokens are dropped for another operator, and then a name for
conversions is given. -/
def powerTable : OperatorTable where
  binary := .ofList [("**", "power")]
  unary := .empty
  comparison := .empty
  indexGet := ["at"]
  indexSet := ["set", "put"]
  valueOf := "from"

theorem configured_powerTable : powerTable.Configured := by
  let tokens : Config :=
    { inheritDefaults := false, binary := .ofList [("**", "power")], indexGet := some ["at"] }
  let conversion : Config := { valueOf := some "from" }
  have htokens : tokens.toTable = .ok { powerTable with valueOf := "valueOf" } := rfl
  exact .configure (c := conversion) (.toTable htokens) rfl

/-- A chain in which one token stands for a method and the other does not. -/
theorem configured_calls_have_names_power :
    powerTable.Configured ∧ powerTable.WellNamed ∧
      (powerTable.chainCalls (S := classTypes)
        [some (.primitive .int), some (.primitive .int), none] ["**", "+"]).HaveNames := by
  obtain ⟨hnamed, -, hchain, -⟩ := configured_calls_have_names (S := classTypes) configured_powerTable
  exact ⟨configured_powerTable, hnamed, hchain _ _⟩

end OperatorTable

end MethodOperators
