import MethodOperators.Proofs.Configuration

/-! Two configurations that are applied one after the other change a table as a single one does. -/

namespace MethodOperators

namespace Config

/-- The tokens of a section when `second` is laid over `first`. -/
def layerTokens (inherit : Bool) (first second : Dictionary String String) :
    Dictionary String String :=
  if inherit then first.override second else second

theorem find?_layerTokens (inherit : Bool) (first second : Dictionary String String)
    (token : String) : (layerTokens inherit first second).find? token =
      (second.find? token).or (if inherit then first.find? token else none) := by
  cases inherit with
  | true => exact Dictionary.find?_override first second token
  | false => exact Option.or_none.symm

/-- The configuration that changes a table as `c` and after it `d` do. -/
def layer (c d : Config) : Config where
  inheritDefaults := c.inheritDefaults && d.inheritDefaults
  binary := layerTokens d.inheritDefaults c.binary d.binary
  unary := layerTokens d.inheritDefaults c.unary d.unary
  comparison := layerTokens d.inheritDefaults c.comparison d.comparison
  indexGet := d.indexGet.or c.indexGet
  indexSet := d.indexSet.or c.indexSet
  valueOf := d.valueOf.or c.valueOf

theorem tokens_layer (c d : Config) (part : TokenSection) :
    (c.layer d).tokens part = layerTokens d.inheritDefaults (c.tokens part) (d.tokens part) := by
  cases part <;> rfl

theorem names?_layer (c d : Config) (list : CandidateList) :
    (c.layer d).names? list = (d.names? list).or (c.names? list) := by
  cases list <;> rfl

theorem Valid.layer {c d : Config} (hc : c.Valid) (hd : d.Valid) : (c.layer d).Valid where
  tokens part token name hfind := by
    rw [tokens_layer, find?_layerTokens, Option.or_eq_some_iff] at hfind
    rcases hfind with hsecond | ⟨-, hfirst⟩
    · exact hd.tokens part token name hsecond
    · split at hfirst
      · exact hc.tokens part token name hfirst
      · cases hfirst
  names list names hnames := by
    rw [names?_layer, Option.or_eq_some_iff] at hnames
    rcases hnames with hsecond | ⟨-, hfirst⟩
    · exact hd.names list names hsecond
    · exact hc.names list names hfirst
  valueOf name hname := by
    rcases Option.or_eq_some_iff.1 hname with hsecond | ⟨-, hfirst⟩
    · exact hd.valueOf name hsecond
    · exact hc.valueOf name hfirst

end Config

namespace OperatorTable

/-- Every token stands for the same method in two tables, and they have the same names to try and the
same name for conversions. -/
structure SameLookups (s t : OperatorTable) : Prop where
  name? : ∀ part token, s.name? part token = t.name? part token
  names : ∀ list, s.names list = t.names list
  valueOf : s.valueOf = t.valueOf

theorem beq_iff_sameLookups {s t : OperatorTable} : (s == t) = true ↔ s.SameLookups t := by
  show (s.binary.agrees t.binary && s.unary.agrees t.unary && s.comparison.agrees t.comparison &&
    s.indexGet == t.indexGet && s.indexSet == t.indexSet && s.valueOf == t.valueOf) = true ↔ _
  simp only [Bool.and_eq_true, Dictionary.agrees_iff, beq_iff_eq, and_assoc]
  constructor
  · rintro ⟨hbinary, hunary, hcomparison, hget, hset, hvalue⟩
    refine ⟨fun part => ?_, fun list => ?_, hvalue⟩
    · cases part with
      | binary => exact hbinary
      | unary => exact hunary
      | comparison => exact hcomparison
    · cases list with
      | indexGet => exact hget
      | indexSet => exact hset
  · rintro ⟨hname, hnames, hvalue⟩
    exact ⟨hname .binary, hname .unary, hname .comparison, hnames .indexGet, hnames .indexSet,
      hvalue⟩

/-- The look-ups of a changed table are settled by the table and the configuration. -/
theorem ChangedBy.sameLookups {t s s' : OperatorTable} {c : Config} (h : t.ChangedBy c s)
    (h' : t.ChangedBy c s') : s.SameLookups s' where
  name? part token := (h.name? part token).trans (h'.name? part token).symm
  names list := (h.names list).trans (h'.names list).symm
  valueOf := h.valueOf.trans h'.valueOf.symm

/-- One look-up through two layers. What the second drops is gone, whether the first had it from the
table or gave it itself. -/
theorem find?_through_layers (i j : Bool) (first second : Dictionary String String) (token : String)
    (inTable : Option String) :
    (second.find? token).or (if j then (first.find? token).or (if i then inTable else none) else none) =
      ((Config.layerTokens j first second).find? token).or (if i && j then inTable else none) := by
  rw [Config.find?_layerTokens, Option.or_assoc]
  cases i <;> cases j <;> rfl

theorem ChangedBy.layer {t first both : OperatorTable} {c d : Config} (hc : t.ChangedBy c first)
    (hd : first.ChangedBy d both) : t.ChangedBy (c.layer d) both where
  name? part token := by
    rw [hd.name?, hc.name?, Config.tokens_layer]
    exact find?_through_layers _ _ _ _ token _
  names list := by
    rw [hd.names, hc.names, Config.names?_layer, Option.getD_or]
  valueOf := by
    rw [hd.valueOf, hc.valueOf]
    exact Option.getD_or.symm

theorem or_again (i : Bool) (name inTable : Option String) :
    name.or (if i then name.or (if i then inTable else none) else none) =
      name.or (if i then inTable else none) := by
  cases i with
  | true => rw [if_pos rfl, if_pos rfl, ← Option.or_assoc, Option.or_self]
  | false => rfl

theorem ChangedBy.again {t once twice : OperatorTable} {c : Config} (h : t.ChangedBy c once)
    (h' : once.ChangedBy c twice) : twice.SameLookups once where
  name? part token := by
    rw [h'.name?, h.name?]
    exact or_again _ _ _
  names list := by
    rw [h'.names, h.names]
    cases c.names? list <;> rfl
  valueOf := by
    rw [h'.valueOf, h.valueOf]
    cases c.valueOf <;> rfl

/-- Two valid configurations one after the other change a table as the two laid over each other do at
once, and one valid configuration changes nothing when it is applied again. -/
theorem configure_layers (t : OperatorTable) {c d : Config} (hc : c.Valid) (hd : d.Valid) :
    (∃ first both single, t.configure c = .ok first ∧ first.configure d = .ok both ∧
      t.configure (c.layer d) = .ok single ∧ both.SameLookups single ∧ (both == single) = true) ∧
    (∃ once twice, t.configure c = .ok once ∧ once.configure c = .ok twice ∧
      twice.SameLookups once ∧ (twice == once) = true) := by
  obtain ⟨first, hfirst⟩ := (exists_configure_iff t).2 hc
  obtain ⟨both, hboth⟩ := (exists_configure_iff first).2 hd
  obtain ⟨single, hsingle⟩ := (exists_configure_iff t).2 (hc.layer hd)
  obtain ⟨twice, htwice⟩ := (exists_configure_iff first).2 hc
  have hchanged := changedBy_of_configure hfirst
  have hsame : both.SameLookups single :=
    (hchanged.layer (changedBy_of_configure hboth)).sameLookups (changedBy_of_configure hsingle)
  have hagain : twice.SameLookups first := hchanged.again (changedBy_of_configure htwice)
  exact ⟨⟨first, both, single, hfirst, hboth, hsingle, hsame, beq_iff_sameLookups.2 hsame⟩,
    first, twice, hfirst, htwice, hagain, beq_iff_sameLookups.2 hagain⟩

/-- It drops the tokens that it finds, but the names to try stay. -/
def droppingConfig : Config :=
  { inheritDefaults := false, binary := .ofList [("**", "power"), ("+", "plus")],
    valueOf := some "of" }

def addingConfig : Config :=
  { binary := .ofList [("+", "sum")], indexGet := some ["at"] }

/-- The standard tokens are gone after both, and `+` stands for what the second says. -/
theorem configure_layers_power :
    droppingConfig.Valid ∧ addingConfig.Valid ∧
    (∃ first both single, standard.configure droppingConfig = .ok first ∧
      first.configure addingConfig = .ok both ∧
      standard.configure (droppingConfig.layer addingConfig) = .ok single ∧
      both.SameLookups single ∧ (both == single) = true) ∧
    (droppingConfig.layer addingConfig).inheritDefaults = false ∧
    (droppingConfig.layer addingConfig).binary.find? "+" = some "sum" ∧
    (droppingConfig.layer addingConfig).binary.find? "**" = some "power" := by
  have hdropping : droppingConfig.Valid := (exists_configure_iff standard).1 ⟨_, rfl⟩
  have hadding : addingConfig.Valid := (exists_configure_iff standard).1 ⟨_, rfl⟩
  exact ⟨hdropping, hadding, (configure_layers standard hdropping hadding).1, rfl, rfl, rfl⟩

end OperatorTable

end MethodOperators
