import MethodOperators.Proofs.ByteOrder
import MethodOperators.Proofs.Dictionaries
import MethodOperators.Proofs.MethodNames

/-! What a configuration does to a table, token by token, and for which of its faults it is refused.
The first fault is the least in an order of all faults, whatever the steps in which they are found.
-/

namespace MethodOperators

/-! ### Faults and their order -/

namespace Config

/-- The faults of a configuration, each by the error that reports it. -/
inductive HasFault (c : Config) : ConfigError → Prop
  | emptyToken {part : TokenSection} {name : String} (h : (c.tokens part).find? "" = some name) :
    HasFault c (.emptyToken part)
  | emptyMethodName {part : TokenSection} {token : String}
    (h : (c.tokens part).find? token = some "") : HasFault c (.emptyMethodName part token)
  | invalidCandidates {list : CandidateList} {names : List String} (h : c.names? list = some names)
    (hnames : names = [] ∨ "" ∈ names) : HasFault c (.invalidCandidates list)
  | emptyValueOf (h : c.valueOf = some "") : HasFault c .emptyValueOf

/-- No token and no name of a configuration is empty, and neither is a list of names. -/
structure Valid (c : Config) : Prop where
  tokens : ∀ part, (c.tokens part).NoneEmpty
  names : ∀ list names, c.names? list = some names → names ≠ [] ∧ ∀ name ∈ names, name ≠ ""
  valueOf : ∀ name, c.valueOf = some name → name ≠ ""

theorem valid_iff {c : Config} : c.Valid ↔ ∀ e, ¬ c.HasFault e := by
  constructor
  · intro h e hfault
    cases hfault with
    | emptyToken hfind => exact (h.tokens _ _ _ hfind).1 rfl
    | emptyMethodName hfind => exact (h.tokens _ _ _ hfind).2 rfl
    | invalidCandidates hnames hbad =>
      obtain ⟨hnil, hempty⟩ := h.names _ _ hnames
      rcases hbad with hbad | hbad
      · exact hnil hbad
      · exact hempty "" hbad rfl
    | emptyValueOf hvalue => exact h.valueOf _ hvalue rfl
  · intro h
    refine ⟨fun part token name hfind => ⟨?_, ?_⟩, fun list names hnames => ⟨?_, ?_⟩, ?_⟩
    · rintro rfl
      exact h _ (.emptyToken hfind)
    · rintro rfl
      exact h _ (.emptyMethodName hfind)
    · exact fun hnil => h _ (.invalidCandidates hnames (.inl hnil))
    · rintro name hname rfl
      exact h _ (.invalidCandidates hnames (.inr hname))
    · rintro name hvalue rfl
      exact h _ (.emptyValueOf hvalue)

end Config

namespace ConfigError

/-- A part of a configuration that an error may be about. -/
inductive Part where
  | tokens (part : TokenSection)
  | names (list : CandidateList)
  | valueOf

/-- Where a part stands in the order of the parts. -/
def Part.place : Part → Nat
  | tokens .binary => 1
  | tokens .unary => 2
  | tokens .comparison => 3
  | names .indexGet => 4
  | names .indexSet => 5
  | valueOf => 6

theorem Part.place_bounds (part : Part) : 1 ≤ part.place ∧ part.place ≤ 6 := by
  rcases part with (_ | _ | _) | (_ | _) | _ <;> decide

theorem Part.place_inj {p q : Part} : p.place = q.place ↔ p = q := by
  rcases p with (_ | _ | _) | (_ | _) | _ <;> rcases q with (_ | _ | _) | (_ | _) | _ <;>
    simp [place]

/-- The part that an error is about. What is not a configuration at all has no parts. -/
def part? : ConfigError → Option Part
  | malformed => none
  | emptyToken part => some (.tokens part)
  | emptyMethodName part _ => some (.tokens part)
  | invalidCandidates list => some (.names list)
  | emptyValueOf => some .valueOf

/-- The place of the part that an error is about. -/
def place (e : ConfigError) : Nat := (e.part?.map Part.place).getD 0

theorem place_eq_iff {e : ConfigError} {part : Part} :
    e.place = part.place ↔ e.part? = some part := by
  unfold place
  cases e.part? with
  | none =>
    have hbounds := part.place_bounds
    simp only [Option.map_none, Option.getD_none, reduceCtorEq, iff_false]
    omega
  | some p => rw [Option.map_some, Option.getD_some, Part.place_inj, Option.some.injEq]

/-- Outside the sections there is one error for each part. -/
theorem eq_of_part?_eq {e f : ConfigError} (hf : ∀ part, f.part? ≠ some (.tokens part))
    (h : e.part? = f.part?) : e = f := by
  cases f with
  | emptyToken part => exact absurd rfl (hf part)
  | emptyMethodName part token => exact absurd rfl (hf part)
  | malformed | invalidCandidates | emptyValueOf =>
    cases e <;> simp_all [part?]

/-- The token that an error is about, which is empty for all errors that are not about a name. -/
def token : ConfigError → String
  | emptyMethodName _ token => token
  | malformed | emptyToken _ | invalidCandidates _ | emptyValueOf => ""

/-- The order of errors: by part, within a section by the bytes of the token, and for one and the same
token the fault of the token before that of its name. -/
inductive Before : ConfigError → ConfigError → Prop
  | part {e f : ConfigError} (h : e.place < f.place) : Before e f
  | token {e f : ConfigError} (hplace : e.place = f.place)
    (h : Utf8.bytes e.token < Utf8.bytes f.token) : Before e f
  | name (part : TokenSection) : Before (emptyToken part) (emptyMethodName part "")

theorem Before.asymm {e f : ConfigError} (h : e.Before f) : ¬ f.Before e := by
  intro h'
  cases h with
  | part hlt =>
    cases h' with
    | part hlt' => exact Nat.lt_asymm hlt hlt'
    | token hplace => exact Nat.ne_of_lt hlt hplace.symm
    | name => exact Nat.lt_irrefl _ hlt
  | token hplace hlt =>
    cases h' with
    | part hlt' => exact Nat.ne_of_lt hlt' hplace.symm
    | token _ hlt' => exact List.lt_asymm hlt hlt'
    | name => exact List.lt_irrefl _ hlt
  | name =>
    cases h' with
    | part hlt' => exact Nat.lt_irrefl _ hlt'
    | token _ hlt' => exact List.lt_irrefl _ hlt'

end ConfigError

namespace Config

open ConfigError (Part)

/-- `c.FirstFault e` says that `e` reports the first fault of `c`. -/
def FirstFault (c : Config) (e : ConfigError) : Prop :=
  c.HasFault e ∧ ∀ f, c.HasFault f → f ≠ e → e.Before f

/-! ### Looking for faults -/

/-- `c.Checks here x` says that `x` fails exactly if `c` has a fault in the parts that `here` holds
of, and then with the first of these faults. -/
structure Checks (c : Config) (here : Nat → Prop) {α : Type} (x : Except ConfigError α) : Prop where
  ok : ∀ a, x = .ok a → ∀ f, c.HasFault f → ¬ here f.place
  error : ∀ e, x = .error e →
    c.HasFault e ∧ here e.place ∧ ∀ f, c.HasFault f → here f.place → f ≠ e → e.Before f

/-- A part is looked through before all parts that come after it. -/
theorem Checks.bind {c : Config} {n : Nat} {α β : Type} {x : Except ConfigError α}
    {f : α → Except ConfigError β} (hx : c.Checks (· = n) x)
    (hf : ∀ a, c.Checks (n + 1 ≤ ·) (f a)) : c.Checks (n ≤ ·) (x >>= f) := by
  cases x with
  | error e =>
    obtain ⟨hfault, hplace, hfirst⟩ := hx.error e rfl
    refine ⟨nofun, fun e' he' => ?_⟩
    obtain rfl : e = e' := Except.error.inj he'
    refine ⟨hfault, Nat.le_of_eq hplace.symm, fun g hg hle hne => ?_⟩
    rcases Nat.lt_or_eq_of_le hle with hlt | heq
    · exact .part (hplace ▸ hlt)
    · exact hfirst g hg heq.symm hne
  | ok a =>
    have hclear := hx.ok a rfl
    -- With no fault in this part, "from here on" and "after this part" are the same.
    have hlater {g : ConfigError} (hg : c.HasFault g) (hle : n ≤ g.place) : n + 1 ≤ g.place :=
      Nat.lt_of_le_of_ne hle fun heq => hclear g hg heq.symm
    refine ⟨fun b hb g hg hle => (hf a).ok b hb g hg (hlater hg hle), fun e he => ?_⟩
    obtain ⟨hfault, hplace, hfirst⟩ := (hf a).error e he
    exact ⟨hfault, Nat.le_of_succ_le hplace, fun g hg hle => hfirst g hg (hlater hg hle)⟩

/-- The faults of one entry of a section. -/
inductive EntryFault (part : TokenSection) : String × String → ConfigError → Prop
  | token (name : String) : EntryFault part ("", name) (.emptyToken part)
  | name (token : String) : EntryFault part (token, "") (.emptyMethodName part token)

theorem exists_entryFault_iff {part : TokenSection} {entry : String × String} :
    (∃ e, EntryFault part entry e) ↔ ¬ (entry.1 ≠ "" ∧ entry.2 ≠ "") := by
  obtain ⟨token, name⟩ := entry
  constructor
  · rintro ⟨e, he⟩ ⟨htoken, hname⟩
    cases he with
    | token => exact htoken rfl
    | name => exact hname rfl
  · intro h
    by_cases htoken : token = ""
    · subst htoken
      exact ⟨_, .token name⟩
    · by_cases hname : name = ""
      · subst hname
        exact ⟨_, .name token⟩
      · exact absurd ⟨htoken, hname⟩ h

theorem addEntries_eq_ok_iff {part : TokenSection} {entries : List (String × String)}
    {table table' : Dictionary String String} :
    addEntries part entries table = .ok table' ↔
      (∀ entry ∈ entries, entry.1 ≠ "" ∧ entry.2 ≠ "") ∧
        table' = entries.foldl (fun d entry => d.insert entry.1 entry.2) table := by
  induction entries generalizing table with
  | nil =>
    rw [addEntries, Except.ok.injEq, List.foldl_nil, eq_comm]
    exact (and_iff_right fun _ h => absurd h List.not_mem_nil).symm
  | cons entry entries ih =>
    obtain ⟨token, name⟩ := entry
    by_cases htoken : token = ""
    · simp [addEntries, htoken]
    · by_cases hname : name = ""
      · simp [addEntries, htoken, hname]
      · simp [addEntries, htoken, hname, ih]

/-- Entries are looked through in the order of their tokens, so that the fault that is reported comes
before all others. -/
theorem addEntries_eq_error {part : TokenSection} {entries : List (String × String)}
    (hsorted : entries.Pairwise fun e f => e.1 < f.1) {table : Dictionary String String}
    {e : ConfigError} (h : addEntries part entries table = .error e) :
    (∃ entry ∈ entries, EntryFault part entry e) ∧
      ∀ entry ∈ entries, ∀ f, EntryFault part entry f → f ≠ e → e.Before f := by
  induction entries generalizing table with
  | nil => cases h
  | cons entry entries ih =>
    obtain ⟨token, name⟩ := entry
    obtain ⟨hlater, hsorted⟩ := List.pairwise_cons.1 hsorted
    simp only [addEntries, String.isEmpty_iff] at h
    by_cases htoken : token = ""
    · subst htoken
      obtain rfl : .emptyToken part = e := by simpa using h
      refine ⟨⟨_, List.mem_cons_self, .token name⟩, fun entry hentry f hf hne => ?_⟩
      rcases List.mem_cons.1 hentry with rfl | hentry
      · cases hf with
        | token => exact absurd rfl hne
        | name => exact .name part
      · have hlt := hlater entry hentry
        cases hf with
        | token => exact absurd rfl hne
        | name => exact .token rfl (Utf8.bytes_lt_iff.2 hlt)
    · rw [if_neg htoken] at h
      by_cases hname : name = ""
      · subst hname
        obtain rfl : .emptyMethodName part token = e := by simpa using h
        refine ⟨⟨_, List.mem_cons_self, .name token⟩, fun entry hentry f hf hne => ?_⟩
        rcases List.mem_cons.1 hentry with rfl | hentry
        · cases hf with
          | token => exact absurd rfl htoken
          | name => exact absurd rfl hne
        · have hlt := hlater entry hentry
          cases hf with
          | token => exact absurd (String.lt_iff.1 hlt) (List.not_lt_nil _)
          | name => exact .token rfl (Utf8.bytes_lt_iff.2 hlt)
      · rw [if_neg hname] at h
        obtain ⟨⟨entry, hentry, hfault⟩, hfirst⟩ := ih hsorted h
        refine ⟨⟨entry, List.mem_cons_of_mem _ hentry, hfault⟩, fun entry hentry f hf => ?_⟩
        rcases List.mem_cons.1 hentry with rfl | hentry
        · exact absurd ⟨htoken, hname⟩ (exists_entryFault_iff.1 ⟨f, hf⟩)
        · exact hfirst entry hentry f hf

/-- The faults of a section are those of its entries. -/
theorem hasFault_in_section_iff {c : Config} {part : TokenSection} {e : ConfigError} :
    c.HasFault e ∧ e.place = (Part.tokens part).place ↔
      ∃ entry ∈ (c.tokens part).inOrder, EntryFault part entry e := by
  simp only [(Dictionary.perm_inOrder _).mem_iff, ConfigError.place_eq_iff]
  constructor
  · rintro ⟨hfault, hpart⟩
    cases hfault with
    | emptyToken h =>
      cases hpart
      exact ⟨_, Dictionary.mem_entries_iff.2 h, .token _⟩
    | emptyMethodName h =>
      cases hpart
      exact ⟨_, Dictionary.mem_entries_iff.2 h, .name _⟩
    | invalidCandidates => cases hpart
    | emptyValueOf => cases hpart
  · rintro ⟨entry, hentry, hfault⟩
    cases hfault with
    | token => exact ⟨.emptyToken (Dictionary.mem_entries_iff.1 hentry), rfl⟩
    | name => exact ⟨.emptyMethodName (Dictionary.mem_entries_iff.1 hentry), rfl⟩

theorem checks_addSection (c : Config) (part : TokenSection) (table : Dictionary String String) :
    c.Checks (· = (Part.tokens part).place) (addSection part (c.tokens part) table) where
  ok table' h f hf hplace := by
    obtain ⟨entry, hentry, hfault⟩ := hasFault_in_section_iff.1 ⟨hf, hplace⟩
    exact exists_entryFault_iff.1 ⟨f, hfault⟩ ((addEntries_eq_ok_iff.1 h).1 entry hentry)
  error e h := by
    obtain ⟨hfault, hfirst⟩ := addEntries_eq_error (Dictionary.pairwise_inOrder _) h
    obtain ⟨hfault, hplace⟩ := hasFault_in_section_iff.2 hfault
    refine ⟨hfault, hplace, fun f hf hfplace hne => ?_⟩
    obtain ⟨entry, hentry, hf⟩ := hasFault_in_section_iff.1 ⟨hf, hfplace⟩
    exact hfirst entry hentry f hf hne

/-- A part in which only one fault is possible. -/
theorem Checks.of_single {c : Config} {α : Type} {x : Except ConfigError α} {e : ConfigError}
    {part : Part} (hpart : e.part? = some part) (hsingle : ∀ p, part ≠ .tokens p)
    (hx : (∃ a, x = .ok a) ∧ ¬ c.HasFault e ∨ x = .error e ∧ c.HasFault e) :
    c.Checks (· = part.place) x := by
  have honly (f : ConfigError) (hplace : f.place = part.place) : f = e :=
    ConfigError.eq_of_part?_eq (fun p h => hsingle p (Option.some.inj (hpart.symm.trans h)))
      ((ConfigError.place_eq_iff.1 hplace).trans hpart.symm)
  rcases hx with ⟨⟨a, rfl⟩, hnone⟩ | ⟨rfl, hfault⟩
  · exact ⟨fun _ _ f hf hplace => hnone (honly f hplace ▸ hf), nofun⟩
  · refine ⟨nofun, fun e' he' => ?_⟩
    obtain rfl : e = e' := Except.error.inj he'
    exact ⟨hfault, ConfigError.place_eq_iff.2 hpart,
      fun f _ hplace hne => absurd (honly f hplace) hne⟩

theorem candidates_cases (list : CandidateList) (names : Option (List String))
    (inTable : List String) :
    candidates list names inTable = .ok (names.getD inTable) ∧
        (∀ ns, names = some ns → ¬ (ns = [] ∨ "" ∈ ns)) ∨
      candidates list names inTable = .error (.invalidCandidates list) ∧
        ∃ ns, names = some ns ∧ (ns = [] ∨ "" ∈ ns) := by
  cases names with
  | none => exact .inl ⟨rfl, nofun⟩
  | some ns =>
    by_cases hbad : ns = [] ∨ "" ∈ ns
    · refine .inr ⟨?_, ns, rfl, hbad⟩
      rw [candidates, if_pos (by simpa using hbad)]
    · refine .inl ⟨?_, fun ns' h => Option.some.inj h ▸ hbad⟩
      rw [candidates, if_neg (by simpa using hbad), Option.getD_some]

theorem checks_candidates (c : Config) (list : CandidateList) (inTable : List String) :
    c.Checks (· = (Part.names list).place) (candidates list (c.names? list) inTable) := by
  refine Checks.of_single (e := .invalidCandidates list) rfl nofun ?_
  rcases candidates_cases list (c.names? list) inTable with ⟨hok, hgood⟩ | ⟨herror, ns, hns, hbad⟩
  · refine .inl ⟨⟨_, hok⟩, fun hfault => ?_⟩
    cases hfault with
    | invalidCandidates h hbad => exact hgood _ h hbad
  · exact .inr ⟨herror, .invalidCandidates hns hbad⟩

theorem conversion_cases (name : Option String) (inTable : String) :
    conversion name inTable = .ok (name.getD inTable) ∧ name ≠ some "" ∨
      conversion name inTable = .error .emptyValueOf ∧ name = some "" := by
  cases name with
  | none => exact .inl ⟨rfl, nofun⟩
  | some name =>
    by_cases hname : name = ""
    · subst hname
      exact .inr ⟨rfl, rfl⟩
    · refine .inl ⟨?_, by simpa using hname⟩
      rw [conversion, if_neg (by simpa using hname), Option.getD_some]

theorem checks_conversion (c : Config) (inTable : String) :
    c.Checks (· = Part.valueOf.place) (conversion c.valueOf inTable) := by
  refine Checks.of_single (e := .emptyValueOf) rfl nofun ?_
  rcases conversion_cases c.valueOf inTable with ⟨hok, hgood⟩ | ⟨herror, hbad⟩
  · refine .inl ⟨⟨_, hok⟩, fun hfault => ?_⟩
    cases hfault with
    | emptyValueOf h => exact hgood h
  · exact .inr ⟨herror, .emptyValueOf hbad⟩

theorem HasFault.place_bounds {c : Config} {e : ConfigError} (h : c.HasFault e) :
    1 ≤ e.place ∧ e.place ≤ 6 := by
  cases h with
  | emptyToken => exact Part.place_bounds _
  | emptyMethodName => exact Part.place_bounds _
  | invalidCandidates => exact Part.place_bounds _
  | emptyValueOf => exact Part.place_bounds .valueOf

theorem checks_configure (t : OperatorTable) (c : Config) :
    c.Checks (1 ≤ ·) (t.configure c) := by
  have hend (t' : OperatorTable) : c.Checks (7 ≤ ·) (.ok t' : Except ConfigError OperatorTable) :=
    ⟨fun _ _ f hf hplace => Nat.not_succ_le_self 6 (Nat.le_trans hplace hf.place_bounds.2), nofun⟩
  exact (c.checks_addSection .binary _).bind fun _ => (c.checks_addSection .unary _).bind fun _ =>
    (c.checks_addSection .comparison _).bind fun _ => (c.checks_candidates .indexGet _).bind fun _ =>
    (c.checks_candidates .indexSet _).bind fun _ => (c.checks_conversion _).bind fun _ => hend _

end Config

namespace OperatorTable

theorem configure_eq_error_iff {t : OperatorTable} {c : Config} {e : ConfigError} :
    t.configure c = .error e ↔ c.FirstFault e := by
  have hchecks := Config.checks_configure t c
  constructor
  · intro h
    obtain ⟨hfault, -, hfirst⟩ := hchecks.error e h
    exact ⟨hfault, fun f hf => hfirst f hf hf.place_bounds.1⟩
  · rintro ⟨hfault, hfirst⟩
    cases hresult : t.configure c with
    | ok t' => exact absurd hfault.place_bounds.1 (hchecks.ok t' hresult e hfault)
    | error e' =>
      obtain ⟨hfault', -, hfirst'⟩ := hchecks.error e' hresult
      by_cases heq : e' = e
      · rw [heq]
      · have hbefore := hfirst e' hfault' heq
        exact absurd hbefore
          (hfirst' e hfault hfault.place_bounds.1 (Ne.symm heq)).asymm

theorem exists_configure_iff (t : OperatorTable) {c : Config} :
    (∃ t', t.configure c = .ok t') ↔ c.Valid := by
  have hchecks := Config.checks_configure t c
  rw [Config.valid_iff]
  constructor
  · rintro ⟨t', h⟩ e hfault
    exact hchecks.ok t' h e hfault hfault.place_bounds.1
  · intro hvalid
    cases hresult : t.configure c with
    | ok t' => exact ⟨t', rfl⟩
    | error e => exact absurd (hchecks.error e hresult).1 (hvalid e)

/-! ### The changed table -/

/-- `t.ChangedBy c t'` says that `t'` is `t` with the changes of `c` made: what `c` gives counts first,
and what it leaves out is as in `t`, except that the tokens of `t` may be dropped. -/
structure ChangedBy (t : OperatorTable) (c : Config) (t' : OperatorTable) : Prop where
  name? : ∀ part token, t'.name? part token =
    ((c.tokens part).find? token).or (if c.inheritDefaults then t.name? part token else none)
  names : ∀ list, t'.names list = (c.names? list).getD (t.names list)
  valueOf : t'.valueOf = c.valueOf.getD t.valueOf

theorem find?_addSection {part : TokenSection} {entries table table' : Dictionary String String}
    (h : Config.addSection part entries table = .ok table') (token : String) :
    table'.find? token = (entries.find? token).or (table.find? token) := by
  obtain ⟨-, rfl⟩ := Config.addEntries_eq_ok_iff.1 h
  rw [Dictionary.find?_foldl_insert,
    Dictionary.lookup_of_perm ((List.reverse_perm _).trans entries.perm_inOrder)]

theorem find?_tokensFor (c : Config) (tokens : Dictionary String String) (token : String) :
    (tokensFor c tokens).find? token = if c.inheritDefaults then tokens.find? token else none := by
  unfold tokensFor
  split <;> rfl

theorem eq_of_candidates {list : CandidateList} {names : Option (List String)}
    {inTable result : List String} (h : Config.candidates list names inTable = .ok result) :
    result = names.getD inTable := by
  rcases Config.candidates_cases list names inTable with ⟨hok, -⟩ | ⟨herror, -⟩
  · exact Except.ok.inj (h.symm.trans hok)
  · exact absurd (h.symm.trans herror) nofun

theorem eq_of_conversion {name : Option String} {inTable result : String}
    (h : Config.conversion name inTable = .ok result) : result = name.getD inTable := by
  rcases Config.conversion_cases name inTable with ⟨hok, -⟩ | ⟨herror, -⟩
  · exact Except.ok.inj (h.symm.trans hok)
  · exact absurd (h.symm.trans herror) nofun

theorem changedBy_of_configure {t t' : OperatorTable} {c : Config} (h : t.configure c = .ok t') :
    t.ChangedBy c t' := by
  obtain ⟨hsections, hlists, hvalue⟩ := configure_eq_ok_iff.1 h
  exact {
    name? := fun part token => by
      rw [name?, find?_addSection (hsections part), find?_tokensFor, name?]
    names := fun list => eq_of_candidates (hlists list)
    valueOf := eq_of_conversion hvalue }

/-- A configuration succeeds exactly if no token and no name in it is empty. Then it changes the table
as it says, and what it leaves out stays, but for the tokens if they are not inherited. Otherwise it is
refused for the first of its faults. -/
theorem configure_exactly (t : OperatorTable) (c : Config) :
    ((∃ t', t.configure c = .ok t') ↔ c.Valid) ∧
    (∀ t', t.configure c = .ok t' → t.ChangedBy c t') ∧
    (∀ e, t.configure c = .error e ↔ c.FirstFault e) :=
  ⟨exists_configure_iff t, fun _ => changedBy_of_configure, fun _ => configure_eq_error_iff⟩

/-- A configuration with four faults, in three of its parts. -/
def faultyConfig : Config where
  unary := .ofList [("~", ""), ("!", "")]
  indexSet := some []
  valueOf := some ""

/-- Of the four faults the name for `!` is the first. Without faults, the tokens of the standard table
are dropped for another one, and its names to try stay. -/
theorem configure_exactly_power :
    ¬ faultyConfig.Valid ∧ faultyConfig.FirstFault (.emptyMethodName .unary "!") ∧
    (∃ t', standard.configure { inheritDefaults := false, binary := .ofList [("**", "power")] } =
      .ok t' ∧ t'.binaryName? "**" = some "power" ∧ t'.binaryName? "+" = none ∧
        t'.indexSet = ["set", "put"]) := by
  obtain ⟨hvalid, -, herror⟩ := configure_exactly standard faultyConfig
  have hfaulty : standard.configure faultyConfig = .error (.emptyMethodName .unary "!") := by
    rfl
  refine ⟨fun h => ?_, (herror _).1 hfaulty, ?_⟩
  · obtain ⟨t', ht'⟩ := hvalid.2 h
    exact nomatch hfaulty.symm.trans ht'
  · let c : Config := { inheritDefaults := false, binary := .ofList [("**", "power")] }
    have hconfigure : standard.configure c =
        .ok { standard with
          binary := .ofList [("**", "power")], unary := .empty, comparison := .empty } := rfl
    have hchanged := (configure_exactly standard c).2.1 _ hconfigure
    exact ⟨_, hconfigure, hchanged.name? .binary "**", hchanged.name? .binary "+",
      hchanged.names .indexSet⟩

end OperatorTable

end MethodOperators
