import MethodOperators.Document.Basic
import MethodOperators.Operator.Config

/-!
# Configurations as documents

A configuration is written as a document with these settings, all of which may be left out:

- `inherit_defaults`: a truth value
- `binary`, `unary`, `comparison`: groups of method names, named by tokens
- `index_get`, `index_set`: lists of method names
- `value_of`: a method name
-/

namespace MethodOperators

open Document

/-- The name under which a date or time is the only entry of a group. -/
def momentEntry : String := "$__toml_private_datetime"

/-- A setting as a group of names. A date or time counts as a group of one entry. -/
def Document.Setting.asGroup? : Setting → Option (Dictionary String String)
  | .group _ entries => some entries
  | .moment value => some (.ofList [(momentEntry, value.render)])
  | .flag _ | .text _ | .texts _ => none

namespace Config

/-- Takes one setting into a configuration. -/
def withSetting? (c : Config) (name : String) (value : Setting) : Option Config :=
  match name, value with
  | "inherit_defaults", .flag value => some { c with inheritDefaults := value }
  | "binary", value => value.asGroup?.map fun entries => { c with binary := entries }
  | "unary", value => value.asGroup?.map fun entries => { c with unary := entries }
  | "comparison", value => value.asGroup?.map fun entries => { c with comparison := entries }
  | "index_get", .texts names => some { c with indexGet := some names }
  | "index_set", .texts names => some { c with indexSet := some names }
  | "value_of", .text name => some { c with valueOf := some name }
  | _, _ => none

/-- The configuration that a text writes down. -/
def ofText (source : String) : Except ConfigError Config :=
  let config? := do
    let settings ← readSettings? source
    settings.entries.foldlM (fun c (name, value) => c.withSetting? name value) ({} : Config)
  match config? with
  | some config => .ok config
  | none => .error .malformed

end Config

/-- The standard table with the configuration applied that a text writes down. -/
def OperatorTable.ofText (source : String) : Except ConfigError OperatorTable := do
  (← Config.ofText source).toTable

end MethodOperators
