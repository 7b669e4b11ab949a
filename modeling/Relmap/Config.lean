import Relmap.Table
import Relmap.Toml.Read

/-!
# Tables declared in a configuration

A configuration names a table and declares its fields, each in a section of its own. Settings that
are left out have their usual values; settings that are not known are refused. Fields may also be
written as a list of tables, or of lists that give the settings by position.
-/

namespace Relmap

namespace FieldDecl

/-- The declaration of a field of which nothing is said. -/
def unset : FieldDecl := { name := "", type := .standard }

/-- A width, which has to fit thirty-two bits without a sign. -/
def readWidth? (v : Toml) : Option Nat := do
  let n ← v.whole?
  if 0 ≤ n ∧ n < Number.unsignedBound 32 then some n.toNat else none

/-- The declaration with a setting. -/
def withSetting? (d : FieldDecl) (key : String) (v : Toml) : Option FieldDecl :=
  match key with
  | "field_name" => v.text?.map fun s => { d with name := s }
  | "column_name" => v.text?.map fun s => { d with column? := some s }
  | "data_type" => (v.text?.bind DataType.ofName?).map fun t => { d with type := t }
  | "can_be_null" => v.truth?.map fun b => { d with nullable := b }
  | "default_value" => v.text?.map fun s => { d with defaultText := some s }
  | "id" => v.truth?.map fun b => { d with id := b }
  | "generated_id" => v.truth?.map fun b => { d with generatedId := b }
  | "version" => v.truth?.map fun b => { d with version := b }
  | "throw_if_null" => v.truth?.map fun b => { d with throwIfNull := b }
  | "format" => v.text?.map fun s => { d with format := some s }
  | "width" => (readWidth? v).map fun n => { d with width := some n }
  | "enum_constants" =>
    (v.items?.bind fun items => items.mapM Toml.text?).map fun names =>
      { d with enumConstants := names }
  | "unknown_enum_name" => v.text?.map fun s => { d with unknownEnum := some s }
  | _ => none

/-- The keys of the settings of a field, in the order of a list that gives them by position. -/
def settingKeys : List String :=
  ["field_name", "column_name", "data_type", "can_be_null", "default_value", "id", "generated_id",
    "version", "throw_if_null", "format", "width", "enum_constants", "unknown_enum_name"]

/-- The declaration of settings, of which each is named by a single key. -/
def ofSettings? (settings : List (Toml.Path × Toml)) : Option FieldDecl :=
  settings.foldlM (fun d s => match s.1 with
    | [key] => d.withSetting? key s.2
    | _ => none) unset

/-- The declaration of settings by position; what follows the last of them is ignored. -/
def ofItems? (items : List Toml) : Option FieldDecl :=
  (settingKeys.zip items).foldlM (fun d s => d.withSetting? s.1 s.2) unset

/-- The declaration of a value: a table of settings, or a list of settings by position. -/
def ofToml? : Toml → Option FieldDecl
  | .table settings => ofSettings? settings
  | .list items => ofItems? items
  | _ => none

end FieldDecl

namespace TableDecl

/-- The fields declared in the sections of a configuration, or in a setting. -/
def fields? (d : Toml.Document) : Option (List FieldDecl) :=
  match d.settings.find? (·.1 = ["fields"]) with
  | some (_, v) => v.items?.bind fun items => items.mapM FieldDecl.ofToml?
  | none => d.sections.mapM fun s => FieldDecl.ofSettings? s.2

/-- The declaration in a configuration: a name and fields, and nothing else. -/
def ofDocument? (d : Toml.Document) : Option TableDecl := do
  let (_, v) ← d.settings.find? (·.1 = ["table_name"])
  let name ← v.text?
  if d.settings.any fun s => s.1 ≠ ["table_name"] ∧ s.1 ≠ ["fields"] then none
  else if d.sections.any (·.1 ≠ "fields") then none
  else return { name, fields := ← fields? d }

/-- The declaration in the text of a configuration. -/
def read (source : String) : Except Failure TableDecl :=
  match (Toml.read? source.toList).bind ofDocument? with
  | some d => .ok d
  | none => .error .source

end TableDecl

end Relmap
