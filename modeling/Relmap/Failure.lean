import Relmap.DataType
import Relmap.Dialect.Basic
import Relmap.Text.Utf8

/-!
# What can go wrong

Failures by cause, grouped by what the caller can do about them. The wording is in one place each:
`reason` for every group, and `Failure.message`, which puts the name of the group in front.
-/

namespace Relmap

open Number (intText natText)

/-- A text that is not written as its type asks. -/
inductive ParseFailure
  /-- The text of a field is no text of what is expected. -/
  | unreadable (field value expected : String)
  | notOneCharacter (field value : String)
  deriving DecidableEq, Repr

namespace ParseFailure

/-- The failure in words. -/
def reason : ParseFailure → String
  | .unreadable field value expected => s!"field '{field}': could not parse '{value}' as {expected}"
  | .notOneCharacter field value => s!"field '{field}': '{value}' must be exactly one character"

end ParseFailure

/-- A value that cannot become the value asked for. -/
inductive ConversionFailure
  /-- A value of the wrong kind. -/
  | unexpectedKind (field expected kind : String)
  /-- A number outside the range of a type, with its kind and text. -/
  | outOfRange (field kind number target : String)
  | bytesNotText (field : String) (fault : Text.Utf8.Fault)
  | bytesNotJson (field : String) (position : Nat)
  | dateNotWritable (field format : String)
  | millisOutOfRange (field : String) (millis : Int)
  | secondsOutOfRange (field : String) (seconds : Int)
  | secondsTooWide (field : String) (seconds : Int)
  | unknownConstant (field stored : String)
  | nullValue (field : String)
  | nullColumn (field column : String)
  | columnTooWide (position : Nat) (number : Int)
  | storedTextNotText (fault : Text.Utf8.Fault)
  deriving DecidableEq, Repr

namespace ConversionFailure

/-- The failure in words. -/
def reason : ConversionFailure → String
  | .unexpectedKind field expected kind =>
    s!"field '{field}': expected {expected} value but got {kind}"
  | .outOfRange field kind number target =>
    s!"field '{field}': {kind} value {number} out of range for {target}"
  | .bytesNotText field fault => s!"field '{field}': stored bytes are not UTF-8: {fault.message}"
  | .bytesNotJson field position =>
    s!"field '{field}': could not deserialize column {natText position}:"
  | .dateNotWritable field format => s!"field '{field}': cannot format date with '{format}'"
  | .millisOutOfRange field millis =>
    s!"field '{field}': {intText millis} ms is outside the supported date range"
  | .secondsOutOfRange field seconds =>
    s!"field '{field}': {intText seconds} s is outside the supported date range"
  | .secondsTooWide field seconds =>
    s!"field '{field}': {intText seconds} s does not fit an integer column"
  | .unknownConstant field stored => s!"field '{field}': '{stored}' is not a known enum value"
  | .nullValue field => s!"field '{field}' cannot be null"
  | .nullColumn field column =>
    s!"field '{field}': column '{column}' is NULL but the field cannot hold null"
  | .columnTooWide position number =>
    s!"column {natText position}: {intText number} is out of range for int"
  | .storedTextNotText fault => s!"TEXT column is not valid UTF-8: {fault.message}"

end ConversionFailure

/-- A failure of reading rows or of the database itself. -/
inductive AccessFailure
  | closed
  | noRow
  | positionOutOfRange (position columns : Nat)
  /-- A column whose value has no reading as the target. -/
  | unreadableColumn (position : Nat) (kind target : String)
  | noResult (sql : String)
  /-- A failure told by the database. -/
  | reported (message : String)
  deriving DecidableEq, Repr

namespace AccessFailure

/-- The failure in words. -/
def reason : AccessFailure → String
  | .closed => "results already closed"
  | .noRow => "no current row"
  | .positionOutOfRange position columns =>
    s!"column position {natText position} out of range for {natText columns} columns"
  | .unreadableColumn position kind target =>
    s!"column {natText position}: cannot read {kind} value as {target}"
  | .noResult sql => s!"no result row for '{sql}'"
  | .reported message => message

end AccessFailure

/-- A statement, clause or field operation put together in a way that means nothing. -/
inductive StatementFailure
  | defaultRefused (field : String) (type : DataType)
  | defaultUnsupported (field : String) (type : DataType)
  | textUnsupported (field : String) (type : DataType)
  | noConstants (field : String)
  | noGeneratedId (field : String) (type : DataType)
  | noVersion (field : String) (type : DataType)
  | unknownColumn (column table : String)
  | tableWithoutId (table : String)
  | tableWithoutGeneratedId (table : String)
  /-- An argument without a value, with its column if it has one. -/
  | argumentUnset (column : Option String)
  | tooFewOperands (connective : String) (count : Nat)
  | emptyList (column : String)
  | subqueryColumns (column : String) (count : Nat)
  /-- A connective called before there is anything to connect. -/
  | nothingBefore (call : String)
  | nothingAfter
  | noClauses
  | unconnected (count : Nat)
  | cannotCombine (count available : Nat)
  | nullArgument (column : String)
  | columnAsValue (other column : String)
  | notComparable (column : String) (type : DataType)
  | noAssignments (table : String)
  | columnAssigned (other column : String)
  | offsetWithoutLimit (dialect : Dialect)
  | argumentIndex (index count : Nat)
  | placeholderTooLarge
  | placeholderZero
  | placeholderUnmatched (number count : Nat)
  deriving DecidableEq, Repr

namespace StatementFailure

/-- The failure in words. -/
def reason : StatementFailure → String
  | .defaultRefused field type => s!"field '{field}': {type.name} fields cannot have default values"
  | .defaultUnsupported field type =>
    s!"field '{field}': {type.name} fields do not support default values"
  | .textUnsupported field type =>
    s!"field '{field}': {type.name} fields do not support textual columns"
  | .noConstants field => s!"field '{field}' has no enum constants"
  | .noGeneratedId field type => s!"field '{field}' of type {type.name} cannot hold a generated id"
  | .noVersion field type => s!"field '{field}' of type {type.name} cannot be a version column"
  | .unknownColumn column table => s!"unknown column '{column}' for table '{table}'"
  | .tableWithoutId table => s!"table '{table}' has no id field"
  | .tableWithoutGeneratedId table => s!"table '{table}' has no generated id field"
  | .argumentUnset (some column) => s!"argument for column '{column}' has not been set"
  | .argumentUnset none => "raw argument has not been set"
  | .tooFewOperands connective count =>
    s!"{connective} needs at least two clauses, got {natText count}"
  | .emptyList column => s!"IN clause on '{column}' needs at least one value"
  | .subqueryColumns column count =>
    s!"sub-query for IN on '{column}' must select exactly one column, not {natText count}"
  | .nothingBefore call => s!"{call}() needs a clause before it"
  | .nothingAfter => "and(), or() or not() is missing the clause that follows it"
  | .noClauses => "no where clauses defined; did you miss a where operation?"
  | .unconnected count => s!"{natText count} clauses were added without and()/or() between them"
  | .cannotCombine count available =>
    s!"cannot combine the last {natText count} clauses, {natText available} available"
  | .nullArgument column => s!"argument for column '{column}' is null; use is_null() instead"
  | .columnAsValue other column => s!"column '{other}' cannot be used as a value for '{column}'"
  | .notComparable column type => s!"column '{column}' of type {type.name} cannot be compared"
  | .noAssignments table => s!"UPDATE of '{table}' has no columns to set"
  | .columnAssigned other column =>
    s!"use update_column_expression to assign column '{other}' to '{column}'"
  | .offsetWithoutLimit dialect => s!"{dialect.name} requires a limit when an offset is set"
  | .argumentIndex index count =>
    s!"argument index {natText index} out of range, statement has {natText count} arguments"
  | .placeholderTooLarge => "placeholder number is too large"
  | .placeholderZero => "placeholder $0 is not valid"
  | .placeholderUnmatched number count =>
    s!"placeholder {natText number} has no argument, statement has {natText count}"

end StatementFailure

/-- A field or table declared in a way that cannot work. -/
inductive ConfigFailure
  | unknownDataType (name : String)
  | noConverter (field : String) (type : DataType)
  | idTwice (field : String)
  | notId (field : String) (type : DataType)
  | notGeneratedId (field : String) (type : DataType)
  | generatedIdDefault (field : String)
  | notVersion (field : String) (type : DataType)
  | nullCheckOnBoxed (field : String)
  | fallbackOnNonEnum (field : String)
  | dateFormat (field format : String)
  | booleanChars (field format : String)
  | noConstants (field : String)
  | repeatedConstants (field : String)
  | unknownFallback (field constant : String)
  | charset (field name : String)
  /-- A default that is not written as the type asks. -/
  | unreadableDefault (cause : ParseFailure)
  /-- A default of a type that has none. -/
  | unsupportedDefault (cause : StatementFailure)
  | duplicateColumn (table column : String)
  | manyIds (table : String)
  | manyVersions (table : String)
  deriving DecidableEq, Repr

namespace ConfigFailure

/-- The failure in words. -/
def reason : ConfigFailure → String
  | .unknownDataType name => s!"unknown data type '{name}'"
  | .noConverter field type => s!"field '{field}': data type {type.name} has no persister"
  | .idTwice field => s!"field '{field}': cannot be both id and generated id"
  | .notId field type => s!"field '{field}': type {type.name} cannot be an id"
  | .notGeneratedId field type => s!"field '{field}': type {type.name} cannot be a generated id"
  | .generatedIdDefault field => s!"field '{field}': generated id cannot have a default value"
  | .notVersion field type => s!"field '{field}': type {type.name} cannot be a version column"
  | .nullCheckOnBoxed field => s!"field '{field}': throw_if_null only applies to primitive types"
  | .fallbackOnNonEnum field => s!"field '{field}': unknown enum fallback set on a non-enum type"
  | .dateFormat field format => s!"field '{field}': invalid date format '{format}'"
  | .booleanChars field format =>
    s!"field '{field}': boolean char format '{format}' must be two distinct characters"
  | .noConstants field => s!"field '{field}': enum type declares no constants"
  | .repeatedConstants field => s!"field '{field}': enum constants must be unique"
  | .unknownFallback field constant =>
    s!"field '{field}': unknown-enum fallback '{constant}' is not a constant"
  | .charset field name => s!"field '{field}': unsupported charset '{name}'"
  | .unreadableDefault cause => "invalid default: " ++ cause.reason
  | .unsupportedDefault cause => "invalid default: " ++ cause.reason
  | .duplicateColumn table column => s!"table '{table}': duplicate column '{column}'"
  | .manyIds table => s!"table '{table}': more than one id field"
  | .manyVersions table => s!"table '{table}': more than one version field"

end ConfigFailure

/-- A failure of any group. -/
inductive Failure
  | parse (cause : ParseFailure)
  | conversion (cause : ConversionFailure)
  | access (cause : AccessFailure)
  | statement (cause : StatementFailure)
  | config (cause : ConfigFailure)
  /-- A configuration text that is not well formed or does not have the expected shape. -/
  | source
  deriving DecidableEq, Repr

/-- The failure in words, with the name of its group. -/
def Failure.message : Failure → String
  | .parse c => "Parse error: " ++ c.reason
  | .conversion c => "Conversion error: " ++ c.reason
  | .access c => "Data access error: " ++ c.reason
  | .statement c => "Statement error: " ++ c.reason
  | .config c => "Configuration error: " ++ c.reason
  | .source => "TOML error"

end Relmap
