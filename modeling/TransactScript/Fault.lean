/-!
The causes for which an operation is refused, each with a stable code and a message that names the
offender.
-/

namespace TransactScript

inductive Fault where
  | invalidIdentifier (name reason : String)
  | duplicateColumn (label column : String)
  | duplicateVariableName (name : String)
  | sectionFinalized (label : String)
  | dataPopulationStarted (label : String)
  | emptyTableVariable (label : String)
  | schemaNotBound (label : String)
  | unmappedType (typeName : String)
  | unsupportedSectionType (kind : String)
  | schemaParse (detail : String)
  | yaml
  | json
deriving DecidableEq, Repr

namespace Fault

def code : Fault → String
  | invalidIdentifier .. => "INVALID_IDENTIFIER"
  | duplicateColumn .. => "DUPLICATE_COLUMN"
  | duplicateVariableName _ => "DUPLICATE_VARIABLE_NAME"
  | sectionFinalized _ => "SECTION_FINALIZED"
  | dataPopulationStarted _ => "DATA_POPULATION_STARTED"
  | emptyTableVariable _ => "EMPTY_TABLE_VARIABLE"
  | schemaNotBound _ => "SCHEMA_NOT_BOUND"
  | unmappedType _ => "UNMAPPED_TYPE"
  | unsupportedSectionType _ => "UNSUPPORTED_SECTION_TYPE"
  | schemaParse _ => "SCHEMA_PARSE_ERROR"
  | yaml => "YAML_ERROR"
  | json => "JSON_ERROR"

def message : Fault → String
  | invalidIdentifier name reason => "invalid identifier '" ++ name ++ "': " ++ reason
  | duplicateColumn label column =>
      "column name '" ++ column ++ "' already exists in section '" ++ label ++ "'"
  | duplicateVariableName name =>
      "variable name '" ++ name ++ "' has already been declared in this script"
  | sectionFinalized label => "section '" ++ label ++ "' has already been finalized"
  | dataPopulationStarted label =>
      "cannot add columns to section '" ++ label ++ "' once data population has begun"
  | emptyTableVariable label => "table variable '" ++ label ++ "' declares no columns"
  | schemaNotBound label => "section '" ++ label ++ "' is not bound to a host schema"
  | unmappedType typeName => "no column type mapped for host type '" ++ typeName ++ "'"
  | unsupportedSectionType kind => "cannot render sections of kind '" ++ kind ++ "'"
  | schemaParse detail => "schema parse error: " ++ detail
  | yaml => "YAML parse error"
  | json => "JSON error"

end Fault

end TransactScript
