/-!
What can go wrong, and the words for it.
-/

namespace SqlTemplate

/-- What a place in the parameters requires, where something else was found. -/
inductive Expected where
  | scalar
  | condition
  | scalarOrSequence
  | nestedScalars
  | conditionObject
  | operatorText
  | partsArray
  | partPairs
deriving DecidableEq, Repr

def Expected.text : Expected → String
  | .scalar => "a scalar"
  | .condition => "a condition"
  | .scalarOrSequence => "a scalar or a sequence"
  | .nestedScalars => "a sequence of scalars or sequences"
  | .conditionObject => "a condition object"
  | .operatorText => "a string 'operator'"
  | .partsArray => "a 'parts' array"
  | .partPairs => "parts as [sql, params] pairs"

/-- Why a value cannot fill an object placeholder. A kind is that of the value found. -/
inductive ObjectFault where
  | notRecords (kind : String)
  | itemNotRecord (kind : String)
  | updatesNeedSchema
  | described (reason : String)
deriving DecidableEq, Repr

def ObjectFault.text : ObjectFault → String
  | .notRecords kind => "expected a record or a sequence of records, found a " ++ kind
  | .itemNotRecord kind => "expected a sequence of records, found a " ++ kind
  | .updatesNeedSchema => "a sequence of records needs a schema for updates"
  | .described reason => reason

/-- Why a placeholder's fragment cannot be used. -/
inductive FragmentFault where
  | absent
  | notOneMarker
deriving DecidableEq, Repr

def FragmentFault.text : FragmentFault → String
  | .absent => "optional placeholders need a \x7bfragment\x7d"
  | .notOneMarker => "the fragment must contain exactly one '*' marker"

/-- What an adapter can do besides writing literals. -/
inductive Capability where
  | identifiers
  | execution
deriving DecidableEq, Repr

def Capability.text : Capability → String
  | .identifiers => "escape_identifier"
  | .execution => "query"

/-- Why a file could not be read as text. -/
inductive ReadFault where
  | notFound
  | isDirectory
  | notDirectory
  | notText
  | other (description : String)
deriving DecidableEq, Repr

def ReadFault.text : ReadFault → String
  | .notFound => "No such file or directory (os error 2)"
  | .isDirectory => "Is a directory (os error 21)"
  | .notDirectory => "Not a directory (os error 20)"
  | .notText => "stream did not contain valid UTF-8"
  | .other description => description

/-- Everything that can go wrong between a template and its rows. -/
inductive Error where
  | missing (keys : List String)
  | unexpected (key : String)
  | invalidObject (name : String) (fault : ObjectFault)
  | invalid (name : String) (expected : Expected)
  | malformed (placeholder : String) (fault : FragmentFault)
  | lacking (capability : Capability)
  | rejected (query cause : String)
  | mixedFile (path : String)
  | duplicateQuery (name : String)
  | unknownQuery (name : String)
  | connection (detail : String)
  | settings (detail : String)
  | json (detail : String)
  | unreadable (detail : String)
deriving DecidableEq, Repr

namespace Error

def message : Error → String
  | .missing keys => "Missing query parameters: " ++ ", ".intercalate keys
  | .unexpected key => "Unexpected query parameter: '" ++ key ++ "'"
  | .invalidObject name fault => "Invalid object parameter '" ++ name ++ "': " ++ fault.text
  | .invalid name expected => "Invalid parameter '" ++ name ++ "': expected " ++ expected.text
  | .malformed placeholder fault =>
    "Malformed placeholder '" ++ placeholder ++ "': " ++ fault.text
  | .lacking capability => "Missing adapter: no '" ++ capability.text ++ "' capability"
  | .rejected _ _ => "Query execution failed"
  | .mixedFile path =>
    "Improperly formatted file '" ++ path ++
      "': either use one query per file, or name every query with '-- name: foo'"
  | .duplicateQuery name => "Duplicate query name: '" ++ name ++ "'"
  | .unknownQuery name => "Unknown query: '" ++ name ++ "'"
  | .connection detail => "Connection error: " ++ detail
  | .settings detail => "Configuration error: " ++ detail
  | .json detail => "Invalid JSON parameters: " ++ detail
  | .unreadable detail => "IO error: " ++ detail

/-- The SQL that a backend rejected. -/
def query? : Error → Option String
  | .rejected query _ => some query
  | _ => none

end Error

end SqlTemplate
