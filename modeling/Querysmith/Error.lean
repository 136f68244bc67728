/-
# Errors

What can be wrong with a request, by cause, and the one place where the wording of each cause is.
The prefix of a message names the part of the request that is at fault; a message of the database
is passed on as it came.
-/

import Querysmith.Json
import Querysmith.Text.Quoted
import Querysmith.Filter.Operator

namespace Querysmith

/-- What is wrong with a filter or a sort order. -/
inductive FilterFault where
  | listRequired (op : Operator) (column : String) (got : Json)
  | scalarRequired (op : Operator) (column : String) (got : Json)
  | conditionNotArray (got : Json)
  | conditionLength (length : Nat)
  | operatorNotText (got : Json)
  | unknownOperator (text : String)
  | filterNotArray (got : Json)
  | groupNotArray (got : Json)
  | unsupportedInput (got : Json)
  | sortNotArray (got : Json)
  | sortTokenNotText (got : Json)

/-- What is wrong with a table or column name. -/
inductive NameFault where
  | empty
  | holdsNul (name : String)
  | badTable (table : String)
  | columnNotText (got : Json)

/-- What is wrong with a specification of unique constraints. -/
inductive ConstraintFault where
  | notArray (got : Json)
  | unsupportedEntry (got : Json)
  | columnNotText (got : Json)
  | emptyColumn
  | noColumns

/-- What is wrong with the records of a write. -/
inductive RowsFault where
  | notRecords (got : Json)
  | notRecord (got : Json)
  | noRecords
  | noColumns

/-- What is wrong with a number in the configuration. -/
inductive NumberFault where
  | badDigit
  | tooLarge

/-- What is wrong with the configuration. -/
inductive ConfigFault where
  | notBoolean (key raw : String)
  | notNumber (key raw : String) (fault : NumberFault)
  | unsupportedUrl (redacted : String)
  | badPattern (pattern : String)

/-- Why a request fails. -/
inductive Error where
  | invalidFilter (fault : FilterFault)
  | invalidIdentifier (fault : NameFault)
  | invalidConstraint (fault : ConstraintFault)
  | invalidRows (fault : RowsFault)
  | config (fault : ConfigFault)
  /-- A removal whose filter binds no value. -/
  | noFilterForDelete
  /-- A failure that the database reports, with the causes that it names, the outermost first. -/
  | engine (message : String) (causes : List String)

/-- The wording of a filter fault. -/
def FilterFault.message : FilterFault → String
  | listRequired op column got =>
    "operator " ++ op.sql ++ " on " ++ Text.quoted column ++ " requires a list, got " ++ got.text
  | scalarRequired op column got =>
    "operator " ++ op.sql ++ " on " ++ Text.quoted column ++ " requires a scalar, got " ++ got.text
  | conditionNotArray got => "condition must be an array, got " ++ got.text
  | conditionLength length => "condition must have 3 elements, got " ++ Text.ofNat length
  | operatorNotText got => "operator must be a string, got " ++ got.text
  | unknownOperator text => "unsupported operator: " ++ Text.quoted text
  | filterNotArray got => "filter must be an array, got " ++ got.text
  | groupNotArray got => "filter group must be an array, got " ++ got.text
  | unsupportedInput got => "Invalid filter input: " ++ got.text
  | sortNotArray got => "sort must be an array, got " ++ got.text
  | sortTokenNotText got => "sort token must be a string, got " ++ got.text

/-- The wording of a name fault. -/
def NameFault.message : NameFault → String
  | empty => "identifier must not be empty"
  | holdsNul name => "identifier contains a NUL byte: " ++ Text.quoted name
  | badTable table => "invalid table name: " ++ Text.quoted table
  | columnNotText got => "column must be a string, got " ++ got.text

/-- The wording of a constraint fault. -/
def ConstraintFault.message : ConstraintFault → String
  | notArray got => "constraints must be an array, got " ++ got.text
  | unsupportedEntry got => "unsupported constraint entry: " ++ got.text
  | columnNotText got => "constraint column must be a string, got " ++ got.text
  | emptyColumn => "constraint column names must not be empty"
  | noColumns => "composite constraint needs at least one column"

/-- The wording of a fault of the records. -/
def RowsFault.message : RowsFault → String
  | notRecords got => "expected an object or an array of objects, got " ++ got.text
  | notRecord got => "record must be an object, got " ++ got.text
  | noRecords => "no records to write"
  | noColumns => "the first record has no columns"

/-- The wording of a number fault. -/
def NumberFault.message : NumberFault → String
  | badDigit => "invalid digit found in string"
  | tooLarge => "number too large to fit in target type"

/-- The wording of a configuration fault.  What is wrong inside a pattern is told in the words of
the library that compiles patterns, the `report`: the message quotes the pattern in front of them,
and ends before both when there is no report. -/
def ConfigFault.message (fault : ConfigFault) (report : Option String := none) : String :=
  match fault with
  | notBoolean key raw => key ++ "=" ++ Text.quoted raw ++ ": expected a boolean"
  | notNumber key raw fault => key ++ "=" ++ Text.quoted raw ++ ": " ++ fault.message
  | unsupportedUrl redacted =>
    "unsupported database URL " ++ Text.quoted redacted ++ ": expected postgres:// or sqlite:"
  | badPattern pattern =>
    let told := report.map fun words => " " ++ Text.quoted pattern ++ ": " ++ words
    "invalid column pattern" ++ told.getD ""

/-- The whole message of an error, with the report on a pattern if there is one. -/
def Error.message (err : Error) (report : Option String := none) : String :=
  match err with
  | invalidFilter fault => "Invalid filter object: " ++ fault.message
  | invalidIdentifier fault => "Invalid identifier: " ++ fault.message
  | invalidConstraint fault => "Invalid constraint specification: " ++ fault.message
  | invalidRows fault => "Invalid rows: " ++ fault.message
  | config fault => "Invalid configuration: " ++ fault.message report
  | noFilterForDelete => "unable to remove as there is no filter attributes"
  | engine message _ => message

/-- The causes behind the message of an error. -/
def Error.causes : Error → List String
  | engine _ causes => causes
  | _ => []

end Querysmith
