import TypedApi.Failure.Document
import TypedApi.Failure.Naming
import TypedApi.Failure.Operation
import TypedApi.Failure.Schema

/-! # Failures

Everything that can stop a generation. A refusal is reported to the user in its own words. A
defect is a value that no check looked at before it was used, and has no words.
-/
namespace TypedApi

/-- A value that was used without a check. -/
inductive Defect where
  /-- A name without words. -/
  | noWords
  /-- A value of the type named is printed, but the type has no printer. -/
  | noPrinter (typeName : String)
  /-- A model is written for a schema that is neither an enumeration nor an object. -/
  | notAModel (typeName : String)
  /-- The template names a path parameter that the signature lacks. -/
  | noPathParameter (name : String)
  /-- A description that is given, but is no text. -/
  | descriptionNotText
  /-- A name or location of a parameter that is a collection. -/
  | collectionAsName
  /-- Member names that are not all text are to be sorted. -/
  | unsortableNames
  /-- A schema or path whose name is no text. -/
  | nameNotText
  /-- The document is no mapping. -/
  | documentNotMapping
  /-- A scalar of a document does not denote a value of its type. -/
  | meaninglessScalar
  /-- A file that is not UTF-8 text. -/
  | notUtf8
  /-- The mode is no text. -/
  | modeNotText
  /-- A file operation whose failure is not foreseen. -/
  | unforeseenSystemError
deriving DecidableEq, Repr

/-- What stops a generation. -/
inductive Failure where
  | naming (fault : NamingFault)
  | aliasClash (clash : AliasClash)
  | reference (fault : ReferenceFault)
  | shape (place : Place) (fault : ShapeFault)
  | parameter (fault : ParameterFault)
  | operation (fault : OperationFault)
  | document (fault : DocumentFault)
  | output (fault : OutputFault)
  /-- A mode that is neither `api` nor `client`. -/
  | unknownMode (mode : Value)
  | defect (cause : Defect)

/-- The wording of a failure; a defect has none. -/
def Failure.message : Failure → String
  | .naming fault => fault.message
  | .aliasClash clash => clash.message
  | .reference fault => fault.message
  | .shape place fault => fault.message place
  | .parameter fault => fault.message
  | .operation fault => fault.message
  | .document fault => fault.message
  | .output fault => fault.message
  | .unknownMode mode =>
    "Unknown generation mode " ++ mode.shown ++ "; expected one of api, client"
  | .defect _ => ""

/-- Whether a failure is a defect. -/
def Failure.isDefect : Failure → Bool
  | .defect _ => true
  | _ => false

end TypedApi
