import TypedApi.Text.Quoted

/-! # Faults of names

Why a schema or tag name gives no identifiers, and why an import cannot be registered.
-/
namespace TypedApi

/-- Why a name gives no identifiers. -/
inductive NamingFault where
  /-- A schema name without a visible character. -/
  | emptyHumped (raw : String)
  /-- A tag name without a visible character. -/
  | emptySpaced (raw : String)
  /-- A word of the name holds more than letters, digits and underscores. -/
  | unexpectedCharacters (raw word : String)
  | leadingDigit (raw : String)
  /-- Two schemas that would give one type. -/
  | schemaClash (first second typeName : String)
  /-- Two tags that would give one file or class. -/
  | tagClash (first second name : String)
deriving DecidableEq, Repr

/-- The wording of a naming fault. -/
def NamingFault.message : NamingFault → String
  | .emptyHumped raw => "Expected a non-empty camelCase name, got " ++ Text.quoted raw
  | .emptySpaced raw => "Expected a non-empty name, got " ++ Text.quoted raw
  | .unexpectedCharacters raw word =>
    "Unable to build an identifier from " ++ Text.quoted raw ++ ": unexpected characters in "
      ++ Text.quoted word
  | .leadingDigit raw =>
    "Unable to build an identifier from " ++ Text.quoted raw ++ ": must not start with a digit"
  | .schemaClash first second typeName =>
    "Schemas " ++ Text.quoted first ++ " and " ++ Text.quoted second
      ++ " both map to type name " ++ Text.quoted typeName
  | .tagClash first second name =>
    "Tags " ++ Text.quoted first ++ " and " ++ Text.quoted second ++ " both map to the name "
      ++ Text.quoted name

/-- A module that is already imported as a whole under another alias. -/
structure AliasClash where
  module : String
  registered : String
  requested : String
deriving DecidableEq, Repr

/-- The wording of an alias clash. -/
def AliasClash.message (clash : AliasClash) : String :=
  "Default import of " ++ Text.quoted clash.module ++ " already registered as "
    ++ Text.quoted clash.registered ++ ", cannot also import it as "
    ++ Text.quoted clash.requested

end TypedApi
