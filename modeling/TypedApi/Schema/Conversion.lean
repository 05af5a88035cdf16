import TypedApi.Schema.Resolve

/-! # Conversion expressions

The expressions of generated code that read a value from JSON, read it from the text of a URL and
write it as JSON. Each notes the helpers that it calls. Inside a collection an expression becomes
an arrow function of `x`, and of `context` if it reads.
-/
namespace TypedApi

/-- A call of a helper of the support file. -/
def callHelper (name : String) (arguments : String) : Emission String := do
  Noted.note (Code.Import.helper name)
  return name ++ "(" ++ arguments ++ ")"

/-- A call of a function that the file of a component exports. -/
def callExport (name : Identifier) (function : String) (arguments : String) :
    Emission String := do
  Noted.note (name.export function)
  return function ++ "(" ++ arguments ++ ")"

/-- The function that checks values of a component. -/
def Identifier.validator (name : Identifier) : String := "validate" ++ name.upperCamel

/-- The function that writes values of a component. -/
def Identifier.printer (name : Identifier) : String := "print" ++ name.upperCamel

/-- The name of the value in an arrow function. -/
def itemValue : String := "x"

/-- The name of the context in an arrow function. -/
def itemContext : String := "context"

/-- The context of a check that reports no place. -/
def emptyContext : String := "[]"

/-- The arrow function that reads an item by the given expression. -/
def readerFunction (expression : String) : String :=
  "(" ++ itemValue ++ ", " ++ itemContext ++ ") => " ++ expression

/-- The arrow function that writes an item by the given expression. -/
def printerFunction (expression : String) : String :=
  "(" ++ itemValue ++ ") => " ++ expression

/-- The bounds of a text as a further argument, if there are any. -/
def TextLimits.argument (limits : TextLimits) : String :=
  let options :=
    (limits.minLength.map fun n => "minLength: " ++ toString n).toList
      ++ (limits.maxLength.map fun n => "maxLength: " ++ toString n).toList
      ++ (if limits.email then ["email: true"] else [])
  if options.isEmpty then "" else ", \x7b " ++ Text.commaList options ++ " \x7d"

namespace Codec

mutual

/-- The expression that reads JSON. -/
def fromJson : Codec → (value context : String) → Emission String
  | .boolean, value, context => callHelper "validateBoolean" (value ++ ", " ++ context)
  | .number true, value, context => callHelper "validateInteger" (value ++ ", " ++ context)
  | .number false, value, context => callHelper "validateNumber" (value ++ ", " ++ context)
  | .text limits, value, context =>
    callHelper "validateString" (value ++ ", " ++ context ++ limits.argument)
  | .date, value, context => callHelper "validateDate" (value ++ ", " ++ context)
  | .dateTime, value, context => callHelper "validateDateTime" (value ++ ", " ++ context)
  | .enumeration name, value, context =>
    callExport name name.validator (value ++ ", " ++ context)
  | .object name _, value, context => callExport name name.validator (value ++ ", " ++ context)
  | .union options, value, context => do
    Noted.note (Code.Import.helper "validateFirst")
    let readers ← jsonReaders options
    return "validateFirst<" ++ (Codec.union options).typeName ++ ">(" ++ value ++ ", ["
      ++ Text.commaList readers ++ "], " ++ context ++ ")"
  | .array item, value, context => do
    let reader ← item.fromJson itemValue itemContext
    callHelper "validateArray" (value ++ ", " ++ readerFunction reader ++ ", " ++ context)
  | .map item _, value, context => do
    let reader ← item.fromJson itemValue itemContext
    callHelper "validateMap" (value ++ ", " ++ readerFunction reader ++ ", " ++ context)

/-- The functions that read JSON as one of some alternatives. -/
def jsonReaders : List Codec → Emission (List String)
  | [] => return []
  | option :: rest => do
    let reader ← option.fromJson itemValue itemContext
    let readers ← jsonReaders rest
    return readerFunction reader :: readers

end

mutual

/-- The expression that reads the text of a URL. Objects and maps have none. -/
def fromParam : Codec → (value context : String) → Emission String
  | .boolean, value, context => callHelper "validateBooleanString" (value ++ ", " ++ context)
  | .number true, value, context =>
    callHelper "validateIntegerString" (value ++ ", " ++ context)
  | .number false, value, context =>
    callHelper "validateNumberString" (value ++ ", " ++ context)
  | .text limits, value, context =>
    callHelper "validateString" (value ++ ", " ++ context ++ limits.argument)
  | .date, value, context => callHelper "validateDate" (value ++ ", " ++ context)
  | .dateTime, value, context => callHelper "validateDateTime" (value ++ ", " ++ context)
  | .enumeration name, value, context =>
    callExport name name.validator (value ++ ", " ++ context)
  | .object name place, _, _ => .fail (.parameter (.object place name.upperCamel))
  | .union options, value, context => do
    Noted.note (Code.Import.helper "validateFirst")
    let readers ← paramReaders options
    return "validateFirst<" ++ (Codec.union options).typeName ++ ">(" ++ value ++ ", ["
      ++ Text.commaList readers ++ "], " ++ context ++ ")"
  | .array item, value, context => do
    Noted.note (Code.Import.helper "validateParamArray")
    let reader ← item.fromParam itemValue itemContext
    return "validateParamArray(" ++ value ++ ", " ++ readerFunction reader ++ ", " ++ context
      ++ ")"
  | .map _ place, _, _ => .fail (.parameter (.map place))

/-- The functions that read the text of a URL as one of some alternatives. -/
def paramReaders : List Codec → Emission (List String)
  | [] => return []
  | option :: rest => do
    let reader ← option.fromParam itemValue itemContext
    let readers ← paramReaders rest
    return readerFunction reader :: readers

end

mutual

/-- The expression that converts a value to be written as JSON. -/
def converted : Codec → (value : String) → Emission String
  | .date, value => callHelper "printDate" value
  | .dateTime, value => callHelper "printDateTime" value
  | .enumeration name, value => callExport name name.validator value
  | .object name _, value => callExport name name.printer value
  | .union options, value => do
    Noted.note (Code.Import.helper "printFirst")
    let printers ← checkedPrinters options
    return "printFirst(" ++ value ++ ", [" ++ Text.commaList printers ++ "])"
  | .array item, value => do
    let printer ←
      if item.hasPrinter then item.converted itemValue
      else .fail (.defect (.noPrinter item.typeName))
    return value ++ ".map(" ++ printerFunction printer ++ ")"
  | .map item _, value => do
    let printer ←
      if item.hasPrinter then item.converted itemValue
      else .fail (.defect (.noPrinter item.typeName))
    callHelper "printMap" (value ++ ", " ++ printerFunction printer)
  | codec, _ => .fail (.defect (.noPrinter codec.typeName))

/-- The functions that convert values of one of some alternatives and fail for those of another:
a printer takes whatever resembles its type, so what it wrote is checked. -/
def checkedPrinters : List Codec → Emission (List String)
  | [] => return []
  | option :: rest => do
    let printer ←
      if option.hasPrinter then do
        let printed ← option.converted itemValue
        let check ← option.fromJson "json" emptyContext
        pure ("\x7b const json = " ++ printed ++ "; " ++ check ++ "; return json; \x7d")
      else option.fromJson itemValue emptyContext
    let printers ← checkedPrinters rest
    return printerFunction printer :: printers

end

end Codec

/-- The expression that is only evaluated if a value is there. -/
def guarded (value expression : String) : Emission String := do
  Noted.note (Code.Import.helper "isUndefined")
  return "isUndefined(" ++ value ++ ") ? undefined : " ++ expression

namespace Slot

/-- The expression that reads JSON. -/
def fromJson (slot : Slot) (value context : String) : Emission String := do
  let expression ← slot.codec.fromJson value context
  if slot.required then return expression else guarded value expression

/-- The expression that reads the text of a URL. -/
def fromParam (slot : Slot) (value context : String) : Emission String := do
  let expression ← slot.codec.fromParam value context
  if slot.required then return expression else guarded value expression

/-- The expression that writes JSON: the value itself, if it needs no conversion. -/
def toJson (slot : Slot) (value : String) : Emission String :=
  if slot.hasPrinter then do
    let expression ← slot.codec.converted value
    if slot.required then return expression else guarded value expression
  else return value

end Slot
end TypedApi
