import TypedApi.Digest.Sha256
import TypedApi.Text.Quoted

/-! # Content hashes

The hash of everything that determines the output of a run: the version of the program, the name
of the mode and the text of the document. A zero byte ends each part, so that the parts can be
told apart.
-/
namespace TypedApi

/-- The version of the program. -/
def programVersion : String := "0.1.0"

namespace ContentHash

/-- The bytes of a text in UTF-8. -/
def utf8 (s : String) : List UInt8 :=
  s.toUTF8.toList

/-- What is hashed. -/
def message (mode text : String) : List UInt8 :=
  [programVersion, mode, text].flatMap fun part => utf8 part ++ [0]

/-- Bytes in hexadecimal digits. -/
def hexText (bytes : List UInt8) : String :=
  .ofList (bytes.flatMap fun b => Text.hexDigits 2 b.toNat)

/-- The content hash of a document in a mode. -/
def ofText (mode text : String) : String :=
  hexText (Sha256.digest (message mode text))

end ContentHash
end TypedApi
