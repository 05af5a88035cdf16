/-! # Switches

The switches of the command line, the names under which they are given, and the texts that
explain them.
-/
namespace TypedApi.CommandLine

/-- A switch of the command line. -/
inductive Switch where
  | help
  | input
  | mode
  | output
  | force
  | format
  | verbose
  | version
deriving DecidableEq, Repr

namespace Switch

/-- The switches in the order of the help text. -/
def all : List Switch := [help, input, mode, output, force, format, verbose, version]

/-- The names of a switch. -/
def names : Switch → List String
  | .help => ["-h", "--help"]
  | .input => ["--input"]
  | .mode => ["--mode"]
  | .output => ["--output"]
  | .force => ["--force"]
  | .format => ["--format"]
  | .verbose => ["--verbose"]
  | .version => ["--version"]

/-- The names of a switch in messages. -/
def title (s : Switch) : String := "/".intercalate s.names

/-- Whether a switch has a value. A switch with a value is always required. -/
def takesValue : Switch → Bool
  | .input | .mode | .output => true
  | _ => false

/-- All names, each with its switch. -/
def named : List (String × Switch) := all.flatMap fun s => s.names.map fun name => (name, s)

/-- The switch with a name. -/
def ofName? (name : String) : Option Switch := named.lookup name

end Switch

/-- The name of the program. -/
def programName : String := "openapi-to-typescript-generator"

/-- How the program is called. -/
def usage : String :=
  "usage: openapi-to-typescript-generator [-h] --input INPUT --mode \x7bapi,client\x7d\n"
    ++ "                                       --output OUTPUT [--force] [--format]\n"
    ++ "                                       [--verbose] [--version]\n"

/-- What the program does and what its switches are for. -/
def helpText : String :=
  usage
    ++ "\nGenerate TypeScript models, Express controllers or fetch clients from OpenAPI\nYAML\n"
    ++ "\noptions:\n"
    ++ "  -h, --help           show this help message and exit\n"
    ++ "  --input INPUT        Path to an OpenAPI YAML file\n"
    ++ "  --mode \x7bapi,client\x7d  'api' for abstract Express controllers, 'client' for\n"
    ++ "                       fetch clients\n"
    ++ "  --output OUTPUT      Output directory for generated sources\n"
    ++ "  --force              Regenerate even when the output is up to date with the\n"
    ++ "                       input\n"
    ++ "  --format             Format the generated files with prettier (via npx)\n"
    ++ "  --verbose            Log debug output\n"
    ++ "  --version            show program's version number and exit\n"

end TypedApi.CommandLine
