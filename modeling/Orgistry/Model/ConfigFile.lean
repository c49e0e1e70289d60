import Orgistry.Text.Ascii
import Orgistry.Text.Regex

/-!
# The configuration file

`parseConfigFile` of `tooling/lib/backup-config.mjs`, which reads the file as UTF-8, and
`deploy_load_config` of `tooling/lib/deploy-common.sh`, which reads its bytes in the C
locale.
-/

namespace Orgistry.Model

open Text

/-- A file that Bash can hold in a variable. -/
structure ConfigFile where
  content : List Byte
  noNul : byte 0 ∉ content

section Assignments

variable {α κ υ ε : Type} [DecidableEq κ]

/-- `values[key] = value`: a key stays where it was first assigned. -/
def assignValue (values : List (κ × υ)) (key : κ) (value : υ) : List (κ × υ) :=
  if key ∈ values.map Prod.fst then
    values.map fun entry => if entry.1 = key then (key, value) else entry
  else values ++ [(key, value)]

/-- The loop over the lines: the first one that cannot be read ends it. -/
def readLines (readLine : ℕ → α → Except ε (Option (κ × υ))) :
    ℕ → List (κ × υ) → List α → Except ε (List (κ × υ))
  | _, values, [] => .ok values
  | index, values, line :: rest =>
      match readLine index line with
      | .error error => .error error
      | .ok none => readLines readLine (index + 1) values rest
      | .ok (some (key, value)) =>
          readLines readLine (index + 1) (assignValue values key value) rest

end Assignments

namespace BackupConfig

def trimStart (text : List Char) : List Char := text.dropWhile isWhiteSpace

def trim (text : List Char) : List Char := ((trimStart text).reverse.dropWhile isWhiteSpace).reverse

def isUpper (c : Char) : Bool := 'A' ≤ c && c ≤ 'Z'

def isDigit (c : Char) : Bool := '0' ≤ c && c ≤ '9'

/-- `/^[A-Z][A-Z0-9_]*$/` -/
def isKey : List Char → Bool
  | [] => false
  | c :: rest => isUpper c && rest.all fun c => isUpper c || isDigit c || c = '_'

/-- Blank lines and comments. -/
def isIgnored (line : List Char) : Bool := trim line = [] || (trimStart line).head? = some '#'

/-- One layer of matching quotes is taken off. -/
def stripQuotes (value : List Char) : List Char :=
  ((unquote (Char.ofNat 34) value).or (unquote (Char.ofNat 39) value)).getD value

def notKeyValue (sourceLabel : List Char) (index : ℕ) : List Char :=
  sourceLabel ++ ':' :: Nat.toDigits 10 (index + 1) ++ " is not a KEY=VALUE line".toList

def invalidKey (sourceLabel : List Char) (index : ℕ) (key : List Char) : List Char :=
  sourceLabel ++ ':' :: Nat.toDigits 10 (index + 1) ++ " has an invalid key ".toList ++
    Char.ofNat 34 :: key ++ Char.ofNat 34 :: " (expected UPPER_SNAKE_CASE)".toList

def parseLine (sourceLabel : List Char) (index : ℕ) (rawLine : List Char) :
    Except (List Char) (Option (List Char × List Char)) :=
  let line := chomp '\r' rawLine
  if isIgnored line then .ok none
  else
    match cut '=' line with
    | none => .error (notKeyValue sourceLabel index)
    | some (key, value) =>
        if isKey key then .ok (some (key, stripQuotes value))
        else .error (invalidKey sourceLabel index key)

def parseConfigFile (text sourceLabel : List Char) :
    Except (List Char) (List (List Char × List Char)) :=
  readLines (parseLine sourceLabel) 0 [] (splitOn '\n' text)

/-- `readFileSync(configPath, 'utf8')` and the parser on it, as `loadBackupConfiguration`
calls them. -/
def loadConfigFile (file : ConfigFile) (configPath : List Char) :
    Except (List Char) (List (List Char × List Char)) :=
  parseConfigFile (decodeUtf8 file.content) configPath

end BackupConfig

namespace DeployConfig

def newline : Byte := byte 10

def carriageReturn : Byte := byte 13

def equalsSign : Byte := byte 61

def numberSign : Byte := byte 35

/-- How the function ends before the end of the file: by `deploy_die`, under `errexit`
because `export` failed, or because Bash gives it up at an arithmetic error and goes on
behind its call. -/
inductive Exit
  | died (message : List Byte)
  | exportFailed (key : List Byte)
  | abandoned (key : List Byte)

/-- The script ends with the function. -/
def Exit.rejects : Exit → Bool
  | .died _ => true
  | .exportFailed _ => true
  | .abandoned _ => false

/-- What `read` yields one by one: the last line need not be ended. -/
def linesOf (content : List Byte) : List (List Byte) :=
  if (splitOn newline content).getLast? = some [] then (splitOn newline content).dropLast
  else splitOn newline content

def isUpper (b : Byte) : Bool := 65 ≤ b.val && b.val ≤ 90

def isDigit (b : Byte) : Bool := 48 ≤ b.val && b.val ≤ 57

/-- `[[ "${key}" =~ ^[A-Z][A-Z0-9_]*$ ]]` -/
def isKey : List Byte → Bool
  | [] => false
  | b :: rest => isUpper b && rest.all fun b => isUpper b || isDigit b || b.val = 95

/-- `[[ -z "${line}" || "${line}" == '#'* ]]` -/
def isIgnored (line : List Byte) : Bool := line = [] || line.head? = some numberSign

def stripQuotes (value : List Byte) : List Byte :=
  ((unquote (byte 34) value).or (unquote (byte 39) value)).getD value

def ascii (text : String) : List Byte := encodeUtf8 text.toList

def notKeyValue (configPath : List Byte) (lineNumber : ℕ) : List Byte :=
  configPath ++ ascii ":" ++ encodeUtf8 (Nat.toDigits 10 lineNumber) ++
    ascii " is not a KEY=VALUE line"

def invalidKey (configPath : List Byte) (lineNumber : ℕ) (key : List Byte) : List Byte :=
  configPath ++ ascii ":" ++ encodeUtf8 (Nat.toDigits 10 lineNumber) ++
    ascii " has an invalid key " ++ byte 34 :: key ++
    byte 34 :: ascii " (expected UPPER_SNAKE_CASE)"

/-- Variables that Bash holds read-only. -/
def readonlyVariables : List String :=
  ["BASHOPTS", "BASH_VERSINFO", "EUID", "PPID", "SHELLOPTS", "UID"]

/-- Variables to which assignments have no effect. -/
def fixedVariables : List String :=
  ["BASH_ARGC", "BASH_ARGV", "BASH_LINENO", "BASH_SOURCE", "DIRSTACK", "FUNCNAME", "GROUPS"]

/-- Variables whose assigned values Bash evaluates, or whose values it computes or
replaces. -/
def computedVariables : List String :=
  ["BASHPID", "BASH_ALIASES", "BASH_ARGV0", "BASH_CMDS", "BASH_COMMAND", "BASH_MONOSECONDS",
    "BASH_REMATCH", "BASH_SUBSHELL", "BASH_TRAPSIG", "EPOCHREALTIME", "EPOCHSECONDS", "HISTCMD",
    "LINENO", "OPTIND", "PIPESTATUS", "RANDOM", "SECONDS", "SRANDOM"]

def isOneOf (names : List String) (key : List Byte) : Bool := names.any fun name => ascii name = key

/-- What an assignment to a computed variable comes to: the value that the variable has
when the function is done, or an error. -/
inductive Computed
  | held (value : List Byte)
  | failed
  | abandoned

/-- The other names that are held read-only, and what becomes of the values that a line
assigns to computed variables. -/
structure Shell where
  readonly : List Byte → Bool
  compute : ℕ → List Byte → List Byte → Computed

section Loading

-- the path is the one that messages name
variable (shell : Shell) (configPath : List Byte)

/-- `export "${key}=${value}"` on a line, and the assignment that comes of it. -/
def exportVariable (lineNumber : ℕ) (key value : List Byte) :
    Except Exit (Option (List Byte × List Byte)) :=
  if isOneOf readonlyVariables key || shell.readonly key then .error (.exportFailed key)
  else if isOneOf fixedVariables key then .ok none
  else if isOneOf computedVariables key then
    match shell.compute lineNumber key value with
    | .held computed => .ok (some (key, computed))
    | .failed => .error (.exportFailed key)
    | .abandoned => .error (.abandoned key)
  else .ok (some (key, value))

def loadLine (lineNumber : ℕ) (rawLine : List Byte) :
    Except Exit (Option (List Byte × List Byte)) :=
  let line := chomp carriageReturn rawLine
  if isIgnored line then .ok none
  else
    match cut equalsSign line with
    | none => .error (.died (notKeyValue configPath lineNumber))
    | some (key, value) =>
        if !isKey key then .error (.died (invalidKey configPath lineNumber key))
        else exportVariable shell lineNumber key (stripQuotes value)

/-- The variables that the function exports. -/
def deployLoadConfig (file : ConfigFile) : Except Exit (List (List Byte × List Byte)) :=
  readLines (loadLine shell configPath) 1 [] (linesOf file.content)

end Loading

end DeployConfig

end Orgistry.Model
