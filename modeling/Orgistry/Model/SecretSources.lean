import Orgistry.Model.ConfigFile
import Mathlib.Logic.Function.Basic

/-!
# Secret sources

`packages/config/src/secret-source.ts`: a secret may be given by a file instead of an
environment variable.  Texts of files are the decoded ones.
-/

namespace Orgistry.Model

/-- The variables of the environment; an undefined one is none. -/
abbrev EnvRecord := String → Option (List Char)

/-- `FileBackedSecretName` -/
inductive FileBackedSecretName
  | databaseUrl
  | redisUrl
  | jwtSecret
  | jwtPreviousSecret
  | smtpUsername
  | smtpPassword
  deriving DecidableEq

/-- `FILE_BACKED_SECRET_NAMES` -/
def fileBackedSecretNames : List FileBackedSecretName :=
  [.databaseUrl, .redisUrl, .jwtSecret, .jwtPreviousSecret, .smtpUsername, .smtpPassword]

namespace FileBackedSecretName

def text : FileBackedSecretName → String
  | databaseUrl => "DATABASE_URL"
  | redisUrl => "REDIS_URL"
  | jwtSecret => "JWT_SECRET"
  | jwtPreviousSecret => "JWT_PREVIOUS_SECRET"
  | smtpUsername => "SMTP_USERNAME"
  | smtpPassword => "SMTP_PASSWORD"

/-- The name with `SECRET_FILE_SUFFIX`. -/
def fileVariable (name : FileBackedSecretName) : String := name.text ++ "_FILE"

theorem mem_fileBackedSecretNames (name : FileBackedSecretName) :
    name ∈ fileBackedSecretNames := by
  cases name <;> decide

end FileBackedSecretName

/-- What a reader throws: a `SecretFileError`, or something else. -/
inductive ReadError
  | secretFile (message : String)
  | other

abbrev SecretFileReader := List Char → Except ReadError (List Char)

/-- What `statSync` tells of a path, with the text of a regular file that can be read. -/
inductive DiskEntry
  | directory
  | file (contents : Option (List Char))
  | special

/-- The paths that `statSync` can access. -/
abbrev SecretDisk := List Char → Option DiskEntry

def readSecretFileFromDisk (disk : SecretDisk) : SecretFileReader := fun filePath =>
  match disk filePath with
  | none => .error (.secretFile "does not exist or is not accessible to this process")
  | some .directory => .error (.secretFile "is a directory, not a file")
  | some .special => .error (.secretFile "is not a regular file")
  | some (.file none) =>
      .error (.secretFile "could not be read (permission denied or I/O error)")
  | some (.file (some contents)) => .ok contents

def stripOneTrailingLineEnding (contents : List Char) : List Char :=
  if ['\r', '\n'] <:+ contents then contents.dropLast.dropLast
  else if ['\n'] <:+ contents then contents.dropLast
  else contents

def isConfigured (value : Option (List Char)) : Bool :=
  value.any fun text => BackupConfig.trim text ≠ []

structure SecretResolution where
  env : EnvRecord
  issues : List String

/-- The variable is deleted, and an issue is added. -/
def SecretResolution.reject (resolution : SecretResolution) (name : FileBackedSecretName)
    (issue : String) : SecretResolution :=
  ⟨Function.update resolution.env name.text none, resolution.issues ++ [issue]⟩

def ambiguousSource (name : FileBackedSecretName) : String :=
  name.text ++ ": both " ++ name.text ++ " and " ++ name.fileVariable ++
    " are set; supply exactly one source (unset whichever is stale)"

def unreadableFile (name : FileBackedSecretName) (filePath : List Char) (error : ReadError) :
    String :=
  let reason := match error with
    | .secretFile message => message
    | .other => "could not be read"
  name.fileVariable ++ ": the secret file \"" ++ String.ofList filePath ++ "\" " ++ reason

def emptyFile (name : FileBackedSecretName) (filePath : List Char) : String :=
  name.fileVariable ++ ": the secret file \"" ++ String.ofList filePath ++
    "\" is empty; it must contain the secret value"

section Resolution

variable (source : EnvRecord) (readSecretFile : SecretFileReader)

/-- The body of the loop. -/
def resolveSecretSource (resolution : SecretResolution) (name : FileBackedSecretName) :
    SecretResolution :=
  match source name.fileVariable with
  | none => resolution
  | some filePath =>
      if !isConfigured (some filePath) then resolution
      else if isConfigured (source name.text) then resolution.reject name (ambiguousSource name)
      else
        match readSecretFile filePath with
        | .error error => resolution.reject name (unreadableFile name filePath error)
        | .ok contents =>
            let resolved := stripOneTrailingLineEnding contents
            if resolved = [] then resolution.reject name (emptyFile name filePath)
            else
              { resolution with env := Function.update resolution.env name.text (some resolved) }

def resolveSecretSources : SecretResolution :=
  fileBackedSecretNames.foldl (resolveSecretSource source readSecretFile) ⟨source, []⟩

end Resolution

end Orgistry.Model
