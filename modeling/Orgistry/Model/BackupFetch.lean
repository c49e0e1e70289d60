import Orgistry.Model.BackupCatalog
import Orgistry.Model.BackupCrypto

/-!
# Fetching from the object store

`fetch` and `fetch-wal` of `tooling/backup-ops.mjs`, as what they leave on the
disk.  The names of the segments have no slash, so that joining them to the
directory is one slash.
-/

namespace Orgistry.Model

open Text

/-- The regular files, by their paths. -/
abbrev Disk := String → Option (List Byte)

def Disk.write (disk : Disk) (path : String) (content : List Byte) : Disk :=
  Function.update disk path (some content)

def Disk.remove (disk : Disk) (path : String) : Disk := Function.update disk path none

/-- What happens to the fetching of one object: the body of a successful answer,
whether the files can be opened, where the transfer and the decryption break off,
and whether the encrypted copy can be removed. -/
structure FetchAttempt where
  answer : Option (List Byte)
  downloadOpens : Bool
  receivedBeforeBreak : Option ℕ
  downloadReads : Bool
  outputOpens : Bool
  streaming : Streaming
  removes : Bool

inductive FetchError
  | download
  | read
  | open
  | decrypt (error : DecryptError)
  | cleanup
  deriving DecidableEq

/-- `getFile`, which opens the file once there is a successful answer. -/
def getFile (attempt : FetchAttempt) (path : String) (disk : Disk) :
    Except FetchError Unit × Disk :=
  match attempt.answer with
  | none => (.error .download, disk)
  | some body =>
      if !attempt.downloadOpens then (.error .download, disk)
      else
        match attempt.receivedBeforeBreak with
        | some bytes => (.error .download, disk.write path (body.take bytes))
        | none => (.ok (), disk.write path body)

def encryptedPath (output : String) : String := output ++ ".enc.tmp"

section Fetch

variable (crypto : NodeCrypto) (key : EncryptionKey)

/-- `decryptFile` from one path to another. -/
def decryptTo (attempt : FetchAttempt) (source output : String) (disk : Disk) :
    Except FetchError Json × Disk :=
  match if attempt.downloadReads then disk source else none with
  | none => (.error .read, disk)
  | some artifact =>
      match decryptFile crypto key artifact attempt.streaming with
      | .refused error => (.error (.decrypt error), disk)
      | .failed error written =>
          if attempt.outputOpens then (.error (.decrypt error), disk.write output written)
          else (.error .open, disk)
      | .decrypted header content _ =>
          if attempt.outputOpens then (.ok header, disk.write output content)
          else (.error .open, disk)

/-- Downloading and decrypting, the `try` of both commands. -/
def retrieve (attempt : FetchAttempt) (output : String) (disk : Disk) :
    Except FetchError Json × Disk :=
  match getFile attempt (encryptedPath output) disk with
  | (.error error, disk) => (.error error, disk)
  | (.ok (), disk) => decryptTo crypto key attempt (encryptedPath output) output disk

/-- `retrieve` and its `finally`, which removes the encrypted copy. -/
def fetchDecrypted (attempt : FetchAttempt) (output : String) (disk : Disk) :
    Except FetchError Json × Disk :=
  let (result, disk) := retrieve crypto key attempt output disk
  if attempt.removes then (result, disk.remove (encryptedPath output))
  else (.error .cleanup, disk)

/-- `commandFetch`. -/
def commandFetch (raw : Bool) (attempt : FetchAttempt) (output : String) (disk : Disk) :
    Except FetchError Unit × Disk :=
  if raw then getFile attempt output disk
  else
    let (result, disk) := fetchDecrypted crypto key attempt output disk
    (result.map fun _ => (), disk)

/-- The code units by which strings are compared. -/
def codeUnits (text : String) : List ℕ :=
  text.toList.flatMap fun c =>
    if c.toNat < 0x10000 then [c.toNat]
    else [0xD800 + (c.toNat - 0x10000) / 0x400, 0xDC00 + (c.toNat - 0x10000) % 0x400]

/-- A segment before `since`; an empty `since` skips nothing. -/
def isSkipped (since segment : String) : Bool :=
  since ≠ "" && (codeUnits segment).length = (codeUnits since).length &&
    decide (codeUnits segment < codeUnits since)

def join (directory name : String) : String := directory ++ "/" ++ name

/-- How `fetch-wal` ends: with every object retrieved, or with the segment at
which it throws. -/
inductive WalFetch
  | retrieved (disk : Disk)
  | failed (segment : String) (error : FetchError) (disk : Disk)

/-- `commandFetchWal` on the listed keys, each with what happens to it. -/
def commandFetchWal (directory since : String) : List (String × FetchAttempt) → Disk → WalFetch
  | [], disk => .retrieved disk
  | (objectKey, attempt) :: objects, disk =>
      let segment := walSegmentName objectKey
      if isSkipped since segment then commandFetchWal directory since objects disk
      else
        match fetchDecrypted crypto key attempt (join directory segment) disk with
        | (.error error, disk) => .failed segment error disk
        | (.ok _, disk) => commandFetchWal directory since objects disk

end Fetch

end Orgistry.Model
