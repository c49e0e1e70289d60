import Mathlib.Data.List.AList
import Mathlib.Logic.Function.Basic
import Orgistry.Model.BackupCatalog
import Orgistry.Model.BackupCrypto

/-!
# The WAL spool

`archive_command` of `tooling/pg-enable-wal-archiving.sh` and `ship-wal` of
`tooling/backup-ops.mjs` as two processes on one directory.  Reading a growing
file is one step, the one in which the reader meets the end of the file: what it
has read before is still the start of the file then.  The shipper's `.enc.tmp`
files, which no step of the other process touches, are its own state.
-/

namespace Orgistry.Model

open Text

/-- What a run is about: the segments of the server by their names, and whether
the shipper can read a copy before `chmod`, because it has the account of the
server or is root, or because the server creates files that its group can read. -/
structure Handover where
  crypto : NodeCrypto
  key : EncryptionKey
  content : String → List Byte
  readsFresh : Bool

/-- A file of the spool; `shared` once `chmod` has made it readable. -/
structure SpooledSegment where
  bytes : List Byte
  shared : Bool
  deriving DecidableEq

/-- The copy that `archive_command` is making of a segment, after so many bytes, or
the finished copy before `chmod`. -/
inductive Archiver
  | idle
  | copying (segment : String) (written : ℕ)
  | copied (segment : String)
  deriving DecidableEq

/-- What the shipper has done with a segment. -/
inductive ShipStage
  | digested (digestRead : List Byte)
  | measured (digestRead : List Byte) (size : ℕ)
  | encrypted (digestRead : List Byte) (call : EncryptCall) (artifact : List Byte)
  | uploaded (digestRead : List Byte) (call : EncryptCall) (artifact : List Byte)
  | checked (digestRead : List Byte) (call : EncryptCall) (artifact : List Byte)

inductive Shipper
  | idle
  | listed (entries : List String)
  | working (segment : String) (stage : ShipStage) (entries : List String)

/-- `succeeded` remembers the segments for which `archive_command` has succeeded. -/
structure SpoolSystem where
  spool : AList fun _ : String => SpooledSegment
  stored : String → Option (List Byte)
  archiver : Archiver
  shipper : Shipper
  succeeded : List String

inductive SpoolStep
  | archive (segment : String)
  | copy (count : ℕ)
  | copyEnds
  | chmod
  | archiverStops
  | list
  | digest
  | measure
  | encrypt (iv : InitializationVector)
  | upload
  | checkSize
  | delete
  | shipperStops
  deriving DecidableEq

namespace SpoolSystem

/-- Nothing has been archived. -/
def fresh (stored : String → Option (List Byte)) : SpoolSystem :=
  { spool := ∅, stored, archiver := .idle, shipper := .idle, succeeded := [] }

variable (handover : Handover) (system : SpoolSystem)

/-- `test ! -f`, and `cp` opens the file. -/
def archive (segment : String) : Option SpoolSystem :=
  match system.archiver with
  | .idle =>
      if (system.spool.lookup segment).isSome then some system
      else
        some { system with
          spool := system.spool.insert segment { bytes := [], shared := false }
          archiver := .copying segment 0 }
  | _ => none

/-- `cp` writes on, into the file or into what has been removed from the spool. -/
def copy (count : ℕ) : Option SpoolSystem :=
  match system.archiver with
  | .copying segment written =>
      let entry := (system.spool.lookup segment).map fun entry =>
        { entry with bytes := (handover.content segment).take (written + count) }
      some { system with
        spool := entry.elim system.spool fun entry => system.spool.insert segment entry
        archiver := .copying segment (written + count) }
  | _ => none

/-- `cp` meets the end of the segment and exits with 0. -/
def copyEnds : Option SpoolSystem :=
  match system.archiver with
  | .copying segment written =>
      if (handover.content segment).length ≤ written then
        some { system with archiver := .copied segment }
      else none
  | _ => none

/-- `chmod` fails when the file is gone; with it `archive_command` succeeds. -/
def chmod : Option SpoolSystem :=
  match system.archiver with
  | .copied segment =>
      match system.spool.lookup segment with
      | none => some { system with archiver := .idle }
      | some entry =>
          some { system with
            spool := system.spool.insert segment { entry with shared := true }
            archiver := .idle
            succeeded := segment :: system.succeeded }
  | _ => none

def canRead (entry : SpooledSegment) : Bool := handover.readsFresh || entry.shared

/-- The file's content, unless it cannot be opened. -/
def read (segment : String) : Option (List Byte) :=
  (system.spool.lookup segment).bind fun entry =>
    if canRead handover entry then some entry.bytes else none

/-- A failure ends the run, and the next one lists the spool again. -/
def stop : SpoolSystem := { system with shipper := .idle }

/-- `readdir`, `filter` and `sort`. -/
def list : Option SpoolSystem :=
  match system.shipper with
  | .idle =>
      let entries := (system.spool.keys.filter isWalFileName).insertionSort (· ≤ ·)
      some { system with shipper := .listed entries }
  | _ => none

/-- `sha256File`; after the last entry the run ends. -/
def digest : Option SpoolSystem :=
  match system.shipper with
  | .listed [] => some system.stop
  | .listed (segment :: entries) =>
      match system.read handover segment with
      | none => some system.stop
      | some bytes => some { system with shipper := .working segment (.digested bytes) entries }
  | _ => none

/-- `stat` in `encryptFile`. -/
def measure : Option SpoolSystem :=
  match system.shipper with
  | .working segment (.digested digestRead) entries =>
      match system.spool.lookup segment with
      | none => some system.stop
      | some entry =>
          some { system with
            shipper := .working segment (.measured digestRead entry.bytes.length) entries }
  | _ => none

/-- The rest of `encryptFile`. -/
def encrypt (iv : InitializationVector) : Option SpoolSystem :=
  match system.shipper with
  | .working segment (.measured digestRead size) entries =>
      match system.read handover segment with
      | none => some system.stop
      | some content =>
          let call : EncryptCall :=
            { key := handover.key, iv,
              plaintextSha256 := encodeHex (handover.crypto.sha256 digestRead),
              plaintextName := segment.toList, size, content }
          match encryptFile handover.crypto call with
          | none => some system.stop
          | some artifact =>
              some { system with
                shipper := .working segment (.encrypted digestRead call artifact) entries }
  | _ => none

def upload : Option SpoolSystem :=
  match system.shipper with
  | .working segment (.encrypted digestRead call artifact) entries =>
      some { system with
        stored := Function.update system.stored (walObjectKey segment) (some artifact)
        shipper := .working segment (.uploaded digestRead call artifact) entries }
  | _ => none

/-- `headObject` and the comparison of the sizes. -/
def checkSize : Option SpoolSystem :=
  match system.shipper with
  | .working segment (.uploaded digestRead call artifact) entries =>
      if (system.stored (walObjectKey segment)).map List.length = some artifact.length then
        some { system with
          shipper := .working segment (.checked digestRead call artifact) entries }
      else some system.stop
  | _ => none

/-- `rm` of the spooled file. -/
def delete : Option SpoolSystem :=
  match system.shipper with
  | .working segment (.checked _ _ _) entries =>
      some { system with spool := system.spool.erase segment, shipper := .listed entries }
  | _ => none

/-- One step of either process.  A process that fails or crashes stops. -/
def step : SpoolStep → Option SpoolSystem
  | .archive segment => system.archive segment
  | .copy count => system.copy handover count
  | .copyEnds => system.copyEnds handover
  | .chmod => system.chmod
  | .archiverStops => some { system with archiver := .idle }
  | .list => system.list
  | .digest => system.digest handover
  | .measure => system.measure
  | .encrypt iv => system.encrypt handover iv
  | .upload => system.upload
  | .checkSize => system.checkSize
  | .delete => system.delete
  | .shipperStops => some system.stop

def run (system : SpoolSystem) : List SpoolStep → Option SpoolSystem
  | [] => some system
  | step :: steps => (system.step handover step).bind fun next => run next steps

end SpoolSystem

end Orgistry.Model
