import ControllerMesh.Framework.File
import ControllerMesh.Impl.RequestsStore

/-!
# The proxy's files

`proxy/protomanager/proto_storage.go`: the expected spec, the current spec and
the history of requests, each in a file that is opened once, read to its end
when the process starts and then written at the offset it has. The two specs
are protobuf encodings, the history is JSON text.

A failure to open, read or write a file (`mockFailure` among them) stops or
blocks the process and is left out.
-/

namespace CtrlMesh

open Framework

/-- The contents of the three files, which a process leaves to the next. -/
structure Disk where
  expectedSpec : Wire.Bytes
  currentSpec : Wire.Bytes
  historyRequests : List Char

/-- Files that `O_CREATE` has just created. -/
def Disk.empty : Disk := ⟨[], [], []⟩

structure Storage where
  expectedSpecFile : File UInt8
  currentSpecFile : File UInt8
  historyRequestsFile : File Char

namespace Storage

/-- What a process finds in the files that this storage has written. -/
def disk (s : Storage) : Disk :=
  ⟨s.expectedSpecFile.data, s.currentSpecFile.data, s.historyRequestsFile.data⟩

/-- Which file could not be decoded. -/
inductive LoadError where
  | expectedSpec
  | currentSpec
  | historyRequests
  deriving DecidableEq, Repr

/-- What `loadData` returns, with the history it fills in. -/
structure Loaded where
  expectedSpec : Option ProxySpecV1.Msg
  currentSpec : Option ProxySpecV1.Msg
  history : RequestsPack
  deriving DecidableEq

/-- A spec file's contents: nil if the file is empty. -/
def loadSpec (bytes : Wire.Bytes) (err : LoadError) : Except LoadError (Option ProxySpecV1.Msg) :=
  if bytes.isEmpty then .ok none
  else match ProxySpecV1.Msg.codec.unmarshal bytes with
    | none => .error err
    | some spec => .ok (some spec)

/-- The history file's contents, filled into `reqStore`. -/
def loadHistory (text : List Char) (reqStore : RequestsPack) : Except LoadError RequestsPack :=
  if text.isEmpty then .ok reqStore
  else match RequestsPack.unmarshal text with
    | none => .error .historyRequests
    | some pack => .ok pack

/-- What `loadData` makes of the bytes it read. -/
def decodeData (disk : Disk) (reqStore : RequestsPack) : Except LoadError Loaded := do
  let expectedSpec ← loadSpec disk.expectedSpec .expectedSpec
  let currentSpec ← loadSpec disk.currentSpec .currentSpec
  let history ← loadHistory disk.historyRequests reqStore
  pure ⟨expectedSpec, currentSpec, history⟩

/-- `loadData`: reads the three files to their ends. -/
def loadData (s : Storage) (reqStore : RequestsPack) : Except LoadError Loaded × Storage :=
  let (expectedSpecBytes, expectedSpecFile) := s.expectedSpecFile.readAll
  let (currentSpecBytes, currentSpecFile) := s.currentSpecFile.readAll
  let (historyRequestsBytes, historyRequestsFile) := s.historyRequestsFile.readAll
  (decodeData ⟨expectedSpecBytes, currentSpecBytes, historyRequestsBytes⟩ reqStore,
    ⟨expectedSpecFile, currentSpecFile, historyRequestsFile⟩)

def writeExpectedSpec (s : Storage) (spec : ProxySpecV1) : Storage :=
  { s with expectedSpecFile := s.expectedSpecFile.write (ProxySpecV1.Msg.codec.marshal spec.msg) }

def writeCurrentSpec (s : Storage) (spec : ProxySpecV1) : Storage :=
  { s with currentSpecFile := s.currentSpecFile.write (ProxySpecV1.Msg.codec.marshal spec.msg) }

def writeHistoryRequests (s : Storage) (reqStore : RequestsPack) : Storage :=
  { s with historyRequestsFile := s.historyRequestsFile.write reqStore.marshal }

end Storage

/-- `newStorage`: opens the files with `O_RDWR|O_CREATE`. -/
def newStorage (disk : Disk) : Storage :=
  ⟨.openRW disk.expectedSpec, .openRW disk.currentSpec, .openRW disk.historyRequests⟩

end CtrlMesh
