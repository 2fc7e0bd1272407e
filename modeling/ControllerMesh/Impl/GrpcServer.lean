import ControllerMesh.Framework.Container
import ControllerMesh.Framework.System
import ControllerMesh.Impl.Messages

/-!
# The server's streams

`controllers/server/grpc_server.go`: the handlers `RegisterV1` of the streams
that pods open, with the connection each of them caches for its pod, and the
map of hash expectations that they share with `Reconcile`.

A handler takes one step for each access to what is shared: it receives the
first message (`recvFirst`), looks up the pod (`lookupPod`), stores the
connection (`store`), deletes the pod's hash expectation (`clear`), and when the
stream is done deletes the expectation again (`teardown`) and marks the
connection (`disconnect`). Its second goroutine receives the statuses (`recv`).
Between these, any other handler may run. A pod opens a stream when its
previous one is broken, and what is not delivered on a broken stream is lost.

Connections are numbered by the streams they were made for. That the pod is
found by its name is modelled as an answer for the pod that opened the stream.
-/

namespace CtrlMesh

open Framework

/-- Where the handler of a stream is. -/
inductive RegisterV1 where
  /-- It waits for the first message. -/
  | receiving
  /-- It has the first message and looks up the pod. -/
  | lookingUp (pStatus : ProxyStatusV1)
  /-- The pod is active: it stores the connection. -/
  | storing (pStatus : ProxyStatusV1)
  /-- It deletes the hash expectation. -/
  | clearing
  /-- It waits for the end of the stream. -/
  | serving
  /-- It has deleted the hash expectation again and marks the connection. -/
  | closing
  | returned
  /-- It returned an error, before it stored a connection. -/
  | refused
  deriving DecidableEq, Repr

/-- The handler has stored its connection. -/
def RegisterV1.hasStored : RegisterV1 → Bool
  | clearing | serving | closing | returned => true
  | receiving | lookingUp _ | storing _ | refused => false

/-- The second goroutine of the handler has been started. -/
def RegisterV1.hasServed : RegisterV1 → Bool
  | serving | closing | returned => true
  | _ => false

structure GrpcSrvConnection where
  status : ProxyStatusV1
  sendTimes : Nat
  disconnected : Bool
  deriving DecidableEq, Repr

/-- A stream, its handler and its connection. -/
structure Stream where
  /-- The pod that opened the stream. -/
  uid : String
  broken : Bool := false
  handler : RegisterV1 := .receiving
  conn : GrpcSrvConnection := ⟨⟨none, none⟩, 0, false⟩
  /-- The statuses on their way to the server. -/
  reports : List ProxyStatusV1 := []
  /-- The specs that `Send` has taken, of which `delivered` have arrived. -/
  sent : List ProxySpecV1 := []
  delivered : Nat := 0
  deriving DecidableEq, Repr

namespace Stream

/-- What happens on a stream. -/
inductive Event where
  /-- The pod sends a status. -/
  | report (status : ProxyStatusV1)
  | recvFirst
  /-- The first `Recv` returns an error. -/
  | recvFail
  | lookupPod (found : Bool)
  | store
  | clear
  | recv
  /-- The pod receives the next spec. -/
  | deliver
  | breakOff
  | teardown
  | disconnect
  deriving DecidableEq

/-- One step of a stream, `none` if it is not enabled. -/
def step (st : Stream) : Event → Option Stream
  | .report status =>
    if st.broken then none else some { st with reports := st.reports ++ [status] }
  | .recvFirst =>
    match st.handler, st.reports with
    | .receiving, pStatus :: reports =>
      some { st with handler := .lookingUp pStatus, reports := reports }
    | _, _ => none
  | .recvFail =>
    if st.handler = .receiving ∧ st.broken then some { st with handler := .refused } else none
  | .lookupPod found =>
    match st.handler with
    | .lookingUp pStatus =>
      if found then some { st with handler := .storing pStatus }
      -- The stream ends with the handler.
      else some { st with handler := .refused, broken := true }
    | _ => none
  | .store =>
    match st.handler with
    | .storing pStatus => some { st with handler := .clearing, conn := ⟨pStatus, 0, false⟩ }
    | _ => none
  | .clear => if st.handler = .clearing then some { st with handler := .serving } else none
  | .recv =>
    match st.handler.hasServed, st.reports with
    | true, pStatus :: reports =>
      some { st with conn := { st.conn with status := pStatus }, reports := reports }
    | _, _ => none
  | .deliver =>
    if !st.broken ∧ st.delivered < st.sent.length then
      some { st with delivered := st.delivered + 1 }
    else none
  | .breakOff => if st.broken then none else some { st with broken := true }
  | .teardown =>
    if st.handler = .serving ∧ st.broken then some { st with handler := .closing } else none
  | .disconnect =>
    if st.handler = .closing then
      some { st with handler := .returned, conn := { st.conn with disconnected := true } }
    else none

/-- `grpcSrvConnection.send`: the stream takes the spec unless there is an
error. -/
def send (st : Stream) (spec : ProxySpecV1) (err : Option String) : Stream :=
  { st with
    conn := { st.conn with sendTimes := st.conn.sendTimes + 1 }
    sent := if err.isNone then st.sent ++ [spec] else st.sent }

end Stream

structure GrpcServer where
  streams : List Stream
  /-- `cachedGrpcSrvConnection`, with the number of the stream. -/
  cachedGrpcSrvConnection : StringMap Nat
  podHashExpectation : StringMap String
  deriving DecidableEq

namespace GrpcServer

inductive Event where
  | connect (uid : String)
  /-- A step of the `i`-th stream. -/
  | stream (i : Nat) (e : Stream.Event)
  deriving DecidableEq

/-- A server without streams. -/
def start : GrpcServer := ⟨[], ∅, ∅⟩

/-- What a step of the `i`-th stream, which is of pod `uid`, does to the shared
maps. -/
def effect (s : GrpcServer) (i : Nat) (uid : String) : Stream.Event → GrpcServer
  | .store => { s with cachedGrpcSrvConnection := s.cachedGrpcSrvConnection.insert uid i }
  | .clear | .teardown => { s with podHashExpectation := s.podHashExpectation.erase uid }
  | _ => s

/-- One step of the server, `none` if it is not enabled. -/
def step (s : GrpcServer) : Event → Option GrpcServer
  | .connect uid =>
    if s.streams.any fun st => st.uid == uid && !st.broken then none
    else some { s with streams := s.streams ++ [{ uid := uid }] }
  | .stream i e =>
    match s.streams[i]? with
    | none => none
    | some st =>
      (st.step e).map fun st' => effect { s with streams := s.streams.set i st' } i st.uid e

/-- `send` on the `i`-th stream. -/
def send (s : GrpcServer) (i : Nat) (spec : ProxySpecV1) (err : Option String) : GrpcServer :=
  { s with streams := s.streams.modify i (·.send spec err) }

/-- The handlers of the streams, from a server without streams. -/
def system : System GrpcServer Event := ⟨start, step⟩

end GrpcServer

end CtrlMesh
