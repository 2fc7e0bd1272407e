import ControllerMesh.Impl.ManagerState
import ControllerMesh.Impl.Proxy

/-!
# The connection of a proxy to its manager

`proxy/protomanager/proto_manager_grpc.go` with `reportTriggerChan`: `connect` opens a
stream to the leader and receives specs; a goroutine of each stream reports the status,
when there is a trigger or its timer fires. A trigger is sent for every message that is
received, and by `UpdateLeaderElection`, which holds the lock of the spec manager while
it sends.

The goroutine of a stream that has ended is stopped, but may be chosen before it sees
that: `select` takes any case that is ready. Handlers of requests run once `Start` has
returned, which waits for the first message.
-/

namespace CtrlMesh

open Framework

/-- Where the reporting goroutine of a stream is. -/
inductive SenderPc where
  /-- It waits for the first message of any stream. -/
  | waiting
  | selecting
  /-- In `send`, before `GetStatus`. -/
  | checking
  | sending (status : ProxyStatusV1)
  deriving DecidableEq

/-- The reporting goroutine of a stream. -/
structure Sender where
  prevStatus : Option ProxyStatusV1 := none
  /-- `sendTimer` runs. -/
  armed : Bool := false
  /-- `sendTimer.C` has a value. -/
  fired : Bool := false
  pc : SenderPc := .waiting
  /-- The last status that was sent on the stream. -/
  sent : ProxyStatusV1
  /-- A `Send` on the stream has failed. -/
  failed : Bool := false
  deriving DecidableEq

inductive SenderEvent where
  | start
  | takeTrigger
  | takeTimer
  | fire
  | getStatus
  | send (ok : Bool)
  deriving DecidableEq

/-- Where `connect` is. -/
inductive ConnectPc where
  | connecting
  /-- In `syncing`, before the first `GetStatus`. -/
  | starting
  | sendingFirst (status : ProxyStatusV1)
  /-- In `recv`, before the next message. -/
  | receiving
  /-- In `UpdateSpec`, before the lock. -/
  | updating
  /-- Before it sends a trigger. -/
  | triggering
  deriving DecidableEq

structure GrpcClient where
  proxy : Proxy
  /-- How many triggers are in `reportTriggerChan`. -/
  triggers : Nat := 0
  /-- `UpdateLeaderElection` holds the lock, before it sends its trigger. -/
  electing : Bool := false
  /-- `initChan` is closed. -/
  initialized : Bool := false
  /-- What the lister has. -/
  managerState : Option ManagerStateStatus := none
  pc : ConnectPc := .connecting
  /-- The goroutine of the open stream. -/
  sender : Option Sender := none
  /-- The goroutines of streams that have ended. -/
  stale : List Sender := []

namespace GrpcClient

inductive Event where
  | informed (managerState : Option ManagerStateStatus)
  | connect
  | getFirstStatus
  | sendFirst (ok : Bool)
  | recv (spec : ProxySpecV1.Msg)
  | recvFails
  | finishUpdate (order : RangeOrder)
  | trigger
  | sender (e : SenderEvent)
  | stale (i : Nat) (e : SenderEvent)
  /-- The `i`-th goroutine of an ended stream takes `stopChan`. -/
  | stop (i : Nat)
  | updateLeaderElection (le : Option LeaderElectionStateV1)
  | triggerElection
  | acquire (req : Request)
  | release (i : Nat)

/-- No request and no `UpdateLeaderElection` holds the lock. -/
def lockFree (s : GrpcClient) : Bool := !s.electing && s.proxy.readers.isEmpty

def getStatus (s : GrpcClient) : Option ProxyStatusV1 := s.proxy.specManager.getStatus

/-- A step of a reporting goroutine, and how many triggers are left. -/
def senderStep (s : GrpcClient) (g : Sender) : SenderEvent → Option (Sender × Nat)
  | .start =>
    if g.pc = .waiting ∧ s.initialized then
      some ({ g with pc := .selecting, armed := true }, s.triggers)
    else none
  | .takeTrigger =>
    if g.pc = .selecting ∧ 0 < s.triggers then
      some ({ g with pc := .checking, armed := false }, s.triggers - 1)
    else none
  | .takeTimer =>
    if g.pc = .selecting ∧ g.fired then
      some ({ g with pc := .checking, armed := false, fired := false }, s.triggers)
    else none
  | .fire =>
    if g.armed then some ({ g with armed := false, fired := true }, s.triggers) else none
  | .getStatus =>
    if g.pc = .checking ∧ s.lockFree then
      match s.getStatus with
      | none => some ({ g with pc := .selecting, armed := true }, s.triggers)
      | some status =>
        if g.prevStatus = some status then
          some ({ g with pc := .selecting, armed := true }, s.triggers)
        else some ({ g with pc := .sending status }, s.triggers)
    else none
  | .send ok =>
    match g.pc with
    | .sending status =>
      if ok then
        some ({ g with
          pc := .selecting, armed := true, prevStatus := some status, sent := status }, s.triggers)
      -- the timer is not started again
      else some ({ g with pc := .selecting, failed := true }, s.triggers)
    | _ => none

/-- One step; `cap` is the capacity of `reportTriggerChan`. -/
def step (unmarshal : String → LabelSelector) (cap : Nat) (s : GrpcClient) :
    Event → Option GrpcClient
  | .informed managerState => some { s with managerState }
  | .connect =>
    match s.pc, s.managerState.bind (·.leaderAddr) with
    | .connecting, some _ => some { s with pc := .starting }
    | _, _ => none
  | .getFirstStatus =>
    if s.pc = .starting ∧ s.lockFree then
      some { s with pc := .sendingFirst (s.getStatus.getD ⟨none, none⟩) }
    else none
  | .sendFirst ok =>
    match s.pc with
    | .sendingFirst status =>
      if ok then some { s with pc := .receiving, sender := some { sent := status } }
      else some { s with pc := .connecting }
    | _ => none
  | .recv spec =>
    if s.pc = .receiving then
      match spec.check with
      | none => some { s with pc := .triggering, initialized := true }
      | some spec =>
        (s.proxy.step unmarshal (.beginUpdate spec)).map fun proxy =>
          { s with proxy, pc := .updating }
    else none
  | .recvFails =>
    if s.pc = .receiving then
      some { s with pc := .connecting, sender := none, stale := s.stale ++ s.sender.toList }
    else none
  | .finishUpdate order =>
    if s.pc = .updating ∧ s.lockFree then
      (s.proxy.step unmarshal (.finishUpdate order)).map fun proxy =>
        { s with proxy, pc := .triggering, initialized := true }
    else none
  | .trigger =>
    if s.pc = .triggering ∧ s.triggers < cap then
      some { s with pc := .receiving, triggers := s.triggers + 1 }
    else none
  | .sender e =>
    match s.sender with
    | none => none
    | some g =>
      (s.senderStep g e).map fun r => { s with sender := some r.1, triggers := r.2 }
  | .stale i e =>
    match s.stale[i]? with
    | none => none
    | some g =>
      (s.senderStep g e).map fun r => { s with stale := s.stale.set i r.1, triggers := r.2 }
  | .stop i =>
    match s.stale[i]? with
    | none => none
    | some g => if g.pc = .selecting then some { s with stale := s.stale.eraseIdx i } else none
  | .updateLeaderElection le =>
    if s.initialized ∧ s.lockFree then
      (s.proxy.step unmarshal (.updateLeaderElection le)).map fun proxy =>
        { s with proxy, electing := decide (s.proxy.specManager.leaderElectionState ≠ le) }
    else none
  | .triggerElection =>
    if s.electing ∧ s.triggers < cap then
      some { s with electing := false, triggers := s.triggers + 1 }
    else none
  | .acquire req =>
    if s.initialized ∧ !s.electing then
      (s.proxy.step unmarshal (.acquire req)).map fun proxy => { s with proxy }
    else none
  | .release i => (s.proxy.step unmarshal (.release i)).map fun proxy => { s with proxy }

/-- A proxy whose spec manager has loaded `sm`, before the first connection. -/
def system (unmarshal : String → LabelSelector) (cap : Nat) (sm : SpecManager) :
    System GrpcClient Event :=
  ⟨{ proxy := { Proxy.start with specManager := sm } }, step unmarshal cap⟩

/-- The capacity that `NewGrpcClient` gives `reportTriggerChan`. -/
def reportTriggerCap : Nat := 1000

end GrpcClient

end CtrlMesh
