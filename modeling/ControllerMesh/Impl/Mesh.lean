import ControllerMesh.Impl.Proxy
import ControllerMesh.Impl.Server

/-!
# The mesh

The server of a VirtualApp and the proxies of its pods, which talk over the
streams: `proxy/protomanager/proto_manager_grpc.go` on the proxies' side.

A proxy opens a stream and sends its status as the first message (`connect`);
then it receives specs one after the other and passes each to `UpdateSpec`
(`deliver`), and it sends its status when that may have changed (`report`).
Messages on one stream arrive in order. The streams, the handlers on the server,
`Reconcile` and the requests that the proxies handle run in any order.
-/

namespace CtrlMesh

open Framework

/-- The events of the server in which no proxy has a part. -/
def Server.Event.isLocal : Server.Event → Bool
  | .grpc (.connect _) => false
  | .grpc (.stream _ (.report _)) => false
  | .grpc (.stream _ .deliver) => false
  | _ => true

/-- The events of a proxy in which the server has no part. -/
def Proxy.Event.isLocal : Proxy.Event → Bool
  | .beginUpdate _ => false
  | .getStatus => false
  | _ => true

structure Mesh where
  server : Server
  /-- The proxies that are running, by the UIDs of their pods. -/
  proxies : StringMap Proxy
  /-- The pods whose containers have been stopped. -/
  stopped : StringSet

namespace Mesh

inductive Event where
  | server (e : Server.Event)
  /-- The proxy of a pod is started. -/
  | start (uid : String)
  /-- The containers of a pod are stopped. -/
  | stop (uid : String)
  /-- The proxy of a pod opens a stream and sends its first status. -/
  | connect (uid : String)
  /-- A proxy sends its status on the `i`-th stream. -/
  | report (i : Nat)
  /-- A proxy receives a spec on the `i`-th stream, and begins to update. -/
  | deliver (i : Nat)
  | proxy (uid : String) (e : Proxy.Event)

section

variable (lib : Lib) (specHash : RouteV1 → List EndpointV1 → String)
  (unmarshal : String → LabelSelector)

/-- One step of the mesh, `none` if it is not enabled. -/
def step (s : Mesh) : Event → Option Mesh
  | .server e =>
    if e.isLocal then
      (s.server.step lib specHash e).map fun server => { s with server := server }
    else none
  | .start uid =>
    if s.proxies.contains uid || s.stopped.contains uid then none
    else some { s with proxies := s.proxies.insert uid .start }
  | .stop uid =>
    some { s with proxies := s.proxies.erase uid, stopped := s.stopped.insert uid }
  | .connect uid => do
    let p ← s.proxies[uid]?
    -- The loop that receives specs has ended.
    guard (p.updating = false)
    let _ ← p.step unmarshal .getStatus
    let firstStatus := p.specManager.getStatus.getD ⟨none, none⟩
    let server ← s.server.step lib specHash (.grpc (.connect uid))
    let server ← server.step lib specHash
      (.grpc (.stream s.server.grpc.streams.length (.report firstStatus)))
    some { s with server := server }
  | .report i => do
    let st ← s.server.grpc.streams[i]?
    let p ← s.proxies[st.uid]?
    let _ ← p.step unmarshal .getStatus
    -- Without a status nothing is sent.
    let status ← p.specManager.getStatus
    let server ← s.server.step lib specHash (.grpc (.stream i (.report status)))
    some { s with server := server }
  | .deliver i => do
    let st ← s.server.grpc.streams[i]?
    let spec ← st.sent[st.delivered]?
    let p ← s.proxies[st.uid]?
    let p' ← p.step unmarshal (.beginUpdate spec)
    let server ← s.server.step lib specHash (.grpc (.stream i .deliver))
    some { s with server := server, proxies := s.proxies.insert st.uid p' }
  | .proxy uid e => do
    guard e.isLocal
    let p ← s.proxies[uid]?
    let p' ← p.step unmarshal e
    some { s with proxies := s.proxies.insert uid p' }

/-- The mesh of a VirtualApp, before any of its pods is started. -/
def system (vApp : VirtualApp) : System Mesh Event :=
  ⟨⟨.start vApp, ∅, ∅⟩, step lib specHash unmarshal⟩

end

end Mesh

end CtrlMesh
