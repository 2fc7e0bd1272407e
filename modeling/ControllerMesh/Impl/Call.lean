import ControllerMesh.Impl.Server

/-!
# A call of Reconcile

`Reconcile` from its start to its return with nothing else in between, and the
operations on pods that it attempts. The steps of `Impl.Server` are answered one
after the other; the call is cut off where the answers end.
-/

namespace CtrlMesh

/-- What `Reconcile` does to a pod: `r.Delete` or `conn.send`. -/
inductive Operation where
  | delete (task : SyncTask)
  | send (task : SyncTask)
  deriving DecidableEq

/-- An operation, with the error it returned. -/
structure Attempt where
  operation : Operation
  err : Option String
  deriving DecidableEq

def Reconcile.isIdle : Reconcile → Bool
  | idle _ => true
  | _ => false

namespace Server

/-- The operation of the next step, if there is one in it. -/
def operation (s : Server) : Option Operation :=
  match s.reconcile with
  | .deleting (task :: _) _ => some (.delete task)
  | .sending (task :: _) _ => some (.send task)
  | _ => none

section

variable (lib : Lib) (specHash : RouteV1 → List EndpointV1 → String)

/-- `Reconcile` goes on until it returns: what it attempts, and the server then. -/
def continueCall (s : Server) : List Env → List Attempt × Server
  | [] => ([], s)
  | env :: envs =>
    if s.reconcile.isIdle then ([], s)
    else
      match s.reconcileStep lib specHash env with
      | none => ([], s)
      | some s' =>
        let rest := continueCall s' envs
        ((s.operation.map (⟨·, env.err⟩)).toList ++ rest.1, rest.2)

/-- `Reconcile`, called. -/
def call (s : Server) : List Env → List Attempt × Server
  | [] => ([], s)
  | env :: envs =>
    match { s with reconcile := .idle ⟨0, none⟩ }.reconcileStep lib specHash env with
    | none => ([], s)
    | some s' => s'.continueCall lib specHash envs

end

end Server

end CtrlMesh
