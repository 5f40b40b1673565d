import Mathlib

/-!
# Services of the registry

Reference: `registry/service.go` and `registry/watcher.go`.

Services are values here: two services with the same fields are the same, and what one component
does to a service it has handed on is not seen by the other.
-/

namespace Vmqant.Registry

/-- A `map[string]string`. -/
abbrev Metadata := Finmap fun _ : String => String

/-- Node 服务节点信息 -/
structure Node where
  id : String
  address : String
  port : ℤ
  metadata : Metadata := ∅
deriving DecidableEq

/-- The search the watcher and the cache make for each node: whether some node has the id of
`cur`. -/
def seen (nodes : List Node) (cur : Node) : Bool := nodes.any fun node => node.id = cur.id

inductive Value where
  | mk (name type : String) (values : List Value)

structure Endpoint where
  name : String
  request : Option Value
  response : Option Value
  metadata : Metadata := ∅

structure Service where
  name : String
  version : String := ""
  metadata : Metadata := ∅
  endpoints : List Endpoint := []
  nodes : List Node := []

/-- The action of a result; `other` is any text but the three. -/
inductive Action where
  | create
  | update
  | delete
  | other (text : String)
deriving DecidableEq

/-- A result of a watcher. -/
structure Result where
  action : Action
  service : Service

end Vmqant.Registry
