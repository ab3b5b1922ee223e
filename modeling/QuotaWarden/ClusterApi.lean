import QuotaWarden.Act
import QuotaWarden.ApiObject

/-!
# The cluster API

What the operator asks of a cluster. Each call may fail in any way, and may change the cluster.

* `ClusterApi σ` is what a state `σ` must offer to be a cluster.
* `ClusterEvent` is an event about a policy that the cluster keeps.
-/

namespace QuotaWarden

/-- An event about a policy. -/
structure ClusterEvent where
  /-- The front part of the name that the cluster gives to the event. -/
  namePart : String
  ns : Option String
  policy : Option String
  type : Option String
  reason : Option String
  message : Option String
  source : Option String
deriving DecidableEq, Repr

/-- The namespaces of a cluster, and the version of the list. -/
structure NamespaceList where
  /-- The names; a namespace may be nameless. -/
  names : List (Option String)
  version : String

def NamespaceList.response (l : NamespaceList) : ApiObject :=
  .list (l.names.map .ns) (some l.version)

/-- What a cluster offers. -/
class ClusterApi (σ : Type) where
  /-- The pods of a namespace. -/
  listPods : Json → Act σ (List Pod)
  listAllPods : Act σ ApiObject
  listNamespaces : Act σ NamespaceList
  listPolicies : Act σ ApiObject
  /-- Deletes the pod with a namespace and a name, within a grace period in seconds. -/
  deletePod : Option String → Option String → Int → Act σ Unit
  /-- The policy with a namespace and a name. -/
  getPolicy : Json → Json → Act σ Json
  /-- Sets the status of the policy with a namespace and a name: the policy after that. -/
  patchStatus : Json → Json → Json → Act σ Json
  createEvent : ClusterEvent → Act σ ClusterEvent

end QuotaWarden
