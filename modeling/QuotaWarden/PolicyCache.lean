import QuotaWarden.Policy
import QuotaWarden.Site
import QuotaWarden.WatchCache.Basic

/-!
# Policies by namespace

The policies of a namespace are read from the cache of policies. Reading a policy logs the warnings
about it. The first policy by name governs the namespace.

* `governingPolicy?` is the policy that governs a namespace, `policiesOf` all of them in order.
-/

namespace QuotaWarden

variable {σ τ : Type}

/-- Reads an untyped policy and logs the warnings about it. -/
def readLogged (v : Json) : Act (Site σ τ) Policy := do
  let (result, warnings) := Policy.ofJson v []
  Act.forEach warnings (Site.say .warning)
  Act.lift result

def readWithWarnings : ApiObject → Act (Site σ τ) Policy
  | .untyped v => readLogged v
  | .untypedList fields _ => readLogged (.obj fields)
  | o => Act.fail (.noField o.kindName "get")

def readAllWithWarnings : List ApiObject → Act (Site σ τ) (List Policy)
  | [] => return []
  | o :: r => do
    let p ← readWithWarnings o
    return p :: (← readAllWithWarnings r)

/-- The policy of `c.first? ns`. -/
def governingPolicy? (c : WatchCache) (ns : Json) : Act (Site σ τ) (Option Policy) := do
  match ← Act.lift (c.first? ns) with
  | none => return none
  | some o => some <$> readWithWarnings o

def policiesOf (c : WatchCache) (ns : Json) : Act (Site σ τ) (List Policy) := do
  readAllWithWarnings (← Act.lift (c.listIn ns))

end QuotaWarden
