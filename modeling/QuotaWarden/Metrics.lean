import QuotaWarden.Dictionary

/-!
# Counters

What the operator counts: reconciles and their errors, deletes, and what admission decided. A
counter has labels, and counts apart for each combination of their values; a counter without labels
starts at zero.

* `Metrics.count` adds one, `Metrics.value` reads.
* `Metrics.reconciled`, `acted`, `lookedUp`, `admitted` count the events of the operator.
-/

namespace QuotaWarden

inductive Counter where
  | reconciles
  | reconcileErrors
  | actions
  | admissions
  | violations
  | cacheHits
  | cacheMisses
deriving DecidableEq, Repr

namespace Counter

/-- The counters in the order in which they are shown. -/
def all : List Counter :=
  [reconciles, reconcileErrors, actions, admissions, violations, cacheHits, cacheMisses]

def name : Counter → String
  | reconciles => "resource_quota_enforcer_reconcile_total"
  | reconcileErrors => "resource_quota_enforcer_reconcile_errors_total"
  | actions => "resource_quota_enforcer_actions_total"
  | admissions => "rqe_admission_requests_total"
  | violations => "rqe_admission_violations_total"
  | cacheHits => "rqe_policy_cache_hits_total"
  | cacheMisses => "rqe_policy_cache_misses_total"

/-- What a counter counts. -/
def help : Counter → String
  | reconciles => "Number of reconcile attempts per resource"
  | reconcileErrors => "Number of reconcile errors per resource"
  | actions => "Number of enforcement actions taken by policy"
  | admissions => "Total number of admission requests received"
  | violations => "Total number of admission rejections by reason"
  | cacheHits => "Policy cache hits"
  | cacheMisses => "Policy cache misses"

/-- The labels of a counter. -/
def labels : Counter → List String
  | reconciles | reconcileErrors => ["resource", "namespace"]
  | actions => ["action", "namespace"]
  | admissions => ["namespace", "result"]
  | violations => ["namespace", "reason"]
  | cacheHits | cacheMisses => []

end Counter

/-- A counter with the values of its `Counter.labels`. -/
structure Series where
  counter : Counter
  values : List String
deriving DecidableEq, Repr

/-- The labels of a series with their values, sorted by label. -/
def Series.labels (s : Series) : List (String × String) :=
  (s.counter.labels.zip s.values).mergeSort fun x y => !decide (y.1 < x.1)

/-- What has been counted, series in the order in which they began. -/
structure Metrics where
  samples : List (Series × Nat)
deriving Repr

namespace Metrics

def zero : Metrics := ⟨[(⟨.cacheHits, []⟩, 0), (⟨.cacheMisses, []⟩, 0)]⟩

def value (s : Series) (m : Metrics) : Nat := (Dictionary.get? s m.samples).getD 0

/-- Adds one to a series. -/
def count (s : Series) (m : Metrics) : Metrics :=
  ⟨Dictionary.set s (m.value s + 1) m.samples⟩

theorem value_count (r s : Series) (m : Metrics) :
    (m.count s).value r = if r = s then m.value s + 1 else m.value r := by
  unfold count value
  rw [Dictionary.get?_set]
  by_cases h : r = s <;> simp [h]

theorem value_count_add (r s : Series) (m : Metrics) :
    (m.count s).value r = m.value r + if r = s then 1 else 0 := by
  rw [value_count]
  split
  · next h => rw [h]
  · rfl

/-- Counts a reconcile of a namespace. -/
def reconciled (ns : String) (failed : Bool) (m : Metrics) : Metrics :=
  let m := m.count ⟨.reconciles, ["pod", ns]⟩
  if failed then m.count ⟨.reconcileErrors, ["pod", ns]⟩ else m

/-- Counts an action in a namespace. -/
def acted (action ns : String) (m : Metrics) : Metrics := m.count ⟨.actions, [action, ns]⟩

/-- Counts a look-up of a policy. -/
def lookedUp (hit : Bool) (m : Metrics) : Metrics :=
  m.count ⟨if hit then .cacheHits else .cacheMisses, []⟩

/-- Counts an answer to an admission request, and the reason of a refusal if there is one. -/
def admitted (ns result reason : String) (m : Metrics) : Metrics :=
  let m := m.count ⟨.admissions, [ns, result]⟩
  if reason = "" then m else m.count ⟨.violations, [ns, reason]⟩

end Metrics

end QuotaWarden
