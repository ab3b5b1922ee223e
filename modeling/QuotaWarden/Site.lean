import QuotaWarden.ClusterApi
import QuotaWarden.Journal
import QuotaWarden.Metrics
import QuotaWarden.TimeScale

/-!
# The site of the work

All that lies outside the operator's own state: the cluster, the clock, the journal and the
counters.

* `Site.call` makes an API call, `Site.say` logs a line, `Site.sleep` lets time pass, `Site.tally`
  counts. -/

namespace QuotaWarden

/-- The surroundings of the operator. -/
structure Site (σ τ : Type) where
  cluster : σ
  now : τ
  /-- The journal, first entry first. -/
  notes : List (Note τ)
  metrics : Metrics

namespace Site

variable {σ τ α : Type}

def note (n : Note τ) (s : Site σ τ) : Site σ τ := { s with notes := s.notes ++ [n] }

def call (a : Act σ α) : Act (Site σ τ) α :=
  Act.within cluster (fun c s => { s with cluster := c }) a

def say (level : LogLevel) (text : String) : Act (Site σ τ) Unit :=
  Act.change (note (.log ⟨level, text⟩))

def sleep [TimeScale τ] (t : τ) : Act (Site σ τ) Unit :=
  Act.change fun s => { s.note (.sleep t) with now := s.now + t }

def tally (f : Metrics → Metrics) : Act (Site σ τ) Unit :=
  Act.change fun s => { s with metrics := f s.metrics }

end Site

end QuotaWarden
