import QuotaWarden.Cluster.Rehearsal
import QuotaWarden.Launch

/-!
# The command line

Runs the program on a cluster in memory without objects, where waits for the stop signal do not end,
and shows its log. -/

namespace QuotaWarden

def readSettings : IO Settings := do
  let names := ["WATCH_TIMEOUT_SECONDS", "CACHE_RESYNC_SECONDS", "RESYNC_INTERVAL_SECONDS",
    "WORKERS", "METRICS_PORT", "WEBHOOK_PORT", "TLS_CERT_FILE", "TLS_KEY_FILE", "LOG_LEVEL"]
  let found ← names.mapM fun name => do return (name, ← IO.getEnv name)
  return .ofEnvironment fun name => (found.lookup name).join

/-- A cluster without objects. -/
def emptyRehearsal : Rehearsal Float := .start .empty ⟨fun _ => false, 0, fun _ => true, none, 0⟩

/-- Nothing happens from outside. -/
def calm : Circumstances Float := ⟨none, .atOnce, none, 1000, Seconds.toFloat⟩

end QuotaWarden

open QuotaWarden

def main (words : List String) : IO UInt32 := do
  let settings ← readSettings
  if let .error (.refused message) := Arguments.read settings words then
    IO.eprintln ("error: " ++ message)
  let (code, launch) := (launching settings calm).run settings words (.start emptyRehearsal)
  for note in launch.operator.site.notes do
    if let .log line := note then IO.eprintln line.shown
  return (code.getD 0).toUInt32
