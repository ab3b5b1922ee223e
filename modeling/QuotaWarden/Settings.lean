import QuotaWarden.Number.Integer

/-!
# Settings

What the environment of the process can set, with the values that hold when it does not.

* `environmentInteger` reads an integer from the environment.
* `Settings.ofEnvironment` collects all of them.
-/

namespace QuotaWarden

/-- An integer from the environment; a value that is no integer counts as missing. -/
def environmentInteger (value : Option String) (default : Int) : Int :=
  ((value.getD "" |> Number.readInteger?).getD default)

structure Settings where
  /-- Seconds after which the API ends a watch. -/
  watchTimeout : Int
  /-- Seconds between two rounds of synthetic changes from a cache. -/
  cacheResync : Int
  /-- Seconds between two rounds over all namespaces. -/
  resyncInterval : Int
  workers : Int
  metricsPort : Int
  webhookPort : Int
  certificateFile : String
  keyFile : String
  logLevel : String
deriving DecidableEq, Repr

/-- The settings where `lookup` finds the variables of the environment. -/
def Settings.ofEnvironment (lookup : String → Option String) : Settings where
  watchTimeout := environmentInteger (lookup "WATCH_TIMEOUT_SECONDS") 60
  cacheResync := environmentInteger (lookup "CACHE_RESYNC_SECONDS") 30
  resyncInterval := environmentInteger (lookup "RESYNC_INTERVAL_SECONDS") 60
  workers := environmentInteger (lookup "WORKERS") 5
  metricsPort := environmentInteger (lookup "METRICS_PORT") 8080
  webhookPort := environmentInteger (lookup "WEBHOOK_PORT") 8443
  certificateFile := (lookup "TLS_CERT_FILE").getD "./certs/server.crt"
  keyFile := (lookup "TLS_KEY_FILE").getD "./certs/server.key"
  logLevel := ((lookup "LOG_LEVEL").getD "INFO").toUpper

def Settings.standard : Settings := .ofEnvironment fun _ => none

/-- The source that events name. -/
def eventSource : String := "resourcequotapolicy-controller"

/-- The most deletes in one enforcement. -/
def enforcementCap : Nat := 10

/-- The grace period of a delete, so that usage drops at once. -/
def deleteGraceSeconds : Int := 0

/-- Seconds for which the webhook waits for its cache before it serves anyway. -/
def cacheReadyTimeout : Int := 30

end QuotaWarden
