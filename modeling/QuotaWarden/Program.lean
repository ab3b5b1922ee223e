import QuotaWarden.Act
import QuotaWarden.CommandLine.Arguments
import QuotaWarden.Journal

/-!
# The program

The program reads its command line, finds the cluster and runs a command. It ends with exit code 2
on a command line that it cannot follow, and with exit code 1 when the cluster is not found or the
command fails.

* `Program` is what the program needs of its surroundings, `Program.run` runs it.
-/

namespace QuotaWarden

/-- What the program needs of its surroundings. -/
structure Program (S : Type) where
  log : LogLine → S → S
  /-- Makes the log tell more. -/
  tellMore : S → S
  /-- Finds the cluster, from inside of it or from outside. -/
  findCluster : Bool → Act S Unit
  command : Arguments → Act S Unit

namespace Program

variable {S : Type}

def foundLine (inCluster : Bool) : LogLine :=
  ⟨.info, if inCluster then "Loaded in-cluster configuration"
    else "Loaded kubeconfig from default location"⟩

/-- Runs a command: the exit code, if it is not that of success. -/
def follow (p : Program S) (a : Arguments) (s : S) : Option Nat × S :=
  let s := if a.common.verbose then p.tellMore s else s
  match p.findCluster a.common.inCluster s with
  | (.error f, s) => (some 1, p.log ⟨.error, "Failed to load Kubernetes config: " ++ f.callText⟩ s)
  | (.ok _, s) =>
    match p.command a (p.log (foundLine a.common.inCluster) s) with
    | (.error f, s) => (some 1, p.log ⟨.error, "Enforcer error: " ++ f.callText⟩ s)
    | (.ok _, s) => (none, s)

/-- The exit code for a command line that is not followed. -/
def stopCode : CommandStop → Nat
  | .help => 0
  | .refused _ => 2

/-- Runs the program on a command line: the exit code, if it is not that of success. -/
def run (p : Program S) (settings : Settings) (words : List String) (s : S) : Option Nat × S :=
  match Arguments.read settings words with
  | .ok a => p.follow a s
  | .error stop => (some (stopCode stop), s)

end Program

end QuotaWarden
