import QuotaWarden.CommandLine.Option
import QuotaWarden.Number.Shortest
import QuotaWarden.Settings

/-!
# The arguments of the program

The program has two commands: the controller, which reconciles namespaces, and the webhook, which
answers admission reviews. What the command line leaves open comes from the settings.

* `ControllerArguments` and `WebhookArguments` are the arguments of the commands, `Arguments` is
  either. An argument is missing if its value was left out.
* `Arguments.read` reads a command line.
-/

namespace QuotaWarden

open Number

/-- A number of seconds: a whole one from the settings, or a fraction from the command line. -/
inductive Seconds where
  | whole (n : Int)
  | fraction (x : Numeral)
deriving DecidableEq, Repr

/-- The nearest double. -/
def Seconds.toFloat : Seconds → Float
  | whole n => ofDecimalParts (n < 0) n.natAbs 0
  | fraction x => x.toFloat

def Seconds.display : Seconds → String
  | whole n => toString n
  | fraction x => writeFloat x.toFloat

/-- What both commands take. -/
structure CommonArguments where
  inCluster : Bool
  verbose : Bool
deriving DecidableEq, Repr

structure ControllerArguments where
  common : CommonArguments
  workers : Option Int
  resync : Option Seconds
  metricsPort : Option Int
  dryRun : Bool
deriving DecidableEq, Repr

structure WebhookArguments where
  common : CommonArguments
  certificateFile : Option String
  keyFile : Option String
  listenPort : Option Int
  resync : Option Seconds
deriving DecidableEq, Repr

inductive Arguments where
  | controller (a : ControllerArguments)
  | webhook (a : WebhookArguments)
deriving DecidableEq, Repr

def Arguments.common : Arguments → CommonArguments
  | controller a => a.common
  | webhook a => a.common

/-! ### Options -/

inductive CommonOption where
  | help
  | inCluster
  | verbose
deriving DecidableEq, Repr

inductive ControllerOption where
  | common (o : CommonOption)
  | workers
  | resync
  | metricsPort
  | dryRun
deriving DecidableEq, Repr

inductive WebhookOption where
  | common (o : CommonOption)
  | certificateFile
  | keyFile
  | listenPort
  | resync
deriving DecidableEq, Repr

def helpOption (meaning : α) : CommandOption α := ⟨["-h", "--help"], false, meaning⟩

def commonOptions (meaning : CommonOption → α) : List (CommandOption α) :=
  [helpOption (meaning .help), ⟨["--in-cluster"], false, meaning .inCluster⟩,
    ⟨["--verbose", "-v"], false, meaning .verbose⟩]

def controllerOptions : List (CommandOption ControllerOption) :=
  commonOptions .common ++
    [⟨["--workers"], true, .workers⟩, ⟨["--resync"], true, .resync⟩,
      ⟨["--metrics-port"], true, .metricsPort⟩, ⟨["--dry-run"], false, .dryRun⟩]

def webhookOptions : List (CommandOption WebhookOption) :=
  commonOptions .common ++
    [⟨["--tls-cert-file"], true, .certificateFile⟩, ⟨["--tls-key-file"], true, .keyFile⟩,
      ⟨["--listen-port"], true, .listenPort⟩, ⟨["--resync"], true, .resync⟩]

/-! ### Values -/

/-- The value of a use, if it is not left out. -/
def readValue (type : String) (read? : String → Option β) (u : OptionUse α) :
    Except CommandStop (Option β) :=
  match u.value with
  | none => .ok none
  | some s =>
    match read? s with
    | some x => .ok (some x)
    | none => .error (refuseOption u.option ("invalid " ++ type ++ " value: " ++ Text.quote s))

def integerValue (u : OptionUse α) : Except CommandStop (Option Int) :=
  readValue "int" readInteger? u

def secondsValue (u : OptionUse α) : Except CommandStop (Option Seconds) :=
  readValue "float" (fun s => (readNumeral? s).map .fraction) u

def CommonArguments.apply (o : CommonOption) (a : CommonArguments) :
    Except CommandStop CommonArguments :=
  match o with
  | .help => .error .help
  | .inCluster => .ok { a with inCluster := true }
  | .verbose => .ok { a with verbose := true }

def ControllerArguments.apply (u : OptionUse ControllerOption) (a : ControllerArguments) :
    Except CommandStop ControllerArguments := do
  match u.option.meaning with
  | .common o => return { a with common := ← a.common.apply o }
  | .workers => return { a with workers := ← integerValue u }
  | .resync => return { a with resync := ← secondsValue u }
  | .metricsPort => return { a with metricsPort := ← integerValue u }
  | .dryRun => return { a with dryRun := true }

def WebhookArguments.apply (u : OptionUse WebhookOption) (a : WebhookArguments) :
    Except CommandStop WebhookArguments := do
  match u.option.meaning with
  | .common o => return { a with common := ← a.common.apply o }
  | .certificateFile => return { a with certificateFile := u.value }
  | .keyFile => return { a with keyFile := u.value }
  | .listenPort => return { a with listenPort := ← integerValue u }
  | .resync => return { a with resync := ← secondsValue u }

/-! ### Commands -/

/-- The arguments of the controller before the command line is read. -/
def ControllerArguments.ofSettings (s : Settings) : ControllerArguments :=
  ⟨⟨false, false⟩, some s.workers, some (.whole s.resyncInterval), some s.metricsPort, false⟩

/-- The arguments of the webhook before the command line is read. -/
def WebhookArguments.ofSettings (s : Settings) : WebhookArguments :=
  ⟨⟨false, false⟩, some s.certificateFile, some s.keyFile, some s.webhookPort,
    some (.whole s.cacheResync)⟩

/-- Reads the words after a command: its arguments, and the words that name nothing. -/
def readCommand (settings : Settings) (command : String) (words : List String) :
    Except CommandStop (Arguments × List String) :=
  if command = "controller" then do
    let ws ← readWords controllerOptions words
    let (a, others) ←
      readOptions controllerOptions ControllerArguments.apply ws (.ofSettings settings)
    return (.controller a, others)
  else if command = "webhook" then do
    let ws ← readWords webhookOptions words
    let (a, others) ← readOptions webhookOptions WebhookArguments.apply ws (.ofSettings settings)
    return (.webhook a, others)
  else
    .error (.refused ("argument command: invalid choice: " ++ Text.quote command ++
      " (choose from 'controller', 'webhook')"))

/-- The options before the command. -/
def programOptions : List (CommandOption Unit) := [helpOption ()]

/-- The refusal of a command line without a command. -/
def commandMissing : CommandStop := .refused "the following arguments are required: command"

/-- Goes through the words before the command, and then follows the command. The only option there
asks for help. -/
def readProgram (settings : Settings) :
    List (String × CommandWord Unit) → Except CommandStop (Arguments × List String)
  | [] => .error commandMissing
  | (s, .operand) :: r => readCommand settings s (r.map (·.1))
  | [(_, .separator)] => .error commandMissing
  | (s, .separator) :: r => readCommand settings s (r.map (·.1))
  | (_, .named o a) :: _ =>
    match usesInWord programOptions o a with
    | .ok _ => .error .help
    | .error stop => .error stop
  | (s, .unknown) :: r => do
    let (a, others) ← readProgram settings r
    return (a, s :: others)

/-- The arguments that `words` give, with the defaults of `settings`. -/
def Arguments.read (settings : Settings) (words : List String) : Except CommandStop Arguments := do
  let ws ← readWords programOptions words
  match ← readProgram settings ws with
  | (a, []) => return a
  | (_, others) => .error (.refused ("unrecognized arguments: " ++ " ".intercalate others))

end QuotaWarden
