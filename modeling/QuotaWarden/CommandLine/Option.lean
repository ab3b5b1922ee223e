import QuotaWarden.Number.Numeral
import QuotaWarden.Text.Quoted

/-!
# Options on a command line

A command line is a list of words. An option is named by a word that starts with a dash: by one of
its names, by a beginning of a long name that no other long name has, or by a short name. The value
of a long option stands in the same word after `=`, or is the next word; `--` after `=` stands for
no value at all. Options with a short name take no value, and several of them may share a word.
After the word `--` no word names an option.

* `CommandOption` is an option, `OptionUse` a use of one.
* `readWords` tells the words that name options from the others; an ambiguous beginning is refused.
* `readOptions` goes through the words, applies the uses in order and collects the words that name
  nothing. -/

namespace QuotaWarden

/-- An option of a command. -/
structure CommandOption (α : Type) where
  /-- The names, with their dashes. -/
  names : List String
  takesValue : Bool
  meaning : α
deriving Repr

def CommandOption.title (o : CommandOption α) : String := "/".intercalate o.names

/-- What a word holds beside the name of an option. -/
inductive Attached where
  | nothing
  /-- What stands after a long name and `=`. -/
  | value (s : String)
  /-- What stands after a short name, or after one and `=`. -/
  | letters (cs : List Char)
deriving DecidableEq, Repr

/-- What a word is. -/
inductive CommandWord (α : Type) where
  | operand
  /-- The word after which no word names an option. -/
  | separator
  | named (o : CommandOption α) (a : Attached)
  /-- It looks like an option, but there is none of that name. -/
  | unknown
deriving Repr

/-- A use of an option. It has no value if the option takes none, or if the value was left out. -/
structure OptionUse (α : Type) where
  option : CommandOption α
  value : Option String
deriving Repr

/-- Why a command line is not followed. -/
inductive CommandStop where
  /-- Help was asked for. -/
  | help
  | refused (message : String)
deriving DecidableEq, Repr

/-! ### Words -/

def byName? (options : List (CommandOption α)) (name : String) : Option (CommandOption α) :=
  options.find? fun o => o.names.contains name

def isShort (name : String) : Bool :=
  match name.toList with
  | '-' :: '-' :: _ => false
  | _ => true

/-- What stands after a name and `=`. -/
def attach (name : String) (cs : List Char) : Attached :=
  if isShort name then .letters cs else .value (String.ofList cs)

/-- Splits a word at its first `=`. -/
def splitValue (s : String) : String × Attached :=
  let (name, rest) := s.toList.span (· ≠ '=')
  let name := String.ofList name
  (name,
    match rest with
    | _ :: value => attach name value
    | [] => .nothing)

def namedOptions (options : List (CommandOption α)) : List (String × CommandOption α) :=
  options.flatMap fun o => o.names.map fun n => (n, o)

/-- The long names that a word begins, perhaps with a value. -/
def longCandidates (options : List (CommandOption α)) (s : String) :
    List (String × CommandWord α) :=
  let (stem, a) := splitValue s
  ((namedOptions options).filter fun e => stem.toList.isPrefixOf e.1.toList).map fun e =>
    (e.1, .named e.2 a)

/-- The short name that a word starts with. -/
def shortCandidates (options : List (CommandOption α)) (s : String) :
    List (String × CommandWord α) :=
  let name := String.ofList (s.toList.take 2)
  ((namedOptions options).filter fun e => e.1 = name).map fun e =>
    (e.1, .named e.2 (.letters (s.toList.drop 2)))

/-- The names that a word may stand for. -/
def candidates (options : List (CommandOption α)) (s : String) : List (String × CommandWord α) :=
  if isShort s then shortCandidates options s else longCandidates options s

def areDigits (cs : List Char) : Bool := !cs.isEmpty && cs.all Number.isDigit

/-- Whether a word looks like a negative number in digits; a line break at its end does not matter.
-/
def looksNegative (s : String) : Bool :=
  match s.toList with
  | '-' :: r =>
    let body := if r.getLast? = some '\n' then r.dropLast else r
    let (whole, rest) := body.span Number.isDigit
    match rest with
    | [] => areDigits whole
    | '.' :: fraction => areDigits fraction
    | _ => false
  | _ => false

/-- Reads a word that is no name and no `name=value`. -/
def readOther (options : List (CommandOption α)) (s : String) :
    Except CommandStop (CommandWord α) :=
  match candidates options s with
  | [(_, w)] => .ok w
  | [] => .ok (if looksNegative s || s.toList.contains ' ' then .operand else .unknown)
  | several =>
    .error (.refused ("ambiguous option: " ++ s ++ " could match " ++
      ", ".intercalate (several.map (·.1))))

def readWord (options : List (CommandOption α)) (s : String) :
    Except CommandStop (CommandWord α) :=
  if s.toList.head? ≠ some '-' || s = "-" then .ok .operand
  else
    match byName? options s with
    | some o => .ok (.named o .nothing)
    | none =>
      let (name, a) := splitValue s
      match a, byName? options name with
      | .nothing, _ | _, none => readOther options s
      | a, some o => .ok (.named o a)

def readWords (options : List (CommandOption α)) :
    List String → Except CommandStop (List (String × CommandWord α))
  | [] => .ok []
  | s :: r =>
    if s = "--" then .ok ((s, .separator) :: r.map fun t => (t, .operand))
    else do
      let w ← readWord options s
      let ws ← readWords options r
      return (s, w) :: ws

/-! ### Uses -/

def refuseOption (o : CommandOption α) (text : String) : CommandStop :=
  .refused ("argument " ++ o.title ++ ": " ++ text)

/-- A refusal because of what is attached to an option. -/
def refuseAttached (o : CommandOption α) (attached : String) : CommandStop :=
  refuseOption o ("ignored explicit argument " ++ Text.quote attached)

/-- The uses in a word of short names, of which the first is taken already. -/
def shortRow (options : List (CommandOption α)) (o : CommandOption α) :
    List Char → Except CommandStop (List (OptionUse α))
  | [] => .ok [⟨o, none⟩]
  | c :: r =>
    match byName? options (String.ofList ['-', c]) with
    | none => .error (refuseAttached o (String.ofList (c :: r)))
    | some next => do
      let uses ← shortRow options next r
      return ⟨o, none⟩ :: uses

/-- What stands for a value that is left out. -/
def leftOut : String := "--"

/-- The uses in a word by itself. -/
def usesInWord (options : List (CommandOption α)) (o : CommandOption α) :
    Attached → Except CommandStop (List (OptionUse α))
  | .nothing => .ok [⟨o, none⟩]
  | .value s =>
    if o.takesValue then .ok [⟨o, if s = leftOut then none else some s⟩]
    else .error (refuseAttached o s)
  | .letters [] => .error (refuseAttached o "")
  | .letters cs => shortRow options o cs

/-- Goes through words: applies the uses of options in order, and collects the words that name
nothing. -/
def readOptions (options : List (CommandOption α))
    (apply : OptionUse α → β → Except CommandStop β) :
    List (String × CommandWord α) → β → Except CommandStop (β × List String)
  | [], x => .ok (x, [])
  | (_, .named o a) :: r, x =>
    if o.takesValue && a = .nothing then
      match r with
      | (s, .operand) :: r => do
        let x ← apply ⟨o, some s⟩ x
        readOptions options apply r x
      | _ => .error (refuseOption o "expected one argument")
    else do
      let uses ← usesInWord options o a
      let x ← uses.foldlM (fun x u => apply u x) x
      readOptions options apply r x
  | (s, _) :: r, x => do
    let (x, others) ← readOptions options apply r x
    return (x, s :: others)

end QuotaWarden
