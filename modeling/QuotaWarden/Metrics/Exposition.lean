import QuotaWarden.Metrics

/-!
# The page of counters

Counters are published as text: for each of them a line that says what it counts, a line that names
its type, and a line for each series.

* `Metrics.page` is the page, `Series.line` one line of it.
-/

namespace QuotaWarden

/-- A label's value between quotes: backslash, quote and line end are escaped. -/
def escapeLabel (s : String) : String :=
  String.join (s.toList.map fun c =>
    if c = '\\' then "\\\\" else if c = '"' then "\\\"" else if c = '\n' then "\\n" else c.toString)

/-- The labels of a series in braces; none, no braces. -/
def Series.labelText (s : Series) : String :=
  match s.labels with
  | [] => ""
  | labels =>
    let pairs := labels.map fun (n, v) => n ++ "=\"" ++ escapeLabel v ++ "\""
    "\x7b" ++ ",".intercalate pairs ++ "\x7d"

def Series.line (s : Series) (n : Nat) : String :=
  s.counter.name ++ s.labelText ++ " " ++ toString n ++ ".0"

namespace Metrics

def linesOf (m : Metrics) (c : Counter) : List String :=
  ["# HELP " ++ c.name ++ " " ++ c.help, "# TYPE " ++ c.name ++ " counter"] ++
    (m.samples.filter fun e => e.1.counter = c).map fun e => e.1.line e.2

def lines (m : Metrics) : List String := Counter.all.flatMap m.linesOf

def page (m : Metrics) : String := String.join (m.lines.map (· ++ "\n"))

end Metrics

end QuotaWarden
