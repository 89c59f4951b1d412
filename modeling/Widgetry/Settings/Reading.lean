import Widgetry.Json.Reader
import Widgetry.Settings.Assignments
import Widgetry.Settings.Basic
import Widgetry.Text.Sorted

/-!
# Reading settings

A setting may be given directly, by a variable of the environment, or by an assignment in a file,
and the first of these counts. Variables have the name of the setting behind `AUTO_UI_`, in letters
of either case, and their text stands for a value; that of a list is JSON.

All invalid settings are told at once, each by its name and, in a list, the index of the item.
-/

namespace Widgetry

inductive SettingsFault where
  /-- the places of the invalid values, sorted -/
  | invalid (places : List String)
  /-- a variable that ought to hold JSON does not -/
  | unreadable (name : String)
deriving DecidableEq, Repr

namespace Settings

/-! ## Values -/

def readText? : Value → Option String
  | .str s => some s
  | _ => none

/-- The truth value that a word stands for. -/
def truthOfWord? (word : String) : Option Bool :=
  if ["1", "on", "t", "true", "y", "yes"].contains word.toLower then some true
  else if ["0", "off", "f", "false", "n", "no"].contains word.toLower then some false
  else none

def truthOfWhole? (n : Int) : Option Bool :=
  if n = 0 then some false else if n = 1 then some true else none

def readTruth? : Value → Option Bool
  | .bool b => some b
  | .int n => truthOfWhole? n
  | .float x => (Binary64.toInt? x).bind truthOfWhole?
  | .str s => truthOfWord? s
  | _ => none

/-- Digits without a point behind them that only zeros follow. -/
def wholePart (cs : List Char) : List Char :=
  if ((cs.dropWhile (· != '.')).drop 1).all (· == '0') then cs.takeWhile (· != '.') else cs

/-- The whole number that a text stands for. -/
def wholeOfText? (s : String) : Option Int := do
  let digits ← Decimal.joined? (wholePart (Decimal.trim s.toList))
  if Decimal.digitLimit < digits.length then none else Decimal.signedValue digits

def readWhole? : Value → Option Int
  | .bool b => some (if b then 1 else 0)
  | .int n => some n
  | .float x =>
    (Binary64.toInt? x).filter fun n => decide (-0x8000000000000000 < n ∧ n < 0x8000000000000000)
  | .str s => wholeOfText? s
  | _ => none

/-- The number that a text stands for; words for what has no digits never pass a range. -/
def numberOfText? (s : String) : Option Float := do
  let digits ← Decimal.joined? (Decimal.trim s.toList)
  let n ← Decimal.notation? digits
  return n.value

def readNumber? : Value → Option Float
  | .bool b => some (if b then 1.0 else 0.0)
  | .int n => Binary64.ofInt? n
  | .float x => some x
  | .str s => numberOfText? s
  | _ => none

/-- The texts of a list, or the indexes of the items that are none. -/
def readTexts (items : List Value) : Except (List Nat) (List String) :=
  let wrong := items.zipIdx.filterMap fun p => if (readText? p.1).isSome then none else some p.2
  if wrong.isEmpty then .ok (items.filterMap readText?) else .error wrong

/-! ## Settings -/

/-- How one setting is read: the settings with a value, or the places in the value that are wrong. -/
structure Rule where
  name : String
  set : Settings → Value → Except (List String) Settings
  /-- whether the text of a variable is JSON -/
  json : Bool := false

/-- A setting whose value is read as a whole. -/
def simple {α : Type} (name : String) (read? : Value → Option α)
    (set : Settings → α → Settings) : Rule where
  name
  set s v := match read? v with
    | some a => .ok (set s a)
    | none => .error [name]

def positive? (v : Value) : Option Int := (readWhole? v).filter fun n => decide (0 < n)

def patternsRule : Rule where
  name := "watch_patterns"
  json := true
  set s v := match v with
    | .list items => match readTexts items with
      | .ok texts => .ok { s with watchPatterns := texts }
      | .error wrong => .error (wrong.map fun i => "watch_patterns." ++ i.repr)
    | _ => .error ["watch_patterns"]

def rules : List Rule :=
  [simple "log_level" readText? fun s v => { s with logLevel := v },
   simple "json_logs" readTruth? fun s v => { s with jsonLogs := v },
   simple "converter_policy" (fun v => (readText? v).bind Policy.ofName?) fun s v =>
    { s with converterPolicy := v },
   simple "extractor_policy" (fun v => (readText? v).bind Policy.ofName?) fun s v =>
    { s with extractorPolicy := v },
   simple "bridge_policy" (fun v => (readText? v).bind Policy.ofName?) fun s v =>
    { s with bridgePolicy := v },
   simple "max_view_depth" positive? fun s v => { s with maxViewDepth := v },
   simple "max_source_size" positive? fun s v => { s with maxSourceSize := v },
   simple "hot_reload" readTruth? fun s v => { s with hotReload := v },
   simple "watch_poll_interval" (fun v => (readNumber? v).filter fun x => 0.0 < x && x ≤ 10.0)
    fun s v => { s with watchPollInterval := v },
   patternsRule,
   simple "fingerprint_algorithm" (fun v => (readText? v).bind DigestAlgorithm.ofName?) fun s v =>
    { s with fingerprintAlgorithm := v },
   simple "indent_width" (fun v => (readWhole? v).filter fun n => decide (1 ≤ n ∧ n ≤ 8)) fun s v =>
    { s with indentWidth := v },
   simple "output_suffix" readText? fun s v => { s with outputSuffix := v }]

/-- What the names of all variables begin with. -/
def variablePrefix : String := "AUTO_UI_"

/-- What the variable for a setting holds; of several that differ in case the last one counts. -/
def variableValue? {α : Type} (known : List (String × α)) (name : String) : Option α :=
  (known.reverse.find? fun v => v.1.toLower == (variablePrefix ++ name).toLower).map (·.2)

/-- The value of a setting, if it has one. -/
def valueFor (rule : Rule) (given : List (String × Value)) (environment : List (String × String))
    (file : List Assignment) : Except SettingsFault (Option Value) :=
  match given.lookup rule.name with
  | some v => .ok (some v)
  | none =>
    match (variableValue? environment rule.name).orElse fun _ => (variableValue? file rule.name).join with
    | none => .ok none
    | some text =>
      if rule.json then match Json.read (Text.encode text) with
        | .ok v => .ok (some v)
        | .error _ => .error (.unreadable rule.name)
      else .ok (some (.str text))

/-- Reads settings one after the other and collects the places of what is invalid. -/
def readRules (given : List (String × Value)) (environment : List (String × String))
    (file : List Assignment) : List Rule → Settings → List String → Except SettingsFault (Settings × List String)
  | [], s, wrong => .ok (s, wrong)
  | rule :: rest, s, wrong => do
    match ← valueFor rule given environment file with
    | none => readRules given environment file rest s wrong
    | some v => match rule.set s v with
      | .ok s => readRules given environment file rest s wrong
      | .error places => readRules given environment file rest s (wrong ++ places)

/-- The settings that are given directly, by the environment, or by a file. -/
def read (given : List (String × Value)) (environment : List (String × String))
    (file : List Assignment) : Except SettingsFault Settings := do
  let (s, wrong) ← readRules given environment file rules {} []
  if wrong.isEmpty then return s else throw (.invalid (Text.sortedSet wrong))

/-- All settings by name. -/
def toData (s : Settings) : Value :=
  .object [
    (.str "log_level", .str s.logLevel), (.str "json_logs", .bool s.jsonLogs),
    (.str "converter_policy", .str s.converterPolicy.name),
    (.str "extractor_policy", .str s.extractorPolicy.name),
    (.str "bridge_policy", .str s.bridgePolicy.name),
    (.str "max_view_depth", .int s.maxViewDepth), (.str "max_source_size", .int s.maxSourceSize),
    (.str "hot_reload", .bool s.hotReload),
    (.str "watch_poll_interval", .float s.watchPollInterval),
    (.str "watch_patterns", .list (s.watchPatterns.map .str)),
    (.str "fingerprint_algorithm", .str s.fingerprintAlgorithm.name),
    (.str "indent_width", .int s.indentWidth), (.str "output_suffix", .str s.outputSuffix)]

end Settings

end Widgetry
