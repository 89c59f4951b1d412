/-!
# Command line arguments

Sorts the arguments of a command into options and positions. A long option may have its value behind
an equals sign, short ones may be written together, and `--` ends the options.
-/

namespace Widgetry

/-- An option of a command. -/
structure CommandOption where
  /-- all spellings, the first of which is its name -/
  names : List String
  takesValue : Bool := false

/-- The arguments of a command, sorted. -/
structure Arguments where
  /-- the options given, by name, in order; a switch has no value -/
  options : List (String × Option String) := []
  positions : List String := []

namespace Arguments

/-- The last value that an option was given. -/
def value? (a : Arguments) (name : String) : Option String :=
  ((a.options.filter (·.1 == name)).getLast?).bind (·.2)

/-- All values that an option was given. -/
def values (a : Arguments) (name : String) : List String :=
  (a.options.filter (·.1 == name)).filterMap (·.2)

def has (a : Arguments) (name : String) : Bool := a.options.any (·.1 == name)

def addOption (name : String) (value : Option String) (a : Arguments) : Arguments :=
  { a with options := (name, value) :: a.options }

/-- The option of a spelling. -/
def find? (known : List CommandOption) (spelling : String) : Option CommandOption :=
  known.find? fun o => o.names.contains spelling

/-- An option with what it was given. -/
abbrev GivenOption := String × Option String

/-- The options in letters that are written together; a value is the rest of the letters or else the
next argument. Also answers the arguments that are left. -/
def cluster? (known : List CommandOption) :
    List Char → List String → Option (List GivenOption × List String)
  | [], rest => some ([], rest)
  | c :: cs, rest => do
    let o ← find? known (String.ofList ['-', c])
    let name ← o.names.head?
    if o.takesValue then
      if !cs.isEmpty then return ([(name, some (String.ofList cs))], rest)
      match rest with
      | v :: rest => return ([(name, some v)], rest)
      | [] => none
    else
      let (more, rest) ← cluster? known cs rest
      return ((name, none) :: more, rest)

/-- The option that a spelling names, with the value behind its equals sign or the next argument. -/
def long? (o : CommandOption) (attached : Option String) (rest : List String) :
    Option (List GivenOption × List String) := do
  let name ← o.names.head?
  if o.takesValue then
    match attached, rest with
    | some v, _ => return ([(name, some v)], rest)
    | none, v :: rest => return ([(name, some v)], rest)
    | none, [] => none
  else if attached.isSome then none
  else return ([(name, none)], rest)

/-- The options in an argument that begins with a dash. Only behind a long spelling does an equals
sign set off a value. -/
def options? (known : List CommandOption) (arg : String) (rest : List String) :
    Option (List GivenOption × List String) :=
  let cs := arg.toList
  if arg.startsWith "--" then do
    let attached := match cs.dropWhile (· != '=') with
      | [] => none
      | _ :: v => some (String.ofList v)
    long? (← find? known (String.ofList (cs.takeWhile (· != '=')))) attached rest
  else cluster? known (cs.drop 1) rest

/-- Sorts arguments. Unless options may stand behind positions, the first position ends them. There
are no more steps than arguments. -/
def sort? (known : List CommandOption) (mixed : Bool) : Nat → List String → Option Arguments
  | _, [] => some {}
  | 0, _ => none
  | n + 1, arg :: rest => do
    if arg == "--" then return { positions := rest }
    else if arg.startsWith "-" && 1 < arg.length then
      let (given, rest) ← options? known arg rest
      let a ← sort? known mixed n rest
      return { a with options := given ++ a.options }
    else if mixed then
      let a ← sort? known mixed n rest
      return { a with positions := arg :: a.positions }
    else return { positions := arg :: rest }

end Arguments

/-- The arguments sorted by the options of a command; none if they do not fit. -/
def Arguments.of? (known : List CommandOption) (mixed : Bool) (args : List String) :
    Option Arguments :=
  sort? known mixed args.length args

end Widgetry
