import Widgetry.Language.Error
import Widgetry.Language.Syntax
import Widgetry.Value.Store

/-!
# The state of a running program

A `Machine` is all that running code can change: the variables of the program, those of the
functions being run, the tables of fields, what was printed, and the children collected for the
node whose body is being run. A `Run` is a computation on it that may halt; what it changed before
it halted stays changed.
-/

namespace Widgetry

/-- Names with their values; some may not be assigned to again. -/
structure Scope where
  values : Fields := []
  consts : List String := []
deriving Inhabited

namespace Scope

def get? (s : Scope) (name : String) : Option Value := s.values.get? name

/-- Gives a name a value; whether it may be assigned to again does not change. -/
def store (s : Scope) (name : String) (v : Value) : Scope :=
  { s with values := s.values.put name v }

/-- Declares a name. -/
def declare (s : Scope) (name : String) (v : Value) (mutable : Bool) : Scope where
  values := s.values.put name v
  consts := if mutable then s.consts.filter (· != name)
    else if s.consts.contains name then s.consts else name :: s.consts

/-- The scope of a call; parameters without an argument have no value. -/
def ofParams (params : List String) (args : List Value) : Scope where
  values := Fields.ofPairs (go params args)
where
  go : List String → List Value → List (String × Value)
    | [], _ => []
    | p :: ps, [] => (p, .nil) :: go ps []
    | p :: ps, a :: as => (p, a) :: go ps as

end Scope

/-- All that running code can change. -/
structure Machine where
  globals : Scope := {}
  /-- the scopes of the running function, the innermost first -/
  locals : List Scope := []
  store : Store := {}
  output : Array String := #[]
  /-- the nodes made so far in the body of a node, if one is being run -/
  children : Option (List Node) := none

/-- Why a computation ended early. -/
inductive Halt where
  | fault (f : Fault)
  /-- calls or expressions nest too deep -/
  | tooDeep

/-- The fault that a halt becomes outside the machine; nesting too deep gets a place there. -/
def Halt.settle (place : Place) : Halt → Fault
  | .fault f => f
  | .tooDeep => .source ⟨.evaluation, .recursionTooDeep, place⟩

/-- A computation on the machine. -/
def Run (α : Type) : Type := Machine → Except Halt α × Machine

namespace Run

variable {α β : Type}

instance : Monad Run where
  pure a := fun m => (.ok a, m)
  bind x f := fun m => match x m with
    | (.ok a, m') => f a m'
    | (.error e, m') => (.error e, m')

def get : Run Machine := fun m => (.ok m, m)

def modify (f : Machine → Machine) : Run Unit := fun m => (.ok (), f m)

def halt (h : Halt) : Run α := fun m => (.error h, m)

/-- Halts with an evaluation error at a line. -/
def fail (cause : Cause) (line : Option Nat) : Run α :=
  halt (.fault (.source (.evaluation cause line)))

def ofExcept : Except Fault α → Run α
  | .ok a => pure a
  | .error f => halt (.fault f)

/-! What one step does to a machine. -/

@[simp] theorem run_pure (a : α) (m : Machine) : (pure a : Run α) m = (.ok a, m) := rfl

@[simp] theorem run_get (m : Machine) : get m = (.ok m, m) := rfl

@[simp] theorem run_modify (f : Machine → Machine) (m : Machine) :
    modify f m = (.ok (), f m) := rfl

@[simp] theorem run_halt (h : Halt) (m : Machine) : (halt h : Run α) m = (.error h, m) := rfl

theorem run_bind (x : Run α) (f : α → Run β) (m : Machine) :
    (x >>= f) m = match x m with
      | (.ok a, m') => f a m'
      | (.error e, m') => (.error e, m') := rfl

theorem run_bind_ok {x : Run α} {f : α → Run β} {m m' : Machine} {a : α}
    (h : x m = (.ok a, m')) : (x >>= f) m = f a m' := by
  rw [run_bind, h]

theorem run_bind_error {x : Run α} {f : α → Run β} {m m' : Machine} {h : Halt}
    (hx : x m = (.error h, m')) : (x >>= f) m = (.error h, m') := by
  rw [run_bind, hx]

/-- A sequence that came to a result went through one of its first part. -/
theorem run_bind_eq_ok {x : Run α} {f : α → Run β} {m m' : Machine} {b : β} :
    (x >>= f) m = (.ok b, m') ↔ ∃ a m₁, x m = (.ok a, m₁) ∧ f a m₁ = (.ok b, m') := by
  rw [run_bind]
  constructor
  · intro h
    rcases hx : x m with ⟨r, m₁⟩
    rw [hx] at h
    cases r with
    | error e => cases h
    | ok a => exact ⟨a, m₁, rfl, h⟩
  · rintro ⟨a, m₁, hx, hf⟩
    rw [hx]
    exact hf

/-- A sequence that halted did so in its first part, or behind it. -/
theorem run_bind_eq_error {x : Run α} {f : α → Run β} {m m' : Machine} {h : Halt} :
    (x >>= f) m = (.error h, m') ↔
      x m = (.error h, m') ∨ ∃ a m₁, x m = (.ok a, m₁) ∧ f a m₁ = (.error h, m') := by
  constructor
  · intro hrun
    rw [run_bind] at hrun
    rcases hx : x m with ⟨e | a, m₁⟩
    · rw [hx] at hrun
      cases hrun
      exact .inl rfl
    · rw [hx] at hrun
      exact .inr ⟨a, m₁, rfl, hrun⟩
  · rintro (hx | ⟨a, m₁, hx, hf⟩)
    · exact run_bind_error hx
    · exact (run_bind_ok hx).trans hf

/-- Runs a computation for each item of a list, in order. -/
def each (f : α → Run β) : List α → Run (List β)
  | [] => pure []
  | a :: rest => do
    let b ← f a
    let bs ← each f rest
    return b :: bs

/-- Runs a computation for each item and keeps the result of the last. -/
def last (f : α → Run Value) : Value → List α → Run Value
  | v, [] => pure v
  | _, a :: rest => do
    let v ← f a
    last f v rest

theorem last_singleton (f : α → Run Value) (v : Value) (a : α) : last f v [a] = f a := by
  funext m
  show (f a >>= fun v => pure v) m = f a m
  rw [run_bind]
  rcases f a m with ⟨_ | _, _⟩ <;> rfl

/-- The last of some computations is run after all others. -/
theorem last_concat (f : α → Run Value) (l : List α) (a : α) :
    ∀ u, last f u (l ++ [a]) = (do
      let _ ← last f u l
      f a) := by
  induction l with
  | nil =>
    intro u
    exact last_singleton f u a
  | cons b rest ih =>
    intro u
    funext m
    show (f b >>= fun v => last f v (rest ++ [a])) m
      = ((f b >>= fun v => last f v rest) >>= fun _ => f a) m
    rw [run_bind, run_bind, run_bind]
    rcases f b m with ⟨r, m'⟩
    cases r with
    | error e => rfl
    | ok v =>
      dsimp only
      rw [ih v, run_bind]

/-- The first item for which a test comes out true. -/
def firstWhere (test : α → Run Bool) : List α → Run (Option α)
  | [] => pure none
  | a :: rest => do
    if ← test a then return some a else firstWhere test rest

/-- Runs in a scope of its own inside the scopes of the function. -/
def inScope (s : Scope) (x : Run α) : Run α := do
  modify fun m => { m with locals := s :: m.locals }
  let a ← x
  modify fun m => { m with locals := m.locals.tail }
  return a

/-- Runs the body of a function, which sees no scope of its caller and makes no child for it.
However the body ends, the caller has its own scopes and children again. -/
def inCall (s : Scope) (x : Run α) : Run α := fun m =>
  let r := x { m with locals := [s], children := none }
  (r.1, { r.2 with locals := m.locals, children := m.children })

/-- A call that came to a result ran its body to that result. -/
theorem inCall_eq_ok {s : Scope} {x : Run α} {m m' : Machine} {a : α}
    (h : inCall s x m = (.ok a, m')) :
    ∃ m₁, x { m with locals := [s], children := none } = (.ok a, m₁) ∧
      m' = { m₁ with locals := m.locals, children := m.children } := by
  obtain ⟨hr, hm⟩ := Prod.mk.inj h
  exact ⟨_, Prod.ext hr rfl, hm.symm⟩

/-- Runs the body of a node and answers the children that it made. -/
def collecting (x : Run Value) : Run (List Node) := do
  let before ← get
  modify fun m => { m with children := some [] }
  let _ ← inScope {} x
  let after ← get
  modify fun m => { m with children := before.children }
  return after.children.getD []

/-- Adds a value to the children of the node being made, if it is a node. -/
def collect : Value → Run Unit
  | .node n => modify fun m => { m with children := m.children.map (· ++ [n]) }
  | _ => pure ()

end Run

end Widgetry
