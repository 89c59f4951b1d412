import Widgetry.Language.Machine
import Widgetry.Language.Operation

/-!
# Running programs

The meaning of expressions and statements, as computations on the machine. All of them take how
much deeper they may nest; `evaluationLimit` is what a program starts with.

A name is looked up in the scopes of the running function, then in the fields of its widget if it
is a method, then in the variables of the program. `self` in a method is the table of fields
itself: who holds it sees every later write.
-/

namespace Widgetry

/-- What running code sees of its surroundings. -/
structure Context where
  code : Code
  /-- the widget whose method is being run -/
  widget : Option String := none
  /-- the table of its fields -/
  fields : Option TableId := none

namespace Code

/-- The type of a name; of several declarations the last one counts. -/
def type? (c : Code) (name : String) : Option TypeDecl :=
  c.types.reverse.find? (·.name == name)

/-- The function of a name; of several declarations the last one counts. -/
def function? (c : Code) (name : String) : Option FnDecl :=
  c.functions.reverse.find? (·.name == name)

end Code

namespace Context

/-- The method of a name that the running widget has. -/
def method? (c : Context) (name : String) : Option FnDecl := do
  let widget ← c.widget
  let decl ← c.code.type? widget
  decl.method? name

/-- What a called method sees: the widget of its caller. -/
def ofMethod (c : Context) : Context := c

/-- What a called function sees: no widget. -/
def ofFunction (c : Context) : Context := { code := c.code }

end Context

/-- Where the value of a name lives. -/
inductive Slot where
  /-- so many scopes out from the innermost -/
  | inner (index : Nat)
  | field (table : TableId)
  | global

namespace Machine

/-- Where a name is found. -/
def slot? (m : Machine) (c : Context) (name : String) : Option Slot :=
  match m.locals.findIdx? (fun s => (s.get? name).isSome) with
  | some i => some (.inner i)
  | none =>
    match c.fields with
    | some t =>
      if (m.store.get t).has name then some (.field t)
      else if (m.globals.get? name).isSome then some .global else none
    | none => if (m.globals.get? name).isSome then some .global else none

/-- The value of a name in its slot. -/
def load (m : Machine) (name : String) : Slot → Value
  | .inner i => ((m.locals[i]?.getD {}).get? name).getD .nil
  | .field t => ((m.store.get t).get? name).getD .nil
  | .global => (m.globals.get? name).getD .nil

/-- Gives the name in a slot a value. -/
def save (m : Machine) (name : String) (v : Value) : Slot → Machine
  | .inner i => { m with locals := m.locals.modify i (·.store name v) }
  | .field t => { m with store := m.store.set t ((m.store.get t).put name v) }
  | .global => { m with globals := m.globals.store name v }

/-- Whether the name in a slot may not be assigned to. -/
def isConst (m : Machine) (name : String) : Slot → Bool
  | .inner i => (m.locals[i]?.getD {}).consts.contains name
  | .field _ => false
  | .global => m.globals.consts.contains name

/-- Declares a name in the innermost scope. -/
def declare (m : Machine) (name : String) (v : Value) (mutable : Bool) : Machine :=
  match m.locals with
  | [] => { m with globals := m.globals.declare name v mutable }
  | s :: rest => { m with locals := s.declare name v mutable :: rest }

/-- The items that a loop over a value goes through. -/
def items? : Value → Option (List Value)
  | .list items => some items
  | .str s => some (s.toList.map fun c => .str c.toString)
  | _ => none

/-- How many parts a value has, if it has parts. -/
def length? (m : Machine) : Value → Option Nat
  | .str s => some s.length
  | .list items => some items.length
  | .object entries => some entries.length
  | .live t => some (m.store.get t).length
  | .node n => some n.children.length
  | _ => none

end Machine

/-- The functions that are always there. -/
def builtins : List String := ["str", "len", "print"]

namespace Run

/-- The text that a program prints for a value. -/
def display (v : Value) : Run String := do
  let m ← get
  ofExcept (Fault.ofNumber (m.store.read v).display)

/-- Calls a built-in function. -/
def builtin (name : String) (args : List Value) (line : Nat) : Run Value := do
  if name == "str" then
    match args with
    | [] => return .str ""
    | v :: _ => return .str (← display v)
  else if name == "len" then
    match args with
    | [v] =>
      let m ← get
      match m.length? v with
      | some n => return .int n
      | none => fail (.lenType v.typeName) line
    | _ => fail .lenArity line
  else
    let texts ← each display args
    modify fun m => { m with output := m.output.push (" ".intercalate texts) }
    return .nil

/-- The value of a name. -/
def valueOf (c : Context) (name : String) (line : Nat) : Run Value := do
  match name == "self", c.fields with
  | true, some t => return .live t
  | _, _ =>
    let m ← get
    match m.slot? c name with
    | some slot => return m.load name slot
    | none => fail (.undefinedName name) line

/-- A part of a value. -/
def memberOf (v : Value) (name : String) (line : Nat) : Run Value := do
  match v with
  | .object entries =>
    match Entries.find? (.str name) entries with
    | some w => return w
    | none => fail (.unknownField name) line
  | .live t =>
    let m ← get
    match (m.store.get t).get? name with
    | some w => return w
    | none => fail (.unknownField name) line
  | .node n => return (n.prop? name).getD .nil
  | .str s => if name == "len" then return .int s.length else fail (.noMember v.typeName name) line
  | .list items =>
    if name == "len" then return .int items.length else fail (.noMember v.typeName name) line
  | _ => fail (.noMember v.typeName name) line

/-- Where an assignment writes to. -/
def targetSlot (c : Context) (target : Target) (line : Nat) : Run Slot := do
  let m ← get
  match target with
  | .member obj name _ =>
    if obj.isSelf then
      match c.fields with
      | some t =>
        if (m.store.get t).has name then return .field t else fail (.unknownField name) line
      | none => fail (.unknownField name) line
    else fail .foreignTarget line
  | .name name _ =>
    match m.slot? c name with
    | none => fail (.undefinedName name) line
    | some slot => if m.isConst name slot then fail (.immutable name) line else return slot

/-- What `Msg.name` stands for: the event of that name of the running widget, unless the program
uses the name `Msg` for something of its own. -/
def eventOf (c : Context) (name : String) (line : Nat) : Run Value := do
  let m ← get
  match m.slot? c "Msg" with
  | some slot => memberOf (m.load "Msg" slot) name line
  | none => return .str ((c.widget.getD "Msg") ++ "." ++ name)

/-- An infix operator on two values. -/
def operate (op : BinaryOp) (a b : Value) (line : Nat) : Run Value := do
  let m ← get
  ofExcept (applyBinary m.store op a b (some line))

/-- An assignment: its target is looked up before its value is worked out. -/
def assign (c : Context) (target : Target) (op : AssignOp) (value : Run Value) (line : Nat) :
    Run Value := do
  let slot ← targetSlot c target line
  let v ← value
  let m ← get
  match op.binary? with
  | none => modify fun m => m.save target.label v slot
  | some op =>
    let w ← ofExcept (applyBinary m.store op (m.load target.label slot) v (some line))
    modify fun m => m.save target.label w slot
  return .nil

/-- Whether two values are equal now. -/
def same (a b : Value) : Run Bool := do
  let m ← get
  return (m.store.read a).same (m.store.read b)

/-- Whether a pattern takes a value; no pattern takes every value. -/
def takes (meaning : Expr → Run Value) (v : Value) : Option Expr → Run Bool
  | none => pure true
  | some p => do
    let w ← meaning p
    same w v

end Run

/-- The properties of a node by name; of several of one name the last value counts. -/
def propEntries (names : List String) (values : List Value) : List (Key × Value) :=
  Entries.ofPairs ((names.map Scalar.str).zip values)

open Run

mutual

def eval : Nat → Context → Expr → Run Value
  | 0, _, _ => halt .tooDeep
  | d + 1, c, e =>
    match e with
    | .literal s _ => pure (.scalar s)
    | .array items _ => do
      let vs ← each (eval d c) items
      return .list vs
    | .ident name line => valueOf c name line
    | .unary op operand line => do
      let v ← eval d c operand
      ofExcept (applyUnary op v (some line))
    | .binary .and left right _ => do
      let a ← eval d c left
      if a.truthy then
        let b ← eval d c right
        return .bool b.truthy
      else return .bool false
    | .binary .or left right _ => do
      let a ← eval d c left
      if a.truthy then return .bool true
      else
        let b ← eval d c right
        return .bool b.truthy
    | .binary op left right line => do
      let a ← eval d c left
      let b ← eval d c right
      operate op a b line
    | .member (.ident "Msg" _) name line => eventOf c name line
    | .member obj name line => do
      let v ← eval d c obj
      memberOf v name line
    | .call (.member obj name _) args line =>
      if obj.isSelf then callMethod d c name args line else fail .notCallable line
    | .call (.ident name _) args line => do
      let vs ← each (eval d c) args
      if builtins.contains name then builtin name vs line
      else match c.code.function? name with
        | some fn => call d c.ofFunction fn vs
        | none =>
          match c.method? name with
          | some fn => call d c.ofMethod fn vs
          | none => return .node (.named name vs [] [])
    | .call _ _ line => fail .notCallable line
    | .node kind args props body _ => do
      let vs ← each (eval d c) args
      let ps ← each (fun p : Property => eval d c p.value) props
      let children ← if body.isEmpty then pure [] else collecting (last (exec d c) .nil body)
      return .node (.named kind vs (propEntries (props.map (·.name)) ps) children)

/-- Calls a method of the running widget by name. -/
def callMethod : Nat → Context → String → List Expr → Nat → Run Value
  | 0, _, _, _, _ => halt .tooDeep
  | d + 1, c, name, args, line =>
    match c.method? name with
    | none => fail (.unknownMethod name) line
    | some fn => do
      let vs ← each (eval d c) args
      call d c.ofMethod fn vs

/-- Runs the body of a function on its arguments; the last statement gives the result. -/
def call : Nat → Context → FnDecl → List Value → Run Value
  | 0, _, _, _ => halt .tooDeep
  | d + 1, c, fn, args =>
    inCall (.ofParams fn.paramNames args) (last (exec d c) .nil fn.body)

def exec : Nat → Context → Stmt → Run Value
  | 0, _, _ => halt .tooDeep
  | d + 1, c, s =>
    match s with
    | .expr e _ => do
      let v ← eval d c e
      collect v
      return v
    | .bind name value _ mutable _ => do
      let v ← eval d c value
      modify fun m => m.declare name v mutable
      return .nil
    | .assign target op value line => assign c target op (eval d c value) line
    | .choose subject arms _ => do
      let v ← eval d c subject
      let taken ← firstWhere (fun arm : Arm => takes (eval d c) v arm.pattern) arms
      match taken with
      | some arm => inScope {} (last (exec d c) .nil arm.body)
      | none => return .nil
    | .each name items body line => do
      let v ← eval d c items
      match Machine.items? v with
      | none => fail (.notIterable v.typeName) line
      | some vs =>
        let _ ← each (fun item =>
          inScope { values := [(name, item)] } (last (exec d c) .nil body)) vs
        return .nil
    | .fn decl => fail .nestedDeclaration decl.line
    | .type decl => fail .nestedDeclaration decl.line

end

/-- How deep calls and expressions may nest. -/
def evaluationLimit : Nat := 2000

end Widgetry
