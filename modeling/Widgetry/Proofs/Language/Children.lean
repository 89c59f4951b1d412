import Widgetry.Language.Evaluation

/-!
# The children of a node

The children of a node are gathered in the machine while the body of the node is run. Here they are
told from the body alone: `Stmt.values` runs a statement and answers the values of the expression
statements in it, without gathering anything.

> `node_children`: a node expression has for children the nodes among the values of the expression
> statements that are run in its body itself, in the arms and rounds in it included, in the order in
> which they are run. An expression takes no part in this: whatever it calls and whatever nodes it
> makes, it sees nothing of what is gathered around it and adds nothing.

A computation that is `Aside` leaves alone what is gathered. A call is, whatever its body does, and
so is the body of a node: each begins with children of its own, and ends with those of before.
-/

namespace Widgetry

/-- The machine with other children gathered so far. -/
def Machine.holding (m : Machine) (children : Option (List Node)) : Machine :=
  { m with children := children }

/-- The node that a value is. -/
def Value.node? : Value → Option Node
  | .node n => some n
  | _ => none

/-- The nodes among some values. -/
def Value.nodes (values : List Value) : List Node := values.filterMap Value.node?

/-- Runs a computation for each item, in order, and puts together the lists that it answers. -/
def Run.joined {α β : Type} (f : α → Run (List β)) : List α → Run (List β)
  | [] => pure []
  | a :: rest => do
    let bs ← f a
    let more ← joined f rest
    return bs ++ more

open Run

/-- Runs a statement and answers the values of the expression statements in it that are run: its
own, or those in an arm or in the rounds of a loop. Nothing is gathered. -/
def Stmt.values : Nat → Context → Stmt → Run (List Value)
  | 0, _, _ => halt .tooDeep
  | d + 1, c, s =>
    match s with
    | .expr e _ => do
      let v ← eval d c e
      return [v]
    | .choose subject arms _ => do
      let v ← eval d c subject
      let taken ← firstWhere (fun arm : Arm => takes (eval d c) v arm.pattern) arms
      match taken with
      | some arm => inScope {} (joined (Stmt.values d c) arm.body)
      | none => return []
    | .each name items body line => do
      let v ← eval d c items
      match Machine.items? v with
      | none => fail (.notIterable v.typeName) line
      | some vs => joined (fun item =>
          inScope { values := [(name, item)] } (joined (Stmt.values d c) body)) vs
    | _ => do
      let _ ← exec (d + 1) c s
      return []

/-- The values of the expression statements that are run in a body. -/
def bodyValues (d : Nat) (c : Context) (body : List Stmt) : Run (List Value) :=
  joined (Stmt.values d c) body

namespace Run

variable {α β : Type}

/-- Whether a computation does the same whatever was gathered, and leaves that as it is. -/
structure Aside (x : Run α) : Prop where
  ok {m m' : Machine} {a : α} : x m = (.ok a, m') →
    ∀ children, x (m.holding children) = (.ok a, m'.holding children)
  error {m m' : Machine} {h : Halt} : x m = (.error h, m') →
    ∀ children, ∃ m'', x (m.holding children) = (.error h, m'')

/-- Whether a computation does what another one does, which gathers nothing, and gathers the nodes
among the values that this one answers. -/
structure Gathers (x : Run α) (y : Run (List Value)) : Prop where
  kept {m m' : Machine} {vs : List Value} : y m = (.ok vs, m') → m'.children = m.children
  ok {m m' : Machine} {vs : List Value} : y m = (.ok vs, m') →
    ∀ children, ∃ a, x (m.holding children)
      = (.ok a, m'.holding (children.map (· ++ Value.nodes vs)))
  error {m m' : Machine} {h : Halt} : y m = (.error h, m') →
    ∀ children, ∃ m'', x (m.holding children) = (.error h, m'')

/-! ## What takes no part -/

theorem aside_pure (a : α) : Aside (pure a) where
  ok h children := by
    cases h
    rfl
  error := nofun

theorem aside_halt (h : Halt) : Aside (halt h : Run α) where
  ok := nofun
  error h children := by
    cases h
    exact ⟨_, rfl⟩

theorem aside_fail (cause : Cause) (line : Option Nat) : Aside (fail cause line : Run α) :=
  aside_halt _

theorem aside_bind {x : Run α} {f : α → Run β} (hx : Aside x) (hf : ∀ a, Aside (f a)) :
    Aside (x >>= f) where
  ok h children := by
    obtain ⟨a, m₁, hrun, hrest⟩ := run_bind_eq_ok.mp h
    rw [run_bind_ok (hx.ok hrun children)]
    exact (hf a).ok hrest children
  error h children := by
    obtain hrun | ⟨a, m₁, hrun, hrest⟩ := run_bind_eq_error.mp h
    · obtain ⟨m', hrun'⟩ := hx.error hrun children
      exact ⟨m', run_bind_error hrun'⟩
    · rw [run_bind_ok (hx.ok hrun children)]
      exact (hf a).error hrest children

/-- What is done with the machine must not depend on what is gathered. -/
theorem aside_get {f : Machine → Run α} (h : ∀ m children, f (m.holding children) = f m)
    (hf : ∀ m, Aside (f m)) : Aside (get >>= f) where
  ok {m _ _} hrun children := by
    rw [run_bind_ok (run_get _), h]
    exact (hf m).ok hrun children
  error {m _ _} hrun children := by
    rw [run_bind_ok (run_get _), h]
    exact (hf m).error hrun children

theorem aside_modify {f : Machine → Machine}
    (h : ∀ m children, f (m.holding children) = (f m).holding children) : Aside (modify f) where
  ok hrun children := by
    cases hrun
    rw [run_modify, h]
  error := nofun

theorem aside_ofExcept (x : Except Fault α) : Aside (ofExcept x) := by
  cases x with
  | ok a => exact aside_pure a
  | error f => exact aside_halt _

theorem aside_each {f : α → Run β} (hf : ∀ a, Aside (f a)) : ∀ l : List α, Aside (each f l)
  | [] => aside_pure _
  | a :: rest => aside_bind (hf a) fun _ => aside_bind (aside_each hf rest) fun _ => aside_pure _

theorem aside_firstWhere {test : α → Run Bool} (h : ∀ a, Aside (test a)) :
    ∀ l : List α, Aside (firstWhere test l)
  | [] => aside_pure _
  | a :: rest => by
    refine aside_bind (h a) fun found => ?_
    cases found with
    | true => exact aside_pure _
    | false => exact aside_firstWhere h rest

/-- The body of a function gathers for nothing. -/
theorem aside_inCall (s : Scope) (x : Run α) : Aside (inCall s x) where
  ok {m m' a} hrun children := by
    obtain ⟨m₁, hx, rfl⟩ := inCall_eq_ok hrun
    have hx' : x { m.holding children with locals := [s], children := none } = (.ok a, m₁) := hx
    rw [inCall, hx']
    rfl
  error {m m' h} hrun children := by
    have hx : (x { m.holding children with locals := [s], children := none }).1 = .error h :=
      (Prod.mk.inj hrun).1
    exact ⟨_, Prod.ext hx rfl⟩

/-- The body of a node gathers for that node alone. -/
theorem aside_collecting (x : Run Value) : Aside (collecting x) where
  ok {m m' ns} hrun children := by
    obtain ⟨_, _, ⟨⟩, hrun⟩ := run_bind_eq_ok.mp hrun
    obtain ⟨_, _, ⟨⟩, hrun⟩ := run_bind_eq_ok.mp hrun
    obtain ⟨v, m₁, hbody, hrun⟩ := run_bind_eq_ok.mp hrun
    have hbody' : inScope {} x { m.holding children with children := some [] } = (.ok v, m₁) :=
      hbody
    cases hrun
    rw [collecting, run_bind_ok (run_get _), run_bind_ok (run_modify _ _), run_bind_ok hbody']
    rfl
  error {m m' h} hrun children := by
    obtain hrun | ⟨_, _, ⟨⟩, hrun⟩ := run_bind_eq_error.mp hrun
    · cases hrun
    obtain hrun | ⟨_, _, ⟨⟩, hrun⟩ := run_bind_eq_error.mp hrun
    · cases hrun
    obtain hbody | ⟨v, m₁, -, hrun⟩ := run_bind_eq_error.mp hrun
    · have hbody' : inScope {} x { m.holding children with children := some [] }
          = (.error h, m') := hbody
      rw [collecting, run_bind_ok (run_get _), run_bind_ok (run_modify _ _)]
      exact ⟨m', run_bind_error hbody'⟩
    · cases hrun

/-! ### The steps of running code -/

theorem aside_memberOf (v : Value) (name : String) (line : Nat) :
    Aside (memberOf v name line) := by
  unfold memberOf
  split
  · split
    · exact aside_pure _
    · exact aside_fail _ _
  · refine aside_get (fun _ _ => rfl) fun m => ?_
    split
    · exact aside_pure _
    · exact aside_fail _ _
  · exact aside_pure _
  · split
    · exact aside_pure _
    · exact aside_fail _ _
  · split
    · exact aside_pure _
    · exact aside_fail _ _
  · exact aside_fail _ _

theorem aside_valueOf (c : Context) (name : String) (line : Nat) :
    Aside (valueOf c name line) := by
  unfold valueOf
  split
  · exact aside_pure _
  · refine aside_get (fun _ _ => rfl) fun m => ?_
    split
    · exact aside_pure _
    · exact aside_fail _ _

theorem aside_eventOf (c : Context) (name : String) (line : Nat) :
    Aside (eventOf c name line) := by
  refine aside_get (fun _ _ => rfl) fun m => ?_
  split
  · exact aside_memberOf _ _ _
  · exact aside_pure _

theorem aside_display (v : Value) : Aside (display v) :=
  aside_get (fun _ _ => rfl) fun _ => aside_ofExcept _

theorem aside_builtin (name : String) (args : List Value) (line : Nat) :
    Aside (builtin name args line) := by
  unfold builtin
  split
  · split
    · exact aside_pure _
    · exact aside_bind (aside_display _) fun _ => aside_pure _
  · split
    · split
      · refine aside_get (fun _ _ => rfl) fun m => ?_
        split
        · exact aside_pure _
        · exact aside_fail _ _
      · exact aside_fail _ _
    · refine aside_bind (aside_each aside_display args) fun texts => ?_
      exact aside_bind (aside_modify fun _ _ => rfl) fun _ => aside_pure _

theorem aside_operate (op : BinaryOp) (a b : Value) (line : Nat) : Aside (operate op a b line) :=
  aside_get (fun _ _ => rfl) fun _ => aside_ofExcept _

theorem aside_takes {meaning : Expr → Run Value} (h : ∀ e, Aside (meaning e)) (v : Value)
    (pattern : Option Expr) : Aside (takes meaning v pattern) := by
  cases pattern with
  | none => exact aside_pure _
  | some p => exact aside_bind (h p) fun w => aside_get (fun _ _ => rfl) fun _ => aside_pure _

theorem aside_targetSlot (c : Context) (target : Target) (line : Nat) :
    Aside (targetSlot c target line) := by
  refine aside_get (fun _ _ => rfl) fun m => ?_
  split
  · split
    · split
      · split
        · exact aside_pure _
        · exact aside_fail _ _
      · exact aside_fail _ _
    · exact aside_fail _ _
  · split
    · exact aside_fail _ _
    · split
      · exact aside_fail _ _
      · exact aside_pure _

theorem aside_save (name : String) (v : Value) (slot : Slot) :
    Aside (modify fun m => m.save name v slot) := by
  refine aside_modify fun m children => ?_
  cases slot <;> rfl

theorem aside_declare (name : String) (v : Value) (mutable : Bool) :
    Aside (modify fun m => m.declare name v mutable) := by
  refine aside_modify fun m children => ?_
  obtain ⟨globals, _ | ⟨s, rest⟩, store, output, gathered⟩ := m <;> rfl

theorem aside_assign (c : Context) (target : Target) (op : AssignOp) {x : Run Value} (line : Nat)
    (hx : Aside x) : Aside (assign c target op x line) := by
  refine aside_bind (aside_targetSlot c target line) fun slot => aside_bind hx fun v => ?_
  refine aside_get (fun m children => ?_) fun m => ?_
  · cases slot <;> rfl
  · split
    · exact aside_bind (aside_save _ _ _) fun _ => aside_pure _
    · exact aside_bind (aside_ofExcept _) fun _ => aside_bind (aside_save _ _ _) fun _ =>
        aside_pure _

end Run

/-! ## Expressions -/

/-- Whether expressions and calls of a depth take no part. -/
structure EvalAside (d : Nat) : Prop where
  eval (c : Context) (e : Expr) : Aside (eval d c e)
  callMethod (c : Context) (name : String) (args : List Expr) (line : Nat) :
    Aside (callMethod d c name args line)

theorem aside_call (d : Nat) (c : Context) (fn : FnDecl) (args : List Value) :
    Aside (call d c fn args) := by
  cases d with
  | zero => exact aside_halt _
  | succ d => exact aside_inCall _ _

theorem aside_eval_succ {d : Nat} (ih : EvalAside d) (c : Context) (e : Expr) :
    Aside (eval (d + 1) c e) := by
  rw [eval.eq_def]
  dsimp only
  split
  case h_1 => exact aside_pure _
  case h_2 => exact aside_bind (aside_each (ih.eval c) _) fun _ => aside_pure _
  case h_3 => exact aside_valueOf _ _ _
  case h_4 => exact aside_bind (ih.eval c _) fun _ => aside_ofExcept _
  -- a truth value on the left may decide, and then the right side is not run
  case h_5 =>
    refine aside_bind (ih.eval c _) fun a => ?_
    split
    · exact aside_bind (ih.eval c _) fun _ => aside_pure _
    · exact aside_pure _
  case h_6 =>
    refine aside_bind (ih.eval c _) fun a => ?_
    split
    · exact aside_pure _
    · exact aside_bind (ih.eval c _) fun _ => aside_pure _
  case h_7 =>
    exact aside_bind (ih.eval c _) fun _ => aside_bind (ih.eval c _) fun _ => aside_operate _ _ _ _
  case h_8 => exact aside_eventOf _ _ _
  case h_9 => exact aside_bind (ih.eval c _) fun _ => aside_memberOf _ _ _
  case h_10 =>
    split
    · exact ih.callMethod _ _ _ _
    · exact aside_fail _ _
  -- a call is one of a built-in function, of a function, of a method, or it makes a node
  case h_11 =>
    refine aside_bind (aside_each (ih.eval c) _) fun vs => ?_
    split
    · exact aside_builtin _ _ _
    · split
      · exact aside_call _ _ _ _
      · split
        · exact aside_call _ _ _ _
        · exact aside_pure _
  case h_12 => exact aside_fail _ _
  case h_13 =>
    refine aside_bind (aside_each (ih.eval c) _) fun vs => ?_
    refine aside_bind (aside_each (fun p : Property => ih.eval c p.value) _) fun ps => ?_
    split
    · exact aside_bind (aside_pure _) fun _ => aside_pure _
    · exact aside_bind (aside_collecting _) fun _ => aside_pure _

theorem evalAside (d : Nat) : EvalAside d := by
  induction d with
  | zero => exact ⟨fun _ _ => aside_halt _, fun _ _ _ _ => aside_halt _⟩
  | succ d ih =>
    refine ⟨aside_eval_succ ih, fun c name args line => ?_⟩
    rw [callMethod]
    split
    · exact aside_fail _ _
    · exact aside_bind (aside_each (ih.eval c) _) fun _ => aside_call _ _ _ _

/-! ## Statements -/

namespace Run

variable {α β : Type}

theorem Aside.kept {x : Run α} (hx : Aside x) {m m' : Machine} {a : α}
    (h : x m = (.ok a, m')) : m'.children = m.children := by
  have hm : x m = (.ok a, m'.holding m.children) := hx.ok h m.children
  rw [h] at hm
  exact congrArg (fun r => r.2.children) hm

/-- No values are no nodes. -/
theorem map_append_nodes_nil (children : Option (List Node)) :
    children.map (· ++ Value.nodes []) = children := by
  simp [Value.nodes]

theorem gathers_pure (a : α) : Gathers (pure a) (pure []) where
  kept h := by
    cases h
    rfl
  ok h children := by
    cases h
    exact ⟨a, by rw [map_append_nodes_nil, run_pure]⟩
  error := nofun

theorem gathers_halt (h : Halt) : Gathers (halt h : Run α) (halt h) where
  kept := nofun
  ok := nofun
  error h children := by
    cases h
    exact ⟨_, rfl⟩

/-- What takes no part may come first. -/
theorem gathers_after {x : Run α} {f : α → Run β} {g : α → Run (List Value)} (hx : Aside x)
    (hf : ∀ a, Gathers (f a) (g a)) : Gathers (x >>= f) (x >>= g) where
  kept h := by
    obtain ⟨a, m₁, hrun, hrest⟩ := run_bind_eq_ok.mp h
    exact ((hf a).kept hrest).trans (hx.kept hrun)
  ok h children := by
    obtain ⟨a, m₁, hrun, hrest⟩ := run_bind_eq_ok.mp h
    rw [run_bind_ok (hx.ok hrun children)]
    exact (hf a).ok hrest children
  error h children := by
    obtain hrun | ⟨a, m₁, hrun, hrest⟩ := run_bind_eq_error.mp h
    · obtain ⟨m', hrun'⟩ := hx.error hrun children
      exact ⟨m', run_bind_error hrun'⟩
    · rw [run_bind_ok (hx.ok hrun children)]
      exact (hf a).error hrest children

/-- One computation after another: the second one gathers behind what the first one has. -/
theorem gathers_append {x : Run α} {f : α → Run β} {y z : Run (List Value)} (hx : Gathers x y)
    (hf : ∀ a, Gathers (f a) z) : Gathers (x >>= f) (do
      let vs ← y
      let ws ← z
      return vs ++ ws) where
  kept h := by
    obtain ⟨vs, m₁, hy, h⟩ := run_bind_eq_ok.mp h
    obtain ⟨ws, m₂, hz, h⟩ := run_bind_eq_ok.mp h
    cases h
    obtain ⟨a, -⟩ := hx.ok hy none
    exact ((hf a).kept hz).trans (hx.kept hy)
  ok h children := by
    obtain ⟨vs, m₁, hy, h⟩ := run_bind_eq_ok.mp h
    obtain ⟨ws, m₂, hz, h⟩ := run_bind_eq_ok.mp h
    cases h
    obtain ⟨a, hrun⟩ := hx.ok hy children
    obtain ⟨b, hrest⟩ := (hf a).ok hz (children.map (· ++ Value.nodes vs))
    have hnodes : Value.nodes (vs ++ ws) = Value.nodes vs ++ Value.nodes ws :=
      List.filterMap_append
    refine ⟨b, (run_bind_ok hrun).trans (hrest.trans ?_)⟩
    rw [hnodes, Option.map_map]
    simp only [Function.comp_def, List.append_assoc]
  error h children := by
    obtain hy | ⟨vs, m₁, hy, h⟩ := run_bind_eq_error.mp h
    · obtain ⟨m', hrun⟩ := hx.error hy children
      exact ⟨m', run_bind_error hrun⟩
    · obtain hz | ⟨ws, m₂, -, h⟩ := run_bind_eq_error.mp h
      · obtain ⟨a, hrun⟩ := hx.ok hy children
        obtain ⟨m', hrest⟩ := (hf a).error hz (children.map (· ++ Value.nodes vs))
        exact ⟨m', (run_bind_ok hrun).trans hrest⟩
      · cases h

theorem gathers_map {x : Run α} {y : Run (List Value)} (f : α → β) (hx : Gathers x y) :
    Gathers (x >>= fun a => pure (f a)) y where
  kept := hx.kept
  ok h children := by
    obtain ⟨a, hrun⟩ := hx.ok h children
    exact ⟨f a, run_bind_ok hrun⟩
  error h children := by
    obtain ⟨m', hrun⟩ := hx.error h children
    exact ⟨m', run_bind_error hrun⟩

/-- What takes no part answers no values. -/
theorem gathers_aside {x : Run α} (hx : Aside x) : Gathers x (x >>= fun _ => pure []) := by
  have h := gathers_after hx gathers_pure
  rwa [show (x >>= fun a => (pure a : Run α)) = x from by
    funext m
    rw [run_bind]
    rcases x m with ⟨_ | _, _⟩ <;> rfl] at h

theorem gathers_each {f : α → Run β} {g : α → Run (List Value)} (h : ∀ a, Gathers (f a) (g a)) :
    ∀ l : List α, Gathers (each f l) (joined g l)
  | [] => gathers_pure _
  | a :: rest => gathers_append (h a) fun _ => gathers_map _ (gathers_each h rest)

theorem gathers_last {f : α → Run Value} {g : α → Run (List Value)}
    (h : ∀ a, Gathers (f a) (g a)) : ∀ (l : List α) (v : Value), Gathers (last f v l) (joined g l)
  | [], _ => gathers_pure _
  | a :: rest, _ => gathers_append (h a) fun v => gathers_last h rest v

/-- Opening and closing a scope gathers nothing. -/
theorem gathers_inScope (s : Scope) {x : Run α} {y : Run (List Value)} (h : Gathers x y) :
    Gathers (inScope s x) (inScope s y) where
  kept hrun := by
    obtain ⟨_, _, ⟨⟩, hrun⟩ := run_bind_eq_ok.mp hrun
    obtain ⟨vs, m₁, hy, hrun⟩ := run_bind_eq_ok.mp hrun
    cases hrun
    have hkept : m₁.children = _ := h.kept hy
    exact hkept
  ok {m _ _} hrun children := by
    obtain ⟨_, _, ⟨⟩, hrun⟩ := run_bind_eq_ok.mp hrun
    obtain ⟨vs, m₁, hy, hrun⟩ := run_bind_eq_ok.mp hrun
    cases hrun
    obtain ⟨a, hx⟩ := h.ok hy children
    have hx' : x { m.holding children with locals := s :: (m.holding children).locals } = _ := hx
    exact ⟨a, by rw [inScope, run_bind_ok (run_modify _ _), run_bind_ok hx']; rfl⟩
  error {m _ _} hrun children := by
    obtain hrun | ⟨_, _, ⟨⟩, hrun⟩ := run_bind_eq_error.mp hrun
    · cases hrun
    obtain hy | ⟨vs, m₁, -, hrun⟩ := run_bind_eq_error.mp hrun
    · obtain ⟨m', hx⟩ := h.error hy children
      have hx' : x { m.holding children with locals := s :: (m.holding children).locals } = _ := hx
      exact ⟨m', by rw [inScope, run_bind_ok (run_modify _ _), run_bind_error hx']⟩
    · cases hrun

/-- The value of an expression statement is gathered if it is a node. -/
theorem gathers_collect (v : Value) : Gathers (collect v >>= fun _ => pure v) (pure [v]) where
  kept h := by
    cases h
    rfl
  ok h children := by
    cases h
    cases v with
    | node n => exact ⟨_, rfl⟩
    | _ => exact ⟨_, congrArg _ (congrArg _ (map_append_nodes_nil children).symm)⟩
  error := nofun

end Run

/-- A statement gathers the nodes among the values of its expression statements. -/
theorem exec_gathers (d : Nat) (c : Context) : ∀ s : Stmt, Gathers (exec d c s) (s.values d c) := by
  induction d with
  | zero => exact fun _ => gathers_halt _
  | succ d ih =>
    have heval := (evalAside d).eval c
    have hbody : ∀ body : List Stmt, Gathers (last (exec d c) .nil body) (bodyValues d c body) :=
      fun body => gathers_last ih body .nil
    intro s
    cases s with
    | expr e line =>
      rw [exec, Stmt.values]
      exact gathers_after (heval e) gathers_collect
    | bind name value type mutable line =>
      refine gathers_aside ?_
      rw [exec]
      exact aside_bind (heval value) fun v => aside_bind (aside_declare _ _ _) fun _ => aside_pure _
    | assign target op value line =>
      refine gathers_aside ?_
      rw [exec]
      exact aside_assign _ _ _ _ (heval value)
    | choose subject arms line =>
      rw [exec, Stmt.values]
      refine gathers_after (heval subject) fun v => ?_
      refine gathers_after (aside_firstWhere (fun arm => aside_takes heval v _) arms) fun taken => ?_
      cases taken with
      | none => exact gathers_pure _
      | some arm => exact gathers_inScope _ (hbody arm.body)
    | each name items body line =>
      rw [exec, Stmt.values]
      refine gathers_after (heval items) fun v => ?_
      cases Machine.items? v with
      | none => exact gathers_halt _
      | some vs =>
        exact gathers_map _ (gathers_each (fun item => gathers_inScope _ (hbody body)) vs)
    | fn decl =>
      refine gathers_aside ?_
      rw [exec]
      exact aside_fail _ _
    | type decl =>
      refine gathers_aside ?_
      rw [exec]
      exact aside_fail _ _

theorem body_gathers (d : Nat) (c : Context) (body : List Stmt) :
    Gathers (last (exec d c) .nil body) (bodyValues d c body) :=
  gathers_last (exec_gathers d c) body .nil

/-! ## Nodes -/

/-- What is collected for a node is what its body gathers. -/
theorem collecting_eq_ok {x : Run Value} {y : Run (List Value)} (h : Gathers x y)
    {m m' : Machine} {ns : List Node} : collecting x m = (.ok ns, m') ↔
      ∃ vs, inScope {} y m = (.ok vs, m') ∧ ns = Value.nodes vs := by
  have hscope := gathers_inScope {} h
  rcases hy : inScope {} y m with ⟨e | vs, m₁⟩
  · obtain ⟨m₂, hx⟩ := hscope.error hy (some [])
    have hhalt : collecting x m = (.error e, m₂) := by
      rw [collecting, run_bind_ok (run_get _), run_bind_ok (run_modify _ _)]
      exact run_bind_error hx
    rw [hhalt]
    exact iff_of_false nofun nofun
  · obtain ⟨v, hx⟩ := hscope.ok hy (some [])
    have hkept : m₁.children = m.children := hscope.kept hy
    have hdone : collecting x m = (.ok (Value.nodes vs), m₁) := by
      rw [collecting, run_bind_ok (run_get _), run_bind_ok (run_modify _ _)]
      refine (run_bind_ok hx).trans ?_
      have hm : m₁.holding m.children = m₁ := by rw [← hkept]; rfl
      exact congrArg (Prod.mk _) hm
    rw [hdone]
    constructor
    · rintro ⟨⟩
      exact ⟨vs, rfl, rfl⟩
    · rintro ⟨_, ⟨⟩, rfl⟩
      rfl

/-- Works out the children of a node from its body. -/
def childrenOf (d : Nat) (c : Context) (body : List Stmt) : Run (List Node) :=
  if body.isEmpty then pure [] else collecting (last (exec d c) .nil body)

theorem childrenOf_eq_ok {d : Nat} {c : Context} {body : List Stmt} {m m' : Machine}
    {ns : List Node} : childrenOf d c body m = (.ok ns, m') ↔
      ∃ values, inScope {} (bodyValues d c body) m = (.ok values, m') ∧
        ns = Value.nodes values := by
  cases body with
  | nil =>
    constructor
    · rintro ⟨⟩
      exact ⟨[], rfl, rfl⟩
    · rintro ⟨_, ⟨⟩, rfl⟩
      rfl
  | cons s rest => exact collecting_eq_ok (body_gathers d c (s :: rest))

theorem eval_node (d : Nat) (c : Context) (kind : String) (args : List Expr)
    (props : List Property) (body : List Stmt) (line : Nat) :
    eval (d + 1) c (.node kind args props body line) = (do
      let vs ← each (eval d c) args
      let ps ← each (fun p : Property => eval d c p.value) props
      let children ← childrenOf d c body
      return .node (.named kind vs (propEntries (props.map (·.name)) ps) children)) := by
  rw [eval]
  unfold childrenOf
  cases body.isEmpty <;> rfl

/-- **The children of a node are the nodes that its body itself comes to.** -/
theorem node_children (d : Nat) (c : Context) :
    (∀ (kind : String) (args : List Expr) (props : List Property) (body : List Stmt) (line : Nat)
      (m m' : Machine) (v : Value),
      eval (d + 1) c (.node kind args props body line) m = (.ok v, m') ↔
        ∃ vs ps values m₁ m₂, each (eval d c) args m = (.ok vs, m₁) ∧
          each (fun p : Property => eval d c p.value) props m₁ = (.ok ps, m₂) ∧
          inScope {} (bodyValues d c body) m₂ = (.ok values, m') ∧
          v = .node (.named kind vs (propEntries (props.map (·.name)) ps) (Value.nodes values))) ∧
    (∀ s, Gathers (exec d c s) (s.values d c)) ∧
    (∀ e, Aside (eval d c e)) ∧ ∀ fn args, Aside (call d c fn args) := by
  refine ⟨fun kind args props body line m m' v => ?_, exec_gathers d c, (evalAside d).eval c,
    aside_call d c⟩
  rw [eval_node]
  constructor
  · intro h
    obtain ⟨vs, m₁, hargs, h⟩ := run_bind_eq_ok.mp h
    obtain ⟨ps, m₂, hprops, h⟩ := run_bind_eq_ok.mp h
    obtain ⟨ns, m₃, hbody, h⟩ := run_bind_eq_ok.mp h
    cases h
    obtain ⟨values, hvalues, rfl⟩ := childrenOf_eq_ok.mp hbody
    exact ⟨vs, ps, values, m₁, m₂, hargs, hprops, hvalues, rfl⟩
  · rintro ⟨vs, ps, values, m₁, m₂, hargs, hprops, hvalues, rfl⟩
    refine (run_bind_ok hargs).trans ((run_bind_ok hprops).trans ?_)
    exact run_bind_ok (childrenOf_eq_ok.mpr ⟨values, hvalues, rfl⟩)

/-- The rounds of a loop, a node with a node inside, and a call: of the two nodes that are made in
it, only the one that it answers is a child. -/
example :
    let make (kind : String) (args : List Expr) (body : List Stmt) : Stmt :=
      .expr (.node kind args [] body 1) 1
    let pair : FnDecl := ⟨"pair", [], [make "first" [] [], make "second" [] []], none, 1⟩
    let numbers : Expr := .array [.literal (.int 1) 1, .literal (.int 2) 1] 1
    let body : List Stmt := [.each "x" numbers [make "item" [.ident "x" 1] []] 1,
      make "row" [] [make "inner" [] []], .expr (.call (.ident "pair" 1) [] 1) 1]
    (childrenOf 6 { code := ⟨[.fn pair], none⟩ } body {}).1 =
      .ok [.named "item" [.scalar (.int 1)] [] [], .named "item" [.scalar (.int 2)] [] [],
        .named "row" [] [] [.named "inner" [] [] []], .named "second" [] [] []] := rfl

end Widgetry
