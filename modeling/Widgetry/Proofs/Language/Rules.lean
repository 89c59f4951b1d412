import Widgetry.Proofs.Language.Pieces
import Widgetry.Proofs.Value.References

/-!
# Proving something about all that programs do

A property of computations that holds of each single step of running code, and passes from the parts
of a computation to the whole, holds of every expression, statement and call.

> `Rules` lists what has to be shown; `Rules.holds` gives the property, by induction on how deep
> calls and expressions may nest.
> `GuardedRules` asks less: only the assignments that a guard lets through must have the property.
> Then so do all the pieces that the guard lets through (`GuardedRules.holds`).

The property `J P x` says something about the computation `x` and that its result satisfies `P`.
Values are the results of most computations; for them `P` says which tables they may refer to.

A statement may leave a name behind in the scope that it stands in, and an expression may not. So
there are two properties: `J` of what is closed in itself, and a weaker one, `K`, of what may
declare names. Opening a scope around what has `K` gives `J` again. Most properties need no such
difference and are their own `K`.
-/

namespace Widgetry

open Run

/-- The name that a statement leaves behind in the scope that it stands in. -/
def Stmt.declared? : Stmt → Option String
  | .bind name _ _ _ _ => some name
  | _ => none

/-- A property of computations that all single steps have but writes, and that is passed on. -/
structure Steps (ok : Context → Prop) (S : TableId → Prop)
    (J K : {α : Type} → (α → Prop) → Run α → Prop) : Prop where
  pure {α : Type} {P : α → Prop} {a : α} : P a → J P (pure a)
  bind {α β : Type} {P : α → Prop} {Q : β → Prop} {x : Run α} {f : α → Run β} :
    J P x → (∀ a, P a → J Q (f a)) → J Q (x >>= f)
  halt {α : Type} {P : α → Prop} (h : Halt) : J P (halt h : Run α)
  widen {α : Type} {P : α → Prop} {x : Run α} : J P x → K P x
  chain {α β : Type} {P : α → Prop} {Q : β → Prop} {x : Run α} {f : α → Run β} :
    K P x → (∀ a, P a → K Q (f a)) → K Q (x >>= f)
  inScope {α : Type} {P : α → Prop} {s : Scope} {x : Run α} :
    s.values.Within S → K P x → J P (inScope s x)
  inCall {α : Type} {P : α → Prop} {s : Scope} {x : Run α} :
    s.values.Within S → K P x → J P (inCall s x)
  collecting {x : Run Value} :
    K (·.Within S) x → J (fun ns => ∀ n ∈ ns, (Value.node n).Within S) (collecting x)
  collect {v : Value} : v.Within S → J (fun _ => True) (collect v)
  declare {name : String} {v : Value} {mutable : Bool} :
    v.Within S → K (fun _ => True) (modify fun m => m.declare name v mutable)
  valueOf {c : Context} (name : String) (line : Nat) :
    ok c → J (·.Within S) (valueOf c name line)
  eventOf {c : Context} (name : String) (line : Nat) :
    ok c → J (·.Within S) (eventOf c name line)
  memberOf {v : Value} (name : String) (line : Nat) :
    v.Within S → J (·.Within S) (memberOf v name line)
  builtin {args : List Value} (name : String) (line : Nat) :
    (∀ v ∈ args, v.Within S) → J (·.Within S) (builtin name args line)
  operate {a b : Value} (op : BinaryOp) (line : Nat) :
    a.Within S → b.Within S → J (·.Within S) (operate op a b line)
  same {a b : Value} : a.Within S → b.Within S → J (fun _ => True) (same a b)
  ofFunction {c : Context} : ok c → ok c.ofFunction

/-- A property of computations that all single steps have and that is passed on. -/
structure Rules (ok : Context → Prop) (S : TableId → Prop)
    (J K : {α : Type} → (α → Prop) → Run α → Prop) : Prop extends Steps ok S @J @K where
  assign {c : Context} {target : Target} {op : AssignOp} {x : Run Value} {line : Nat} :
    ok c → J (·.Within S) x → J (·.Within S) (assign c target op x line)

/-- The same for what a guard lets through: it lets through the parts of such a piece, and the
bodies that it calls. -/
structure GuardedRules (G : Context → Piece → Prop) (ok : Context → Prop) (S : TableId → Prop)
    (J K : {α : Type} → (α → Prop) → Run α → Prop) : Prop extends Steps ok S @J @K where
  part {c : Context} {q r : Piece} : G c q → r ∈ q.parts → G c r
  callee {c c' : Context} {e : Expr} {fn : FnDecl} {s : Stmt} :
    G c (.expr e) → c.callee? e = some (c', fn) → s ∈ fn.body → G c' (.stmt s)
  assign {c : Context} {target : Target} {op : AssignOp} {e : Expr} {x : Run Value} {line : Nat} :
    G c (.stmt (.assign target op e line)) → ok c → J (·.Within S) x →
      J (·.Within S) (assign c target op x line)

/-- All that running code does at a depth has the property. -/
structure Rules.Holds (ok : Context → Prop) (S : TableId → Prop)
    (J K : {α : Type} → (α → Prop) → Run α → Prop) (d : Nat) : Prop where
  eval (c : Context) (e : Expr) : ok c → J (·.Within S) (eval d c e)
  callMethod (c : Context) (name : String) (args : List Expr) (line : Nat) :
    ok c → J (·.Within S) (callMethod d c name args line)
  call (c : Context) (fn : FnDecl) (args : List Value) :
    ok c → (∀ v ∈ args, v.Within S) → J (·.Within S) (call d c fn args)
  exec (c : Context) (s : Stmt) : ok c → K (·.Within S) (exec d c s)
  /-- a statement that declares no name is as closed as an expression -/
  exec_closed (c : Context) (s : Stmt) :
    ok c → s.declared? = none → J (·.Within S) (Widgetry.exec d c s)

/-- All that the guard lets through has the property at a depth. -/
structure GuardedRules.Holds (G : Context → Piece → Prop) (ok : Context → Prop)
    (S : TableId → Prop) (J K : {α : Type} → (α → Prop) → Run α → Prop) (d : Nat) : Prop where
  eval (c : Context) (e : Expr) : G c (.expr e) → ok c → J (·.Within S) (eval d c e)
  callMethod (c : Context) (name : String) (args : List Expr) (line : Nat) :
    (∀ a ∈ args, G c (.expr a)) →
    (∀ fn, c.method? name = some fn → ∀ s ∈ fn.body, G c.ofMethod (.stmt s)) →
    ok c → J (·.Within S) (callMethod d c name args line)
  call (c : Context) (fn : FnDecl) (args : List Value) :
    (∀ s ∈ fn.body, G c (.stmt s)) → ok c → (∀ v ∈ args, v.Within S) →
      J (·.Within S) (call d c fn args)
  exec (c : Context) (s : Stmt) : G c (.stmt s) → ok c → K (·.Within S) (exec d c s)
  exec_closed (c : Context) (s : Stmt) :
    G c (.stmt s) → ok c → s.declared? = none → J (·.Within S) (Widgetry.exec d c s)

/-! ## Values that steps make -/

section Values

variable {S : TableId → Prop}

theorem within_applyUnary {op : UnaryOp} {v w : Value} {line : Option Nat}
    (h : applyUnary op v line = .ok w) : w.Within S := by
  cases op with
  | bang =>
    cases h
    exact Value.within_scalar _
  | minus =>
    simp only [applyUnary] at h
    split at h
    · cases h
      exact Value.within_scalar _
    · cases h
      exact Value.within_scalar _
    · cases h

theorem within_items {v : Value} {vs : List Value} (hv : v.Within S)
    (h : Machine.items? v = some vs) : ∀ w ∈ vs, w.Within S := by
  cases v with
  | list items =>
    cases h
    exact Value.within_list.mp hv
  | scalar s =>
    cases s with
    | str s =>
      cases h
      intro w hw
      obtain ⟨_, _, rfl⟩ := List.mem_map.mp hw
      exact Value.within_scalar _
    | _ => cases h
  | _ => cases h

theorem within_ofParams (params : List String) {args : List Value}
    (h : ∀ v ∈ args, v.Within S) : (Scope.ofParams params args).values.Within S := by
  have hgo : ∀ (params : List String) (args : List Value), (∀ v ∈ args, v.Within S) →
      ∀ f ∈ Scope.ofParams.go params args, f.2.Within S := by
    intro params
    induction params with
    | nil => exact fun _ _ _ hf => nomatch hf
    | cons p rest ih =>
      intro args h f hf
      cases args with
      | nil =>
        rcases List.mem_cons.mp hf with rfl | hf
        · exact Value.within_scalar _
        · exact ih [] h f hf
      | cons a as =>
        rcases List.mem_cons.mp hf with rfl | hf
        · exact h a List.mem_cons_self
        · exact ih as (fun v hv => h v (List.mem_cons_of_mem _ hv)) f hf
  exact Fields.within_ofPairs (hgo params args h)

theorem within_propEntries (names : List String) {values : List Value}
    (h : ∀ v ∈ values, v.Within S) : ∀ e ∈ propEntries names values, e.2.Within S := by
  intro e he
  obtain ⟨f, hf, hv⟩ := Entries.mem_ofPairs he
  rw [← hv]
  exact h f.2 (List.of_mem_zip hf).2

end Values

/-! ## Sequences -/

namespace Steps

variable {ok : Context → Prop} {S : TableId → Prop}
  {J K : {α : Type} → (α → Prop) → Run α → Prop} {α β : Type} {P : β → Prop}

theorem ofExcept (R : Steps ok S @J @K) {x : Except Fault β} (h : ∀ b, x = .ok b → P b) :
    J P (Run.ofExcept x) := by
  cases x with
  | ok b => exact R.pure (h b rfl)
  | error f => exact R.halt _

theorem each (R : Steps ok S @J @K) {f : α → Run β} {l : List α} (h : ∀ a ∈ l, J P (f a)) :
    J (fun bs => ∀ b ∈ bs, P b) (Run.each f l) := by
  induction l with
  | nil => exact R.pure fun _ hb => nomatch hb
  | cons a rest ih =>
    refine R.bind (h a List.mem_cons_self) fun b hb => ?_
    refine R.bind (ih fun a' ha => h a' (List.mem_cons_of_mem _ ha)) fun bs hbs => ?_
    refine R.pure fun b' hb' => ?_
    rcases List.mem_cons.mp hb' with rfl | hb'
    · exact hb
    · exact hbs b' hb'

theorem last (R : Steps ok S @J @K) {f : α → Run Value} {l : List α}
    (h : ∀ a ∈ l, K (·.Within S) (f a)) :
    ∀ {v : Value}, v.Within S → K (·.Within S) (Run.last f v l) := by
  induction l with
  | nil => exact fun hv => R.widen (R.pure hv)
  | cons a rest ih =>
    intro v _
    exact R.chain (h a List.mem_cons_self) fun w hw =>
      ih (fun a' ha => h a' (List.mem_cons_of_mem _ ha)) hw

/-- What is found has what all items have. -/
theorem firstWhere (R : Steps ok S @J @K) {Q : α → Prop} {test : α → Run Bool} {l : List α}
    (h : ∀ a ∈ l, J (fun _ => True) (test a)) (hq : ∀ a ∈ l, Q a) :
    J (fun found => ∀ a, found = some a → Q a) (Run.firstWhere test l) := by
  induction l with
  | nil => exact R.pure fun _ ha => nomatch ha
  | cons a rest ih =>
    refine R.bind (h a List.mem_cons_self) fun b _ => ?_
    cases b with
    | true =>
      refine R.pure fun a' ha => ?_
      cases ha
      exact hq a List.mem_cons_self
    | false =>
      exact ih (fun a' ha => h a' (List.mem_cons_of_mem _ ha))
        fun a' ha => hq a' (List.mem_cons_of_mem _ ha)

theorem takes (R : Steps ok S @J @K) {meaning : Expr → Run Value} {v : Value} (hv : v.Within S)
    {p : Option Expr} (h : ∀ e, p = some e → J (·.Within S) (meaning e)) :
    J (fun _ => True) (Run.takes meaning v p) := by
  cases p with
  | none => exact R.pure trivial
  | some p => exact R.bind (h p rfl) fun w hw => R.same hw hv

end Steps

/-! ## Expressions, statements and calls -/

namespace GuardedRules

variable {G : Context → Piece → Prop} {ok : Context → Prop} {S : TableId → Prop}
  {J K : {α : Type} → (α → Prop) → Run α → Prop} {c : Context} {d : Nat}

/-- The statements of a body. -/
theorem body (R : GuardedRules G ok S @J @K) (ih : Holds G ok S @J @K d) (hc : ok c)
    {stmts : List Stmt} (hg : ∀ s ∈ stmts, G c (.stmt s)) :
    K (·.Within S) (Run.last (Widgetry.exec d c) .nil stmts) :=
  R.last (fun s hs => ih.exec c s (hg s hs) hc) (Value.within_scalar _)

theorem args (R : GuardedRules G ok S @J @K) (ih : Holds G ok S @J @K d) (hc : ok c)
    {es : List Expr} (hg : ∀ e ∈ es, G c (.expr e)) :
    J (fun vs => ∀ v ∈ vs, v.Within S) (Run.each (Widgetry.eval d c) es) :=
  R.each fun e he => ih.eval c e (hg e he) hc

theorem eval_succ (R : GuardedRules G ok S @J @K) (ih : Holds G ok S @J @K d) (hc : ok c)
    (e : Expr) (hg : G c (.expr e)) : J (·.Within S) (Widgetry.eval (d + 1) c e) := by
  have hpart : ∀ r ∈ e.parts, G c r := fun r hr => R.part hg hr
  have hcall : ∀ c' fn, c.callee? e = some (c', fn) → ∀ s ∈ fn.body, G c' (.stmt s) :=
    fun c' fn hfn s hs => R.callee hg hfn hs
  rw [eval.eq_def]
  dsimp only
  split
  case h_1 => exact R.pure (Value.within_scalar _)
  case h_2 =>
    exact R.bind (R.args ih hc fun e he => hpart _ (List.mem_map_of_mem he)) fun vs hvs =>
      R.pure (Value.within_list.mpr hvs)
  case h_3 => exact R.valueOf _ _ hc
  case h_4 =>
    exact R.bind (ih.eval c _ (hpart _ List.mem_cons_self) hc) fun v _ =>
      R.ofExcept fun w => within_applyUnary
  -- a truth value on the left may decide, and then the right side is not run
  case h_5 =>
    refine R.bind (ih.eval c _ (hpart _ List.mem_cons_self) hc) fun a _ => ?_
    split
    · exact R.bind (ih.eval c _ (hpart _ (List.mem_cons_of_mem _ List.mem_cons_self)) hc) fun b _ =>
        R.pure (Value.within_scalar _)
    · exact R.pure (Value.within_scalar _)
  case h_6 =>
    refine R.bind (ih.eval c _ (hpart _ List.mem_cons_self) hc) fun a _ => ?_
    split
    · exact R.pure (Value.within_scalar _)
    · exact R.bind (ih.eval c _ (hpart _ (List.mem_cons_of_mem _ List.mem_cons_self)) hc) fun b _ =>
        R.pure (Value.within_scalar _)
  case h_7 =>
    exact R.bind (ih.eval c _ (hpart _ List.mem_cons_self) hc) fun a ha =>
      R.bind (ih.eval c _ (hpart _ (List.mem_cons_of_mem _ List.mem_cons_self)) hc) fun b hb =>
        R.operate _ _ ha hb
  case h_8 => exact R.eventOf _ _ hc
  case h_9 =>
    exact R.bind (ih.eval c _ (hpart _ List.mem_cons_self) hc) fun v hv => R.memberOf _ _ hv
  case h_10 =>
    split
    · next hself =>
      refine ih.callMethod c _ _ _ (fun a ha => hpart _ (List.mem_map_of_mem ha)) ?_ hc
      intro fn hfn
      refine hcall c.ofMethod fn ?_
      rw [Context.callee?_member hself, hfn]
      rfl
    · exact R.halt _
  -- a call is one of a built-in function, of a function, of a method, or it makes a node
  case h_11 =>
    refine R.bind (R.args ih hc fun a ha => hpart _ (List.mem_map_of_mem ha)) fun vs hvs => ?_
    split
    · exact R.builtin _ _ hvs
    · next hb =>
      have hb := Bool.not_eq_true _ ▸ hb
      split
      · next hfn =>
        exact ih.call _ _ _ (hcall _ _ (Context.callee?_function hb hfn _ _ _))
          (R.ofFunction hc) hvs
      · next hnone =>
        split
        · next hm =>
          refine ih.call _ _ _ (hcall _ _ ?_) hc hvs
          rw [Context.callee?_method hb hnone, hm]
          rfl
        · exact R.pure (Value.within_node (Value.within_scalar _) hvs (fun _ he => nomatch he)
            fun _ hn => nomatch hn)
  case h_12 => exact R.halt _
  case h_13 =>
    refine R.bind (R.args ih hc fun a ha => ?_) fun vs hvs => ?_
    · exact hpart _ (List.mem_append_left _ (List.mem_append_left _ (List.mem_map_of_mem ha)))
    refine R.bind (R.each fun p hp => ih.eval c _ ?_ hc) fun ps hps => ?_
    · exact hpart _ (List.mem_append_left _ (List.mem_append_right _ (List.mem_map_of_mem hp)))
    split
    · exact R.bind (R.pure (P := fun ns : List Node => ns = []) rfl) fun ns hns =>
        R.pure (Value.within_node (Value.within_scalar _) hvs (within_propEntries _ hps)
          fun n hn => by rw [hns] at hn; cases hn)
    · refine R.bind (R.collecting (R.body ih hc fun s hs => ?_)) fun ns hns =>
        R.pure (Value.within_node (Value.within_scalar _) hvs (within_propEntries _ hps) hns)
      exact hpart _ (List.mem_append_right _ (List.mem_map_of_mem hs))

theorem closed_succ (R : GuardedRules G ok S @J @K) (ih : Holds G ok S @J @K d) (hc : ok c)
    (s : Stmt) (hg : G c (.stmt s)) (hs : s.declared? = none) :
    J (·.Within S) (Widgetry.exec (d + 1) c s) := by
  have hnil : J (·.Within S) (Pure.pure Value.nil : Run Value) := R.pure (Value.within_scalar _)
  have hpart : ∀ r ∈ s.parts, G c r := fun r hr => R.part hg hr
  cases s with
  | expr e line =>
    rw [Widgetry.exec]
    exact R.bind (ih.eval c e (hpart _ List.mem_cons_self) hc) fun v hv =>
      R.bind (R.collect hv) fun _ _ => R.pure hv
  | bind name value type mutable line => cases hs
  | assign target op value line =>
    rw [Widgetry.exec]
    exact R.assign hg hc (ih.eval c value (hpart _ List.mem_cons_self) hc)
  | choose subject arms line =>
    have harm : ∀ a ∈ arms, (∀ e, a.pattern = some e → G c (.expr e)) ∧
        ∀ s ∈ a.body, G c (.stmt s) := by
      intro a ha
      have hin : ∀ r ∈ a.pattern.toList.map Piece.expr ++ a.body.map Piece.stmt, G c r :=
        fun r hr => hpart r (List.mem_cons_of_mem _ (List.mem_flatMap.mpr ⟨a, ha, hr⟩))
      refine ⟨fun e he => hin _ (List.mem_append_left _ ?_), fun s hs =>
        hin _ (List.mem_append_right _ (List.mem_map_of_mem hs))⟩
      exact List.mem_map_of_mem (Option.mem_toList.mpr he)
    rw [Widgetry.exec]
    refine R.bind (ih.eval c subject (hpart _ List.mem_cons_self) hc) fun v hv => ?_
    have htest : ∀ a ∈ arms, J (fun _ => True) (Run.takes (Widgetry.eval d c) v a.pattern) :=
      fun a ha => R.takes hv fun e he => ih.eval c e ((harm a ha).1 e he) hc
    refine R.bind (R.firstWhere htest fun a ha => (harm a ha).2) fun taken htaken => ?_
    cases taken with
    | none => exact hnil
    | some arm => exact R.inScope (fun _ hf => nomatch hf) (R.body ih hc (htaken arm rfl))
  | each name items body line =>
    rw [Widgetry.exec]
    refine R.bind (ih.eval c items (hpart _ List.mem_cons_self) hc) fun v hv => ?_
    split
    · exact R.halt _
    · next vs hvs =>
      refine R.bind (R.each fun item hi => R.inScope ?_ (R.body ih hc fun s hs =>
        hpart _ (List.mem_cons_of_mem _ (List.mem_map_of_mem hs)))) fun _ _ => hnil
      intro f hf
      cases List.mem_singleton.mp hf
      exact within_items hv hvs item hi
  | fn decl =>
    rw [Widgetry.exec]
    exact R.halt _
  | type decl =>
    rw [Widgetry.exec]
    exact R.halt _

theorem exec_succ (R : GuardedRules G ok S @J @K) (ih : Holds G ok S @J @K d) (hc : ok c)
    (s : Stmt) (hg : G c (.stmt s)) : K (·.Within S) (Widgetry.exec (d + 1) c s) := by
  cases hs : s.declared? with
  | none => exact R.widen (R.closed_succ ih hc s hg hs)
  | some name =>
    cases s with
    | bind name value type mutable line =>
      rw [Widgetry.exec]
      refine R.chain (R.widen (ih.eval c value (R.part hg List.mem_cons_self) hc)) fun v hv => ?_
      exact R.chain (R.declare hv) fun _ _ => R.widen (R.pure (Value.within_scalar _))
    | _ => cases hs

/-- **What every single step has that the guard lets through, all that it lets through has.** -/
theorem holds (R : GuardedRules G ok S @J @K) : ∀ d, Holds G ok S @J @K d := by
  intro d
  induction d with
  | zero =>
    -- nothing can nest deeper: all of them halt
    refine ⟨fun c e _ _ => ?_, fun c name args line _ _ _ => ?_, fun c fn args _ _ _ => ?_,
      fun c s _ _ => ?_, fun c s _ _ _ => ?_⟩
    · rw [eval]
      exact R.halt _
    · rw [callMethod]
      exact R.halt _
    · rw [call]
      exact R.halt _
    · rw [exec]
      exact R.widen (R.halt _)
    · rw [exec]
      exact R.halt _
  | succ d ih =>
    refine ⟨fun c e hg hc => R.eval_succ ih hc e hg, fun c name args line hargs hbody hc => ?_,
      fun c fn args hbody hc hargs => ?_, fun c s hg hc => R.exec_succ ih hc s hg,
      fun c s hg hc => R.closed_succ ih hc s hg⟩
    · rw [callMethod]
      split
      · exact R.halt _
      · next fn hfn =>
        exact R.bind (R.args ih hc hargs) fun vs hvs => ih.call _ _ _ (hbody fn hfn) hc hvs
    · rw [call]
      exact R.inCall (within_ofParams _ hargs) (R.body ih hc hbody)

end GuardedRules

namespace Rules

variable {ok : Context → Prop} {S : TableId → Prop}
  {J K : {α : Type} → (α → Prop) → Run α → Prop} {c : Context} {d : Nat}

/-- Rules without a guard let everything through. -/
theorem guarded (R : Rules ok S @J @K) : GuardedRules (fun _ _ => True) ok S @J @K :=
  { R.toSteps with
    part := fun _ _ => trivial
    callee := fun _ _ _ => trivial
    assign := fun _ => R.assign }

/-- **What every single step has, every expression, statement and call has.** -/
theorem holds (R : Rules ok S @J @K) (d : Nat) : Holds ok S @J @K d := by
  have hall := R.guarded.holds d
  exact ⟨fun c e => hall.eval c e trivial,
    fun c name args line => hall.callMethod c name args line (fun _ _ => trivial)
      fun _ _ _ _ => trivial,
    fun c fn args => hall.call c fn args fun _ _ => trivial,
    fun c s => hall.exec c s trivial, fun c s => hall.exec_closed c s trivial⟩

/-- The statements of a body. -/
theorem body (R : Rules ok S @J @K) (ih : Holds ok S @J @K d) (hc : ok c) (stmts : List Stmt) :
    K (·.Within S) (Run.last (Widgetry.exec d c) .nil stmts) :=
  R.last (fun s _ => ih.exec c s hc) (Value.within_scalar _)

end Rules

end Widgetry
