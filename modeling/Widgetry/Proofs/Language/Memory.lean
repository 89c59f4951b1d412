import Widgetry.Proofs.Language.Footprint

/-!
# What outlives a call

The variables of the program and the tables of fields are still there when a call has ended; scopes,
output and children are not, or are not read. So a relation between what that memory was and what it
is holds of a whole call if it is reflexive and transitive and every write has it that the call may
make.

> `call_follows`: whatever a call does before it ends or fails, the memory before and after it is
> related so.

Which writes a call may make is up to a guard, which lets through the pieces of the program that
may be run (`Footprint.Allows`).
-/

namespace Widgetry

/-- What running code leaves behind: the variables of the program and the tables. -/
def Machine.memory (m : Machine) : Scope × Store := (m.globals, m.store)

namespace Footprint

variable {t : TableId} {R : Scope × Store → Scope × Store → Prop} {α β : Type} {P : α → Prop}
  {Q : β → Prop} {c : Context}

/-- Whether a computation inside a function touches no more than it may, and relates the memory
before it to the memory after it. -/
def Follows (t : TableId) (R : Scope × Store → Scope × Store → Prop) {α : Type} (P : α → Prop)
    (x : Run α) : Prop :=
  Keeps t P x ∧ ∀ m : Machine, m.locals ≠ [] → R m.memory (x m).2.memory

/-- Whether a guard lets through only writes that are allowed, and what belongs to a piece with the
piece. The place that is written to was found before the value was worked out. -/
structure Allows (t : TableId) (R : Scope × Store → Scope × Store → Prop)
    (G : Context → Piece → Prop) : Prop where
  part {c : Context} {q r : Piece} : G c q → r ∈ q.parts → G c r
  callee {c c' : Context} {e : Expr} {fn : FnDecl} {s : Stmt} :
    G c (.expr e) → c.callee? e = some (c', fn) → s ∈ fn.body → G c' (.stmt s)
  write {c : Context} {target : Target} {op : AssignOp} {e : Expr} {line : Nat} {m m₁ : Machine}
    {slot : Slot} (v : Value) : G c (.stmt (.assign target op e line)) → Ok t c →
    Run.targetSlot c target line m = (.ok slot, m) → Touches t m m₁ →
    R m₁.memory (m₁.save target.label v slot).memory

/-! ## Scopes

What opens and closes a scope leaves the memory alone. -/

theorem memory_inScope (s : Scope) (x : Run α) (m : Machine) :
    (Run.inScope s x m).2.memory = (x { m with locals := s :: m.locals }).2.memory := by
  simp only [Run.inScope, Run.run_bind, Run.run_modify, Run.run_pure]
  rcases x { m with locals := s :: m.locals } with ⟨_ | _, _⟩ <;> rfl

theorem memory_inCall (s : Scope) (x : Run α) (m : Machine) :
    (Run.inCall s x m).2.memory = (x { m with locals := [s], children := none }).2.memory := rfl

theorem memory_collecting (x : Run Value) (m : Machine) : (Run.collecting x m).2.memory
    = (x { m with locals := {} :: m.locals, children := some [] }).2.memory := by
  rw [← memory_inScope {} x { m with children := some [] }]
  simp only [Run.collecting, Run.run_bind, Run.run_get, Run.run_modify, Run.run_pure]
  rcases Run.inScope {} x { m with children := some [] } with ⟨_ | _, _⟩ <;> rfl

/-- A computation that is run on other scopes and children. -/
theorem related_aside {x : Run α} {m m' : Machine} (m₀ : Machine) (hx : Follows t R P x)
    (hl : m₀.locals ≠ []) (hm : m₀.memory = m.memory) (hm' : m'.memory = (x m₀).2.memory) :
    R m.memory m'.memory := by
  rw [hm', ← hm]
  exact hx.2 m₀ hl

theorem follows_inScope {s : Scope} {x : Run α} (hx : Follows t R P x) :
    Follows t R P (Run.inScope s x) :=
  ⟨keeps_inScope hx.1, fun m _ => related_aside { m with locals := s :: m.locals } hx
    (List.cons_ne_nil _ _) rfl (memory_inScope s x m)⟩

theorem related_inCall {s : Scope} {x : Run α} (hx : Follows t R P x) (m : Machine) :
    R m.memory (Run.inCall s x m).2.memory :=
  related_aside { m with locals := [s], children := none } hx (List.cons_ne_nil _ _) rfl
    (memory_inCall s x m)

theorem follows_collecting {Q : List Node → Prop} {S : Value → Prop} {x : Run Value}
    (hx : Follows t R S x) (hq : ∀ ns, Q ns) : Follows t R Q (Run.collecting x) :=
  ⟨keeps_collecting hx.1 hq, fun m _ => related_aside
    { m with locals := {} :: m.locals, children := some [] } hx (List.cons_ne_nil _ _) rfl
    (memory_collecting x m)⟩

section

variable [IsPreorder (Scope × Store) R]

/-! ## Sequences -/

/-- A computation that leaves the memory alone. -/
theorem follows_of_memory {x : Run α} (hk : Keeps t P x)
    (hm : ∀ m, m.locals ≠ [] → (x m).2.memory = m.memory) : Follows t R P x := by
  refine ⟨hk, fun m hl => ?_⟩
  rw [hm m hl]
  exact refl_of R m.memory

theorem follows_of_reads {x : Run Value} (h : x.Reads) :
    Follows t R (·.Within fun _ => True) x := by
  refine follows_of_memory (keeps_of_reads h) fun m _ => ?_
  rw [h m]

theorem follows_bind {x : Run α} {f : α → Run β} (hx : Follows t R P x)
    (hf : ∀ a, P a → Follows t R Q (f a)) : Follows t R Q (x >>= f) := by
  refine ⟨keeps_bind hx.1 fun a ha => (hf a ha).1, fun m hm => ?_⟩
  obtain ⟨-, hok⟩ := hx.1 m hm
  have hm' := hx.2 m hm
  rw [Run.run_bind]
  rcases hr : x m with ⟨r, m'⟩
  rw [hr] at hok hm'
  cases r with
  | error e => exact hm'
  | ok a =>
    obtain ⟨ha, hl⟩ := hok a rfl
    exact trans_of R hm' ((hf a ha).2 m' (locals_ne_nil hm hl))

/-! ## Writing -/

theorem follows_assign {target : Target} {op : AssignOp} {x : Run Value} {line : Nat} (hc : Ok t c)
    (hw : ∀ {m m₁ : Machine} {slot : Slot} (v : Value),
      Run.targetSlot c target line m = (.ok slot, m) → Touches t m m₁ →
      R m₁.memory (m₁.save target.label v slot).memory)
    (hx : Follows t R (·.Within fun _ => True) x) :
    Follows t R (·.Within fun _ => True) (Run.assign c target op x line) := by
  refine ⟨keeps_assign hc hx.1, fun m hm => ?_⟩
  rw [Run.assign, Run.run_bind]
  rcases hs : Run.targetSlot c target line m with ⟨slot, m'⟩
  obtain rfl := (Run.Reads.targetSlot c target line).eq hs
  cases slot with
  | error e => exact refl_of R m.memory
  | ok slot =>
    obtain ⟨ht, -⟩ := hx.1 m hm
    have hrel := hx.2 m hm
    show R m.memory ((x >>= _) m).2.memory
    rw [Run.run_bind]
    rcases hr : x m with ⟨r, m₁⟩
    rw [hr] at ht hrel
    have hsave : ∀ w, R m.memory (m₁.save target.label w slot).memory := fun w =>
      trans_of R hrel (hw w hs ht)
    cases r with
    | error e => exact hrel
    | ok v =>
      dsimp only
      rw [Run.run_bind_ok (Run.run_get m₁)]
      cases op.binary? with
      | none => exact hsave v
      | some o =>
        dsimp only
        rw [Run.run_bind]
        cases applyBinary m₁.store o (m₁.load target.label slot) v (some line) with
        | error f => exact hrel
        | ok w => exact hsave w

/-- Inside a function a declaration makes no variable of the program. -/
theorem follows_declare {name : String} {v : Value} {mutable : Bool} :
    Follows t R (fun _ => True) (Run.modify fun m => m.declare name v mutable) := by
  refine follows_of_memory keeps_declare fun m hm => ?_
  rw [Run.run_modify, Machine.declare]
  split
  · next hnil => exact absurd hnil hm
  · rfl

theorem follows_collect {v : Value} : Follows t R (fun _ => True) (Run.collect v) := by
  refine follows_of_memory keeps_collect fun m _ => ?_
  unfold Run.collect
  split <;> rfl

theorem follows_builtin {name : String} {args : List Value} {line : Nat} :
    Follows t R (·.Within fun _ => True) (Run.builtin name args line) := by
  refine follows_of_memory keeps_builtin fun m _ => ?_
  unfold Run.builtin
  split
  · split
    · rfl
    · rw [(Run.Reads.bind (.display _) fun _ => .pure _) m]
  · split
    · split
      · rw [(Run.Reads.bind .get fun m' => ?_) m]
        split
        · exact .pure _
        · exact .halt _
      · rfl
    · rw [Run.run_bind]
      rcases hr : Run.each Run.display args m with ⟨r, m'⟩
      obtain rfl := (Run.Reads.each Run.Reads.display args).eq hr
      cases r <;> rfl

/-! ## Whole runs -/

theorem follows_rules {G : Context → Piece → Prop} (hg : Allows t R G) :
    GuardedRules G (Ok t) (fun _ => True) (Follows t R) (Follows t R) where
  pure h := follows_of_memory (keeps_pure h) fun _ _ => rfl
  bind := follows_bind
  halt h := follows_of_memory (keeps_halt h) fun _ _ => rfl
  widen := id
  chain := follows_bind
  inScope _ := follows_inScope
  inCall _ hx := ⟨fun m _ => kept_inCall hx.1 _ m, fun m _ => related_inCall hx m⟩
  collecting hx := follows_collecting hx fun _ _ _ => within_all _
  collect _ := follows_collect
  declare _ := follows_declare
  valueOf name line _ := follows_of_reads (.valueOf _ name line)
  eventOf name line _ := follows_of_reads (.eventOf _ name line)
  memberOf name line _ := follows_of_reads (.memberOf _ name line)
  builtin _ _ _ := follows_builtin
  operate op line _ _ := follows_of_reads (.operate op _ _ line)
  same _ _ := follows_of_memory (fun m _ => ⟨Touches.refl t m, fun _ _ => ⟨trivial, rfl⟩⟩)
    fun _ _ => rfl
  ofFunction _ _ h := nomatch h
  part := hg.part
  callee := hg.callee
  assign ha hc := follows_assign hc fun v hs ht => hg.write v ha hc hs ht

end

end Footprint

/-- **A call relates the memory before it to the memory after it as all writes do that it may
make**, however it ends. -/
theorem call_follows {t : TableId} {R : Scope × Store → Scope × Store → Prop}
    [IsPreorder (Scope × Store) R] {G : Context → Piece → Prop} (hg : Footprint.Allows t R G)
    {c : Context} (hc : Footprint.Ok t c) (d : Nat) {fn : FnDecl}
    (hbody : ∀ s ∈ fn.body, G c (.stmt s)) (args : List Value) (m : Machine) :
    R m.memory (call d c fn args m).2.memory := by
  cases d with
  | zero =>
    rw [call]
    exact refl_of R m.memory
  | succ d =>
    have hrules := Footprint.follows_rules hg
    rw [call]
    exact Footprint.related_inCall (hrules.body (hrules.holds d) hc hbody) m

end Widgetry
