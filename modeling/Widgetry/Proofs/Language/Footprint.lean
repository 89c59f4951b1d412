import Widgetry.Language.Interpreter
import Widgetry.Proofs.Language.Rules

/-!
# What running code changes

A method changes little of the machine it runs on, however it ends: it writes to the table of its
own fields and to no other, it adds and removes no field, and it neither adds nor removes a variable
of the program.

> `call_touches`: whatever a call does before it ends or fails, it `Touches` only that table and the
> values of variables that are there;
> `invoke_footprint`: so does a method that the interpreter runs.

`Touches` is reflexive and transitive; every step of running code has it, provided that a function
is being run: outside of one, a declaration makes a variable of the program.
-/

namespace Widgetry

/-- What may have changed while code ran on the fields of a table. -/
structure Touches (t : TableId) (m m' : Machine) : Prop where
  size : m'.store.tables.size = m.store.tables.size
  others : ∀ u, u ≠ t → m'.store.get u = m.store.get u
  fields : (m'.store.get t).names = (m.store.get t).names
  vars : m'.globals.values.names = m.globals.values.names
  consts : m'.globals.consts = m.globals.consts

namespace Touches

variable {t : TableId} {m m₁ m₂ m₃ : Machine}

theorem refl (t : TableId) (m : Machine) : Touches t m m := ⟨rfl, fun _ _ => rfl, rfl, rfl, rfl⟩

theorem trans (h₁ : Touches t m₁ m₂) (h₂ : Touches t m₂ m₃) : Touches t m₁ m₃ where
  size := h₂.size.trans h₁.size
  others u hu := (h₂.others u hu).trans (h₁.others u hu)
  fields := h₂.fields.trans h₁.fields
  vars := h₂.vars.trans h₁.vars
  consts := h₂.consts.trans h₁.consts

/-- Nothing but the tables and the variables of the program counts. -/
theorem of_eq {m m' : Machine} (hs : m'.store = m.store) (hg : m'.globals = m.globals) :
    Touches t m m' where
  size := by rw [hs]
  others _ _ := by rw [hs]
  fields := by rw [hs]
  vars := by rw [hg]
  consts := by rw [hg]

end Touches

namespace Footprint

/-- Whether a context has the fields of a table, or none. -/
def Ok (t : TableId) (c : Context) : Prop := ∀ u, c.fields = some u → u = t

/-- Whether a computation that began on a machine ended so that no more was touched than may be,
and after a success as many scopes are open as before. -/
def Kept (t : TableId) {α : Type} (P : α → Prop) (m : Machine) (r : Except Halt α × Machine) :
    Prop :=
  Touches t m r.2 ∧ ∀ a, r.1 = .ok a → P a ∧ r.2.locals.length = m.locals.length

/-- Whether a computation always ends so inside a function. -/
def Keeps (t : TableId) {α : Type} (P : α → Prop) (x : Run α) : Prop :=
  ∀ m, m.locals ≠ [] → Kept t P m (x m)

variable {t : TableId} {α β : Type} {P : α → Prop} {Q : β → Prop}

theorem locals_ne_nil {m m' : Machine} (hm : m.locals ≠ [])
    (h : m'.locals.length = m.locals.length) : m'.locals ≠ [] := by
  intro he
  rw [he] at h
  exact hm (List.length_eq_zero_iff.mp h.symm)

theorem keeps_pure {a : α} (h : P a) : Keeps t P (pure a) := by
  intro m _
  refine ⟨Touches.refl t m, fun b hb => ?_⟩
  cases hb
  exact ⟨h, rfl⟩

theorem keeps_bind {x : Run α} {f : α → Run β} (hx : Keeps t P x)
    (hf : ∀ a, P a → Keeps t Q (f a)) : Keeps t Q (x >>= f) := by
  intro m hm
  obtain ⟨ht, hok⟩ := hx m hm
  rw [Run.run_bind]
  rcases hr : x m with ⟨r, m'⟩
  rw [hr] at ht hok
  cases r with
  | error e => exact ⟨ht, fun b hb => nomatch hb⟩
  | ok a =>
    obtain ⟨ha, hl⟩ := hok a rfl
    obtain ⟨ht', hok'⟩ := hf a ha m' (locals_ne_nil hm hl)
    refine ⟨ht.trans ht', fun b hb => ?_⟩
    obtain ⟨hb, hl'⟩ := hok' b hb
    exact ⟨hb, hl'.trans hl⟩

theorem keeps_halt (h : Halt) : Keeps t P (Run.halt h) :=
  fun m _ => ⟨Touches.refl t m, fun _ ha => nomatch ha⟩

end Footprint

/-! ## Steps that change nothing -/

/-- Whether a computation leaves the machine as it is. -/
def Run.Reads {α : Type} (x : Run α) : Prop := ∀ m, (x m).2 = m

namespace Run.Reads

variable {α β : Type}

theorem eq {x : Run α} (h : Reads x) {m m' : Machine} {r : Except Halt α} (hx : x m = (r, m')) :
    m = m' := by
  rw [← h m, hx]

theorem pure (a : α) : Reads (Pure.pure a) := fun _ => rfl

theorem halt (h : Halt) : Reads (Run.halt h : Run α) := fun _ => rfl

theorem get : Reads Run.get := fun _ => rfl

theorem bind {x : Run α} {f : α → Run β} (hx : Reads x) (hf : ∀ a, Reads (f a)) :
    Reads (x >>= f) := by
  intro m
  rw [run_bind]
  rcases hr : x m with ⟨r, m'⟩
  have hm : m' = m := (hx.eq hr).symm
  cases r with
  | error e => exact hm
  | ok a => exact hm ▸ hf a m'

theorem ofExcept (x : Except Fault α) : Reads (Run.ofExcept x) := by
  cases x with
  | ok a => exact pure a
  | error f => exact halt _

theorem each {f : α → Run β} (hf : ∀ a, Reads (f a)) (l : List α) : Reads (Run.each f l) := by
  induction l with
  | nil => exact pure []
  | cons a rest ih => exact bind (hf a) fun b => bind ih fun bs => pure _

theorem display (v : Value) : Reads (Run.display v) := bind get fun _ => ofExcept _

theorem memberOf (v : Value) (name : String) (line : Nat) : Reads (Run.memberOf v name line) := by
  unfold Run.memberOf
  split
  · split
    · exact pure _
    · exact halt _
  · refine bind get fun m => ?_
    split
    · exact pure _
    · exact halt _
  · exact pure _
  · split
    · exact pure _
    · exact halt _
  · split
    · exact pure _
    · exact halt _
  · exact halt _

theorem valueOf (c : Context) (name : String) (line : Nat) : Reads (Run.valueOf c name line) := by
  unfold Run.valueOf
  split
  · exact pure _
  · refine bind get fun m => ?_
    split
    · exact pure _
    · exact halt _

theorem eventOf (c : Context) (name : String) (line : Nat) : Reads (Run.eventOf c name line) := by
  refine bind get fun m => ?_
  split
  · exact memberOf _ _ _
  · exact pure _

theorem operate (op : BinaryOp) (a b : Value) (line : Nat) : Reads (Run.operate op a b line) :=
  bind get fun _ => ofExcept _

theorem same (a b : Value) : Reads (Run.same a b) := bind get fun _ => pure _

theorem targetSlot (c : Context) (target : Target) (line : Nat) :
    Reads (Run.targetSlot c target line) := by
  refine bind get fun m => ?_
  split
  · split
    · split
      · split
        · exact pure _
        · exact halt _
      · exact halt _
    · exact halt _
  · split
    · exact halt _
    · split
      · exact halt _
      · exact pure _

end Run.Reads

namespace Footprint

variable {t : TableId} {α : Type}

/-- What all values satisfy if nothing is asked of them. -/
theorem within_all (v : Value) : v.Within fun _ => True := fun _ _ => trivial

theorem keeps_of_reads {x : Run Value} (h : x.Reads) : Keeps t (·.Within fun _ => True) x := by
  intro m _
  have hm : (x m).2 = m := h m
  refine ⟨?_, fun a _ => ⟨within_all a, ?_⟩⟩
  · rw [hm]
    exact Touches.refl t m
  · rw [hm]

/-! ## Scopes -/

theorem keeps_inScope {P : α → Prop} {s : Scope} {x : Run α} (hx : Keeps t P x) :
    Keeps t P (Run.inScope s x) := by
  intro m _
  obtain ⟨ht, hok⟩ := hx { m with locals := s :: m.locals } (List.cons_ne_nil _ _)
  have h₀ : Touches t m { m with locals := s :: m.locals } := .of_eq rfl rfl
  simp only [Run.inScope, Run.run_bind, Run.run_modify, Run.run_pure]
  rcases hr : x { m with locals := s :: m.locals } with ⟨r, m'⟩
  rw [hr] at ht hok
  cases r with
  | error e => exact ⟨h₀.trans ht, fun a ha => nomatch ha⟩
  | ok a =>
    refine ⟨(h₀.trans ht).trans (.of_eq rfl rfl), fun b hb => ?_⟩
    obtain ⟨ha, hl⟩ := hok a rfl
    cases hb
    refine ⟨ha, ?_⟩
    show m'.locals.tail.length = m.locals.length
    rw [List.length_tail, show m'.locals.length = m.locals.length + 1 from hl]
    rfl

/-- A computation that is run on other scopes and children. -/
theorem keeps_aside {P : α → Prop} {x : Run α} (hx : Keeps t P x) (m m₀ : Machine)
    (hs : m₀.store = m.store) (hg : m₀.globals = m.globals) (hl : m₀.locals ≠ []) :
    Touches t m (x m₀).2 ∧ ∀ a, (x m₀).1 = .ok a → P a := by
  obtain ⟨ht, hok⟩ := hx m₀ hl
  exact ⟨(Touches.of_eq hs hg).trans ht, fun a ha => (hok a ha).1⟩

/-- The scopes of a call are its own, so it does not matter which are open before. -/
theorem kept_inCall {P : α → Prop} {x : Run α} (hx : Keeps t P x) (s : Scope) (m : Machine) :
    Kept t P m (Run.inCall s x m) := by
  obtain ⟨ht, hok⟩ := keeps_aside hx m { m with locals := [s], children := none }
    rfl rfl (List.cons_ne_nil _ _)
  exact ⟨ht.trans (.of_eq rfl rfl), fun a ha => ⟨hok a ha, rfl⟩⟩

theorem keeps_collecting {P : List Node → Prop} {Q : Value → Prop} {x : Run Value}
    (hx : Keeps t Q x) (hp : ∀ ns, P ns) : Keeps t P (Run.collecting x) := by
  intro m hm
  have h₀ : Touches t m { m with children := some [] } := .of_eq rfl rfl
  obtain ⟨ht, hok⟩ := keeps_inScope (s := {}) hx { m with children := some [] } hm
  simp only [Run.collecting, Run.run_bind, Run.run_get, Run.run_modify, Run.run_pure]
  rcases hr : Run.inScope {} x { m with children := some [] } with ⟨r, m'⟩
  rw [hr] at ht hok
  cases r with
  | error e => exact ⟨h₀.trans ht, fun a ha => nomatch ha⟩
  | ok a => exact ⟨(h₀.trans ht).trans (.of_eq rfl rfl), fun b _ => ⟨hp b, (hok a rfl).2⟩⟩

/-! ## Writing -/

/-- Whether a name has a place in a slot that a method on the fields of `t` may write to. -/
def Fits (t : TableId) (m : Machine) (name : String) : Slot → Prop
  | .inner _ => True
  | .field u => u = t ∧ (m.store.get t).has name = true
  | .global => m.globals.values.has name = true

/-- A name that is found stands in a scope of the function, in the fields or at the top level. -/
theorem slot?_cases {c : Context} {m : Machine} {name : String} {slot : Slot}
    (h : m.slot? c name = some slot) :
    (∃ i, slot = .inner i ∧ m.locals.findIdx? (fun s => (s.get? name).isSome) = some i) ∨
    (∃ u, slot = .field u ∧ c.fields = some u ∧ (m.store.get u).has name = true) ∨
    (slot = .global ∧ m.globals.values.has name = true) := by
  unfold Machine.slot? at h
  split at h
  · next i hi =>
    cases h
    exact Or.inl ⟨i, rfl, hi⟩
  · split at h
    · next u hu =>
      split at h
      · next hh =>
        cases h
        exact Or.inr (Or.inl ⟨u, rfl, hu, hh⟩)
      · split at h
        · next hg =>
          cases h
          exact Or.inr (Or.inr ⟨rfl, hg⟩)
        · cases h
    · split at h
      · next hg =>
        cases h
        exact Or.inr (Or.inr ⟨rfl, hg⟩)
      · cases h

/-- Only fields of `self` that are there can be assigned as parts of something. -/
theorem targetSlot_member {c : Context} {m m' : Machine} {obj : Expr} {name : String}
    {l line : Nat} {slot : Slot}
    (h : Run.targetSlot c (.member obj name l) line m = (.ok slot, m')) : obj.isSelf = true ∧
      ∃ u, slot = .field u ∧ c.fields = some u ∧ (m.store.get u).has name = true := by
  cases hself : obj.isSelf with
  | false => simp [Run.targetSlot, Run.run_bind, hself, Run.fail] at h
  | true =>
    cases hf : c.fields with
    | none => simp [Run.targetSlot, Run.run_bind, hself, hf, Run.fail] at h
    | some u =>
      cases hh : (m.store.get u).has name with
      | false => simp [Run.targetSlot, Run.run_bind, hself, hf, hh, Run.fail] at h
      | true =>
        simp only [Run.targetSlot, Run.run_bind, Run.run_get, hself, hf, hh, if_true] at h
        cases h
        exact ⟨rfl, u, rfl, rfl, hh⟩

/-- A name can be assigned where it is found, unless it is immutable there. -/
theorem targetSlot_name {c : Context} {m m' : Machine} {name : String} {l line : Nat} {slot : Slot}
    (h : Run.targetSlot c (.name name l) line m = (.ok slot, m')) :
    m.slot? c name = some slot ∧ m.isConst name slot = false := by
  cases hs : m.slot? c name with
  | none => simp [Run.targetSlot, Run.run_bind, hs, Run.fail] at h
  | some found =>
    cases hk : m.isConst name found with
    | true => simp [Run.targetSlot, Run.run_bind, hs, hk, Run.fail] at h
    | false =>
      simp only [Run.targetSlot, Run.run_bind, Run.run_get, hs, hk] at h
      cases h
      exact ⟨rfl, hk⟩

/-- An assignment writes to a field of `self` that is there, or where the name is found. -/
theorem targetSlot_cases {c : Context} {m m' : Machine} {target : Target} {line : Nat}
    {slot : Slot} (h : Run.targetSlot c target line m = (.ok slot, m')) :
    (∃ u, slot = .field u ∧ c.fields = some u ∧ (m.store.get u).has target.label = true) ∨
    m.slot? c target.label = some slot := by
  cases target with
  | member obj name l => exact Or.inl (targetSlot_member h).2
  | name name l => exact Or.inr (targetSlot_name h).1

theorem fits_of_targetSlot {c : Context} {m m' : Machine} {target : Target} {line : Nat}
    {slot : Slot} (hc : Ok t c) (h : Run.targetSlot c target line m = (.ok slot, m')) :
    Fits t m target.label slot := by
  rcases targetSlot_cases h with ⟨u, rfl, hu, hh⟩ | h
  · obtain rfl := hc u hu
    exact ⟨rfl, hh⟩
  · rcases slot?_cases h with ⟨i, rfl, -⟩ | ⟨u, rfl, hu, hh⟩ | ⟨rfl, hg⟩
    · trivial
    · obtain rfl := hc u hu
      exact ⟨rfl, hh⟩
    · exact hg

/-- A name keeps its place while code runs. -/
theorem Fits.mono {m m' : Machine} {name : String} {slot : Slot} (h : Fits t m name slot)
    (ht : Touches t m m') : Fits t m' name slot := by
  cases slot with
  | inner i => trivial
  | field u =>
    refine ⟨h.1, ?_⟩
    rw [Fields.has_iff_mem_names, ht.fields, ← Fields.has_iff_mem_names]
    exact h.2
  | global =>
    show m'.globals.values.has name = true
    rw [Fields.has_iff_mem_names, ht.vars, ← Fields.has_iff_mem_names]
    exact h

/-- A write to a name that has its place. -/
theorem touches_save {m : Machine} {name : String} {slot : Slot} (h : Fits t m name slot)
    (v : Value) : Touches t m (m.save name v slot) ∧
      (m.save name v slot).locals.length = m.locals.length := by
  cases slot with
  | inner i => exact ⟨.of_eq rfl rfl, List.length_modify _ _ _⟩
  | field u =>
    obtain ⟨rfl, hh⟩ := h
    -- a table that has a field is one of the store, so the write takes place
    refine ⟨⟨Store.size_set _, fun w hw => Store.get_set_of_ne hw _, ?_, rfl, rfl⟩, rfl⟩
    have hin : m.store.Has u := by
      by_contra hn
      rw [Store.get_of_not_has hn] at hh
      cases hh
    show ((m.store.set u _).get u).names = _
    rw [Store.get_set_self hin, Fields.names_put_of_has hh]
  | global =>
    exact ⟨⟨rfl, fun _ _ => rfl, rfl, Fields.names_put_of_has h v, rfl⟩, rfl⟩

theorem keeps_assign {c : Context} {target : Target} {op : AssignOp} {x : Run Value} {line : Nat}
    (hc : Ok t c) (hx : Keeps t (·.Within fun _ => True) x) :
    Keeps t (·.Within fun _ => True) (Run.assign c target op x line) := by
  intro m hm
  rw [Run.assign, Run.run_bind]
  rcases hs : Run.targetSlot c target line m with ⟨slot, m'⟩
  obtain rfl := (Run.Reads.targetSlot c target line).eq hs
  cases slot with
  | error e => exact ⟨Touches.refl t m, fun a ha => nomatch ha⟩
  | ok slot =>
    -- the slot is found before the value is computed; meanwhile the name keeps its place
    have hfits := fits_of_targetSlot hc hs
    obtain ⟨ht, hok⟩ := hx m hm
    show Kept t _ m ((x >>= _) m)
    rw [Run.run_bind]
    rcases hr : x m with ⟨r, m₁⟩
    rw [hr] at ht hok
    cases r with
    | error e => exact ⟨ht, fun a ha => nomatch ha⟩
    | ok v =>
      have hl : m₁.locals.length = m.locals.length := (hok v rfl).2
      have hsave : ∀ w, Touches t m (m₁.save target.label w slot) ∧
          (m₁.save target.label w slot).locals.length = m.locals.length := by
        intro w
        obtain ⟨hw, hwl⟩ := touches_save (hfits.mono ht) w
        exact ⟨ht.trans hw, hwl.trans hl⟩
      dsimp only
      rw [Run.run_bind_ok (Run.run_get m₁)]
      cases op.binary? with
      | none => exact ⟨(hsave v).1, fun a _ => ⟨within_all a, (hsave v).2⟩⟩
      | some o =>
        dsimp only
        rw [Run.run_bind]
        cases applyBinary m₁.store o (m₁.load target.label slot) v (some line) with
        | error f => exact ⟨ht, fun a ha => nomatch ha⟩
        | ok w => exact ⟨(hsave w).1, fun a _ => ⟨within_all a, (hsave w).2⟩⟩

theorem keeps_declare {name : String} {v : Value} {mutable : Bool} :
    Keeps t (fun _ => True) (Run.modify fun m => m.declare name v mutable) := by
  intro m hm
  rw [Run.run_modify, Machine.declare]
  split
  · next hnil => exact absurd hnil hm
  · next s rest hcons =>
    refine ⟨.of_eq rfl rfl, fun _ _ => ⟨trivial, ?_⟩⟩
    rw [hcons]
    rfl

theorem keeps_collect {v : Value} : Keeps t (fun _ => True) (Run.collect v) := by
  intro m _
  unfold Run.collect
  split
  · exact ⟨.of_eq rfl rfl, fun _ _ => ⟨trivial, rfl⟩⟩
  · exact ⟨Touches.refl t m, fun _ _ => ⟨trivial, rfl⟩⟩

theorem keeps_builtin {name : String} {args : List Value} {line : Nat} :
    Keeps t (·.Within fun _ => True) (Run.builtin name args line) := by
  unfold Run.builtin
  split
  · refine keeps_of_reads ?_
    split
    · exact .pure _
    · exact .bind (.display _) fun _ => .pure _
  · split
    · refine keeps_of_reads ?_
      split
      · refine .bind .get fun m => ?_
        split
        · exact .pure _
        · exact .halt _
      · exact .halt _
    · intro m _
      rw [Run.run_bind]
      rcases hr : Run.each Run.display args m with ⟨r, m'⟩
      obtain rfl := (Run.Reads.each Run.Reads.display args).eq hr
      cases r with
      | error e => exact ⟨Touches.refl t m, fun a ha => by cases ha⟩
      | ok texts => exact ⟨.of_eq rfl rfl, fun a _ => ⟨within_all a, rfl⟩⟩

/-! ## Whole runs -/

theorem rules (t : TableId) : Rules (Ok t) (fun _ => True) (Keeps t) (Keeps t) where
  pure := keeps_pure
  bind := keeps_bind
  halt := keeps_halt
  widen := id
  chain := keeps_bind
  inScope _ := keeps_inScope
  inCall _ hx m _ := kept_inCall hx _ m
  collecting hx := keeps_collecting hx fun _ _ _ => within_all _
  collect _ := keeps_collect
  declare _ := keeps_declare
  assign := keeps_assign
  valueOf name line _ := keeps_of_reads (.valueOf _ name line)
  eventOf name line _ := keeps_of_reads (.eventOf _ name line)
  memberOf name line _ := keeps_of_reads (.memberOf _ name line)
  builtin _ _ _ := keeps_builtin
  operate op line _ _ := keeps_of_reads (.operate op _ _ line)
  same _ _ m _ := ⟨Touches.refl t m, fun _ _ => ⟨trivial, rfl⟩⟩
  ofFunction _ _ h := nomatch h

end Footprint

/-- **A call touches no more than it may.** -/
theorem call_touches {t : TableId} {c : Context} (hc : Footprint.Ok t c) (d : Nat) (fn : FnDecl)
    (args : List Value) (m : Machine) : Touches t m (call d c fn args m).2 := by
  cases d with
  | zero =>
    rw [call]
    exact Touches.refl t m
  | succ d =>
    have hbody := (Footprint.rules t).body ((Footprint.rules t).holds d) hc fn.body
    rw [call]
    exact (Footprint.kept_inCall hbody _ m).1

/-! ## Methods that the interpreter runs -/

/-- Whether a program is another one but for the values of its variables. -/
structure Program.SameBut (p p' : Program) : Prop where
  code : p'.code = p.code
  defaults : p'.defaults = p.defaults
  result : p'.result = p.result
  vars : p'.globals.values.names = p.globals.values.names
  consts : p'.globals.consts = p.globals.consts

theorem Program.SameBut.refl (p : Program) : p.SameBut p := ⟨rfl, rfl, rfl, rfl, rfl⟩

theorem Program.SameBut.trans {p₁ p₂ p₃ : Program} (h₁ : p₁.SameBut p₂) (h₂ : p₂.SameBut p₃) :
    p₁.SameBut p₃ where
  code := h₂.code.trans h₁.code
  defaults := h₂.defaults.trans h₁.defaults
  result := h₂.result.trans h₁.result
  vars := h₂.vars.trans h₁.vars
  consts := h₂.consts.trans h₁.consts

/-- Whether an interpreter has the program of another one but for the values of its variables. -/
def Interpreter.SameProgram (i i' : Interpreter) : Prop :=
  Option.Rel Program.SameBut i.program i'.program

theorem Interpreter.SameProgram.of_eq {i i' : Interpreter} (h : i'.program = i.program) :
    i.SameProgram i' := by
  rw [SameProgram, h]
  cases i.program with
  | none => exact .none
  | some p => exact .some (Program.SameBut.refl p)

theorem Interpreter.SameProgram.trans {i₁ i₂ i₃ : Interpreter} (h₁ : i₁.SameProgram i₂)
    (h₂ : i₂.SameProgram i₃) : i₁.SameProgram i₃ := by
  unfold SameProgram at h₁ h₂ ⊢
  generalize i₁.program = p₁ at h₁ ⊢
  generalize i₂.program = p₂ at h₁ h₂
  generalize i₃.program = p₃ at h₂ ⊢
  cases h₁ with
  | none => exact h₂
  | some hs =>
    cases h₂ with
    | some hs' => exact .some (hs.trans hs')

/-- What may have changed when a method was run on the fields of a table. -/
structure Store.Footprint (t : TableId) (σ σ' : Store) : Prop where
  size : σ'.tables.size = σ.tables.size
  others : ∀ u, u ≠ t → σ'.get u = σ.get u
  names : (σ'.get t).names = (σ.get t).names

/-- A method that is called is there and run, or the call is an error of the language. -/
theorem Interpreter.invoke_cases (i : Interpreter) (σ : Store) (widget method : String)
    (args : List Value) (t : TableId) :
    (∃ e, i.invoke σ widget method args t = (.error (.source e), i, σ)) ∨
      ∃ (p : Program) (decl : TypeDecl) (fn : FnDecl), i.program = some p ∧
        p.code.type? widget = some decl ∧ decl.method? method = some fn ∧
        i.invoke σ widget method args t = i.execute p σ fn.line
          (call evaluationLimit (p.context widget t) fn (addressEvent widget method args)) := by
  cases hp : i.program with
  | none => exact Or.inl ⟨_, by simp only [invoke, hp]; rfl⟩
  | some p =>
    cases hd : p.code.type? widget with
    | none => exact Or.inl ⟨_, by simp only [invoke, hp, hd]; rfl⟩
    | some decl =>
      cases hm : decl.method? method with
      | none => exact Or.inl ⟨_, by simp only [invoke, hp, hd, hm]; rfl⟩
      | some fn =>
        exact Or.inr ⟨p, decl, fn, rfl, hd, hm, invoke_method hp hd hm args t⟩

/-- **A method changes the values of fields in its own table and of variables, and nothing else**,
whether it succeeds or fails. -/
theorem invoke_footprint {i i' : Interpreter} {σ σ' : Store} {widget method : String}
    {args : List Value} {t : TableId} {r : Except Fault Value}
    (h : i.invoke σ widget method args t = (r, i', σ')) :
    i.SameProgram i' ∧ σ.Footprint t σ' := by
  rcases i.invoke_cases σ widget method args t with ⟨e, hcall⟩ | ⟨p, _, fn, hp, -, -, hcall⟩
  · cases hcall.symm.trans h
    exact ⟨.of_eq rfl, rfl, fun _ _ => rfl, rfl⟩
  · cases hcall.symm.trans h
    have hc : Footprint.Ok t (p.context widget t) := fun u hu => (Option.some.inj hu).symm
    have ht := call_touches hc evaluationLimit fn
      (Interpreter.addressEvent widget method args)
      { globals := p.globals, store := σ, output := i.output }
    refine ⟨?_, ht.size, ht.others, ht.fields⟩
    rw [Interpreter.SameProgram, hp]
    exact .some ⟨rfl, rfl, rfl, ht.vars, ht.consts⟩

end Widgetry
