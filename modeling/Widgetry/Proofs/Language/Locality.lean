import Widgetry.Language.Interpreter
import Widgetry.Proofs.Language.Rules

/-!
# What running code depends on

A method sees the variables of its program, the table of its fields and the tables that those refer
to. Whatever else a machine holds, other tables and printed lines, makes no difference.

> `invoke_local`: a method gives the same result in two interpreters with the same code and the same
> variables, on stores that agree on the tables it can reach.

The proof runs both machines side by side: `Machine.Agree` says that they are the same as far as the
code can see, and every step keeps them so and gives the same result on both.
-/

namespace Widgetry

/-- Whether two machines are the same but for tables outside of a set and for printed lines; `t` is
the table of fields of the running method. -/
structure Machine.Agree (S : TableId → Prop) (t : TableId) (m₁ m₂ : Machine) : Prop where
  globals : m₁.globals = m₂.globals
  locals : m₁.locals = m₂.locals
  children : m₁.children = m₂.children
  store : m₁.store.Agree S m₂.store
  has : m₁.store.Has t ↔ m₂.store.Has t
  withinGlobals : m₁.globals.values.Within S
  withinLocals : ∀ s ∈ m₁.locals, s.values.Within S
  withinChildren : ∀ ns, m₁.children = some ns → ∀ n ∈ ns, (Value.node n).Within S

namespace Locality

variable {S : TableId → Prop} {t : TableId} {m m₁ m₂ : Machine} {α β : Type} {P : α → Prop}
  {Q : β → Prop} {c : Context}

/-- Whether a context has the fields of a table of the set, or none. -/
def Ok (S : TableId → Prop) (t : TableId) (c : Context) : Prop :=
  ∀ u, c.fields = some u → u = t ∧ S t

/-- Whether two computations ended alike. -/
structure Alike (S : TableId → Prop) (t : TableId) {α : Type} (P : α → Prop)
    (r₁ r₂ : Except Halt α × Machine) : Prop where
  result : r₁.1 = r₂.1
  agree : r₁.2.Agree S t r₂.2
  post : ∀ a, r₁.1 = .ok a → P a

/-- Whether a computation ends alike on machines that agree. -/
def Local (S : TableId → Prop) (t : TableId) {α : Type} (P : α → Prop) (x : Run α) : Prop :=
  ∀ m₁ m₂ : Machine, m₁.Agree S t m₂ → Alike S t P (x m₁) (x m₂)

theorem local_pure {a : α} (h : P a) : Local S t P (pure a) := fun _ _ hm =>
  ⟨rfl, hm, fun _ hb => by cases hb; exact h⟩

theorem local_halt (h : Halt) : Local S t P (Run.halt h) := fun _ _ hm =>
  ⟨rfl, hm, fun _ hb => nomatch hb⟩

theorem local_bind {x : Run α} {f : α → Run β} (hx : Local S t P x)
    (hf : ∀ a, P a → Local S t Q (f a)) : Local S t Q (x >>= f) := by
  intro m₁ m₂ hm
  have h := hx m₁ m₂ hm
  rw [Run.run_bind, Run.run_bind]
  rcases hr₁ : x m₁ with ⟨r₁, m₁'⟩
  rcases hr₂ : x m₂ with ⟨r₂, m₂'⟩
  rw [hr₁, hr₂] at h
  obtain ⟨hr, ha, hp⟩ := h
  cases hr
  cases r₁ with
  | error e => exact ⟨rfl, ha, fun _ hb => nomatch hb⟩
  | ok a => exact hf a (hp a rfl) m₁' m₂' ha

/-- A step that looks at the machine and then goes on alike. -/
theorem local_get {f : Machine → Run β} (h : ∀ m₁ m₂ : Machine, m₁.Agree S t m₂ →
    f m₁ = f m₂ ∧ Local S t Q (f m₁)) : Local S t Q (Run.get >>= f) := by
  intro m₁ m₂ hm
  obtain ⟨he, hl⟩ := h m₁ m₂ hm
  rw [Run.run_bind_ok (Run.run_get m₁), Run.run_bind_ok (Run.run_get m₂), ← he]
  exact hl m₁ m₂ hm

theorem local_ofExcept {x : Except Fault α} (h : ∀ a, x = .ok a → P a) :
    Local S t P (Run.ofExcept x) := by
  cases x with
  | ok a => exact local_pure (h a rfl)
  | error f => exact local_halt _

/-! ## Names -/

theorem slot?_field {u : TableId} {name : String} (h : m.slot? c name = some (.field u)) :
    c.fields = some u := by
  unfold Machine.slot? at h
  split at h
  · cases h
  · split at h
    · next w hw =>
      split at h
      · cases h
        exact hw
      · split at h
        · cases h
        · cases h
    · split at h
      · cases h
      · cases h

theorem slot?_eq (hm : m₁.Agree S t m₂) (hc : Ok S t c) (name : String) :
    m₁.slot? c name = m₂.slot? c name := by
  unfold Machine.slot?
  rw [hm.locals, hm.globals]
  cases hf : c.fields with
  | none => rfl
  | some u =>
    obtain ⟨rfl, hS⟩ := hc u hf
    dsimp only
    rw [hm.store.same u hS]

/-- The value in a slot is the same in both machines. -/
theorem load_eq (hm : m₁.Agree S t m₂) (name : String) {slot : Slot}
    (hs : ∀ u, slot = .field u → S u) :
    m₁.load name slot = m₂.load name slot ∧ (m₁.load name slot).Within S := by
  have hget : ∀ {fs : Fields}, fs.Within S → ((fs.get? name).getD .nil).Within S := by
    intro fs h
    cases hv : fs.get? name with
    | none => exact Value.within_scalar _
    | some v => exact h.get? hv
  cases slot with
  | inner i =>
    refine ⟨by simp only [Machine.load, hm.locals], ?_⟩
    show (((m₁.locals[i]?.getD {}).values.get? name).getD .nil).Within S
    refine hget ?_
    cases hi : m₁.locals[i]? with
    | none => exact fun _ hf => nomatch hf
    | some s => exact hm.withinLocals s (List.mem_of_getElem? hi)
  | field u =>
    have hS := hs u rfl
    exact ⟨by simp only [Machine.load, hm.store.same u hS], hget (hm.store.closed u hS)⟩
  | global => exact ⟨by simp only [Machine.load, hm.globals], hget hm.withinGlobals⟩

theorem slot_within (hc : Ok S t c) {name : String} {slot : Slot} (h : m.slot? c name = some slot) :
    ∀ u, slot = .field u → S u := by
  intro u hu
  subst hu
  obtain ⟨rfl, hS⟩ := hc u (slot?_field h)
  exact hS

theorem local_valueOf (hc : Ok S t c) (name : String) (line : Nat) :
    Local S t (·.Within S) (Run.valueOf c name line) := by
  unfold Run.valueOf
  split
  · next u _ hu =>
    obtain ⟨rfl, hS⟩ := hc u hu
    exact local_pure (Value.within_live hS)
  · refine local_get fun m₁ m₂ hm => ?_
    rw [slot?_eq hm hc name]
    cases hs : m₂.slot? c name with
    | none => exact ⟨rfl, local_halt _⟩
    | some slot =>
      obtain ⟨he, hw⟩ := load_eq hm name (slot_within hc hs)
      exact ⟨congrArg pure he, local_pure hw⟩

theorem local_memberOf {v : Value} (hv : v.Within S) (name : String) (line : Nat) :
    Local S t (·.Within S) (Run.memberOf v name line) := by
  unfold Run.memberOf
  split
  · next entries =>
    split
    · next w hw =>
      obtain ⟨e, he, rfl⟩ := Entries.mem_of_find? hw
      exact local_pure (Value.within_object.mp hv e he)
    · exact local_halt _
  · next u =>
    -- a reference leads to a table that is the same in both stores
    have hS : S u := hv u List.mem_cons_self
    refine local_get fun m₁ m₂ hm => ?_
    rw [hm.store.same u hS]
    cases hg : (m₂.store.get u).get? name with
    | none => exact ⟨rfl, local_halt _⟩
    | some w =>
      rw [← hm.store.same u hS] at hg
      exact ⟨rfl, local_pure ((hm.store.closed u hS).get? hg)⟩
  · next n =>
    refine local_pure ?_
    cases hg : n.prop? name with
    | none => exact Value.within_scalar _
    | some w =>
      obtain ⟨e, he, rfl⟩ := Entries.mem_of_find? hg
      exact hv.props e he
  · split
    · exact local_pure (Value.within_scalar _)
    · exact local_halt _
  · split
    · exact local_pure (Value.within_scalar _)
    · exact local_halt _
  · exact local_halt _

theorem local_eventOf (hc : Ok S t c) (name : String) (line : Nat) :
    Local S t (·.Within S) (Run.eventOf c name line) := by
  refine local_get fun m₁ m₂ hm => ?_
  rw [slot?_eq hm hc "Msg"]
  cases hs : m₂.slot? c "Msg" with
  | none => exact ⟨rfl, local_pure (Value.within_scalar _)⟩
  | some slot =>
    obtain ⟨he, hw⟩ := load_eq hm "Msg" (slot_within hc hs)
    exact ⟨congrArg (Run.memberOf · name line) he, local_memberOf hw name line⟩

/-! ## Operators and built-in functions -/

theorem within_list_append {xs ys : List Value} (hx : (Value.list xs).Within S)
    (hy : (Value.list ys).Within S) : (Value.list (xs ++ ys)).Within S := by
  rw [Value.within_list] at hx hy ⊢
  intro v hv
  rcases List.mem_append.mp hv with hv | hv
  · exact hx v hv
  · exact hy v hv

theorem within_applyPlain {op : BinaryOp} {a b w : Value} {line : Option Nat}
    (h : applyPlain op a b line = .ok w) : w.Within S := by
  have hnum : ∀ {x y : Quantity}, Fault.ofNumber (arithmetic op x y) = .ok w → w.Within S := by
    intro x y h
    unfold arithmetic at h
    cases hxy : x.operands y with
    | error e =>
      rw [hxy] at h
      cases h
    | ok o =>
      rw [hxy] at h
      cases o <;> cases h <;> exact Value.within_scalar _
  unfold applyPlain at h
  split at h
  · unfold applyNumbers at h
    split at h
    all_goals first
      | (cases h; exact Value.within_scalar _)
      | exact hnum h
      | (split at h
         · cases h
         · exact hnum h)
  · cases h

theorem within_applyBinary {σ : Store} {op : BinaryOp} {a b w : Value} {line : Option Nat}
    (ha : a.Within S) (hb : b.Within S) (h : applyBinary σ op a b line = .ok w) : w.Within S := by
  unfold applyBinary at h
  split at h
  case h_1 | h_2 | h_3 | h_4 =>
    cases h
    exact Value.within_scalar _
  case h_5 =>
    split at h
    · cases hx : (σ.read a).display with
      | error e =>
        rw [hx] at h
        cases h
      | ok x =>
        cases hy : (σ.read b).display with
        | error e =>
          rw [hx, hy] at h
          cases h
        | ok y =>
          rw [hx, hy] at h
          cases h
          exact Value.within_scalar _
    · split at h
      · cases h
        exact within_list_append ha hb
      · exact within_applyPlain h
  case h_6 => exact within_applyPlain h

theorem applyBinary_eq {σ₁ σ₂ : Store} (h : σ₁.Agree S σ₂) {a b : Value} (ha : a.Within S)
    (hb : b.Within S) (op : BinaryOp) (line : Option Nat) :
    applyBinary σ₁ op a b line = applyBinary σ₂ op a b line := by
  unfold applyBinary
  rw [h.read_eq ha, h.read_eq hb]

theorem local_operate {a b : Value} (op : BinaryOp) (line : Nat) (ha : a.Within S)
    (hb : b.Within S) : Local S t (·.Within S) (Run.operate op a b line) :=
  local_get fun _ _ hm => ⟨by rw [applyBinary_eq hm.store ha hb],
    local_ofExcept fun _ => within_applyBinary ha hb⟩

theorem local_same {a b : Value} (ha : a.Within S) (hb : b.Within S) :
    Local S t (fun _ => True) (Run.same a b) :=
  local_get fun _ _ hm => ⟨by rw [hm.store.read_eq ha, hm.store.read_eq hb], local_pure trivial⟩

theorem local_display {v : Value} (hv : v.Within S) :
    Local S t (fun _ => True) (Run.display v) :=
  local_get fun _ _ hm => ⟨by rw [hm.store.read_eq hv], local_ofExcept fun _ _ => trivial⟩

theorem length?_eq (hm : m₁.Agree S t m₂) {v : Value} (hv : v.Within S) :
    m₁.length? v = m₂.length? v := by
  cases v with
  | live u => simp only [Machine.length?, hm.store.same u (hv u List.mem_cons_self)]
  | scalar s => cases s <;> rfl
  | _ => rfl

/-- A change that both machines take alike. -/
theorem local_modify {f : Machine → Machine}
    (h : ∀ m₁ m₂ : Machine, m₁.Agree S t m₂ → (f m₁).Agree S t (f m₂)) :
    Local S t (fun _ => True) (Run.modify f) :=
  fun m₁ m₂ hm => ⟨rfl, h m₁ m₂ hm, fun _ _ => trivial⟩

theorem local_each {f : α → Run β} {l : List α} (h : ∀ a ∈ l, Local S t (fun _ => True) (f a)) :
    Local S t (fun _ => True) (Run.each f l) := by
  induction l with
  | nil => exact local_pure trivial
  | cons a rest ih =>
    refine local_bind (h a List.mem_cons_self) fun b _ => ?_
    exact local_bind (ih fun a' ha => h a' (List.mem_cons_of_mem _ ha)) fun _ _ =>
      local_pure trivial

theorem local_builtin {args : List Value} (name : String) (line : Nat)
    (h : ∀ v ∈ args, v.Within S) : Local S t (·.Within S) (Run.builtin name args line) := by
  unfold Run.builtin
  split
  · split
    · exact local_pure (Value.within_scalar _)
    · exact local_bind (local_display (h _ List.mem_cons_self)) fun _ _ =>
        local_pure (Value.within_scalar _)
  · split
    · split
      · next v =>
        refine local_get fun m₁ m₂ hm => ?_
        rw [length?_eq hm (h v List.mem_cons_self)]
        refine ⟨rfl, ?_⟩
        split
        · exact local_pure (Value.within_scalar _)
        · exact local_halt _
      · exact local_halt _
    · refine local_bind (local_each fun v hv => local_display (h v hv)) fun texts _ => ?_
      refine local_bind (local_modify fun m₁ m₂ hm => ?_) fun _ _ =>
        local_pure (Value.within_scalar _)
      exact ⟨hm.globals, hm.locals, hm.children, hm.store, hm.has, hm.withinGlobals,
        hm.withinLocals, hm.withinChildren⟩

/-! ## Writing -/

theorem Scope.within_declare {s : Scope} {v : Value} (h : s.values.Within S) (hv : v.Within S)
    (name : String) (mutable : Bool) : (s.declare name v mutable).values.Within S :=
  h.put hv name

theorem agree_declare (hm : m₁.Agree S t m₂) {v : Value} (hv : v.Within S) (name : String)
    (mutable : Bool) : (m₁.declare name v mutable).Agree S t (m₂.declare name v mutable) := by
  unfold Machine.declare
  rw [← hm.locals]
  cases hl : m₁.locals with
  | nil =>
    refine ⟨by rw [hm.globals], rfl, hm.children, hm.store, hm.has,
      Scope.within_declare hm.withinGlobals hv name mutable, ?_, hm.withinChildren⟩
    exact fun _ hs => nomatch hs
  | cons s rest =>
    have hw := hm.withinLocals
    rw [hl] at hw
    refine ⟨hm.globals, rfl, hm.children, hm.store, hm.has, hm.withinGlobals, ?_,
      hm.withinChildren⟩
    intro s' hs'
    rcases List.mem_cons.mp hs' with rfl | hs'
    · exact Scope.within_declare (hw s List.mem_cons_self) hv name mutable
    · exact hw s' (List.mem_cons_of_mem _ hs')

/-- A write to the same table of both stores. -/
theorem agree_set {σ₁ σ₂ : Store} (h : σ₁.Agree S σ₂) (hh : σ₁.Has t ↔ σ₂.Has t) {fs : Fields}
    (hf : fs.Within S) : (σ₁.set t fs).Agree S (σ₂.set t fs) := by
  by_cases hin : σ₁.Has t
  · have hin₂ := hh.mp hin
    constructor
    · intro u hu
      by_cases he : u = t
      · rw [he, Store.get_set_self hin, Store.get_set_self hin₂]
      · rw [Store.get_set_of_ne he, Store.get_set_of_ne he, h.same u hu]
    · intro u hu
      by_cases he : u = t
      · rw [he, Store.get_set_self hin]
        exact hf
      · rw [Store.get_set_of_ne he]
        exact h.closed u hu
  · -- neither store has the table, so neither changes
    have hin₂ : ¬ σ₂.Has t := fun hn => hin (hh.mpr hn)
    have hset : ∀ {σ : Store}, ¬ σ.Has t → σ.set t fs = σ := by
      intro σ hn
      rw [Store.set, Array.setIfInBounds_eq_of_size_le (Nat.le_of_not_lt hn)]
    rw [hset hin, hset hin₂]
    exact h

theorem agree_save (hm : m₁.Agree S t m₂) {v : Value} (hv : v.Within S) (name : String)
    {slot : Slot} (hs : ∀ u, slot = .field u → u = t ∧ S t) :
    (m₁.save name v slot).Agree S t (m₂.save name v slot) := by
  cases slot with
  | inner i =>
    refine ⟨hm.globals, by simp only [Machine.save, hm.locals], hm.children, hm.store, hm.has,
      hm.withinGlobals, ?_, hm.withinChildren⟩
    intro s hs
    obtain ⟨j, hj⟩ := List.mem_iff_getElem?.mp hs
    rw [show (m₁.save name v (.inner i)).locals
      = m₁.locals.modify i (·.store name v) from rfl, List.getElem?_modify] at hj
    cases hl : m₁.locals[j]? with
    | none => simp [hl] at hj
    | some s' =>
      have hw := hm.withinLocals s' (List.mem_of_getElem? hl)
      rw [hl] at hj
      by_cases he : i = j
      · simp only [he, if_true] at hj
        cases hj
        exact Fields.Within.put hw hv name
      · simp only [he, if_false] at hj
        cases hj
        exact hw
  | field u =>
    obtain ⟨rfl, hS⟩ := hs u rfl
    have hf : Fields.Within S (Fields.put name v (m₁.store.get u)) :=
      (hm.store.closed u hS).put hv name
    refine ⟨hm.globals, hm.locals, hm.children, ?_, ?_, hm.withinGlobals, hm.withinLocals,
      hm.withinChildren⟩
    · show (m₁.store.set u _).Agree S (m₂.store.set u _)
      rw [← hm.store.same u hS]
      exact agree_set hm.store hm.has hf
    · show _ < _ ↔ _ < _
      simp only [Machine.save, Store.size_set]
      exact hm.has
  | global =>
    exact ⟨by simp only [Machine.save, hm.globals], hm.locals, hm.children, hm.store, hm.has,
      Fields.Within.put hm.withinGlobals hv name, hm.withinLocals, hm.withinChildren⟩

theorem isConst_eq (hm : m₁.Agree S t m₂) (name : String) (slot : Slot) :
    m₁.isConst name slot = m₂.isConst name slot := by
  cases slot <;> simp only [Machine.isConst, hm.locals, hm.globals]

/-- The slot that is written to is the same in both machines. -/
theorem local_targetSlot (hc : Ok S t c) (target : Target) (line : Nat) :
    Local S t (fun slot => ∀ u, slot = .field u → u = t ∧ S t)
      (Run.targetSlot c target line) := by
  refine local_get fun m₁ m₂ hm => ?_
  cases target with
  | member obj name l =>
    dsimp only
    split
    · cases hf : c.fields with
      | none => exact ⟨rfl, local_halt _⟩
      | some u =>
        obtain ⟨rfl, hS⟩ := hc u hf
        dsimp only
        rw [hm.store.same u hS]
        refine ⟨rfl, ?_⟩
        split
        · refine local_pure fun w hw => ?_
          cases hw
          exact ⟨rfl, hS⟩
        · exact local_halt _
    · exact ⟨rfl, local_halt _⟩
  | name name l =>
    dsimp only
    rw [slot?_eq hm hc name]
    cases hs : m₂.slot? c name with
    | none => exact ⟨rfl, local_halt _⟩
    | some slot =>
      dsimp only
      rw [isConst_eq hm name slot]
      refine ⟨rfl, ?_⟩
      split
      · exact local_halt _
      · refine local_pure fun u hu => ?_
        subst hu
        exact hc u (slot?_field hs)

theorem local_assign {target : Target} {op : AssignOp} {x : Run Value} {line : Nat}
    (hc : Ok S t c) (hx : Local S t (·.Within S) x) :
    Local S t (·.Within S) (Run.assign c target op x line) := by
  refine local_bind (local_targetSlot hc target line) fun slot hs => ?_
  refine local_bind hx fun v hv => ?_
  -- with an operator or without, the end is a write of a value within the set
  have hwrite : ∀ w : Value, w.Within S → Local S t (fun v : Value => v.Within S) (do
      Run.modify fun m => m.save target.label w slot
      return .nil) := by
    intro w hw
    exact local_bind (local_modify fun m₁ m₂ hm => agree_save hm hw _ hs) fun _ _ =>
      local_pure (Value.within_scalar _)
  refine local_get fun m₁ m₂ hm => ?_
  cases op.binary? with
  | none => exact ⟨rfl, hwrite v hv⟩
  | some o =>
    obtain ⟨he, hw⟩ := load_eq hm target.label fun u hu => (hs u hu).1 ▸ (hs u hu).2
    dsimp only
    rw [← he, applyBinary_eq hm.store hw hv]
    exact ⟨rfl, local_bind (local_ofExcept fun w => within_applyBinary hw hv) hwrite⟩

theorem local_collect {v : Value} (hv : v.Within S) :
    Local S t (fun _ => True) (Run.collect v) := by
  unfold Run.collect
  split
  · next n =>
    refine local_modify fun m₁ m₂ hm => ?_
    refine ⟨hm.globals, hm.locals, by rw [hm.children], hm.store, hm.has, hm.withinGlobals,
      hm.withinLocals, ?_⟩
    intro ns hns n' hn'
    cases hch : m₁.children with
    | none => simp [hch] at hns
    | some old =>
      simp only [hch, Option.map_some, Option.some.injEq] at hns
      rw [← hns] at hn'
      rcases List.mem_append.mp hn' with hn' | hn'
      · exact hm.withinChildren old hch n' hn'
      · cases List.mem_singleton.mp hn'
        exact hv
  · exact local_pure trivial

/-! ## Scopes -/

/-- Other scopes and children, the same in both machines. -/
theorem agree_aside (hm : m₁.Agree S t m₂) {scopes : List Scope} {children : Option (List Node)}
    (hs : ∀ s ∈ scopes, s.values.Within S)
    (hc : ∀ ns, children = some ns → ∀ n ∈ ns, (Value.node n).Within S) :
    Machine.Agree S t { m₁ with locals := scopes, children := children }
      { m₂ with locals := scopes, children := children } :=
  ⟨hm.globals, rfl, rfl, hm.store, hm.has, hm.withinGlobals, hs, hc⟩

theorem local_inScope {s : Scope} {x : Run α} (hs : s.values.Within S) (hx : Local S t P x) :
    Local S t P (Run.inScope s x) := by
  refine local_bind (local_modify fun m₁ m₂ hm => ?_) fun _ _ => ?_
  · refine ⟨hm.globals, congrArg (s :: ·) hm.locals, hm.children, hm.store, hm.has,
      hm.withinGlobals, ?_, hm.withinChildren⟩
    intro s' hs'
    rcases List.mem_cons.mp hs' with rfl | hs'
    · exact hs
    · exact hm.withinLocals s' hs'
  · refine local_bind hx fun a ha => local_bind (local_modify fun m₁ m₂ hm => ?_) fun _ _ =>
      local_pure ha
    exact ⟨hm.globals, congrArg List.tail hm.locals, hm.children, hm.store, hm.has,
      hm.withinGlobals, fun s' hs' => hm.withinLocals s' (List.mem_of_mem_tail hs'),
      hm.withinChildren⟩

theorem local_inCall {s : Scope} {x : Run α} (hs : s.values.Within S) (hx : Local S t P x) :
    Local S t P (Run.inCall s x) := by
  intro m₁ m₂ hm
  have hscope : ∀ s' ∈ [s], s'.values.Within S := by
    intro s' hs'
    cases List.mem_singleton.mp hs'
    exact hs
  have haside : Machine.Agree S t { m₁ with locals := [s], children := none }
      { m₂ with locals := [s], children := none } := agree_aside hm hscope nofun
  have hbody := hx _ _ haside
  refine ⟨hbody.result, ?_, hbody.post⟩
  simp only [Run.inCall, ← hm.locals, ← hm.children]
  exact agree_aside hbody.agree hm.withinLocals hm.withinChildren

theorem local_collecting {x : Run Value} (hx : Local S t (·.Within S) x) :
    Local S t (fun ns => ∀ n ∈ ns, (Value.node n).Within S) (Run.collecting x) := by
  refine local_get fun b₁ b₂ hb => ⟨by rw [hb.children], ?_⟩
  refine local_bind (local_modify fun m₁ m₂ hm => ?_) fun _ _ => ?_
  · refine ⟨hm.globals, hm.locals, rfl, hm.store, hm.has, hm.withinGlobals, hm.withinLocals, ?_⟩
    intro ns hns
    cases hns
    exact fun _ hn => nomatch hn
  · refine local_bind (local_inScope (s := {}) (fun _ hf => nomatch hf) hx) fun _ _ => ?_
    refine local_get fun a₁ a₂ ha => ⟨by rw [ha.children], ?_⟩
    refine local_bind (local_modify fun m₁ m₂ hm => ?_) fun _ _ => local_pure ?_
    · exact ⟨hm.globals, hm.locals, rfl, hm.store, hm.has, hm.withinGlobals, hm.withinLocals,
        hb.withinChildren⟩
    cases hch : a₁.children with
    | none => exact fun _ hn => nomatch hn
    | some ns => exact ha.withinChildren ns hch

/-! ## Whole runs -/

theorem rules (S : TableId → Prop) (t : TableId) : Rules (Ok S t) S (Local S t) (Local S t) where
  pure := local_pure
  bind := local_bind
  halt := local_halt
  widen := id
  chain := local_bind
  inScope := local_inScope
  inCall := local_inCall
  collecting := local_collecting
  collect := local_collect
  declare hv := local_modify fun _ _ hm => agree_declare hm hv _ _
  assign := local_assign
  valueOf name line hc := local_valueOf hc name line
  eventOf name line hc := local_eventOf hc name line
  memberOf name line hv := local_memberOf hv name line
  builtin name line h := local_builtin name line h
  operate := local_operate
  same := local_same
  ofFunction _ _ h := nomatch h

end Locality

theorem execute_result (i : Interpreter) (p : Program) (σ : Store) (line : Nat) (x : Run Value) :
    (i.execute p σ line x).1 = Except.mapError (·.settle { line := line })
      (x { globals := p.globals, store := σ, output := i.output }).1 := rfl

theorem within_addressEvent {S : TableId → Prop} (widget method : String) {args : List Value}
    (h : ∀ v ∈ args, v.Within S) :
    ∀ v ∈ Interpreter.addressEvent widget method args, v.Within S := by
  unfold Interpreter.addressEvent
  split
  · split
    · intro v hv
      rcases List.mem_cons.mp hv with rfl | hv
      · exact Value.within_scalar _
      · exact h v (List.mem_cons_of_mem _ hv)
    · exact h
  · exact h

/-- **A method depends only on what it can reach.** -/
theorem invoke_local {S : TableId → Prop} {t : TableId} {i₁ i₂ : Interpreter} {p₁ p₂ : Program}
    {σ₁ σ₂ : Store} (h₁ : i₁.program = some p₁) (h₂ : i₂.program = some p₂)
    (hcode : p₁.code = p₂.code) (hglobals : p₁.globals = p₂.globals)
    (hw : p₁.globals.values.Within S) (hσ : σ₁.Agree S σ₂) (ht : S t) (hh : σ₁.Has t ↔ σ₂.Has t)
    (widget method : String) {args : List Value} (hargs : ∀ v ∈ args, v.Within S) :
    (i₁.invoke σ₁ widget method args t).1 = (i₂.invoke σ₂ widget method args t).1 := by
  simp only [Interpreter.invoke, h₁, h₂, hcode]
  split
  · rfl
  · split
    · rfl
    · next fn _ =>
      have hc : Locality.Ok S t (p₂.context widget t) := fun u hu => ⟨(Option.some.inj hu).symm, ht⟩
      have hagree : Machine.Agree S t { globals := p₁.globals, store := σ₁, output := i₁.output }
          { globals := p₂.globals, store := σ₂, output := i₂.output } := by
        refine ⟨hglobals, rfl, rfl, hσ, hh, hw, ?_, ?_⟩
        · intro s hs
          cases hs
        · intro ns hns
          cases hns
      have hcall := ((Locality.rules S t).holds evaluationLimit).call (p₂.context widget t) fn _
        hc (within_addressEvent widget method hargs) _ _ hagree
      have hctx : p₁.context widget t = p₂.context widget t := by
        simp only [Program.context, hcode]
      rw [hctx, execute_result, execute_result, hcall.result]

end Widgetry
