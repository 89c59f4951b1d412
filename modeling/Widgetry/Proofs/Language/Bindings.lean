import Widgetry.Proofs.Language.Constants
import Widgetry.Proofs.Language.Scopes

/-!
# What `let` binds

A name that `let` bound in a scope keeps its value there until the scope itself declares the name
anew: nothing that is run in the scope, in a scope inside it or in a function called from there can
assign to it. It does not matter how the run ends. If it halts, scopes that it had opened inside are
still open, and the scopes of the frame lie behind them.

> `bindings_kept`: every expression, statement, body and call leaves what `let` bound in all scopes
> of its frame, but for the names that the statements themselves declare in the innermost of these.

The invariant is `Machine.KeepsBindings`. It also says that no name becomes immutable meanwhile, as
an assignment finds its target before its value is worked out.
-/

namespace Widgetry

open Run

/-- Whether a scope has the immutable names that it had, with their values. Nothing is said of the
names that may have been declared anew. -/
structure Scope.KeepsBindings (anew : String → Prop) (s s' : Scope) : Prop where
  consts : ∀ name, ¬ anew name → (name ∈ s'.consts ↔ name ∈ s.consts)
  value : ∀ name, ¬ anew name → name ∈ s.consts → s'.get? name = s.get? name

namespace Scope.KeepsBindings

variable {anew more : String → Prop} {s s₁ s₂ : Scope}

theorem refl (anew : String → Prop) (s : Scope) : s.KeepsBindings anew s :=
  ⟨fun _ _ => Iff.rfl, fun _ _ _ => rfl⟩

theorem trans (h₁ : s.KeepsBindings anew s₁) (h₂ : s₁.KeepsBindings anew s₂) :
    s.KeepsBindings anew s₂ where
  consts name hn := (h₂.consts name hn).trans (h₁.consts name hn)
  value name hn hmem :=
    (h₂.value name hn ((h₁.consts name hn).mpr hmem)).trans (h₁.value name hn hmem)

theorem mono (h : s.KeepsBindings anew s₁) (hmore : ∀ name, anew name → more name) :
    s.KeepsBindings more s₁ where
  consts name hn := h.consts name fun ha => hn (hmore name ha)
  value name hn := h.value name fun ha => hn (hmore name ha)

/-- A write to a name that may be assigned to. -/
theorem store {name : String} (h : name ∉ s.consts) (v : Value) :
    s.KeepsBindings anew (s.store name v) where
  consts _ _ := Iff.rfl
  value other _ ho := by
    have hne : ¬ name = other := by
      rintro rfl
      exact h ho
    show (s.values.put name v).get? other = _
    rw [Fields.get?_put, if_neg hne]
    rfl

/-- A declaration changes what is known of its own name only. -/
theorem declare (s : Scope) (name : String) (v : Value) (mutable : Bool) :
    s.KeepsBindings (· = name) (s.declare name v mutable) where
  consts other hne := by
    cases mutable with
    | true => simp [Scope.declare, hne]
    | false =>
      rw [Scope.declare, if_neg Bool.false_ne_true]
      split
      · exact Iff.rfl
      · simp [hne]
  value other hne _ := by
    show (s.values.put name v).get? other = _
    rw [Fields.get?_put, if_neg fun he => hne he.symm]
    rfl

end Scope.KeepsBindings

namespace Machine

/-- The scopes of the frame, the innermost first: those of the running function, and last the
variables of the program. -/
def scopes (m : Machine) : List Scope := m.locals ++ [m.globals]

/-- Whether all scopes of a frame keep what `let` bound, if some scopes were opened inside; in the
innermost scope of the frame some names may have been declared anew. -/
structure KeepsBindings (anew : String → Prop) (opened : Nat) (m m' : Machine) : Prop where
  length : m'.scopes.length = opened + m.scopes.length
  scope : ∀ i s, m.scopes[i]? = some s → ∃ s', m'.scopes[opened + i]? = some s' ∧
    s.KeepsBindings (fun name => i = 0 ∧ anew name) s'

variable {anew more : String → Prop} {opened : Nat} {m m₁ m₂ : Machine}

theorem scopes_locals {i : Nat} {s : Scope} (h : m.locals[i]? = some s) :
    m.scopes[i]? = some s := by
  rw [scopes, List.getElem?_append_left (List.getElem?_eq_some_iff.mp h).1, h]

theorem scopes_globals (m : Machine) : m.scopes[m.locals.length]? = some m.globals := by
  simp [scopes]

namespace KeepsBindings

/-- Nothing but scopes counts. -/
theorem of_scopes (anew : String → Prop) (h : m₁.scopes = m.scopes) :
    KeepsBindings anew 0 m m₁ where
  length := by rw [h, Nat.zero_add]
  scope i s hs := ⟨s, by rw [Nat.zero_add, h, hs], .refl _ s⟩

theorem trans (h₁ : KeepsBindings anew 0 m m₁) (h₂ : KeepsBindings anew opened m₁ m₂) :
    KeepsBindings anew opened m m₂ where
  length := by rw [h₂.length, h₁.length, Nat.zero_add]
  scope i s hs := by
    obtain ⟨s₁, hs₁, hk₁⟩ := h₁.scope i s hs
    rw [Nat.zero_add] at hs₁
    obtain ⟨s₂, hs₂, hk₂⟩ := h₂.scope i s₁ hs₁
    exact ⟨s₂, hs₂, hk₁.trans hk₂⟩

theorem mono (h : KeepsBindings anew opened m m₁) (hmore : ∀ name, anew name → more name) :
    KeepsBindings more opened m m₁ where
  length := h.length
  scope i s hs := by
    obtain ⟨s', hs', hk⟩ := h.scope i s hs
    exact ⟨s', hs', hk.mono fun name ha => ⟨ha.1, hmore name ha.2⟩⟩

/-- What the frame of an inner scope keeps, the frame around it keeps: the inner scope counts as
opened. -/
theorem around {s : Scope} (hm : m₁.scopes = s :: m.scopes)
    (h : KeepsBindings more opened m₁ m₂) : KeepsBindings anew (opened + 1) m m₂ where
  length := by
    rw [h.length, hm, List.length_cons]
    omega
  scope i t ht := by
    have hi : m₁.scopes[i + 1]? = some t := by rw [hm, List.getElem?_cons_succ, ht]
    obtain ⟨t', ht', hk⟩ := h.scope (i + 1) t hi
    refine ⟨t', by rw [← ht']; congr 1; omega, hk.mono ?_⟩
    rintro name ⟨hzero, -⟩
    omega

/-- Once the inner scope is closed again, none is open. -/
theorem closed (h : KeepsBindings anew 1 m m₁) (hl : m.locals.length + 1 = m₁.locals.length) :
    KeepsBindings anew 0 m { m₁ with locals := m₁.locals.tail } := by
  have htail : scopes { m₁ with locals := m₁.locals.tail } = m₁.scopes.tail := by
    cases hcases : m₁.locals with
    | nil =>
      rw [hcases] at hl
      cases hl
    | cons s rest =>
      rw [scopes, scopes, hcases]
      rfl
  refine ⟨?_, fun i s hs => ?_⟩
  · rw [htail, List.length_tail, h.length]
    omega
  · obtain ⟨s', hs', hk⟩ := h.scope i s hs
    exact ⟨s', by rw [htail, List.getElem?_tail, ← hs']; congr 1; omega, hk⟩

/-- The variables of the program are the last scope of every frame. -/
theorem globals (h : KeepsBindings anew opened m m₁) :
    m.globals.KeepsBindings (fun name => m.locals = [] ∧ anew name) m₁.globals := by
  obtain ⟨s', hs', hk⟩ := h.scope _ _ m.scopes_globals
  have hindex : opened + m.locals.length = m₁.locals.length := by
    have hl := h.length
    rw [scopes, scopes, List.length_append, List.length_append] at hl
    simp only [List.length_singleton] at hl
    omega
  rw [hindex, scopes_globals] at hs'
  cases hs'
  exact hk.mono fun name ha => ⟨List.length_eq_zero_iff.mp ha.1, ha.2⟩

end KeepsBindings

/-- Whether a run, with its result and the machine that it left, kept what `let` bound in the frame
that it began with. If it came to a result, it closed the scopes that it opened. -/
def KeptBy {α : Type} (m : Machine) (anew : String → Prop) (ran : Except Halt α × Machine) : Prop :=
  ∃ opened, KeepsBindings anew opened m ran.2 ∧ ∀ a, ran.1 = .ok a → opened = 0

namespace KeptBy

variable {α β : Type} {ran : Except Halt α × Machine}

theorem of_scopes (h : ran.2.scopes = m.scopes) : m.KeptBy anew ran :=
  ⟨0, .of_scopes anew h, fun _ _ => rfl⟩

theorem mono (h : m.KeptBy anew ran) (hmore : ∀ name, anew name → more name) :
    m.KeptBy more ran := by
  obtain ⟨opened, hk, hok⟩ := h
  exact ⟨opened, hk.mono hmore, hok⟩

/-- What is run after a run that came to a result. -/
theorem trans {also : String → Prop} {a : α} {next : Except Halt β × Machine}
    (h : m.KeptBy anew (.ok a, m₁)) (hanew : ∀ name, anew name → also name)
    (hmore : ∀ name, more name → also name) (hnext : m₁.KeptBy more next) :
    m.KeptBy also next := by
  obtain ⟨_, hk, hok⟩ := h
  obtain rfl := hok a rfl
  obtain ⟨opened, hk', hok'⟩ := hnext
  exact ⟨opened, (hk.mono hanew).trans (hk'.mono hmore), hok'⟩

theorem constant (h : m.KeptBy (fun _ => False) ran) : m.Constant ran.2 := by
  obtain ⟨_, hk, -⟩ := h
  exact fun name hname => hk.globals.value name (fun ha => ha.2) hname

end KeptBy

/-! ## Writing -/

/-- Which scope of the frame a slot belongs to; a field belongs to none. -/
def scopeOf (m : Machine) : Slot → Option Nat
  | .inner i => some i
  | .field _ => none
  | .global => some m.locals.length

/-- Whether the name in a slot may be assigned to. -/
def Assignable (m : Machine) (name : String) (slot : Slot) : Prop :=
  ∀ i, m.scopeOf slot = some i → ∃ s, m.scopes[i]? = some s ∧ name ∉ s.consts

/-- A target that is found may be assigned to. -/
theorem assignable_of_targetSlot {c : Context} {m' : Machine} {target : Target} {line : Nat}
    {slot : Slot} (h : Run.targetSlot c target line m = (.ok slot, m')) :
    m.Assignable target.label slot := by
  intro i hi
  cases slot with
  | field u => cases hi
  | global =>
    cases hi
    exact ⟨m.globals, m.scopes_globals, Footprint.not_const_of_targetSlot h rfl⟩
  | inner j =>
    cases hi
    cases target with
    | member obj name l =>
      obtain ⟨-, u, he, -⟩ := Footprint.targetSlot_member h
      cases he
    | name name l =>
      obtain ⟨hs, hk⟩ := Footprint.targetSlot_name h
      obtain ⟨names, hj, -⟩ := binds_of_slot? hs
      rw [List.getElem?_map] at hj
      obtain ⟨s, hj, -⟩ := Option.map_eq_some_iff.mp hj
      refine ⟨s, scopes_locals hj, fun hmem => ?_⟩
      have hmem : name ∈ s.consts := hmem
      rw [isConst, hj, Option.getD_some, List.contains_iff_mem.mpr hmem] at hk
      cases hk

/-- It may be assigned to still when the value is worked out. -/
theorem Assignable.mono {name : String} {slot : Slot} (h : m.Assignable name slot)
    (hk : KeepsBindings (fun _ => False) 0 m m₁) : m₁.Assignable name slot := by
  have hl : m₁.locals.length = m.locals.length := by
    have hl := hk.length
    simp only [scopes, List.length_append, List.length_singleton] at hl
    omega
  intro i hi
  obtain ⟨s, hs, hname⟩ := h i (by rw [← hi]; cases slot <;> simp [scopeOf, hl])
  obtain ⟨s', hs', hkeep⟩ := hk.scope i s hs
  rw [Nat.zero_add] at hs'
  exact ⟨s', hs', fun hmem => hname ((hkeep.consts name fun ha => ha.2).mp hmem)⟩

/-- A write to one scope of the frame, to a name that may be assigned to. -/
theorem KeepsBindings.of_modify {name : String} {v : Value} {i : Nat}
    (hm : m₁.scopes = m.scopes.modify i (·.store name v))
    (hname : ∀ s, m.scopes[i]? = some s → name ∉ s.consts) : KeepsBindings anew 0 m m₁ where
  length := by rw [hm, List.length_modify, Nat.zero_add]
  scope j s hs := by
    refine ⟨if i = j then s.store name v else s, ?_, ?_⟩
    · rw [Nat.zero_add, hm, List.getElem?_modify, hs]
      rfl
    · split
      · next hij => exact .store (hname s (hij ▸ hs)) v
      · exact .refl _ s

theorem Assignable.save {name : String} {slot : Slot} (h : m.Assignable name slot) (v : Value) :
    KeepsBindings anew 0 m (m.save name v slot) := by
  have hname : ∀ i, m.scopeOf slot = some i → ∀ s, m.scopes[i]? = some s → name ∉ s.consts := by
    intro i hi s hs
    obtain ⟨s', hs', hn⟩ := h i hi
    cases hs.symm.trans hs'
    exact hn
  cases slot with
  | field u => exact .of_scopes anew rfl
  | global =>
    refine .of_modify (i := m.locals.length) (v := v) (List.ext_getElem? fun j => ?_) (hname _ rfl)
    simp only [scopes, Machine.save, List.getElem?_modify, List.getElem?_append]
    grind
  | inner i =>
    by_cases hi : i < m.locals.length
    · refine .of_modify (i := i) (v := v) (List.ext_getElem? fun j => ?_) (hname _ rfl)
      simp only [scopes, Machine.save, List.getElem?_modify, List.getElem?_append,
        List.length_modify]
      grind
    · refine .of_scopes anew ?_
      rw [scopes, scopes, Machine.save, List.modify_eq_self (by omega)]

end Machine

/-! ## The steps of running code -/

namespace Bindings

open Machine

/-- Whether a computation keeps what `let` bound, however it ends; if it comes to a result, no scope
is left open. -/
def Keeps (anew : String → Prop) {α : Type} (P : α → Prop) (x : Run α) : Prop :=
  ∀ m, ∃ opened, KeepsBindings anew opened m (x m).2 ∧ ∀ a, (x m).1 = .ok a → P a ∧ opened = 0

/-- What is closed in itself declares no name in the scope that it stands in. -/
abbrev Closed {α : Type} (P : α → Prop) (x : Run α) : Prop := Keeps (fun _ => False) P x

/-- Of what may declare names in that scope, the names do not count. -/
abbrev Open {α : Type} (P : α → Prop) (x : Run α) : Prop := Keeps (fun _ => True) P x

variable {anew : String → Prop} {α β : Type} {P : α → Prop} {Q : β → Prop} {c : Context}

theorem keeps_of_scopes {x : Run α} (hx : ∀ m, (x m).2.scopes = m.scopes)
    (hP : ∀ m a, (x m).1 = .ok a → P a) : Keeps anew P x :=
  fun m => ⟨0, .of_scopes anew (hx m), fun a ha => ⟨hP m a ha, rfl⟩⟩

theorem keeps_pure {a : α} (h : P a) : Keeps anew P (pure a) :=
  keeps_of_scopes (fun _ => rfl) fun _ _ hb => by cases hb; exact h

theorem keeps_halt (h : Halt) : Keeps anew P (Run.halt h) :=
  keeps_of_scopes (fun _ => rfl) fun _ _ hb => nomatch hb

theorem keeps_of_reads {x : Run Value} (h : x.Reads) :
    Keeps anew (·.Within fun _ => True) x :=
  keeps_of_scopes (fun m => by rw [h m]) fun _ v _ => Footprint.within_all v

theorem keeps_bind {x : Run α} {f : α → Run β} (hx : Keeps anew P x)
    (hf : ∀ a, P a → Keeps anew Q (f a)) : Keeps anew Q (x >>= f) := by
  intro m
  obtain ⟨opened, hk, hok⟩ := hx m
  rw [Run.run_bind]
  rcases hr : x m with ⟨r, m₁⟩
  rw [hr] at hk hok
  cases r with
  | error e => exact ⟨opened, hk, fun _ hb => nomatch hb⟩
  | ok a =>
    obtain ⟨ha, rfl⟩ := hok a rfl
    obtain ⟨opened, hk', hok'⟩ := hf a ha m₁
    exact ⟨opened, hk.trans hk', hok'⟩

theorem keeps_mono {more : String → Prop} {x : Run α} (hx : Keeps anew P x)
    (h : ∀ name, anew name → more name) : Keeps more P x := by
  intro m
  obtain ⟨opened, hk, hok⟩ := hx m
  exact ⟨opened, hk.mono h, hok⟩

theorem keeps_modify {f : Machine → Machine} (h : ∀ m, KeepsBindings anew 0 m (f m)) :
    Keeps anew (fun _ => True) (Run.modify f) :=
  fun m => ⟨0, h m, fun _ _ => ⟨trivial, rfl⟩⟩

/-- A scope that is opened and closed again is none of the frame's. -/
theorem closed_inScope {s : Scope} {x : Run α} (hx : Open P x) : Closed P (Run.inScope s x) := by
  intro m
  obtain ⟨opened, hk, hok⟩ := hx { m with locals := s :: m.locals }
  have hk' : KeepsBindings (fun _ => False) (opened + 1) m _ := hk.around rfl
  simp only [Run.inScope, Run.run_bind, Run.run_modify, Run.run_pure]
  rcases hr : x { m with locals := s :: m.locals } with ⟨r, m₁⟩
  rw [hr] at hk' hok
  cases r with
  | error e => exact ⟨opened + 1, hk', fun _ hb => by cases hb⟩
  | ok a =>
    obtain ⟨ha, rfl⟩ := hok a rfl
    refine ⟨0, hk'.closed ?_, fun b hb => ?_⟩
    · have hl : m₁.scopes.length = 0 + 1 + m.scopes.length := hk'.length
      simp only [scopes, List.length_append, List.length_singleton] at hl
      show m.locals.length + 1 = m₁.locals.length
      omega
    · cases hb
      exact ⟨ha, rfl⟩

/-- A call sees of the frame the variables of the program only, and these as they are. -/
theorem closed_inCall {s : Scope} {x : Run α} (hx : Open P x) : Closed P (Run.inCall s x) := by
  intro m
  obtain ⟨opened, hk, hok⟩ := hx { m with locals := [s], children := none }
  have hglobals := hk.globals
  refine ⟨0, ⟨?_, fun i t ht => ?_⟩, fun a ha => ⟨(hok a ha).1, rfl⟩⟩
  · simp [scopes, Run.inCall]
  · rw [Nat.zero_add]
    by_cases hi : i < m.locals.length
    · rw [scopes, List.getElem?_append_left hi] at ht
      exact ⟨t, scopes_locals ht, .refl _ t⟩
    · rw [scopes, List.getElem?_append_right (by omega), List.getElem?_singleton] at ht
      split at ht
      · next hzero =>
        cases ht
        have hindex : i = m.locals.length := by omega
        subst hindex
        exact ⟨_, scopes_globals (Run.inCall s x m).2, hglobals.mono fun _ ha => nomatch ha.1⟩
      · cases ht

theorem closed_collecting {R : List Node → Prop} {x : Run Value} {S : Value → Prop}
    (hx : Open S x) (hR : ∀ ns, R ns) : Closed R (Run.collecting x) := by
  refine keeps_bind (P := fun _ => True) (keeps_of_scopes (fun _ => rfl) fun _ _ _ => trivial)
    fun before _ => ?_
  refine keeps_bind (keeps_modify fun m => .of_scopes _ rfl) fun _ _ => ?_
  refine keeps_bind (closed_inScope hx) fun _ _ => ?_
  refine keeps_bind (P := fun _ => True) (keeps_of_scopes (fun _ => rfl) fun _ _ _ => trivial)
    fun after _ => ?_
  exact keeps_bind (keeps_modify fun m => .of_scopes _ rfl) fun _ _ => keeps_pure (hR _)

theorem keeps_collect (v : Value) : Keeps anew (fun _ => True) (Run.collect v) := by
  unfold Run.collect
  split
  · exact keeps_modify fun m => .of_scopes anew rfl
  · exact keeps_pure trivial

/-- A declaration is made in the innermost scope. -/
theorem keeps_declare (name : String) (v : Value) (mutable : Bool) :
    Keeps (· = name) (fun _ => True) (Run.modify fun m => m.declare name v mutable) := by
  refine keeps_modify fun m => ⟨?_, fun i s hs => ?_⟩
  · cases hl : m.locals <;> simp [scopes, declare, hl]
  · rw [Nat.zero_add]
    obtain ⟨globals, locals, store, output, children⟩ := m
    cases locals with
    | nil =>
      cases i with
      | zero =>
        cases hs
        exact ⟨_, rfl, (Scope.KeepsBindings.declare _ name v mutable).mono fun _ ha => ⟨rfl, ha⟩⟩
      | succ i => cases hs
    | cons t rest =>
      cases i with
      | zero =>
        cases hs
        exact ⟨_, rfl, (Scope.KeepsBindings.declare _ name v mutable).mono fun _ ha => ⟨rfl, ha⟩⟩
      | succ i => exact ⟨s, hs, .refl _ s⟩

theorem closed_assign {target : Target} {op : AssignOp} {x : Run Value} {line : Nat}
    (hx : Closed (·.Within fun _ => True) x) :
    Closed (·.Within fun _ => True) (Run.assign c target op x line) := by
  intro m
  rw [Run.assign, Run.run_bind]
  rcases hs : Run.targetSlot c target line m with ⟨slot, m'⟩
  obtain rfl := (Run.Reads.targetSlot c target line).eq hs
  cases slot with
  | error e => exact ⟨0, .of_scopes _ rfl, fun _ hb => by cases hb⟩
  | ok slot =>
    -- the slot is found before the value is worked out; meanwhile its name stays assignable
    have hassignable := assignable_of_targetSlot hs
    obtain ⟨opened, hk, hok⟩ := hx m
    dsimp only
    rw [Run.run_bind]
    rcases hr : x m with ⟨r, m₁⟩
    rw [hr] at hk hok
    cases r with
    | error e => exact ⟨opened, hk, fun _ hb => by cases hb⟩
    | ok v =>
      obtain ⟨-, rfl⟩ := hok v rfl
      have hsave : ∀ w, KeepsBindings (fun _ => False) 0 m (m₁.save target.label w slot) :=
        fun w => hk.trans ((hassignable.mono hk).save w)
      dsimp only
      rw [Run.run_bind_ok (Run.run_get m₁)]
      cases op.binary? with
      | none => exact ⟨0, hsave v, fun a _ => ⟨Footprint.within_all a, rfl⟩⟩
      | some o =>
        dsimp only
        cases applyBinary m₁.store o (m₁.load target.label slot) v (some line) with
        | error f => exact ⟨0, hk, fun _ hb => by cases hb⟩
        | ok w => exact ⟨0, hsave w, fun a _ => ⟨Footprint.within_all a, rfl⟩⟩

theorem closed_builtin {name : String} {args : List Value} {line : Nat} :
    Closed (·.Within fun _ => True) (Run.builtin name args line) := by
  unfold Run.builtin
  split
  · refine keeps_of_reads ?_
    split
    · exact .pure _
    · exact .bind (.display _) fun _ => .pure _
  · split
    · refine keeps_of_reads ?_
      split
      · refine .bind .get fun m => ?_
        split
        · exact .pure _
        · exact .halt _
      · exact .halt _
    · -- only what was printed changes
      refine keeps_bind (P := fun _ => True) (keeps_of_scopes
        (fun m => by rw [Run.Reads.each Run.Reads.display args m]) fun _ _ _ => trivial)
        fun texts _ => ?_
      exact keeps_bind (keeps_modify fun m => .of_scopes _ rfl) fun _ _ =>
        keeps_pure (Footprint.within_all _)

/-! ## Whole runs -/

theorem rules : Rules (fun _ => True) (fun _ => True) Closed Open where
  pure := keeps_pure
  bind := keeps_bind
  halt := keeps_halt
  widen hx := keeps_mono hx fun _ ha => ha.elim
  chain := keeps_bind
  inScope _ := closed_inScope
  inCall _ := closed_inCall
  collecting hx := closed_collecting hx fun _ _ _ => Footprint.within_all _
  collect _ := keeps_collect _
  declare _ := keeps_mono (keeps_declare _ _ _) fun _ _ => trivial
  assign _ := closed_assign
  valueOf name line _ := keeps_of_reads (.valueOf _ name line)
  eventOf name line _ := keeps_of_reads (.eventOf _ name line)
  memberOf name line _ := keeps_of_reads (.memberOf _ name line)
  builtin _ _ _ := closed_builtin
  operate op line _ _ := keeps_of_reads (.operate op _ _ line)
  same _ _ := keeps_of_scopes (fun _ => rfl) fun _ _ _ => trivial
  ofFunction _ := trivial

variable {d : Nat} {m : Machine}

theorem Keeps.keptBy {x : Run α} (h : Keeps anew P x) (m : Machine) : m.KeptBy anew (x m) := by
  obtain ⟨opened, hk, hok⟩ := h m
  exact ⟨opened, hk, fun a ha => (hok a ha).2⟩

theorem keptBy_eval (e : Expr) : m.KeptBy (fun _ => False) (eval d c e m) :=
  ((rules.holds d).eval c e trivial).keptBy m

theorem keptBy_call (fn : FnDecl) (args : List Value) :
    m.KeptBy (fun _ => False) (call d c fn args m) :=
  ((rules.holds d).call c fn args trivial fun v _ => Footprint.within_all v).keptBy m

/-- What a statement that declares no name does, no name counts for. -/
theorem keptBy_closed {s : Stmt} (hs : s.declared? = none) :
    m.KeptBy (fun _ => False) (exec d c s m) :=
  ((rules.holds d).exec_closed c s trivial hs).keptBy m

/-- A statement declares its name once its value is there. -/
theorem keptBy_exec (s : Stmt) :
    m.KeptBy (fun name => s.declared? = some name ∧ ∃ v, (exec d c s m).1 = .ok v)
      (exec d c s m) := by
  cases s with
  | bind name value type mutable line =>
    cases d with
    | zero =>
      rw [exec]
      exact .of_scopes rfl
    | succ d =>
      obtain ⟨opened, hk, hok⟩ := keptBy_eval (d := d) (c := c) (m := m) value
      rw [exec, Run.run_bind]
      rcases hr : eval d c value m with ⟨r, m₁⟩
      rw [hr] at hk hok
      cases r with
      | error e => exact ⟨opened, hk.mono fun _ ha => ha.elim, fun _ hb => by cases hb⟩
      | ok v =>
        obtain rfl := hok v rfl
        obtain ⟨opened, hk', hok'⟩ := keeps_declare name v mutable m₁
        obtain ⟨-, rfl⟩ := hok' () rfl
        refine ⟨0, (hk.mono fun _ ha => ha.elim).trans (hk'.mono ?_), fun _ _ => rfl⟩
        rintro other rfl
        exact ⟨rfl, .nil, rfl⟩
  | _ => exact (keptBy_closed rfl).mono fun _ ha => ha.elim

/-- Of a body that halts, only the statements before count. -/
theorem keptBy_body (body : List Stmt) : ∀ (u : Value) (m : Machine), ∃ done rest,
    body = done ++ rest ∧ (∃ v, (last (exec d c) u done m).1 = .ok v) ∧
      m.KeptBy (fun name => ∃ s ∈ done, s.declared? = some name) (last (exec d c) u body m) := by
  induction body with
  | nil => exact fun u m => ⟨[], [], rfl, ⟨u, rfl⟩, .of_scopes rfl⟩
  | cons s rest ih =>
    intro u m
    have hs := keptBy_exec (d := d) (c := c) (m := m) s
    rw [last, Run.run_bind]
    rcases hr : exec d c s m with ⟨r, m₁⟩
    rw [hr] at hs
    cases r with
    | error e =>
      refine ⟨[], s :: rest, rfl, ⟨u, rfl⟩, hs.mono ?_⟩
      rintro name ⟨-, v, hv⟩
      cases hv
    | ok v =>
      obtain ⟨done, after, rfl, ⟨w, hw⟩, hbody⟩ := ih v m₁
      refine ⟨s :: done, after, rfl, ⟨w, ?_⟩, hs.trans ?_ ?_ hbody⟩
      · rw [last, Run.run_bind_ok hr, hw]
      · exact fun name ha => ⟨s, List.mem_cons_self, ha.1⟩
      · rintro name ⟨t, ht, hname⟩
        exact ⟨t, List.mem_cons_of_mem _ ht, hname⟩

end Bindings

/-- **What `let` bound stays as it is in every scope of the frame**, however a run ends, but for the
names that the statements run directly in the innermost scope declare. So neither a method, a
function nor a loop changes what `let` bound at the top level. -/
theorem bindings_kept (d : Nat) (c : Context) (m : Machine) :
    (∀ e, m.KeptBy (fun _ => False) (eval d c e m)) ∧
    (∀ s, m.KeptBy (fun name => s.declared? = some name ∧ ∃ v, (exec d c s m).1 = .ok v)
      (exec d c s m)) ∧
    (∀ u body, ∃ done rest, body = done ++ rest ∧ (∃ v, (last (exec d c) u done m).1 = .ok v) ∧
      m.KeptBy (fun name => ∃ s ∈ done, s.declared? = some name) (last (exec d c) u body m)) ∧
    (∀ fn args, m.KeptBy (fun _ => False) (call d c fn args m) ∧
      m.Constant (call d c fn args m).2) ∧
    (∀ name items body line, m.Constant (exec d c (.each name items body line) m).2) :=
  ⟨Bindings.keptBy_eval, Bindings.keptBy_exec, fun u body => Bindings.keptBy_body body u m,
    fun fn args => ⟨Bindings.keptBy_call fn args, (Bindings.keptBy_call fn args).constant⟩,
    fun _ _ _ _ => (Bindings.keptBy_closed rfl).constant⟩

end Widgetry
