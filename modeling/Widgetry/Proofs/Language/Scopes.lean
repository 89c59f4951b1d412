import Widgetry.Proofs.Language.Footprint

/-!
# The names that running code binds

Where a name is bound can be read off the program: an assignment writes to a name that is there, a
declaration adds its name to the scope that it stands in, and what opens a scope closes it again.
So an expression that comes to a value leaves every scope and every table of fields with the names
that it had, and of the statements only a declaration adds one.

> `exec_names`: a statement that comes to its end adds no name but the one that it declares;
> `body_names`: so do all statements of a body.

A computation has `Names k` if it keeps all names but those of the `k` innermost scopes: expressions
have `Names 0` and statements `Names 1`.
-/

namespace Widgetry

/-- The names in every open scope, the innermost first, and last those of the program. -/
def Machine.scopeNames (m : Machine) : List (List String) :=
  (m.locals ++ [m.globals]).map (·.values.names)

/-- Whether two machines have the same names, but for those of the `k` innermost scopes. -/
structure Machine.SameNames (k : Nat) (m m' : Machine) : Prop where
  scopes : m'.scopeNames.drop k = m.scopeNames.drop k
  fields : ∀ t, (m'.store.get t).names = (m.store.get t).names

namespace Machine

variable {k : Nat} {m m₁ m₂ m₃ : Machine}

theorem length_scopeNames (m : Machine) : m.scopeNames.length = m.locals.length + 1 := by
  simp [scopeNames]

namespace SameNames

theorem refl (k : Nat) (m : Machine) : SameNames k m m := ⟨rfl, fun _ => rfl⟩

theorem trans (h₁ : SameNames k m₁ m₂) (h₂ : SameNames k m₂ m₃) : SameNames k m₁ m₃ :=
  ⟨h₂.scopes.trans h₁.scopes, fun t => (h₂.fields t).trans (h₁.fields t)⟩

/-- Nothing but scopes and tables counts. -/
theorem of_eq (hl : m₂.locals = m₁.locals) (hg : m₂.globals = m₁.globals)
    (hs : m₂.store = m₁.store) : SameNames k m₁ m₂ := by
  refine ⟨?_, fun t => by rw [hs]⟩
  rw [scopeNames, scopeNames, hl, hg]

theorem widen (h : SameNames 0 m₁ m₂) (k : Nat) : SameNames k m₁ m₂ := by
  have hs : m₂.scopeNames = m₁.scopeNames := h.scopes
  exact ⟨by rw [hs], h.fields⟩

/-- As many scopes are open. -/
theorem length (h : SameNames 1 m₁ m₂) : m₂.locals.length = m₁.locals.length := by
  have hl := congrArg List.length h.scopes
  simp only [List.length_drop, length_scopeNames] at hl
  omega

theorem locals (h : SameNames 0 m₁ m₂) :
    m₂.locals.map (·.values.names) = m₁.locals.map (·.values.names) := by
  have hs : m₂.scopeNames = m₁.scopeNames := h.scopes
  simp only [scopeNames, List.map_append] at hs
  exact (List.append_inj' hs rfl).1

theorem globals (h : SameNames 0 m₁ m₂) :
    m₂.globals.values.names = m₁.globals.values.names := by
  have hs : m₂.scopeNames = m₁.scopeNames := h.scopes
  simp only [scopeNames, List.map_append] at hs
  exact List.singleton_inj.mp (List.append_inj' hs rfl).2

/-- Once the innermost scope is closed, its names do not count. -/
theorem closed {s : Scope} {rest : List Scope} (h : SameNames 1 m₁ m₂)
    (h₁ : m₁.locals = s :: rest) : SameNames 0 { m₁ with locals := rest }
      { m₂ with locals := m₂.locals.tail } := by
  refine ⟨?_, h.fields⟩
  have hl := h.length
  rw [h₁] at hl
  cases h₂ : m₂.locals with
  | nil =>
    rw [h₂] at hl
    cases hl
  | cons s' rest' =>
    have hs := h.scopes
    simp only [scopeNames, h₁, h₂, List.cons_append, List.map_cons, List.drop_succ_cons,
      List.drop_zero] at hs
    simpa [scopeNames] using hs

end SameNames

/-! ## Writing -/

/-- Whether a name stands in a slot. -/
def Binds (m : Machine) (name : String) : Slot → Prop
  | .inner i => ∃ names, (m.locals.map (·.values.names))[i]? = some names ∧ name ∈ names
  | .field t => name ∈ (m.store.get t).names
  | .global => name ∈ m.globals.values.names

theorem binds_of_slot? {c : Context} {name : String} {slot : Slot}
    (h : m.slot? c name = some slot) : m.Binds name slot := by
  rcases Footprint.slot?_cases h with ⟨i, rfl, hi⟩ | ⟨u, rfl, -, hh⟩ | ⟨rfl, hg⟩
  · obtain ⟨hlt, hsome, -⟩ := List.findIdx?_eq_some_iff_getElem.mp hi
    refine ⟨m.locals[i].values.names, ?_, Fields.has_iff_mem_names.mp hsome⟩
    rw [List.getElem?_map, List.getElem?_eq_getElem hlt]
    rfl
  · exact Fields.has_iff_mem_names.mp hh
  · exact Fields.has_iff_mem_names.mp hg

/-- A name keeps its place while its scope keeps its names. -/
theorem Binds.mono {name : String} {slot : Slot} (h : m₁.Binds name slot)
    (hs : SameNames 0 m₁ m₂) : m₂.Binds name slot := by
  cases slot with
  | inner i =>
    obtain ⟨names, hi, hn⟩ := h
    exact ⟨names, hs.locals ▸ hi, hn⟩
  | field t =>
    show name ∈ (m₂.store.get t).names
    rw [hs.fields t]
    exact h
  | global =>
    show name ∈ m₂.globals.values.names
    rw [hs.globals]
    exact h

/-- A write to a name that has its place adds none. -/
theorem Binds.save {name : String} {slot : Slot} (h : m.Binds name slot) (v : Value) :
    SameNames 0 m (m.save name v slot) := by
  cases slot with
  | inner i =>
    obtain ⟨names, hi, hn⟩ := h
    refine ⟨?_, fun _ => rfl⟩
    have hmap : (m.locals.modify i (·.store name v)).map (·.values.names)
        = m.locals.map (·.values.names) := by
      refine List.ext_getElem? fun j => ?_
      rw [List.getElem?_map, List.getElem?_modify, List.getElem?_map]
      by_cases hij : i = j
      · subst hij
        rw [List.getElem?_map] at hi
        cases hs : m.locals[i]? with
        | none => simp
        | some s =>
          rw [hs] at hi
          cases hi
          have hput := Fields.names_put_of_has (Fields.has_iff_mem_names.mpr hn) v
          simpa [Scope.store] using hput
      · simp [hij]
    show ((m.locals.modify i (·.store name v)) ++ [m.globals]).map (·.values.names) = _
    rw [List.map_append, hmap, ← List.map_append]
    rfl
  | field t =>
    refine ⟨rfl, fun u => ?_⟩
    have hh : (m.store.get t).has name = true := Fields.has_iff_mem_names.mpr h
    show ((m.store.set t _).get u).names = _
    by_cases hu : u = t
    · subst hu
      -- a table that has a field is one of the store, so the write takes place
      have hin : m.store.Has u := by
        by_contra hn
        rw [Store.get_of_not_has hn] at hh
        cases hh
      rw [Store.get_set_self hin, Fields.names_put_of_has hh]
    · rw [Store.get_set_of_ne hu]
  | global =>
    refine ⟨?_, fun _ => rfl⟩
    have hput := Fields.names_put_of_has (Fields.has_iff_mem_names.mpr h) v
    simp [scopeNames, Machine.save, Scope.store, hput]

end Machine

/-! ## The steps of running code -/

namespace Scopes

open Machine

/-- Whether a computation that comes to a result keeps all names but those of the `k` innermost
scopes. -/
def Names (k : Nat) {α : Type} (P : α → Prop) (x : Run α) : Prop :=
  ∀ m a m', x m = (.ok a, m') → P a ∧ SameNames k m m'

variable {k : Nat} {α β : Type} {P : α → Prop} {Q : β → Prop} {c : Context}

theorem names_pure {a : α} (h : P a) : Names k P (pure a) := by
  intro m b m' hr
  cases hr
  exact ⟨h, .refl k m⟩

theorem names_halt (h : Halt) : Names k P (Run.halt h) := by
  intro m b m' hr
  cases hr

theorem names_bind {x : Run α} {f : α → Run β} (hx : Names k P x)
    (hf : ∀ a, P a → Names k Q (f a)) : Names k Q (x >>= f) := by
  intro m b m' h
  obtain ⟨a, m₁, hr, h⟩ := Run.run_bind_eq_ok.mp h
  obtain ⟨ha, h₁⟩ := hx m a m₁ hr
  obtain ⟨hb, h₂⟩ := hf a ha m₁ b m' h
  exact ⟨hb, h₁.trans h₂⟩

theorem names_widen {x : Run α} (hx : Names 0 P x) : Names 1 P x := by
  intro m a m' h
  obtain ⟨ha, hs⟩ := hx m a m' h
  exact ⟨ha, hs.widen 1⟩

theorem names_modify {f : Machine → Machine} (h : ∀ m, SameNames k m (f m)) :
    Names k (fun _ => True) (Run.modify f) := by
  intro m a m' hr
  cases hr
  exact ⟨trivial, h m⟩

theorem names_of_reads {x : Run Value} (h : x.Reads) :
    Names k (·.Within fun _ => True) x := by
  intro m v m' hr
  obtain rfl := h.eq hr
  exact ⟨Footprint.within_all v, .refl k m⟩

theorem names_inScope {s : Scope} {x : Run α} (hx : Names 1 P x) :
    Names 0 P (Run.inScope s x) := by
  intro m a m' h
  obtain ⟨b, m₁, hr, h⟩ := Run.run_bind_eq_ok.mp (show ((x >>= _) _) = _ from h)
  cases h
  obtain ⟨ha, hs⟩ := hx _ _ _ hr
  have hclosed := hs.closed rfl
  exact ⟨ha, ⟨hclosed.scopes, hclosed.fields⟩⟩

theorem names_inCall {s : Scope} {x : Run α} (hx : Names 1 P x) :
    Names 0 P (Run.inCall s x) := by
  intro m a m' h
  obtain ⟨m₁, hr, rfl⟩ := Run.inCall_eq_ok h
  obtain ⟨ha, hs⟩ := hx _ _ _ hr
  -- what the call saw of the scopes outside of it is the top level alone
  have hg : m₁.globals.values.names = m.globals.values.names := (hs.closed rfl).globals
  refine ⟨ha, ⟨?_, hs.fields⟩⟩
  simp [scopeNames, hg]

theorem names_collecting {R : List Node → Prop} {x : Run Value} {S : Value → Prop}
    (hx : Names 1 S x) (hR : ∀ ns, R ns) : Names 0 R (Run.collecting x) := by
  intro m ns m' h
  obtain ⟨b, m₁, hr, h⟩ := Run.run_bind_eq_ok.mp (show ((Run.inScope {} x >>= _) _) = _ from h)
  cases h
  obtain ⟨-, hs⟩ := names_inScope hx _ _ _ hr
  exact ⟨hR _, ⟨hs.scopes, hs.fields⟩⟩

theorem names_collect (v : Value) : Names k (fun _ => True) (Run.collect v) := by
  unfold Run.collect
  split
  · exact names_modify fun m => .of_eq rfl rfl rfl
  · exact names_pure trivial

/-- A declaration adds its name to the innermost scope. -/
theorem names_declare {name : String} {v : Value} {mutable : Bool} :
    Names 1 (fun _ => True) (Run.modify fun m => m.declare name v mutable) := by
  refine names_modify fun m => ?_
  obtain ⟨globals, locals, store, output, children⟩ := m
  cases locals with
  | nil => exact ⟨rfl, fun _ => rfl⟩
  | cons s rest => exact ⟨rfl, fun _ => rfl⟩

theorem names_assign {target : Target} {op : AssignOp} {x : Run Value} {line : Nat}
    (hx : Names 0 (·.Within fun _ => True) x) :
    Names 0 (·.Within fun _ => True) (Run.assign c target op x line) := by
  intro m v m' h
  obtain ⟨slot, m₀, hs, h⟩ := Run.run_bind_eq_ok.mp h
  obtain rfl := (Run.Reads.targetSlot c target line).eq hs
  have hbinds : m.Binds target.label slot := by
    rcases Footprint.targetSlot_cases hs with ⟨u, rfl, -, hh⟩ | hslot
    · exact Fields.has_iff_mem_names.mp hh
    · exact binds_of_slot? hslot
  -- the slot is found before the value is computed; meanwhile the name keeps its place
  obtain ⟨w, m₁, hr, h⟩ := Run.run_bind_eq_ok.mp h
  obtain ⟨-, h₁⟩ := hx m w m₁ hr
  have hsave : ∀ u, SameNames 0 m (m₁.save target.label u slot) :=
    fun u => h₁.trans ((hbinds.mono h₁).save u)
  refine ⟨Footprint.within_all v, ?_⟩
  rw [Run.run_bind_ok (Run.run_get m₁)] at h
  cases hop : op.binary? with
  | none =>
    rw [hop] at h
    cases h
    exact hsave w
  | some o =>
    rw [hop] at h
    obtain ⟨u, m₂, hu, h⟩ := Run.run_bind_eq_ok.mp h
    obtain rfl := (Run.Reads.ofExcept _).eq hu
    cases h
    exact hsave u

theorem names_builtin {name : String} {args : List Value} {line : Nat} :
    Names 0 (·.Within fun _ => True) (Run.builtin name args line) := by
  unfold Run.builtin
  split
  · refine names_of_reads ?_
    split
    · exact .pure _
    · exact .bind (.display _) fun _ => .pure _
  · split
    · refine names_of_reads ?_
      split
      · refine .bind .get fun m => ?_
        split
        · exact .pure _
        · exact .halt _
      · exact .halt _
    · -- only what was printed changes
      intro m v m' h
      obtain ⟨texts, m₁, hr, h⟩ := Run.run_bind_eq_ok.mp h
      obtain rfl := (Run.Reads.each Run.Reads.display args).eq hr
      cases h
      exact ⟨Footprint.within_all _, .of_eq rfl rfl rfl⟩

/-! ## Whole runs -/

theorem rules : Rules (fun _ => True) (fun _ => True) (Names 0) (Names 1) where
  pure := names_pure
  bind := names_bind
  halt := names_halt
  widen := names_widen
  chain := names_bind
  inScope _ := names_inScope
  inCall _ := names_inCall
  collecting hx := names_collecting hx fun _ _ _ => Footprint.within_all _
  collect _ := names_collect _
  declare _ := names_declare
  assign _ := names_assign
  valueOf name line _ := names_of_reads (.valueOf _ name line)
  eventOf name line _ := names_of_reads (.eventOf _ name line)
  memberOf name line _ := names_of_reads (.memberOf _ name line)
  builtin _ _ _ := names_builtin
  operate op line _ _ := names_of_reads (.operate op _ _ line)
  same a b m _ _ h := by
    cases h
    exact ⟨trivial, .refl 0 m⟩
  ofFunction _ := trivial

end Scopes

open Machine Scopes

variable {d : Nat} {c : Context} {m m' : Machine} {v : Value}

/-- An expression binds no name. -/
theorem eval_names {e : Expr} (h : eval d c e m = (.ok v, m')) : SameNames 0 m m' :=
  ((rules.holds d).eval c e trivial m v m' h).2

/-- A call binds no name that lasts. -/
theorem call_names {fn : FnDecl} {args : List Value} (h : call d c fn args m = (.ok v, m')) :
    SameNames 0 m m' :=
  ((rules.holds d).call c fn args trivial (fun v _ => Footprint.within_all v) m v m' h).2

/-- The scope of a call has the names of the parameters. -/
theorem names_ofParams {name : String} {params : List String} {args : List Value} :
    name ∈ (Scope.ofParams params args).values.names ↔ name ∈ params := by
  have hgo : ∀ (params : List String) (args : List Value),
      (Scope.ofParams.go params args).map (·.1) = params := by
    intro params
    induction params with
    | nil => intro args; cases args <;> rfl
    | cons p rest ih =>
      intro args
      cases args with
      | nil => rw [Scope.ofParams.go, List.map_cons, ih]
      | cons a as => rw [Scope.ofParams.go, List.map_cons, ih]
  show name ∈ (Fields.ofPairs (Scope.ofParams.go params args)).names ↔ _
  rw [Fields.mem_names_ofPairs, hgo]

/-! ## A name that is bound nowhere -/

/-- Whether no open scope has a name, and the program has no variable of that name. -/
def Machine.Lacks (m : Machine) (name : String) : Prop := ∀ names ∈ m.scopeNames, name ∉ names

theorem Machine.SameNames.lacks {name : String} (h : SameNames 0 m m') (hm : m.Lacks name) :
    m'.Lacks name := by
  have hs : m'.scopeNames = m.scopeNames := h.scopes
  rw [Machine.Lacks, hs]
  exact hm

/-- A name that is not declared is not bound after. -/
theorem lacks_declare {name other : String} {w : Value} {mutable : Bool} (hne : name ≠ other)
    (hm : m.Lacks name) : (m.declare other w mutable).Lacks name := by
  have hput : ∀ scope : Scope, name ∉ scope.values.names →
      name ∉ (scope.declare other w mutable).values.names := by
    intro scope hn
    show name ∉ (scope.values.put other w).names
    rw [Fields.names_put]
    split
    · exact hn
    · simpa using ⟨hn, hne⟩
  obtain ⟨globals, locals, store, output, children⟩ := m
  cases locals with
  | nil =>
    intro names hin
    cases List.mem_singleton.mp hin
    exact hput globals (hm _ (List.mem_singleton.mpr rfl))
  | cons scope rest =>
    intro names hin
    rcases List.mem_cons.mp hin with rfl | hin
    · exact hput scope (hm _ List.mem_cons_self)
    · exact hm names (List.mem_cons_of_mem _ hin)

/-- **A statement binds no name but the one that it declares.** -/
theorem exec_names {s : Stmt} {name : String} (hs : s.declared? ≠ some name) (hm : m.Lacks name)
    (h : exec d c s m = (.ok v, m')) :
    m'.Lacks name ∧ ∀ t, (m'.store.get t).names = (m.store.get t).names := by
  cases hd : s.declared? with
  | none =>
    have hsame := ((rules.holds d).exec_closed c s trivial hd m v m' h).2
    exact ⟨hsame.lacks hm, hsame.fields⟩
  | some other =>
    refine ⟨?_, ((rules.holds d).exec c s trivial m v m' h).2.fields⟩
    cases s with
    | bind label value type mutable line =>
      cases d with
      | zero => cases h
      | succ d =>
        rw [exec] at h
        obtain ⟨w, m₁, hr, h⟩ := Run.run_bind_eq_ok.mp h
        cases h
        exact lacks_declare (fun he => hs (he ▸ rfl)) ((eval_names hr).lacks hm)
    | _ => cases hd

/-- The statements of a body bind no name but those that they declare. -/
theorem body_names {name : String} {stmts : List Stmt} :
    ∀ {m : Machine} {u : Value}, (∀ s ∈ stmts, s.declared? ≠ some name) → m.Lacks name →
      Run.last (exec d c) u stmts m = (.ok v, m') →
      m'.Lacks name ∧ ∀ t, (m'.store.get t).names = (m.store.get t).names := by
  induction stmts with
  | nil =>
    intro m u _ hm h
    cases h
    exact ⟨hm, fun _ => rfl⟩
  | cons s rest ih =>
    intro m u hs hm h
    obtain ⟨w, m₁, hr, h⟩ := Run.run_bind_eq_ok.mp h
    obtain ⟨h₁, hf₁⟩ := exec_names (hs s List.mem_cons_self) hm hr
    obtain ⟨h₂, hf₂⟩ := ih (fun s' hs' => hs s' (List.mem_cons_of_mem _ hs')) h₁ h
    exact ⟨h₂, fun t => (hf₂ t).trans (hf₁ t)⟩

/-- A name that no scope, no field and no variable has is not found. -/
theorem slot?_eq_none {name : String} (hm : m.Lacks name)
    (hf : ∀ t, c.fields = some t → name ∉ (m.store.get t).names) : m.slot? c name = none := by
  cases hs : m.slot? c name with
  | none => rfl
  | some slot =>
    rcases Footprint.slot?_cases hs with ⟨i, rfl, -⟩ | ⟨t, rfl, ht, hh⟩ | ⟨rfl, hg⟩
    · obtain ⟨names, hi, hn⟩ := binds_of_slot? hs
      have hin : names ∈ m.scopeNames := by
        rw [scopeNames, List.map_append]
        exact List.mem_append_left _ (List.mem_of_getElem? hi)
      exact absurd hn (hm names hin)
    · exact absurd (Fields.has_iff_mem_names.mp hh) (hf t ht)
    · have hin : m.globals.values.names ∈ m.scopeNames := by simp [scopeNames]
      exact absurd (Fields.has_iff_mem_names.mp hg) (hm _ hin)

/-! ## The variables of a program -/

namespace Load

theorem topLevel_lacks {name : String} {stmts : List Stmt} :
    ∀ {m : Machine} {u : Value}, (∀ s ∈ stmts, s.declared? ≠ some name) → m.Lacks name →
      topLevel d c u stmts m = (.ok v, m') → m'.Lacks name := by
  induction stmts with
  | nil =>
    intro m u _ hm h
    cases h
    exact hm
  | cons s rest ih =>
    intro m u hs hm h
    have hrest : ∀ s' ∈ rest, s'.declared? ≠ some name :=
      fun s' hs' => hs s' (List.mem_cons_of_mem _ hs')
    -- declarations of types and functions are not run
    have hstep : ∀ {f : Value → Value}, (exec d c s >>= fun w => topLevel d c (f w) rest) m
        = (.ok v, m') → m'.Lacks name := by
      intro f h
      obtain ⟨w, m₁, hr, h⟩ := Run.run_bind_eq_ok.mp h
      exact ih hrest (exec_names (hs s List.mem_cons_self) hm hr).1 h
    cases s with
    | fn _ => exact ih hrest hm h
    | type _ => exact ih hrest hm h
    | expr e line => exact hstep (f := id) h
    | _ => exact hstep (f := fun _ => u) h

/-- **A program has no variable but those that its top level declares.** -/
theorem program_lacks {code : Code} {p : Program} {name : String} (hm : m.Lacks name)
    (hs : ∀ s ∈ code.stmts, s.declared? ≠ some name) (h : program d code m = (.ok p, m')) :
    p.globals.get? name = none := by
  obtain ⟨result, m₁, htop, h⟩ := Run.run_bind_eq_ok.mp h
  have h₁ : m₁.Lacks name := topLevel_lacks hs hm htop
  obtain ⟨defaults, m₂, hdefaults, h⟩ := Run.run_bind_eq_ok.mp h
  have h₂ : m₂.Lacks name := by
    have hnames : ∀ widget, Names 0 (fun _ => True) (widgetDefaults d { code := code } widget) := by
      intro widget
      refine names_bind (Scopes.rules.each (P := fun _ => True) fun f _ => ?_)
        fun _ _ => names_pure trivial
      unfold fieldDefault
      split
      · exact names_bind ((Scopes.rules.holds d).eval _ _ trivial) fun _ _ => names_pure trivial
      · exact names_pure trivial
    have heach := Scopes.rules.each (P := fun _ => True) (l := Program.widgetNames code)
      fun widget _ => hnames widget
    exact (heach m₁ defaults m₂ hdefaults).2.lacks h₁
  have hlast : ∀ m₃ : Machine, m₃.Lacks name → m₃.globals.get? name = none :=
    fun m₃ h₃ => Fields.get?_eq_none.mpr (h₃ _ (by simp [scopeNames]))
  cases hmain : code.function? "main" with
  | some fn =>
    rw [hmain] at h
    obtain ⟨result, m₃, hcall, h⟩ := Run.run_bind_eq_ok.mp h
    cases h
    exact hlast _ ((call_names hcall).lacks h₂)
  | none =>
    rw [hmain] at h
    cases h
    exact hlast _ h₂

end Load

/-- **Nor has a program that was just loaded a variable that its top level does not declare.** -/
theorem interpret_lacks {i i' : Interpreter} {source name : String} {file : Option String}
    {code : Code} {result : Value} (hp : parse source file = .ok code)
    (hs : ∀ s ∈ code.stmts, s.declared? ≠ some name)
    (h : i.interpret source file = (.ok result, i')) :
    ∃ p, i'.program = some p ∧ p.globals.get? name = none := by
  rw [Interpreter.interpret, hp] at h
  dsimp only at h
  rcases hr : Load.program evaluationLimit code { output := i.output } with ⟨r, m⟩
  rw [hr] at h
  cases r with
  | error f => cases h
  | ok p =>
    cases h
    have hnew : Machine.Lacks { output := i.output } name := by
      intro names hin
      cases List.mem_singleton.mp hin
      exact List.not_mem_nil
    exact ⟨p, rfl, Load.program_lacks hnew hs hr⟩

end Widgetry
