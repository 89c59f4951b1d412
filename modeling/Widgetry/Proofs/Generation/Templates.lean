import Widgetry.Generation.Component
import Widgetry.Proofs.Generation.Handlers
import Widgetry.Proofs.Language.Folding
import Widgetry.Proofs.Language.Scopes

/-!
# What a view draws and what can be read off it

The tree of a widget is made twice: the interpreter runs the view, and the generator reads a
template off its last expression. An expression is *static* if it is written out as nodes whose
arguments and properties are constants or events `Msg.x`, down to the last statement; or if it is
one call that can only make a node.

> `static_runs`: a static expression that is run makes the node that its template stands for, and
> changes nothing;
> `view_eq_template`: so a view that ends in one returns that node, whatever it did before.

The two trees differ in one point. The template keeps `Msg.x` as it is written, and the node holds
the text of the event, which names the widget as well: `Template.addressed` writes it into the
template. The messages that the tree names are the same in both (`addSymbols_addressed`), as long as
the events have names that can be read off their text again.
-/

namespace Widgetry

/-! ## Events in a template -/

/-- The event that an expression is, if it is written as one. -/
def Expr.event? : Expr → Option String
  | .member (.ident "Msg" _) x _ => some x
  | _ => none

theorem Expr.event?_eq_some {e : Expr} {x : String} (h : e.event? = some x) :
    ∃ l l', e = .member (.ident "Msg" l) x l' := by
  unfold Expr.event? at h
  split at h
  · cases h
    exact ⟨_, _, rfl⟩
  · cases h

namespace Part

/-- The event that a part is left as. -/
def event? : Part → Option String
  | .code e => e.event?
  | .known _ => none

/-- A part with its event as a text that names the widget. -/
def addressed (widget : String) (p : Part) : Part :=
  match p.event? with
  | some x => .known (.str (widget ++ "." ++ x))
  | none => p

end Part

mutual

/-- A template with all its events as texts that name the widget. -/
def Template.addressed (widget : String) : Template → Template
  | .mk kind args props children =>
    .mk kind (args.map (·.addressed widget)) (props.map fun p => (p.1, p.2.addressed widget))
      (addressAll widget children)

def addressAll (widget : String) : List Template → List Template
  | [] => []
  | t :: rest => t.addressed widget :: addressAll widget rest

end

mutual

/-- The events that the properties in a template are left as. -/
def Template.events : Template → List String
  | .mk _ _ props children => props.filterMap (·.2.event?) ++ allEvents children

def allEvents : List Template → List String
  | [] => []
  | t :: rest => t.events ++ allEvents rest

end

/-! ## Static expressions -/

/-- An argument or a property that is constant or an event. -/
def Expr.IsPart (e : Expr) : Prop := e.isConstant = .ok true ∨ ∃ x, e.event? = some x

mutual

/-- Whether all that an expression makes is written out. -/
def Expr.Static (c : Context) : Expr → Prop
  | .node _ args props body _ =>
    (∀ a ∈ args, a.IsPart) ∧ (∀ p ∈ props, p.value.IsPart) ∧ AllStatic c body
  | .call (.ident name _) args _ =>
    (∀ a ∈ args, a.isConstant = .ok true) ∧ builtins.contains name = false ∧
      c.code.function? name = none ∧ c.method? name = none
  | _ => False

/-- Whether all statements are static expressions. -/
def AllStatic (c : Context) : List Stmt → Prop
  | [] => True
  | .expr e _ :: rest => e.Static c ∧ AllStatic c rest
  | _ :: _ => False

end

/-! ## Arguments and properties -/

theorem isConstant_eq {e : Expr} (h : e.isConstant = .ok true) : ∃ v, e.constant = .ok (.ok v) := by
  rw [Expr.isConstant] at h
  match hc : e.constant with
  | .ok (.ok v) => exact ⟨v, rfl⟩
  | .ok (.error f) =>
    rw [hc] at h
    cases h
  | .error f =>
    rw [hc] at h
    cases h

theorem ofExpr_constant {e : Expr} {v : Value} (h : e.constant = .ok (.ok v)) :
    Part.ofExpr e = .ok (.known v) := by
  rw [Part.ofExpr, h]
  rfl

section Running

variable {d : Nat} {c : Context} {w : String} {m m' : Machine} {v : Value}

/-- Running a part gives what the template holds for it. -/
theorem part_runs {e : Expr} (he : e.IsPart) (hc : c.widget = some w)
    (hm : m.slot? c "Msg" = none) (h : eval d c e m = (.ok v, m')) :
    m' = m ∧ ∃ p, Part.ofExpr e = .ok p ∧ p.addressed w = .known v := by
  rcases he with he | ⟨x, hx⟩
  · obtain ⟨u, hu⟩ := isConstant_eq he
    obtain ⟨rfl, rfl⟩ := eval_constant_ok hu h
    exact ⟨rfl, .known v, ofExpr_constant hu, rfl⟩
  · obtain ⟨l, l', rfl⟩ := Expr.event?_eq_some hx
    cases d with
    | zero => cases h
    | succ d =>
      rw [show eval (d + 1) c (.member (.ident "Msg" l) x l') m = _ from eventOf_free hc hm x l']
        at h
      cases h
      exact ⟨rfl, .code (.member (.ident "Msg" l) x l'), rfl, rfl⟩

theorem parts_run {es : List Expr} (hes : ∀ e ∈ es, e.IsPart) (hc : c.widget = some w)
    (hm : m.slot? c "Msg" = none) : ∀ {vs : List Value},
      Run.each (eval d c) es m = (.ok vs, m') →
      m' = m ∧ ∃ ps, partsOf es = .ok ps ∧ ps.map (·.addressed w) = vs.map .known := by
  induction es with
  | nil =>
    intro vs h
    cases h
    exact ⟨rfl, [], rfl, rfl⟩
  | cons e rest ih =>
    intro vs h
    obtain ⟨v, m₁, hv, hrest⟩ := Run.run_bind_eq_ok.mp h
    obtain ⟨rfl, p, hp, hpv⟩ := part_runs (hes e List.mem_cons_self) hc hm hv
    obtain ⟨ws, m₂, hws, hend⟩ := Run.run_bind_eq_ok.mp hrest
    cases hend
    obtain ⟨rfl, ps, hps, hpsv⟩ := ih (fun e' he' => hes e' (List.mem_cons_of_mem _ he')) hws
    refine ⟨rfl, p :: ps, ?_, ?_⟩
    · rw [partsOf, hp, hps]
      rfl
    · rw [List.map_cons, List.map_cons, hpv, hpsv]

theorem each_map {α β γ : Type} (g : α → β) (f : β → Run γ) (l : List α) :
    Run.each (fun a => f (g a)) l = Run.each f (l.map g) := by
  induction l with
  | nil => rfl
  | cons a rest ih => rw [List.map_cons, Run.each, Run.each, ih]

/-- Entries that are put one after the other can be translated before or after. -/
theorem ofPairs_map {α β : Type} (f : α → β) (pairs : List (Key × α)) :
    (Entries.ofPairs pairs).map (fun e => (e.1, f e.2))
      = Entries.ofPairs (pairs.map fun e => (e.1, f e.2)) := by
  have hput : ∀ (k : Key) (a : α) (es : List (Key × α)),
      (Entries.put k a es).map (fun e => (e.1, f e.2))
        = Entries.put k (f a) (es.map fun e => (e.1, f e.2)) := by
    intro k a es
    induction es with
    | nil => rfl
    | cons e rest ih =>
      obtain ⟨k', b⟩ := e
      by_cases hk : k'.same k
      · simp [Entries.put, hk]
      · simp [Entries.put, hk, ih]
  have hfold : ∀ (pairs es : List (Key × α)),
      (pairs.foldl (fun es e => Entries.put e.1 e.2 es) es).map (fun e => (e.1, f e.2))
        = (pairs.map fun e => (e.1, f e.2)).foldl (fun es e => Entries.put e.1 e.2 es)
            (es.map fun e => (e.1, f e.2)) := by
    intro pairs
    induction pairs with
    | nil => intro es; rfl
    | cons e rest ih =>
      intro es
      rw [List.foldl_cons, ih, List.map_cons, List.foldl_cons, hput]
  exact hfold pairs []

/-- Of several properties of one name the same one counts on both sides. -/
theorem props_run {props : List Property} (hps : ∀ p ∈ props, p.value.IsPart)
    (hc : c.widget = some w) (hm : m.slot? c "Msg" = none) {vs : List Value}
    (h : Run.each (fun p : Property => eval d c p.value) props m = (.ok vs, m')) :
    m' = m ∧ ∃ ps, propParts props = .ok ps ∧
      ps.map (fun p => (p.1, p.2.addressed w))
        = (propEntries (props.map (·.name)) vs).map (fun p => (p.1, .known p.2)) := by
  rw [each_map Property.value (eval d c)] at h
  have hparts : ∀ e ∈ props.map (·.value), e.IsPart := by
    intro e he
    obtain ⟨p, hp, rfl⟩ := List.mem_map.mp he
    exact hps p hp
  obtain ⟨rfl, ps, hps, hpv⟩ := parts_run hparts hc hm h
  refine ⟨rfl, _, by rw [propParts, hps]; rfl, ?_⟩
  rw [ofPairs_map, propEntries, ofPairs_map, List.map_map]
  -- both lists of pairs are the names with the values, as parts
  have hzip : ∀ {α : Type} (f : α → Part) (l : List α),
      ((props.map fun p => Scalar.str p.name).zip l).map (fun e => (e.1, f e.2))
        = (props.map fun p => Scalar.str p.name).zip (l.map f) := by
    intro α f l
    rw [List.zip_map_right]
    rfl
  rw [hzip, hpv, show (Scalar.str ∘ fun x : Property => x.name) = fun p => Scalar.str p.name from rfl,
    hzip]

/-! ## Nodes -/

/-- A scope without names hides nothing. -/
theorem slot?_empty_scope {name : String} (h : m.slot? c name = none) :
    Machine.slot? { m with locals := {} :: m.locals } c name = none := by
  have hempty : (({} : Scope).get? name).isSome = false := rfl
  unfold Machine.slot? at h ⊢
  rw [List.findIdx?_cons, hempty]
  cases hl : m.locals.findIdx? (fun s => (s.get? name).isSome) with
  | some i =>
    rw [hl] at h
    cases h
  | none =>
    rw [hl] at h
    exact h

/-- What is to be shown of an expression at a depth. -/
def StaticRuns (w : String) (c : Context) (d : Nat) : Prop :=
  ∀ (e : Expr) (m m' : Machine) (v : Value), e.Static c → m.slot? c "Msg" = none →
    eval d c e m = (.ok v, m') →
      m' = m ∧ ∃ n t, v = .node n ∧ e.template? = .ok (some t) ∧ t.addressed w = .ofNode n

/-- The nodes of a static body become children in the order of their statements. -/
theorem body_runs (ih : ∀ k < d, StaticRuns w c k) {stmts : List Stmt} :
    ∀ {m : Machine} {u : Value} {ns₀ : List Node}, AllStatic c stmts →
      m.slot? c "Msg" = none → m.children = some ns₀ →
      Run.last (exec d c) u stmts m = (.ok v, m') →
      ∃ ns ts, m' = { m with children := some (ns₀ ++ ns) } ∧ templatesOf stmts = .ok ts ∧
        addressAll w ts = Template.ofNodes ns := by
  induction stmts with
  | nil =>
    intro m u ns₀ _ _ hch h
    cases h
    refine ⟨[], [], ?_, rfl, rfl⟩
    rw [List.append_nil, ← hch]
  | cons s rest ihr =>
    intro m u ns₀ hs hm hch h
    cases s with
    | expr e line =>
      obtain ⟨he, hrest⟩ := hs
      obtain ⟨w₁, m₁, hexec, hlast⟩ := Run.run_bind_eq_ok.mp h
      cases d with
      | zero => cases hexec
      | succ d =>
        rw [exec] at hexec
        obtain ⟨v₁, m₂, heval, hadd⟩ := Run.run_bind_eq_ok.mp hexec
        obtain ⟨rfl, n, t, rfl, ht, hn⟩ := ih d (Nat.lt_succ_self d) e m m₂ v₁ he hm heval
        -- the node is added to the children of the node whose body this is
        cases hadd
        let m₃ : Machine := { m₂ with children := m₂.children.map (· ++ [n]) }
        have hch₃ : m₃.children = some (ns₀ ++ [n]) := by
          show m₂.children.map (· ++ [n]) = _
          rw [hch]
          rfl
        obtain ⟨ns, ts, rfl, hts, hns⟩ := ihr (m := m₃) hrest hm hch₃ hlast
        refine ⟨n :: ns, t :: ts, ?_, ?_, ?_⟩
        · rw [List.append_assoc]
          rfl
        · rw [templatesOf, ht, hts]
          rfl
        · rw [addressAll, Template.ofNodes, hn, hns]
    | _ => cases hs

/-- A static body leaves its nodes and nothing else. -/
theorem collecting_runs (ih : ∀ k < d, StaticRuns w c k) {body : List Stmt}
    (hb : AllStatic c body) (hm : m.slot? c "Msg" = none) {ns : List Node}
    (h : Run.collecting (Run.last (exec d c) .nil body) m = (.ok ns, m')) :
    m' = m ∧ ∃ ts, templatesOf body = .ok ts ∧ addressAll w ts = Template.ofNodes ns := by
  let m₀ : Machine := { m with children := some [], locals := {} :: m.locals }
  obtain ⟨v, m₁, hr, h⟩ := Run.run_bind_eq_ok.mp
    (show ((Run.inScope {} (Run.last (exec d c) .nil body) >>= _) _) = _ from h)
  obtain ⟨v', m₂, hr, hv⟩ := Run.run_bind_eq_ok.mp
    (show ((Run.last (exec d c) .nil body >>= _) m₀) = _ from hr)
  obtain ⟨ns', ts, rfl, hts, hns⟩ := body_runs (m := m₀) ih hb (slot?_empty_scope hm) rfl hr
  cases hv
  cases h
  exact ⟨rfl, ts, hts, hns⟩

theorem node_runs (hc : c.widget = some w) (ih : ∀ k < d + 1, StaticRuns w c k) {kind : String}
    {args : List Expr} {props : List Property} {body : List Stmt} {line : Nat}
    (he : (Expr.node kind args props body line).Static c) (hm : m.slot? c "Msg" = none)
    (h : eval (d + 1) c (.node kind args props body line) m = (.ok v, m')) :
    m' = m ∧ ∃ n t, v = .node n ∧
      (Expr.node kind args props body line).template? = .ok (some t) ∧ t.addressed w = .ofNode n := by
  obtain ⟨hargs, hprops, hbody⟩ := he
  rw [eval] at h
  obtain ⟨vs, m₁, hvs, h₁⟩ := Run.run_bind_eq_ok.mp h
  obtain ⟨rfl, as, has, hav⟩ := parts_run hargs hc hm hvs
  obtain ⟨us, m₂, hus, h₂⟩ := Run.run_bind_eq_ok.mp h₁
  obtain ⟨rfl, ps, hps, hpv⟩ := props_run hprops hc hm hus
  have hchildren : ∃ ns, (m' = m₂ ∧ ∃ ts, templatesOf body = .ok ts ∧
      addressAll w ts = Template.ofNodes ns) ∧
      v = .node (.named kind vs (propEntries (props.map (·.name)) us) ns) := by
    -- a node without a body does not look for children
    cases hb : body.isEmpty with
    | true =>
      rw [hb] at h₂
      cases h₂
      rw [List.isEmpty_iff.mp hb]
      exact ⟨[], ⟨rfl, [], rfl, rfl⟩, rfl⟩
    | false =>
      rw [hb] at h₂
      obtain ⟨ns, m₃, hns, hend⟩ := Run.run_bind_eq_ok.mp h₂
      cases hend
      exact ⟨ns, collecting_runs (fun k hk => ih k (by omega)) hbody hm hns, rfl⟩
  obtain ⟨ns, ⟨rfl, ts, hts, hns⟩, rfl⟩ := hchildren
  refine ⟨rfl, _, .mk (.str kind) as ps ts, rfl, ?_, ?_⟩
  · rw [Expr.template?, has, hps, hts]
    rfl
  · rw [Template.addressed, hav, hpv, hns]
    rfl

/-- A call of what is neither built in nor a function nor a method makes a node. -/
theorem call_runs (hc : c.widget = some w) {name : String} {args : List Expr} {l line : Nat}
    (he : (Expr.call (.ident name l) args line).Static c) (hm : m.slot? c "Msg" = none)
    (h : eval (d + 1) c (.call (.ident name l) args line) m = (.ok v, m')) :
    m' = m ∧ ∃ n t, v = .node n ∧
      (Expr.call (.ident name l) args line).template? = .ok (some t) ∧ t.addressed w = .ofNode n := by
  obtain ⟨hargs, hbuiltin, hfunction, hmethod⟩ := he
  rw [eval] at h
  obtain ⟨vs, m₁, hvs, h₁⟩ := Run.run_bind_eq_ok.mp h
  obtain ⟨rfl, as, has, hav⟩ := parts_run (fun a ha => Or.inl (hargs a ha)) hc hm hvs
  rw [hbuiltin] at h₁
  simp only [Bool.false_eq_true, if_false, hfunction, hmethod] at h₁
  cases h₁
  refine ⟨rfl, _, .mk (.str name) as [] [], rfl, ?_, ?_⟩
  · rw [Expr.template?, hbuiltin, has]
    rfl
  · rw [Template.addressed, hav]
    rfl

/-- **A static expression makes the node that its template stands for, and does nothing else.** -/
theorem static_runs (hc : c.widget = some w) (d : Nat) : StaticRuns w c d := by
  induction d using Nat.strongRecOn with
  | ind d ih =>
    intro e m m' v he hm h
    cases d with
    | zero => cases h
    | succ d =>
      cases e with
      | node kind args props body line => exact node_runs hc ih he hm h
      | call callee args line =>
        cases callee with
        | ident name l => exact call_runs hc he hm h
        | _ => cases he
      | _ => cases he

end Running

/-! ## The symbols of both trees -/

/-- The variant that an event names can be read off the text of the event. -/
theorem textVariant?_event (w : String) {x : String} (hx : Text.isIdentifier x = true) :
    textVariant? (w ++ "." ++ x) = some x := by
  have hpoint : ∀ ch ∈ x.toList, (ch != '.') = true := by
    intro ch hch
    rw [bne_iff_ne]
    rintro rfl
    exact absurd (Text.continues_of_mem hx hch) (by decide)
  have htail : ((w ++ "." ++ x).toList.reverse.takeWhile (· != '.')).reverse = x.toList := by
    have hlist : (w ++ "." ++ x).toList.reverse = x.toList.reverse ++ '.' :: w.toList.reverse := by
      simp
    rw [hlist, List.takeWhile_append_of_pos fun ch hch => hpoint ch (List.mem_reverse.mp hch)]
    simp
  rw [textVariant?, htail, String.ofList_toList, hx]
  rfl

/-- A property names the same variant if its event has a name that can be read. -/
theorem variant?_addressed (w : String) {p : Part}
    (hp : ∀ x, p.event? = some x → Text.isIdentifier x = true) :
    (p.addressed w).variant? = p.variant? := by
  unfold Part.addressed
  cases hx : p.event? with
  | none => rfl
  | some x =>
    cases p with
    | known v => cases hx
    | code e =>
      obtain ⟨l, l', rfl⟩ := Expr.event?_eq_some hx
      exact textVariant?_event w (hp x hx)

theorem addProps_addressed (w : String) (props : List (Key × Part))
    (hp : ∀ x ∈ props.filterMap (·.2.event?), Text.isIdentifier x = true) :
    ∀ s : Symbols, Symbols.addProps (props.map fun p => (p.1, p.2.addressed w)) s
      = Symbols.addProps props s := by
  induction props with
  | nil => intro s; rfl
  | cons p rest ih =>
    intro s
    obtain ⟨key, part⟩ := p
    have hrest := ih fun x hx => hp x (by
      rw [List.filterMap_cons]
      split
      · exact hx
      · exact List.mem_cons_of_mem _ hx)
    have hpart := variant?_addressed w (p := part) fun x hx => hp x (by
      rw [List.filterMap_cons, hx]
      exact List.mem_cons_self)
    cases key with
    | str name =>
      rw [List.map_cons, Symbols.addProps, Symbols.addProps, hpart]
      split
      · exact hrest _
      · exact hrest _
    | _ => rfl

mutual

/-- **Both trees have the same messages and kinds.** -/
theorem addSymbols_addressed (w : String) : ∀ (t : Template) (s : Symbols),
    (∀ x ∈ t.events, Text.isIdentifier x = true) → (t.addressed w).addSymbols s = t.addSymbols s
  | .mk kind args props children, s, h => by
    have hprops := addProps_addressed w props fun x hx =>
      h x (List.mem_append_left _ hx)
    have hchildren := fun s => addAllSymbols_addressed w children s fun x hx =>
      h x (List.mem_append_right _ hx)
    rw [Template.addressed]
    cases kind with
    | scalar k =>
      rw [Template.addSymbols, Template.addSymbols, hprops]
      cases Symbols.addProps props (s.addKind k) with
      | error f => rfl
      | ok s' => exact hchildren s'
    | _ => rfl

theorem addAllSymbols_addressed (w : String) : ∀ (ts : List Template) (s : Symbols),
    (∀ x ∈ allEvents ts, Text.isIdentifier x = true) →
      addAllSymbols (addressAll w ts) s = addAllSymbols ts s
  | [], s, _ => rfl
  | t :: rest, s, h => by
    have ht := addSymbols_addressed w t s fun x hx => h x (List.mem_append_left _ hx)
    have hrest := fun s => addAllSymbols_addressed w rest s fun x hx =>
      h x (List.mem_append_right _ hx)
    rw [addressAll, addAllSymbols, addAllSymbols, ht]
    cases t.addSymbols s with
    | error f => rfl
    | ok s' => exact hrest s'

end

/-! ## Views -/

/-- What a view that shows events relies on: the name `Msg` is bound nowhere that the view can see,
so that `Msg.x` means an event. -/
structure Program.LeavesEvents (p : Program) (fields : Fields) (view : FnDecl) : Prop where
  noGlobal : p.globals.get? "Msg" = none
  noField : fields.has "Msg" = false
  noParam : "Msg" ∉ view.paramNames
  noLocal : ∀ s ∈ view.body, s.declared? ≠ some "Msg"

/-- A view that was run to its end ran its last expression where `Msg` means the events. -/
theorem call_view {p : Program} {σ : Store} {output : Array String} {w : String} {t : TableId}
    {fn : FnDecl} {e : Expr} {l d : Nat} {args : List Value} {v : Value} {m' : Machine}
    (hlast : fn.body.getLast? = some (.expr e l)) (hn : p.LeavesEvents (σ.get t) fn)
    (h : call (d + 2) (p.context w t) fn args
      { globals := p.globals, store := σ, output := output } = (.ok v, m')) :
    ∃ m m', m.slot? (p.context w t) "Msg" = none ∧ eval d (p.context w t) e m = (.ok v, m') := by
  obtain ⟨before, hbody⟩ := List.getLast?_eq_some_iff.mp hlast
  let m₀ : Machine :=
    { globals := p.globals, store := σ, output := output,
      locals := [.ofParams fn.paramNames args] }
  rw [call] at h
  obtain ⟨m₁, hrun, -⟩ := Run.inCall_eq_ok h
  rw [hbody, Run.last_concat] at hrun
  obtain ⟨u, m₂, hbefore, hrun⟩ := Run.run_bind_eq_ok.mp hrun
  rw [exec] at hrun
  obtain ⟨v'', m₃, heval, hrun⟩ := Run.run_bind_eq_ok.mp hrun
  have hv : v'' = v := by
    obtain ⟨-, m₄, -, hrun⟩ := Run.run_bind_eq_ok.mp hrun
    cases hrun
    rfl
  rw [hv] at heval
  -- what ran before bound no name `Msg` in the scope of the view, nor anywhere else
  have hlacks : m₀.Lacks "Msg" := by
    intro names hin
    rcases List.mem_cons.mp hin with rfl | hin
    · exact fun hin => hn.noParam (names_ofParams.mp hin)
    · cases List.mem_singleton.mp hin
      exact Fields.get?_eq_none.mp hn.noGlobal
  obtain ⟨hm₂, hfields⟩ := body_names
    (fun s hs => hn.noLocal s (hbody ▸ List.mem_append_left _ hs)) hlacks hbefore
  refine ⟨m₂, m₃, slot?_eq_none hm₂ ?_, heval⟩
  intro u hu
  cases hu
  rw [hfields, ← Fields.has_iff_mem_names, hn.noField]
  exact Bool.false_ne_true

/-- **A view that ends in a static expression returns the node that the generator reads off it**,
with the events written as texts that name the widget; and both trees have the same messages and
kinds, as long as the messages are identifiers. -/
theorem view_eq_template {i : Interpreter} {p : Program} {σ : Store} {w : String} {t : TableId}
    {decl : TypeDecl} {fn : FnDecl} {e : Expr} {l : Nat} {args : List Value} {v : Value}
    (hi : i.program = some p) (hd : p.code.type? w = some decl)
    (hv : decl.method? "view" = some fn) (hlast : fn.body.getLast? = some (.expr e l))
    (hs : e.Static (p.context w t)) (hn : p.LeavesEvents (σ.get t) fn)
    (hrun : (i.invoke σ w "view" args t).1 = .ok v) :
    ∃ n tree, v = .node n ∧ e.template? = .ok (some tree) ∧
      (∀ policy file, Widget.viewOf decl policy file = .ok tree) ∧
      tree.addressed w = .ofNode n ∧
      ((∀ x ∈ tree.events, Text.isIdentifier x = true) →
        tree.symbols = (Template.ofNode n).symbols) := by
  rw [Interpreter.invoke_method hi hd hv, execute_result] at hrun
  rcases hr : call evaluationLimit (p.context w t) fn (Interpreter.addressEvent w "view" args)
      { globals := p.globals, store := σ, output := i.output } with ⟨r, m'⟩
  rw [hr] at hrun
  cases r with
  | error f => cases hrun
  | ok v' =>
    cases hrun
    obtain ⟨m₁, m₂, hm, heval⟩ := call_view hlast hn hr
    obtain ⟨-, n, tree, rfl, htree, hnode⟩ := static_runs rfl _ e m₁ m₂ v hs hm heval
    refine ⟨n, tree, rfl, htree, fun policy file => ?_, hnode, fun hx => ?_⟩
    · rw [Widget.viewOf, hv, Widget.templateOf, hlast]
      simp only [htree]
      rfl
    · rw [← hnode]
      exact (addSymbols_addressed w tree {} hx).symm

/-! ## A view that does something before it draws -/

/-- A column with a sum, a button whose message is given twice, and a call that makes a node. -/
def panelTree : Expr :=
  .node "col" [.binary .add (.literal (.int 1) 2) (.literal (.int 2) 2) 2] []
    [.expr (.node "button" [.literal (.str "more") 3]
      [⟨"onclick", .literal (.int 0) 3, 3⟩, ⟨"onclick", .member (.ident "Msg" 3) "Inc" 3, 3⟩] [] 3) 3,
     .expr (.call (.ident "spacer" 4) [.unary .minus (.literal (.int 8) 4) 4] 4) 4] 2

def panelView : FnDecl where
  name := "view"
  params := []
  body := [.bind "k" (.literal (.int 1) 1) none true 1,
    .assign (.name "k" 1) .set (.ident "n" 1) 1, .expr panelTree 2]
  result := none
  line := 1

def panel : TypeDecl where
  name := "Panel"
  specs := ["Widget"]
  members := [⟨"n", "int", none, 1⟩]
  methods := [panelView]
  line := 1

def panelProgram : Program where
  code := ⟨[.type panel], none⟩
  globals := {}
  defaults := [("Panel", [("n", .int 0)])]
  result := .nil

/-- Its view returns the node with the sum, and with the message that was given last. -/
theorem panel_eq_template : ∃ n tree,
    (({ program := some panelProgram } : Interpreter).invoke ⟨#[[("n", .int 0)]]⟩ "Panel" "view"
      [] ⟨0⟩).1 = .ok (.node n) ∧
    Widget.viewOf panel .strict none = .ok tree ∧ tree.addressed "Panel" = .ofNode n ∧
    tree.symbols = (Template.ofNode n).symbols ∧
    n.args = [.int 3] ∧ n.children.map (·.prop? "onclick") = [some (.str "Panel.Inc"), none] := by
  have hrun : ∃ n, (({ program := some panelProgram } : Interpreter).invoke
      ⟨#[[("n", .int 0)]]⟩ "Panel" "view" [] ⟨0⟩).1 = .ok (.node n) ∧ n.args = [.int 3] ∧
      n.children.map (·.prop? "onclick") = [some (.str "Panel.Inc"), none] :=
    ⟨_, rfl, rfl, rfl⟩
  obtain ⟨n, hrun, hargs, hprops⟩ := hrun
  have hstatic : panelTree.Static (panelProgram.context "Panel" ⟨0⟩) := by
    have hnone : ∀ p ∈ ([] : List Property), p.value.IsPart := fun _ hp => nomatch hp
    refine ⟨?_, hnone, ⟨?_, ?_, trivial⟩, ⟨?_, rfl, rfl, rfl⟩, trivial⟩
    · intro a ha
      cases List.mem_singleton.mp ha
      exact Or.inl rfl
    · intro a ha
      cases List.mem_singleton.mp ha
      exact Or.inl rfl
    · intro p hp
      rcases List.mem_cons.mp hp with rfl | hp
      · exact Or.inl rfl
      · cases List.mem_singleton.mp hp
        exact Or.inr ⟨"Inc", rfl⟩
    · intro a ha
      cases List.mem_singleton.mp ha
      rfl
  have hevents : panelProgram.LeavesEvents [("n", .int 0)] panelView :=
    ⟨rfl, rfl, List.not_mem_nil, by decide⟩
  obtain ⟨n', tree, hn, htree, hview, hnode, hsymbols⟩ := @view_eq_template
    { program := some panelProgram } panelProgram ⟨#[[("n", .int 0)]]⟩ "Panel" ⟨0⟩ panel panelView
    panelTree 2 [] (.node n) rfl rfl rfl rfl hstatic hevents hrun
  cases hn
  refine ⟨n, tree, hrun, hview .strict none, hnode, hsymbols ?_, hargs, hprops⟩
  have hinc : panelTree.template?.map (fun t => t.map (·.events)) = .ok (some ["Inc"]) := rfl
  rw [htree] at hinc
  have hnames : tree.events = ["Inc"] := Option.some.inj (Except.ok.inj hinc)
  intro x hx
  rw [hnames] at hx
  cases List.mem_singleton.mp hx
  decide

end Widgetry
