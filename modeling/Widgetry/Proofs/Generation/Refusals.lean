import Widgetry.Proofs.Generation.Faults
import Widgetry.Proofs.Language.Numerals

/-!
# Why no source is generated from a text

A text that cannot be parsed is refused with the words and the place of the parser. What the parser
took is refused by the generator itself or not at all, unless a number gets in the way.

> `Generation.ofSource_refuses`: what ends the generation from a source text is a refusal, or a
> fault in a number; and such a fault is that of a number in the text, of a constant expression in a
> field or in a view, or of the literal of its value.

All constants of a declaration are evaluated before anything is generated from it (`Folds`).
-/

namespace Widgetry

open Generation

variable {N : NumberFault → Prop}

/-! ## Constants of a widget -/

/-- Whether the value of a constant expression, or the literal of that value, is a fault in a
number. -/
def Expr.Miscounts (e : Expr) (n : NumberFault) : Prop :=
  e.constant = .error n ∨ ∃ v, e.constant = .ok (.ok v) ∧ v.literal = .error (.number n)

mutual

/-- The arguments and properties of the nodes that an expression makes. -/
def Expr.settings : Expr → List Expr
  | .node _ args props body _ => args ++ (props.map (·.value) ++ settingsOf body)
  | .call (.ident name _) args _ => if builtins.contains name then [] else args
  | _ => []

def settingsOf : List Stmt → List Expr
  | [] => []
  | .expr e _ :: rest => e.settings ++ settingsOf rest
  | _ :: rest => settingsOf rest

end

/-- The arguments and properties of the nodes that a view method shows. -/
def viewSettings (fn : Option FnDecl) : List Expr :=
  match fn.bind (·.body.getLast?) with
  | some (.expr e _) => e.settings
  | _ => []

/-- The expressions of a declaration that are evaluated to generate its widget: the initial values
of fields, and the arguments and properties in the view. -/
def TypeDecl.settings (decl : TypeDecl) : List Expr :=
  decl.members.filterMap (·.default) ++ viewSettings (decl.method? "view")

/-- Whether a number gets in the way of generating the widgets of a program. -/
def Code.Miscounts (code : Code) (n : NumberFault) : Prop :=
  ∃ decl ∈ code.widgets, ∃ e ∈ decl.settings, e.Miscounts n

/-! ## Evaluating constants -/

/-- Whether the faults in numbers that expressions may cause are among `N`. -/
abbrev Causes (N : NumberFault → Prop) (es : List Expr) : Prop :=
  ∀ e ∈ es, ∀ n, e.Miscounts n → N n

theorem causes_append {es es' : List Expr} (h : Causes N (es ++ es')) :
    Causes N es ∧ Causes N es' :=
  ⟨fun e he => h e (List.mem_append_left _ he), fun e he => h e (List.mem_append_right _ he)⟩

/-- Whether expressions are all evaluated, the faults in numbers are theirs, and otherwise the
result has a property. -/
def Folds {α : Type} (es : List Expr) (Q : α → Prop) (x : Except NumberFault α) : Prop :=
  (∀ a, x = .ok a → (∀ e ∈ es, ∃ r, e.constant = .ok r) ∧ Q a) ∧
    ∀ n, x = .error n → ∃ e ∈ es, e.constant = .error n

section Folding

variable {α β : Type} {Q : α → Prop} {R : β → Prop} {es es' : List Expr}

theorem folds_ok {a : α} (h : Q a) : Folds [] Q (.ok a) :=
  ⟨fun b hb => ⟨nofun, by cases hb; exact h⟩, nofun⟩

theorem folds_bind {x : Except NumberFault α} {f : α → Except NumberFault β} (hx : Folds es Q x)
    (hf : ∀ a, Q a → Folds es' R (f a)) : Folds (es ++ es') R (x >>= f) := by
  cases x with
  | error n =>
    obtain ⟨e, he, hn⟩ := hx.2 n rfl
    refine ⟨nofun, fun m hm => ?_⟩
    cases hm
    exact ⟨e, List.mem_append_left _ he, hn⟩
  | ok a =>
    obtain ⟨hes, ha⟩ := hx.1 a rfl
    refine ⟨fun b hb => ?_, fun n hn => ?_⟩
    · obtain ⟨hes', hb⟩ := (hf a ha).1 b hb
      exact ⟨fun e he => (List.mem_append.mp he).elim (hes e) (hes' e), hb⟩
    · obtain ⟨e, he, hn⟩ := (hf a ha).2 n hn
      exact ⟨e, List.mem_append_right _ he, hn⟩

theorem folds_map {x : Except NumberFault α} {f : α → β} (hx : Folds es Q x)
    (hf : ∀ a, Q a → R (f a)) : Folds es R (x.map f) := by
  cases x with
  | error n =>
    refine ⟨nofun, fun m hm => hx.2 m ?_⟩
    cases hm
    rfl
  | ok a =>
    refine ⟨fun b hb => ?_, nofun⟩
    cases hb
    exact ⟨(hx.1 a rfl).1, hf a (hx.1 a rfl).2⟩

/-- What follows on the last expression. -/
theorem folds_then {x : Except NumberFault α} {f : α → Except NumberFault β} (hx : Folds es Q x)
    (hf : ∀ a, Q a → Folds [] R (f a)) : Folds es R (x >>= f) :=
  List.append_nil es ▸ folds_bind hx hf

/-- What is evaluated for the generator can end it with these faults only. -/
theorem Folds.makes {x : Except NumberFault α} (h : Folds es Q x) (hN : Causes N es) :
    Makes N (fun a => (∀ e ∈ es, ∃ r, e.constant = .ok r) ∧ Q a) (x.mapError .number) := by
  cases x with
  | ok a => exact makes_ok (h.1 a rfl)
  | error n =>
    obtain ⟨e, he, hn⟩ := h.2 n rfl
    exact makes_error (hN e he n (Or.inl hn))

end Folding

theorem constant_folds {e : Expr} (h : ∀ n, e.Miscounts n → N n) :
    Folds [e] (fun r => ∀ v, r = .ok v → Runs N v.literal) e.constant := by
  refine ⟨fun r hr => ⟨fun e' he => ⟨r, ?_⟩, fun v hv => ?_⟩, fun n hn => ?_⟩
  · rw [List.mem_singleton.mp he, hr]
  · rw [hv] at hr
    exact (literal_runs v).self.mono fun n hn => h n (Or.inr ⟨v, hr, hn⟩)
  · exact ⟨e, List.mem_singleton.mpr rfl, hn⟩

/-! ## Templates of views -/

theorem Part.ofExpr_folds {e : Expr} (h : ∀ n, e.Miscounts n → N n) :
    Folds [e] (Part.Fits N) (Part.ofExpr e) := by
  refine folds_then (constant_folds h) fun r hr => ?_
  cases r with
  | ok v => exact folds_ok fun w hw => by cases hw; exact hr v rfl
  | error _ => exact folds_ok nofun

theorem partsOf_folds : ∀ {es : List Expr}, Causes N es →
    Folds es (fun ps => ∀ p ∈ ps, p.Fits N) (partsOf es)
  | [], _ => folds_ok nofun
  | e :: rest, h => by
    have he := Part.ofExpr_folds (h e List.mem_cons_self)
    have hrest := partsOf_folds fun e he => h e (List.mem_cons_of_mem _ he)
    exact folds_bind he fun p hp => folds_then hrest fun ps hps =>
      folds_ok (List.forall_mem_cons.mpr ⟨hp, hps⟩)

theorem propParts_folds {props : List Property} (h : Causes N (props.map (·.value))) :
    Folds (props.map (·.value)) (fun ps => ∀ e ∈ ps, (∃ name, e.1 = .str name) ∧ e.2.Fits N)
      (propParts props) := by
  refine folds_then (partsOf_folds h) fun values hvalues => folds_ok ?_
  refine Entries.forall_ofPairs (K := fun k => ∃ name, k = .str name) fun e he => ?_
  obtain ⟨hkey, hvalue⟩ := List.of_mem_zip he
  obtain ⟨p, -, hp⟩ := List.mem_map.mp hkey
  exact ⟨⟨p.name, hp.symm⟩, hvalues _ hvalue⟩

mutual

theorem template?_folds : ∀ e : Expr, Causes N e.settings →
    Folds e.settings (fun t? => ∀ t, t? = some t → t.Fits N) e.template?
  | .node kind args props body _, h => by
    rw [Expr.settings] at h ⊢
    obtain ⟨hargs, h⟩ := causes_append h
    obtain ⟨hprops, hbody⟩ := causes_append h
    rw [Expr.template?]
    refine folds_bind (partsOf_folds hargs) fun as has => folds_bind (propParts_folds hprops)
      fun ps hps => folds_then (templatesOf_folds body hbody) fun cs hcs => folds_ok ?_
    rintro _ ⟨⟩
    exact .mk has hps hcs
  | .call callee args _, h => by
    cases callee with
    | ident name line =>
      rw [Expr.settings] at h ⊢
      rw [Expr.template?]
      split
      · exact folds_ok nofun
      · next hname =>
        rw [if_neg hname] at h
        refine folds_then (partsOf_folds h) fun as has => folds_ok ?_
        rintro _ ⟨⟩
        exact .mk has nofun nofun
    | _ => exact folds_ok nofun
  | .literal .., _ | .ident .., _ | .array .., _ | .unary .., _ | .binary .., _ | .member .., _ =>
    folds_ok nofun

theorem templatesOf_folds : ∀ ss : List Stmt, Causes N (settingsOf ss) →
    Folds (settingsOf ss) (Template.AllFit N) (templatesOf ss)
  | [], _ => folds_ok nofun
  | s :: rest, h => by
    cases s with
    | expr e line =>
      obtain ⟨he, hrest⟩ := causes_append h
      refine folds_bind (template?_folds e he) fun t? ht =>
        folds_then (templatesOf_folds rest hrest) fun ts hts => folds_ok fun t hm => ?_
      rcases List.mem_append.mp hm with hm | hm
      · exact ht t (Option.mem_toList.mp hm)
      · exact hts t hm
    | _ => exact templatesOf_folds rest h

end

theorem placeholder_fits : Template.placeholder.Fits N := .mk nofun nofun nofun

/-! ## Widgets -/

namespace Widget

theorem zeroValue_runs (type : String) : Runs N (zeroValue type).literal := by
  unfold zeroValue
  repeat' split
  all_goals exact runs_ok _

theorem start_runs {f : WidgetField} (h : f.initial = .nil ∨ Runs N f.initial.literal) :
    Runs N (WidgetField.start f).literal := by
  unfold WidgetField.start
  split
  · exact zeroValue_runs f.type
  · next hne => exact h.resolve_left hne

theorem fieldOf_folds {m : FieldDecl} (h : Causes N m.default.toList) :
    Folds m.default.toList (fun f => Runs N (WidgetField.start f).literal) (fieldOf m) := by
  unfold fieldOf
  cases hm : m.default with
  | none => exact folds_then (folds_ok (Or.inl rfl)) fun _ hv => folds_ok (start_runs hv)
  | some e =>
    rw [hm] at h
    have hv : Folds [e] (fun v => v = .nil ∨ Runs N v.literal) e.constantOrNil := by
      refine folds_map (constant_folds (h e List.mem_cons_self)) fun r hr => ?_
      cases r with
      | ok v => exact Or.inr (hr v rfl)
      | error _ => exact Or.inl rfl
    exact folds_then hv fun _ hv => folds_ok (start_runs hv)

theorem fieldsOf_folds : ∀ {ms : List FieldDecl}, Causes N (ms.filterMap (·.default)) →
    Folds (ms.filterMap (·.default))
      (fun fs => ∀ f ∈ fs, Runs N (WidgetField.start f).literal) (fieldsOf ms)
  | [], _ => folds_ok nofun
  | m :: rest, h => by
    have hcons : (m :: rest).filterMap (·.default)
        = m.default.toList ++ rest.filterMap (·.default) := by
      rw [List.filterMap_cons]
      cases m.default <;> rfl
    rw [hcons] at h ⊢
    obtain ⟨hm, hrest⟩ := causes_append h
    exact folds_bind (fieldOf_folds hm) fun f hf => folds_then (fieldsOf_folds hrest)
      fun fs hfs => folds_ok (List.forall_mem_cons.mpr ⟨hf, hfs⟩)

theorem templateOf_folds {fn : Option FnDecl} (h : Causes N (viewSettings fn)) :
    Folds (viewSettings fn) (fun r => ∀ t, r = .ok t → t.Fits N) (templateOf fn) := by
  cases fn with
  | none => exact folds_ok nofun
  | some fn =>
    rw [viewSettings, Option.bind_some] at h ⊢
    rw [templateOf]
    cases hlast : fn.body.getLast? with
    | none => exact folds_ok nofun
    | some s =>
      rw [hlast] at h
      cases s with
      | expr e line =>
        refine folds_then (template?_folds e h) fun t? ht => ?_
        cases t? with
        | none => exact folds_ok nofun
        | some t => exact folds_ok fun t' he => by cases he; exact ht t rfl
      | _ => exact folds_ok nofun

theorem viewOf_makes {decl : TypeDecl} (policy : Policy) (file : Option String)
    (h : Causes N (viewSettings (decl.method? "view"))) :
    Makes N (fun t => (∀ e ∈ viewSettings (decl.method? "view"), ∃ r, e.constant = .ok r) ∧
      t.Fits N) (viewOf decl policy file) := by
  unfold viewOf
  refine makes_bind ((templateOf_folds h).makes h) fun r hr => ?_
  cases r with
  | ok t => exact makes_ok ⟨hr.1, hr.2 t rfl⟩
  | error reason =>
    cases policy with
    | permissive => exact makes_ok ⟨hr.1, placeholder_fits⟩
    | strict => exact makes_error rfl

theorem ofType_makes {decl : TypeDecl} (policy : Policy) (file : Option String)
    (h : Causes N decl.settings) :
    Makes N (fun w => (∀ e ∈ decl.settings, ∃ r, e.constant = .ok r) ∧ w.Fits N)
      (ofType decl policy file) := by
  obtain ⟨hfields, hview⟩ := causes_append h
  unfold ofType
  refine makes_bind ((fieldsOf_folds hfields).makes hfields) fun fs hfs => ?_
  refine makes_bind (viewOf_makes policy file hview) fun t ht => makes_ok ⟨fun e he => ?_, ?_⟩
  · exact (List.mem_append.mp he).elim (hfs.1 e) (ht.1 e)
  · exact ⟨ht.2, hfs.2⟩

end Widget

/-! ## Units -/

namespace Generation

theorem widgetsOf_makes (o : GenerationOptions) (file : Option String) :
    ∀ {decls : List TypeDecl}, (∀ d ∈ decls, Causes N d.settings) →
      Makes N (fun ws => (∀ d ∈ decls, ∀ e ∈ d.settings, ∃ r, e.constant = .ok r) ∧
        ∀ w ∈ ws, w.Fits N) (widgetsOf o file decls)
  | [], _ => makes_ok ⟨nofun, nofun⟩
  | d :: rest, h => by
    have hd := Widget.ofType_makes o.policy file (h d List.mem_cons_self)
    have hrest := widgetsOf_makes o file fun d hd => h d (List.mem_cons_of_mem _ hd)
    refine makes_bind hd fun w hw => makes_bind hrest fun ws hws => makes_ok ⟨?_, ?_⟩
    · exact List.forall_mem_cons.mpr ⟨hw.1, hws.1⟩
    · exact List.forall_mem_cons.mpr ⟨hw.2, hws.2⟩

theorem ofCode_makes (code : Code) (o : GenerationOptions) :
    Makes code.Miscounts
      (fun _ => ∀ d ∈ code.widgets, ∀ e ∈ d.settings, ∃ r, e.constant = .ok r) (ofCode code o) := by
  have hcauses : ∀ d ∈ code.widgets, Causes code.Miscounts d.settings :=
    fun d hd e he n hn => ⟨d, hd, e, he, hn⟩
  unfold ofCode
  split
  · exact makes_error rfl
  · refine makes_bind (widgetsOf_makes o code.file hcauses) fun ws hws => ?_
    exact makes_bind (emitAll_runs o _ ws _ _ hws.2) fun r _ => makes_ok hws.1

/-- How the generation from a source text can end. -/
inductive Ends (source : String) (file : Option String) :
    Except GenerationFault GeneratedUnit → Prop where
  /-- all constants have been evaluated -/
  | generated {code : Code} (u : GeneratedUnit) : parse source file = .ok code →
      (∀ d ∈ code.widgets, ∀ e ∈ d.settings, ∃ r, e.constant = .ok r) → Ends source file (.ok u)
  /-- refused with the words of the parser, at its place -/
  | unparsed {e : SourceError} {e' : GenerationError} : parse source file = .error (.source e) →
      e'.cause.stage = .parse → e'.cause.message = e.message → e'.place.line = e.place.line →
      e'.place.column = e.place.column → Ends source file (.error (.refused e'))
  | refused {code : Code} {e : GenerationError} : parse source file = .ok code →
      e.cause.stage = .codegen → Ends source file (.error (.refused e))
  /-- ended by a number in the text -/
  | numeral {ts : List Token} {t : Token} {n : NumberFault} :
      parse source file = .error (.number n) → tokenize source file = .ok ts → t ∈ ts →
      t.Unreadable n → Ends source file (.error (.number n))
  /-- ended by a constant in a field or in a view -/
  | constant {code : Code} {n : NumberFault} : parse source file = .ok code → code.Miscounts n →
      Ends source file (.error (.number n))

theorem ofSource_ends (source : String) (file : Option String) (o : GenerationOptions) :
    Ends source file (ofSource source file o) := by
  unfold ofSource
  cases hp : parse source file with
  | error f =>
    cases f with
    | source e => exact .unparsed hp rfl rfl rfl rfl
    | number n =>
      obtain ⟨ts, hts, t, ht, hn⟩ := parse_number hp
      exact .numeral hp hts ht hn
  | ok code =>
    obtain ⟨hok, herror⟩ := ofCode_makes code o
    dsimp only
    cases hr : ofCode code o with
    | ok u => exact .generated u hp (hok u hr)
    | error f =>
      have hown := herror f hr
      cases f with
      | refused e => exact .refused hp hown
      | number n => exact .constant hp hown
      | template t => exact hown.elim

/-- **The generation from a source text is refused at the stage of the parser exactly if the parser
refuses the text**, and then with its words and its place. All else that ends it is a refusal of the
generator itself, or a fault in a number of the text or in one of its constants. -/
theorem ofSource_refuses (source : String) (file : Option String) (o : GenerationOptions) :
    ((∃ e, ofSource source file o = .error (.refused e) ∧ e.cause.stage = .parse) ↔
      ∃ e, parse source file = .error (.source e)) ∧
    Ends source file (ofSource source file o) := by
  have hends := ofSource_ends source file o
  refine ⟨?_, hends⟩
  generalize ofSource source file o = r at hends ⊢
  cases hends with
  | generated u hp _ => simp [hp]
  | unparsed hp hs _ _ _ => exact iff_of_true ⟨_, rfl, hs⟩ ⟨_, hp⟩
  | refused hp hs => simp [hp, hs]
  | numeral hp _ _ _ => simp [hp]
  | constant hp _ => simp [hp]

/-- A widget with a field that starts with a digit that is not decimal. -/
def raisedSource : String := "type W is Widget { n int = ² }"

/-- Not all that ends the generation is a refusal: the digit is a number for the lexer, but it
cannot be read. -/
theorem raised_spilled : ¬ ∀ source file o f, ofSource source file o = .error f →
    ∃ e, f = .refused e := by
  intro hall
  have hspilled : (match ofSource raisedSource none {} with
      | .error (.number (.notWhole _)) => true
      | _ => false) = true := by decide +kernel
  split at hspilled
  · next hrun =>
    obtain ⟨e, he⟩ := hall raisedSource none {} _ hrun
    cases he
  · cases hspilled

end Generation

end Widgetry
