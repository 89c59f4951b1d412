import Widgetry.Proofs.Generation.Results
import Widgetry.Proofs.Generation.Variants
import Widgetry.Proofs.Language.Scopes

/-!
# Statements that are run and written

The interpreter runs a body and the generator writes it. A *stage* is a part of the body as both see
it: the interpreter comes to it on some machine, with so much depth left, and the generator comes to
it among some local names. Of a node expression the generator writes only the kind, so what is run
inside one is written among no local names at all.

> `Stage.Runs`: which parts of a part are run, and on which machines;
> `Stage.Reached.halts`: all that is reached from a body is really run while the body is;
> `Stage.Reached.written`: and what is among local names stands in the lines of the body.
-/

namespace Widgetry

open Run

/-! ## Items that a run comes to -/

namespace Run

variable {α β : Type}

/-- Whether a computation that is run for each item of a list comes to an item on a machine. -/
def ComesTo (f : α → Run β) (items : List α) (m : Machine) (a : α) (m' : Machine) : Prop :=
  ∃ before after bs, items = before ++ a :: after ∧ each f before m = (.ok bs, m')

/-- Whether it comes to an item behind some others, if only the last result is kept. -/
def GetsTo (f : α → Run Value) (items : List α) (m : Machine) (before : List α) (a : α)
    (m' : Machine) : Prop :=
  ∃ after u, items = before ++ a :: after ∧ last f .nil before m = (.ok u, m')

variable {f : α → Run β} {items : List α} {a : α} {m m₁ m₂ : Machine} {h : Halt}

/-- What halts at an item halts the whole. -/
theorem ComesTo.halts (hitem : ComesTo f items m a m₁) (ha : f a m₁ = (.error h, m₂)) :
    each f items m = (.error h, m₂) := by
  obtain ⟨before, after, bs, rfl, hbefore⟩ := hitem
  induction before generalizing m bs with
  | nil =>
    cases hbefore
    exact run_bind_error ha
  | cons b rest ih =>
    obtain ⟨v, m', hb, hrest⟩ := run_bind_eq_ok.mp hbefore
    obtain ⟨vs, m'', hrest, hpure⟩ := run_bind_eq_ok.mp hrest
    cases hpure
    exact (run_bind_ok hb).trans (run_bind_error (ih vs hrest))

theorem GetsTo.halts {f : α → Run Value} {before : List α} (hitem : GetsTo f items m before a m₁)
    (ha : f a m₁ = (.error h, m₂)) : last f .nil items m = (.error h, m₂) := by
  obtain ⟨after, u, rfl, hbefore⟩ := hitem
  revert m hbefore
  generalize Value.nil = v
  induction before generalizing v with
  | nil =>
    intro m hbefore
    cases hbefore
    exact run_bind_error ha
  | cons b rest ih =>
    intro m hbefore
    obtain ⟨w, m', hb, hrest⟩ := run_bind_eq_ok.mp hbefore
    exact (run_bind_ok hb).trans (ih w hrest)

theorem firstWhere_halts {test : α → Run Bool} {after : List α} : ∀ {before : List α} {m : Machine},
    firstWhere test before m = (.ok none, m₁) → test a m₁ = (.error h, m₂) →
      firstWhere test (before ++ a :: after) m = (.error h, m₂)
  | [], _, hnone, ha => by
    cases hnone
    exact run_bind_error ha
  | b :: rest, _, hnone, ha => by
    obtain ⟨passed, m', hb, hrest⟩ := run_bind_eq_ok.mp hnone
    cases passed with
    | true => cases hrest
    | false => exact (run_bind_ok hb).trans (firstWhere_halts hrest ha)

theorem inScope_halts {s : Scope} {x : Run α}
    (hx : x { m with locals := s :: m.locals } = (.error h, m₁)) :
    inScope s x m = (.error h, m₁) := by
  rw [inScope, run_bind_ok (run_modify _ m)]
  exact run_bind_error hx

theorem collecting_halts {x : Run Value}
    (hx : x { m with children := some [], locals := {} :: m.locals } = (.error h, m₁)) :
    collecting x m = (.error h, m₁) := by
  rw [collecting, run_bind_ok (run_get m), run_bind_ok (run_modify _ m)]
  exact run_bind_error (inScope_halts hx)

end Run

/-! ## Stages -/

/-- A part of a body on the machine that it is run on, among the local names that it is written
among, if it is. -/
structure Stage where
  depth : Nat
  machine : Machine
  locals : Option (List String)
  piece : Piece

namespace Stage

/-- What the interpreter does at a stage. -/
def run (c : Context) (s : Stage) : Except Halt Value × Machine :=
  match s.piece with
  | .expr e => eval s.depth c e s.machine
  | .stmt st => exec s.depth c st s.machine

/-- Which parts of a part are run, in the context of the part itself. -/
inductive Runs (c : Context) : Stage → Stage → Prop where
  | item {d : Nat} {m m' : Machine} {L : Option (List String)} {items : List Expr} {e : Expr}
      {line : Nat} : ComesTo (eval d c) items m e m' →
      Runs c ⟨d + 1, m, L, .expr (.array items line)⟩ ⟨d, m', L, .expr e⟩
  | operand {d : Nat} {m : Machine} {L : Option (List String)} {op : UnaryOp} {e : Expr}
      {line : Nat} : Runs c ⟨d + 1, m, L, .expr (.unary op e line)⟩ ⟨d, m, L, .expr e⟩
  | left {d : Nat} {m : Machine} {L : Option (List String)} {op : BinaryOp} {l r : Expr}
      {line : Nat} : Runs c ⟨d + 1, m, L, .expr (.binary op l r line)⟩ ⟨d, m, L, .expr l⟩
  /-- a truth value on the left may decide, and then the right side is not run -/
  | right {d : Nat} {m m' : Machine} {L : Option (List String)} {op : BinaryOp} {l r : Expr}
      {line : Nat} {v : Value} : eval d c l m = (.ok v, m') → (op = .and → v.truthy = true) →
      (op = .or → v.truthy = false) →
      Runs c ⟨d + 1, m, L, .expr (.binary op l r line)⟩ ⟨d, m', L, .expr r⟩
  | object {d : Nat} {m : Machine} {L : Option (List String)} {obj : Expr} {name : String}
      {line : Nat} : (∀ l, obj ≠ .ident "Msg" l) →
      Runs c ⟨d + 1, m, L, .expr (.member obj name line)⟩ ⟨d, m, L, .expr obj⟩
  | argument {d : Nat} {m m' : Machine} {L : Option (List String)} {name : String}
      {args : List Expr} {e : Expr} {l line : Nat} : ComesTo (eval d c) args m e m' →
      Runs c ⟨d + 1, m, L, .expr (.call (.ident name l) args line)⟩ ⟨d, m', L, .expr e⟩
  /-- an argument of `self.name(…)` -/
  | passed {d : Nat} {m m' : Machine} {L : Option (List String)} {obj : Expr} {name : String}
      {args : List Expr} {e : Expr} {l line : Nat} {fn : FnDecl} : obj.isSelf = true →
      c.method? name = some fn → ComesTo (eval d c) args m e m' →
      Runs c ⟨d + 2, m, L, .expr (.call (.member obj name l) args line)⟩ ⟨d, m', L, .expr e⟩
  | nodeArgument {d : Nat} {m m' : Machine} {L : Option (List String)} {kind : String}
      {args : List Expr} {props : List Property} {body : List Stmt} {e : Expr} {line : Nat} :
      ComesTo (eval d c) args m e m' →
      Runs c ⟨d + 1, m, L, .expr (.node kind args props body line)⟩ ⟨d, m', none, .expr e⟩
  | nodeProperty {d : Nat} {m m₁ m' : Machine} {L : Option (List String)} {kind : String}
      {args : List Expr} {props : List Property} {body : List Stmt} {p : Property} {line : Nat}
      {vs : List Value} : each (eval d c) args m = (.ok vs, m₁) →
      ComesTo (fun p : Property => eval d c p.value) props m₁ p m' →
      Runs c ⟨d + 1, m, L, .expr (.node kind args props body line)⟩ ⟨d, m', none, .expr p.value⟩
  | nodeStatement {d : Nat} {m m₁ m₂ m' : Machine} {L : Option (List String)} {kind : String}
      {args : List Expr} {props : List Property} {body front : List Stmt} {s : Stmt} {line : Nat}
      {vs ps : List Value} : each (eval d c) args m = (.ok vs, m₁) →
      each (fun p : Property => eval d c p.value) props m₁ = (.ok ps, m₂) →
      GetsTo (exec d c) body { m₂ with children := some [], locals := {} :: m₂.locals } front s m' →
      Runs c ⟨d + 1, m, L, .expr (.node kind args props body line)⟩ ⟨d, m', none, .stmt s⟩
  | expression {d : Nat} {m : Machine} {L : Option (List String)} {e : Expr} {line : Nat} :
      Runs c ⟨d + 1, m, L, .stmt (.expr e line)⟩ ⟨d, m, L, .expr e⟩
  | bound {d : Nat} {m : Machine} {L : Option (List String)} {name : String} {value : Expr}
      {type : Option String} {mutable : Bool} {line : Nat} :
      Runs c ⟨d + 1, m, L, .stmt (.bind name value type mutable line)⟩ ⟨d, m, L, .expr value⟩
  | assigned {d : Nat} {m : Machine} {L : Option (List String)} {target : Target} {op : AssignOp}
      {value : Expr} {line : Nat} {slot : Slot} : targetSlot c target line m = (.ok slot, m) →
      Runs c ⟨d + 1, m, L, .stmt (.assign target op value line)⟩ ⟨d, m, L, .expr value⟩
  | subject {d : Nat} {m : Machine} {L : Option (List String)} {e : Expr} {arms : List Arm}
      {line : Nat} : Runs c ⟨d + 1, m, L, .stmt (.choose e arms line)⟩ ⟨d, m, L, .expr e⟩
  /-- the pattern of an arm, if no arm in front is taken -/
  | pattern {d : Nat} {m m₁ m' : Machine} {L : Option (List String)} {e p : Expr}
      {before after : List Arm} {a : Arm} {line : Nat} {v : Value} :
      eval d c e m = (.ok v, m₁) →
      firstWhere (fun a : Arm => takes (eval d c) v a.pattern) before m₁ = (.ok none, m') →
      a.pattern = some p →
      Runs c ⟨d + 1, m, L, .stmt (.choose e (before ++ a :: after) line)⟩ ⟨d, m', L, .expr p⟩
  /-- a statement of the arm that is taken -/
  | taken {d : Nat} {m m₁ m₂ m' : Machine} {L : Option (List String)} {e : Expr}
      {arms : List Arm} {a : Arm} {front : List Stmt} {s : Stmt} {line : Nat} {v : Value} :
      eval d c e m = (.ok v, m₁) →
      firstWhere (fun a : Arm => takes (eval d c) v a.pattern) arms m₁ = (.ok (some a), m₂) →
      GetsTo (exec d c) a.body { m₂ with locals := {} :: m₂.locals } front s m' →
      Runs c ⟨d + 1, m, L, .stmt (.choose e arms line)⟩
        ⟨d, m', L.map (Stmt.localsBehind · front), .stmt s⟩
  | items {d : Nat} {m : Machine} {L : Option (List String)} {name : String} {e : Expr}
      {body : List Stmt} {line : Nat} :
      Runs c ⟨d + 1, m, L, .stmt (.each name e body line)⟩ ⟨d, m, L, .expr e⟩
  /-- a statement of a round of a loop -/
  | round {d : Nat} {m m₁ m₂ m' : Machine} {L : Option (List String)} {name : String} {e : Expr}
      {body front : List Stmt} {s : Stmt} {line : Nat} {v item : Value} {vs : List Value} :
      eval d c e m = (.ok v, m₁) → Machine.items? v = some vs →
      ComesTo (fun item =>
        inScope { values := [(name, item)] } (last (exec d c) .nil body)) vs m₁ item m₂ →
      GetsTo (exec d c) body
        { m₂ with locals := { values := [(name, item)] } :: m₂.locals } front s m' →
      Runs c ⟨d + 1, m, L, .stmt (.each name e body line)⟩
        ⟨d, m', L.map fun L => Stmt.localsBehind (bindLocal name L) front, .stmt s⟩

/-- What is come to while some statements are run on a machine, in one context: the statements and
all their parts. -/
inductive Reached (c : Context) (d : Nat) (m : Machine) (locals : List String)
    (body : List Stmt) : Stage → Prop where
  | stmt {front : List Stmt} {s : Stmt} {m' : Machine} : GetsTo (exec d c) body m front s m' →
      Reached c d m locals body ⟨d, m', some (Stmt.localsBehind locals front), .stmt s⟩
  | part {a b : Stage} : Reached c d m locals body a → Runs c a b → Reached c d m locals body b

/-- The first statement is run as it stands. -/
theorem Reached.first {c : Context} {d : Nat} {m : Machine} {locals : List String} {s : Stmt}
    {rest : List Stmt} : Reached c d m locals (s :: rest) ⟨d, m, some locals, .stmt s⟩ :=
  @Reached.stmt _ _ _ _ _ [] s m ⟨rest, .nil, rfl, rfl⟩

/-- The second is run behind it. -/
theorem Reached.second {c : Context} {d : Nat} {m m' : Machine} {locals : List String} {v : Value}
    {s s' : Stmt} {rest : List Stmt} (hs : exec d c s m = (.ok v, m')) :
    Reached c d m locals (s :: s' :: rest) ⟨d, m', some (s.localsAfter locals), .stmt s'⟩ :=
  @Reached.stmt _ _ _ _ _ [s] s' m' ⟨rest, v, rfl, (run_bind_ok hs).trans rfl⟩

/-! ## What is reached is run -/

variable {c : Context} {a b : Stage} {h : Halt} {m m' : Machine}

/-- **What halts a part halts the whole, and leaves the same machine.** -/
theorem Runs.halts (hab : Runs c a b) (hb : b.run c = (.error h, m')) :
    a.run c = (.error h, m') := by
  cases hab with
  | item hitem =>
    show eval _ c _ _ = _
    rw [eval]
    exact run_bind_error (hitem.halts hb)
  | operand =>
    show eval _ c _ _ = _
    rw [eval]
    exact run_bind_error hb
  | @left _ _ _ op => cases op <;> exact run_bind_error hb
  | @right _ _ _ _ op _ _ _ _ hleft hand hor =>
    -- the right side is run unless the left one decides
    cases op with
    | and =>
      refine (run_bind_ok hleft).trans ?_
      rw [if_pos (hand rfl)]
      exact run_bind_error hb
    | or =>
      refine (run_bind_ok hleft).trans ?_
      rw [if_neg (by rw [hor rfl]; decide)]
      exact run_bind_error hb
    | _ => exact (run_bind_ok hleft).trans (run_bind_error hb)
  | object hobj =>
    show eval _ c _ _ = _
    rw [eval]
    · exact run_bind_error hb
    · exact fun l hl => hobj l hl
  | argument hitem =>
    show eval _ c _ _ = _
    rw [eval]
    exact run_bind_error (hitem.halts hb)
  | passed hself hfn hitem =>
    show eval _ c _ _ = _
    rw [eval, if_pos hself, callMethod, hfn]
    exact run_bind_error (hitem.halts hb)
  | nodeArgument hitem =>
    show eval _ c _ _ = _
    rw [eval]
    exact run_bind_error (hitem.halts hb)
  | nodeProperty hargs hitem =>
    show eval _ c _ _ = _
    rw [eval]
    exact (run_bind_ok hargs).trans (run_bind_error (hitem.halts hb))
  | nodeStatement hargs hprops hitem =>
    obtain ⟨after, u, rfl, hfront⟩ := id hitem
    show eval _ c _ _ = _
    rw [eval]
    refine (run_bind_ok hargs).trans ((run_bind_ok hprops).trans ?_)
    rw [if_neg (by simp)]
    exact run_bind_error (collecting_halts (hitem.halts hb))
  | expression =>
    show exec _ c _ _ = _
    rw [exec]
    exact run_bind_error hb
  | bound =>
    show exec _ c _ _ = _
    rw [exec]
    exact run_bind_error hb
  | assigned hslot =>
    show exec _ c _ _ = _
    rw [exec]
    exact (run_bind_ok hslot).trans (run_bind_error hb)
  | subject =>
    show exec _ c _ _ = _
    rw [exec]
    exact run_bind_error hb
  | pattern hsubject hnone hp =>
    show exec _ c _ _ = _
    rw [exec]
    refine (run_bind_ok hsubject).trans (run_bind_error (firstWhere_halts hnone ?_))
    rw [hp]
    exact run_bind_error hb
  | taken hsubject htaken hitem =>
    show exec _ c _ _ = _
    rw [exec]
    refine (run_bind_ok hsubject).trans ((run_bind_ok htaken).trans ?_)
    exact inScope_halts (hitem.halts hb)
  | items =>
    show exec _ c _ _ = _
    rw [exec]
    exact run_bind_error hb
  | round hitems hvs hround hitem =>
    show exec _ c _ _ = _
    rw [exec]
    refine (run_bind_ok hitems).trans ?_
    rw [hvs]
    exact run_bind_error (hround.halts (inScope_halts (hitem.halts hb)))

/-- **What halts a part that is reached halts the body.** So nothing is reached that is not run. -/
theorem Reached.halts {d : Nat} {locals : List String} {body : List Stmt} {s : Stage}
    (hs : Reached c d m locals body s) : ∀ {m' : Machine}, s.run c = (.error h, m') →
      last (exec d c) .nil body m = (.error h, m') := by
  induction hs with
  | stmt hitem => exact fun hb => hitem.halts hb
  | part _ hab ih => exact fun hb => ih (hab.halts hb)

end Stage

/-! ## What is reached is written -/

theorem Within.trans {s t u : String} (h : Within s t) (h' : Within t u) : Within s u :=
  List.IsInfix.trans h h'

/-- Whether a part stands in some lines, as it is written among some local names. -/
def Piece.Written (g : Naming) (locals : List String) (ts : List String) : Piece → Prop
  | .expr e => ∃ t ∈ ts, Within (e.source g locals) t
  | .stmt s => ∀ t ∈ Line.texts (s.lines g locals), ∃ t' ∈ ts, Within t t'

section Written

variable {g : Naming} {locals : List String} {ts : List String}

/-- What stands in the text of an expression that is written is written. -/
theorem Piece.Written.inner {e e' : Expr} (h : (Piece.expr e).Written g locals ts)
    (he : Within (e'.source g locals) (e.source g locals)) :
    (Piece.expr e').Written g locals ts := by
  obtain ⟨t, ht, hin⟩ := h
  exact ⟨t, ht, he.trans hin⟩

/-- What stands in a line of a statement that is written is written. -/
theorem Piece.Written.line {s : Stmt} {e : Expr} {t : String}
    (h : (Piece.stmt s).Written g locals ts) (ht : t ∈ Line.texts (s.lines g locals))
    (he : Within (e.source g locals) t) : (Piece.expr e).Written g locals ts := by
  obtain ⟨t', ht', hin⟩ := h t ht
  exact ⟨t', ht', he.trans hin⟩

/-- A statement in a statement that is written is written. -/
theorem Piece.Written.block {s s' : Stmt} {inner : List String}
    (h : (Piece.stmt s).Written g locals ts)
    (hs : ∀ t ∈ Line.texts (s'.lines g inner), t ∈ Line.texts (s.lines g locals)) :
    (Piece.stmt s').Written g inner ts :=
  fun t ht => h t (hs t ht)

theorem mem_sources {e : Expr} : ∀ {es : List Expr}, e ∈ es →
    e.source g locals ∈ Expr.sources g locals es
  | e' :: rest, he => by
    rcases List.mem_cons.mp he with rfl | he
    · exact List.mem_cons_self
    · exact List.mem_cons_of_mem _ (mem_sources he)

/-- An item stands among others. -/
theorem within_sources {e : Expr} {es : List Expr} (he : e ∈ es) :
    Within (e.source g locals) (commaSeparated (Expr.sources g locals es)) :=
  within_commaSeparated (Within.refl _) (mem_sources he)

theorem Run.ComesTo.mem {α β : Type} {f : α → Run β} {items : List α} {a : α} {m m' : Machine}
    (h : ComesTo f items m a m') : a ∈ items := by
  obtain ⟨before, after, -, rfl, -⟩ := h
  exact List.mem_append_right _ List.mem_cons_self

/-- A statement of a block stands in its lines. -/
theorem texts_block {front after : List Stmt} {s : Stmt} {t : String}
    (ht : t ∈ Line.texts (s.lines g (Stmt.localsBehind locals front))) :
    t ∈ Line.texts (Stmt.blockLines g locals (front ++ s :: after)) := by
  rw [Stmt.blockLines_append]
  simp [ht]

/-- An arm stands in the lines of a choice. -/
theorem texts_arm {before after : List Arm} {a : Arm} {subject : Expr} {line : Nat} :
    "case " ++ a.label g locals ++ ":" ∈
        Line.texts ((Stmt.choose subject (before ++ a :: after) line).lines g locals) ∧
      ∀ t ∈ Line.texts (Stmt.blockLines g locals a.body),
        t ∈ Line.texts ((Stmt.choose subject (before ++ a :: after) line).lines g locals) := by
  rw [Stmt.lines, Stmt.armLines_append, Stmt.armLines_cons]
  constructor
  · simp [Line.at0]
  · intro t ht
    simp [ht]

namespace Stage

variable {c : Context} {a b : Stage} {inner : List String}

/-- **A part of what is written is written**, among the local names that it has. -/
theorem Runs.written (hab : Runs c a b) (ha : a.locals = some locals)
    (hb : b.locals = some inner) (h : a.piece.Written g locals ts) :
    b.piece.Written g inner ts := by
  cases hab with
  | item hitem =>
    cases ha.symm.trans hb
    exact h.inner (((within_sources hitem.mem).after _).before _)
  | @operand _ _ _ _ e =>
    cases ha.symm.trans hb
    exact h.inner ((e.within_asOperand (.refl _)).after _)
  | @left _ _ _ op l r =>
    cases ha.symm.trans hb
    refine h.inner ?_
    exact ((((l.within_chosen (.refl _)).before _).before _).before _).before _
  | @right _ _ _ _ op l r =>
    cases ha.symm.trans hb
    exact h.inner ((r.within_chosen (.refl _)).after _)
  | @object _ _ _ obj name line hobj =>
    cases ha.symm.trans hb
    obtain he | ⟨⟨l, hl⟩, -⟩ := Expr.source_member_cases g locals obj name line
    · refine h.inner ?_
      rw [he]
      exact ((Within.refl _).before _).before _
    · exact absurd hl (hobj l)
  | argument hitem =>
    cases ha.symm.trans hb
    refine h.inner ?_
    rw [Expr.source_call_ident]
    exact ((within_sources hitem.mem).after _).before _
  | passed _ _ hitem =>
    cases ha.symm.trans hb
    refine h.inner ?_
    rw [Expr.source_call (by simp)]
    exact ((within_sources hitem.mem).after _).before _
  | nodeArgument => cases hb
  | nodeProperty => cases hb
  | nodeStatement => cases hb
  | expression =>
    cases ha.symm.trans hb
    exact h.line List.mem_cons_self (.refl _)
  | bound =>
    cases ha.symm.trans hb
    exact h.line List.mem_cons_self ((Within.refl _).after _)
  | assigned =>
    cases ha.symm.trans hb
    exact h.line List.mem_cons_self ((Within.refl _).after _)
  | subject =>
    cases ha.symm.trans hb
    exact h.line List.mem_cons_self (((Within.refl _).after _).before _)
  | @pattern _ _ _ _ _ _ p _ _ a _ _ _ _ hp =>
    cases ha.symm.trans hb
    refine h.line texts_arm.1 ?_
    rw [Arm.label, hp]
    exact ((Within.refl _).after _).before _
  | taken _ htaken hitem =>
    obtain ⟨before, after, _, rfl, -⟩ := firstWhere_eq_some_iff.mp htaken
    obtain ⟨after, _, hbody, -⟩ := hitem
    cases ha
    cases hb
    refine h.block fun t ht => texts_arm.2 t ?_
    rw [hbody]
    exact texts_block ht
  | items =>
    cases ha.symm.trans hb
    exact h.line List.mem_cons_self (((Within.refl _).after _).before _)
  | round _ _ _ hitem =>
    obtain ⟨after, _, rfl, -⟩ := hitem
    cases ha
    cases hb
    refine h.block fun t ht => ?_
    rw [Stmt.lines, Line.texts_cons, Line.texts_indented]
    exact List.mem_cons_of_mem _ (texts_block ht)

/-- What is written stands in something that is. -/
theorem Runs.locals_some (hab : Runs c a b) (hb : b.locals = some inner) :
    ∃ locals, a.locals = some locals := by
  cases hab with
  | nodeArgument => cases hb
  | nodeProperty => cases hb
  | nodeStatement => cases hb
  | taken =>
    obtain ⟨locals, hlocals, -⟩ := Option.map_eq_some_iff.mp hb
    exact ⟨locals, hlocals⟩
  | round =>
    obtain ⟨locals, hlocals, -⟩ := Option.map_eq_some_iff.mp hb
    exact ⟨locals, hlocals⟩
  | _ => exact ⟨inner, hb⟩

/-- **All that is reached from statements that are written is written, unless it is inside a node
expression.** -/
theorem Reached.written {d : Nat} {m : Machine} {body : List Stmt} {s : Stage}
    (hs : Reached c d m locals body s) (hbody : ∀ front s after, body = front ++ s :: after →
      (Piece.stmt s).Written g (Stmt.localsBehind locals front) ts) :
    ∀ {inner : List String}, s.locals = some inner → s.piece.Written g inner ts := by
  induction hs with
  | stmt hitem =>
    intro inner hinner
    obtain ⟨after, u, hsplit, -⟩ := hitem
    cases hinner
    exact hbody _ _ after hsplit
  | part _ hab ih =>
    intro inner hinner
    obtain ⟨outer, houter⟩ := hab.locals_some hinner
    exact hab.written houter hinner (ih houter)

end Stage

/-- The statements of a block are written. -/
theorem blockLines_written {front after : List Stmt} {s : Stmt} :
    (Piece.stmt s).Written g (Stmt.localsBehind locals front)
      (Line.texts (Stmt.blockLines g locals (front ++ s :: after))) :=
  fun t ht => ⟨t, texts_block ht, .refl t⟩

/-- So are the statements of a method, the last one with a `return` if it is an expression. -/
theorem helperBody_written {front after : List Stmt} {s : Stmt} :
    (Piece.stmt s).Written g (Stmt.localsBehind locals front)
      (Line.texts (Widget.helperBody g locals (front ++ s :: after))) := by
  intro t ht
  rw [Widget.helperBody_append, Line.texts_append]
  cases after with
  | cons s' rest =>
    refine ⟨t, ?_, .refl t⟩
    rw [Widget.helperBody_cons]
    simp [ht]
  | nil =>
    cases s with
    | expr e line =>
      cases List.mem_singleton.mp ht
      exact ⟨_, List.mem_append_right _ List.mem_cons_self, (Within.refl _).after _⟩
    | _ => exact ⟨t, List.mem_append_right _ ht, .refl t⟩

/-- What is written in some lines is written in more. -/
theorem Piece.Written.mono {us : List String} : ∀ {q : Piece}, q.Written g locals ts → ts ⊆ us →
    q.Written g locals us
  | .expr _, ⟨t, ht, hin⟩, hts => ⟨t, hts ht, hin⟩
  | .stmt _, h, hts => fun t ht =>
    let ⟨t', ht', hin⟩ := h t ht
    ⟨t', hts ht', hin⟩

/-- The statements of a handler stand in the lines of the event method. -/
theorem texts_handler {w : Widget} {variants : List String} {handler : String × List Stmt}
    (hhandler : handler ∈ w.cases g.messages variants) {t : String}
    (ht : t ∈ Line.texts (Stmt.blockLines g [w.eventName] handler.2)) :
    t ∈ Line.texts (w.eventLines g variants) := by
  have hcase : t ∈ Line.texts (Widget.caseLines g [w.eventName] handler) := by
    rw [Widget.caseLines, Line.texts_cons, Line.texts_indented]
    exact List.mem_cons_of_mem _ ht
  obtain ⟨l, hl, rfl⟩ := List.mem_map.mp hcase
  have hall : l.text ∈ Line.texts ((w.cases g.messages variants).flatMap
      (Widget.caseLines g [w.eventName])) :=
    List.mem_map_of_mem (List.mem_flatMap.mpr ⟨handler, hhandler, hl⟩)
  rw [Widget.eventLines, Line.texts_cons, Line.texts_indented, Line.texts_append]
  refine List.mem_cons_of_mem _ (List.mem_append_right _ ?_)
  cases hcases : w.cases g.messages variants with
  | nil =>
    rw [hcases] at hhandler
    cases hhandler
  | cons first rest =>
    rw [hcases] at hall
    show l.text ∈ Line.texts (_ :: Line.indented _)
    rw [Line.texts_cons, Line.texts_indented]
    exact List.mem_cons_of_mem _ hall

/-! ## The source of the widget -/

section Component

variable {w : Widget} {types : TypeMap} {messages : String} {comp : Component} {c : Context}
  {d : Nat} {m : Machine} {s : Stage} {inner : List String}

/-- **All that is reached from a method is written in the source of its widget**, unless it is
inside a node expression. -/
theorem helper_written (hc : w.component types messages = .ok comp) {fn : FnDecl}
    (hfn : fn ∈ w.helpers) (hs : s.Reached c d m (Text.sortedSet fn.paramNames) fn.body)
    (hinner : s.locals = some inner) :
    s.piece.Written (w.naming messages) inner (Line.texts comp.lines) := by
  have hbody : s.piece.Written (w.naming messages) inner (Line.texts
      (Widget.helperBody (w.naming messages) (Text.sortedSet fn.paramNames) fn.body)) := by
    refine hs.written (fun front st after hsplit => ?_) hinner
    rw [hsplit]
    exact helperBody_written
  refine hbody.mono fun t ht => ((helperLines_within hc hfn).map _).subset ?_
  show t ∈ Line.texts (Line.indented (Widget.helperLines (w.naming messages) fn))
  rw [Line.texts_indented, Widget.helperLines, Line.texts_cons, Line.texts_indented]
  exact List.mem_cons_of_mem _ ht

/-- So is all that is reached from what an event is handled with. -/
theorem handler_written (hc : w.component types messages = .ok comp) {handler : String × List Stmt}
    (hhandler : handler ∈ w.cases messages comp.variants)
    (hs : s.Reached c d m [w.eventName] handler.2) (hinner : s.locals = some inner) :
    s.piece.Written (w.naming messages) inner (Line.texts comp.lines) := by
  have hbody : s.piece.Written (w.naming messages) inner (Line.texts
      (Stmt.blockLines (w.naming messages) [w.eventName] handler.2)) := by
    refine hs.written (fun front st after hsplit => ?_) hinner
    rw [hsplit]
    exact blockLines_written
  refine hbody.mono fun t ht => ((eventLines_within hc).map _).subset ?_
  show t ∈ Line.texts (Line.indented (w.eventLines (w.naming messages) comp.variants))
  rw [Line.texts_indented]
  exact texts_handler hhandler ht

end Component

end Written

end Widgetry
