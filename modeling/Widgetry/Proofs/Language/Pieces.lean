import Widgetry.Language.Evaluation

/-!
# What a function may run

Which expressions and statements may be run while a function is, and in which context, can be read
off the program: its body, the parts of what is run, and the bodies of the functions and methods
that calls name.

> `Context.MayRun`: what may be run, and in which context, while a function is run in one;
> `Context.mayRun_context`: its own context, or that of a function;
> `Context.test_of_mayRun`: a test of all of it can be computed where calls do not go in circles.
-/

namespace Widgetry

/-- A part of a program. -/
inductive Piece where
  | expr (e : Expr)
  | stmt (s : Stmt)

/-- What is run for an expression in the context of the expression. -/
def Expr.parts : Expr → List Piece
  | .literal .. | .ident .. => []
  | .array items _ => items.map .expr
  | .unary _ operand _ => [.expr operand]
  | .binary _ left right _ => [.expr left, .expr right]
  | .member obj _ _ => [.expr obj]
  | .call _ args _ => args.map .expr
  | .node _ args props body _ =>
    args.map .expr ++ props.map (fun p => .expr p.value) ++ body.map .stmt

/-- What is run for a statement. -/
def Stmt.parts : Stmt → List Piece
  | .expr e _ => [.expr e]
  | .bind _ value _ _ _ => [.expr value]
  | .assign _ _ value _ => [.expr value]
  | .choose subject arms _ =>
    .expr subject :: arms.flatMap fun a => a.pattern.toList.map .expr ++ a.body.map .stmt
  | .each _ items body _ => .expr items :: body.map .stmt
  | .fn _ | .type _ => []

def Piece.parts : Piece → List Piece
  | .expr e => e.parts
  | .stmt s => s.parts

namespace Context

/-- What an expression calls, and in which context that is run. -/
def callee? (c : Context) : Expr → Option (Context × FnDecl)
  | .call (.member obj name _) _ _ =>
    if obj.isSelf then (c.method? name).map (c.ofMethod, ·) else none
  | .call (.ident name _) _ _ =>
    if builtins.contains name then none
    else match c.code.function? name with
      | some fn => some (c.ofFunction, fn)
      | none => (c.method? name).map (c.ofMethod, ·)
  | _ => none

/-- What may be run, and in which context, while a function is run in a context. -/
inductive MayRun (c₀ : Context) (fn₀ : FnDecl) : Context → Piece → Prop where
  | body {s : Stmt} : s ∈ fn₀.body → MayRun c₀ fn₀ c₀ (.stmt s)
  | part {c : Context} {q r : Piece} : MayRun c₀ fn₀ c q → r ∈ q.parts → MayRun c₀ fn₀ c r
  | call {c c' : Context} {e : Expr} {fn : FnDecl} {s : Stmt} : MayRun c₀ fn₀ c (.expr e) →
      c.callee? e = some (c', fn) → s ∈ fn.body → MayRun c₀ fn₀ c' (.stmt s)

variable {c c' c₀ : Context} {fn fn₀ : FnDecl}

theorem callee?_member {obj : Expr} (hobj : obj.isSelf = true) (name : String) (args : List Expr)
    (l l' : Nat) : c.callee? (.call (.member obj name l) args l')
      = (c.method? name).map (c.ofMethod, ·) := by
  rw [callee?, if_pos hobj]

theorem callee?_function {name : String} (hb : builtins.contains name = false)
    (hfn : c.code.function? name = some fn) (args : List Expr) (l l' : Nat) :
    c.callee? (.call (.ident name l) args l') = some (c.ofFunction, fn) := by
  rw [callee?, hb, hfn]
  rfl

theorem callee?_method {name : String} (hb : builtins.contains name = false)
    (hnone : c.code.function? name = none) (args : List Expr) (l l' : Nat) :
    c.callee? (.call (.ident name l) args l') = (c.method? name).map (c.ofMethod, ·) := by
  rw [callee?, hb, hnone]
  rfl

/-- A called method sees the widget of its caller, a called function sees none. -/
theorem callee?_cases {e : Expr} (h : c.callee? e = some (c', fn)) :
    (c' = c.ofFunction ∧ ∃ name, c.code.function? name = some fn) ∨
      c' = c ∧ ∃ name, c.method? name = some fn := by
  have hmethod : ∀ name, (c.method? name).map (c.ofMethod, ·) = some (c', fn) →
      c' = c ∧ ∃ name, c.method? name = some fn := by
    intro name hm
    obtain ⟨fn', hfn, he⟩ := Option.map_eq_some_iff.mp hm
    cases he
    exact ⟨rfl, name, hfn⟩
  unfold callee? at h
  split at h
  · split at h
    · exact Or.inr (hmethod _ h)
    · cases h
  · next name _ _ _ =>
    split at h
    · cases h
    · split at h
      · next hfn =>
        cases h
        exact Or.inl ⟨rfl, name, hfn⟩
      · exact Or.inr (hmethod name h)
  · cases h

/-- **All that a method runs is run in its own context or in that of a function.** -/
theorem mayRun_context {q : Piece} (h : MayRun c₀ fn₀ c q) : c = c₀ ∨ c = c₀.ofFunction := by
  induction h with
  | body _ => exact Or.inl rfl
  | part _ _ ih => exact ih
  | call _ hcall _ ih =>
    rcases callee?_cases hcall with ⟨rfl, -⟩ | ⟨rfl, -⟩
    · rcases ih with rfl | rfl
      · exact Or.inr rfl
      · exact Or.inr rfl
    · exact ih

/-! ## Looking at all of it -/

/-- Whether a test comes out true of all that may be run for a piece, if calls and parts nest no
deeper than a bound. -/
def everywhere (test : Context → Piece → Bool) : Nat → Context → Piece → Bool
  | 0, _, _ => false
  | d + 1, c, q => test c q && q.parts.all (everywhere test d c) &&
    match q with
    | .expr e => (c.callee? e).all fun (c', fn) => fn.body.all fun s => everywhere test d c' (.stmt s)
    | .stmt _ => true

/-- A test that comes out true of a body comes out true of all that may be run. -/
theorem test_of_mayRun {test : Context → Piece → Bool} {d : Nat}
    (hbody : fn₀.body.all (fun s => everywhere test d c₀ (.stmt s)) = true) {q : Piece}
    (h : MayRun c₀ fn₀ c q) : test c q = true := by
  have hall : ∃ d, everywhere test d c q = true := by
    induction h with
    | body hs => exact ⟨d, List.all_eq_true.mp hbody _ hs⟩
    | part _ hr ih =>
      obtain ⟨d, hd⟩ := ih
      cases d with
      | zero => cases hd
      | succ d =>
        simp only [everywhere, Bool.and_eq_true] at hd
        exact ⟨d, List.all_eq_true.mp hd.1.2 _ hr⟩
    | call _ hcall hs ih =>
      obtain ⟨d, hd⟩ := ih
      cases d with
      | zero => cases hd
      | succ d =>
        simp only [everywhere, Bool.and_eq_true, hcall, Option.all_some] at hd
        exact ⟨d, List.all_eq_true.mp hd.2 _ hs⟩
  obtain ⟨d, hd⟩ := hall
  cases d with
  | zero => cases hd
  | succ d =>
    simp only [everywhere, Bool.and_eq_true] at hd
    exact hd.1.1

end Context

end Widgetry
