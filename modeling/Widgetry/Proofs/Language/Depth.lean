import Widgetry.Language.Evaluation

/-!
# How deep code may nest

The limit on nesting does nothing but stop code. What ends otherwise within a limit, with a result
or an error, ends the same way within every higher one, and with the same effects.

> `eval_deeper`, `exec_deeper`: an expression and a statement that do not nest too deep do the same
> where more depth is left.

The induction is on the depth: one more step of it takes running code from its parts to the whole,
so the lemmas follow the ways in which computations are put together.
-/

namespace Widgetry

open Run

/-- Whether a computation does the same as another one, unless that one nests too deep. -/
def Run.Deepens {α : Type} (x y : Run α) : Prop := ∀ m, (x m).1 ≠ .error .tooDeep → y m = x m

namespace Run.Deepens

variable {α β : Type}

theorem refl (x : Run α) : Deepens x x := fun _ _ => rfl

theorem trans {x y z : Run α} (h₁ : Deepens x y) (h₂ : Deepens y z) : Deepens x z := by
  intro m h
  have hy : y m = x m := h₁ m h
  rw [← hy] at h
  rw [h₂ m h, hy]

theorem tooDeep (y : Run α) : Deepens (Run.halt .tooDeep) y := fun _ h => absurd rfl h

theorem bind {x y : Run α} {f g : α → Run β} (hx : Deepens x y) (hf : ∀ a, Deepens (f a) (g a)) :
    Deepens (x >>= f) (y >>= g) := by
  intro m h
  rw [run_bind] at h
  rw [run_bind, run_bind]
  rcases hr : x m with ⟨r, m₁⟩
  rw [hr] at h
  have hy : y m = (r, m₁) := by
    rw [← hr]
    refine hx m fun he => h ?_
    rw [hr] at he
    cases he
    rfl
  rw [hy]
  cases r with
  | error e => rfl
  | ok a => exact hf a m₁ h

theorem each {f g : α → Run β} (hf : ∀ a, Deepens (f a) (g a)) (l : List α) :
    Deepens (Run.each f l) (Run.each g l) := by
  induction l with
  | nil => exact refl _
  | cons a rest ih => exact bind (hf a) fun b => bind ih fun bs => refl _

theorem last {f g : α → Run Value} (hf : ∀ a, Deepens (f a) (g a)) (l : List α) :
    ∀ v, Deepens (Run.last f v l) (Run.last g v l) := by
  induction l with
  | nil => exact fun v => refl _
  | cons a rest ih => exact fun _ => bind (hf a) ih

theorem firstWhere {f g : α → Run Bool} (hf : ∀ a, Deepens (f a) (g a)) (l : List α) :
    Deepens (Run.firstWhere f l) (Run.firstWhere g l) := by
  induction l with
  | nil => exact refl _
  | cons a rest ih =>
    refine bind (hf a) fun b => ?_
    cases b with
    | true => exact refl _
    | false => exact ih

theorem takes {f g : Expr → Run Value} (hf : ∀ e, Deepens (f e) (g e)) (v : Value)
    (p : Option Expr) : Deepens (Run.takes f v p) (Run.takes g v p) := by
  cases p with
  | none => exact refl _
  | some p => exact bind (hf p) fun w => refl _

theorem inScope {x y : Run α} (s : Scope) (h : Deepens x y) :
    Deepens (Run.inScope s x) (Run.inScope s y) :=
  bind (refl _) fun _ => bind h fun _ => refl _

theorem inCall {x y : Run α} (s : Scope) (h : Deepens x y) :
    Deepens (Run.inCall s x) (Run.inCall s y) := by
  intro m hm
  have hbody := h { m with locals := [s], children := none } hm
  simp only [Run.inCall, hbody]

theorem collecting {x y : Run Value} (h : Deepens x y) :
    Deepens (Run.collecting x) (Run.collecting y) :=
  bind (refl _) fun _ => bind (refl _) fun _ => bind (inScope {} h) fun _ => refl _

theorem assign {x y : Run Value} (h : Deepens x y) (c : Context) (target : Target) (op : AssignOp)
    (line : Nat) : Deepens (Run.assign c target op x line) (Run.assign c target op y line) :=
  bind (refl _) fun _ => bind h fun _ => refl _

end Run.Deepens

/-- All that running code does at a depth is done the same at the next one. -/
structure Deeper (d : Nat) : Prop where
  eval (c : Context) (e : Expr) : Deepens (Widgetry.eval d c e) (Widgetry.eval (d + 1) c e)
  callMethod (c : Context) (name : String) (args : List Expr) (line : Nat) :
    Deepens (Widgetry.callMethod d c name args line) (Widgetry.callMethod (d + 1) c name args line)
  call (c : Context) (fn : FnDecl) (args : List Value) :
    Deepens (Widgetry.call d c fn args) (Widgetry.call (d + 1) c fn args)
  exec (c : Context) (s : Stmt) : Deepens (Widgetry.exec d c s) (Widgetry.exec (d + 1) c s)

namespace Deeper

variable {d : Nat}

theorem body (ih : Deeper d) (c : Context) (stmts : List Stmt) :
    Deepens (Run.last (Widgetry.exec d c) .nil stmts)
      (Run.last (Widgetry.exec (d + 1) c) .nil stmts) :=
  .last (ih.exec c) stmts .nil

theorem args (ih : Deeper d) (c : Context) (es : List Expr) :
    Deepens (Run.each (Widgetry.eval d c) es) (Run.each (Widgetry.eval (d + 1) c) es) :=
  .each (ih.eval c) es

theorem eval_succ (ih : Deeper d) (c : Context) (e : Expr) :
    Deepens (Widgetry.eval (d + 1) c e) (Widgetry.eval (d + 1 + 1) c e) := by
  rw [Widgetry.eval.eq_def, Widgetry.eval.eq_def]
  dsimp only
  split
  case h_1 => exact .refl _
  case h_2 => exact .bind (ih.args c _) fun vs => .refl _
  case h_3 => exact .refl _
  case h_4 => exact .bind (ih.eval c _) fun v => .refl _
  -- the right side of `&&` and `||` is run only if the left one does not decide
  case h_5 =>
    refine .bind (ih.eval c _) fun a => ?_
    split
    · exact .bind (ih.eval c _) fun b => .refl _
    · exact .refl _
  case h_6 =>
    refine .bind (ih.eval c _) fun a => ?_
    split
    · exact .refl _
    · exact .bind (ih.eval c _) fun b => .refl _
  case h_7 => exact .bind (ih.eval c _) fun a => .bind (ih.eval c _) fun b => .refl _
  case h_8 => exact .refl _
  case h_9 => exact .bind (ih.eval c _) fun v => .refl _
  case h_10 =>
    split
    · exact ih.callMethod c _ _ _
    · exact .refl _
  -- a call is one of a built-in function, of a function, of a method, or it makes a node
  case h_11 =>
    refine .bind (ih.args c _) fun vs => ?_
    split
    · exact .refl _
    · split
      · exact ih.call _ _ _
      · split
        · exact ih.call _ _ _
        · exact .refl _
  case h_12 => exact .refl _
  case h_13 =>
    refine .bind (ih.args c _) fun vs => .bind (.each (fun p => ih.eval c _) _) fun ps => ?_
    split
    · exact .refl _
    · exact .bind (.collecting (ih.body c _)) fun ns => .refl _

theorem callMethod_succ (ih : Deeper d) (c : Context) (name : String) (args : List Expr)
    (line : Nat) : Deepens (Widgetry.callMethod (d + 1) c name args line)
      (Widgetry.callMethod (d + 1 + 1) c name args line) := by
  rw [Widgetry.callMethod, Widgetry.callMethod]
  split
  · exact .refl _
  · exact .bind (ih.args c _) fun vs => ih.call _ _ _

theorem exec_succ (ih : Deeper d) (c : Context) (s : Stmt) :
    Deepens (Widgetry.exec (d + 1) c s) (Widgetry.exec (d + 1 + 1) c s) := by
  cases s with
  | expr e line =>
    rw [Widgetry.exec, Widgetry.exec]
    exact .bind (ih.eval c e) fun v => .refl _
  | bind name value type mutable line =>
    rw [Widgetry.exec, Widgetry.exec]
    exact .bind (ih.eval c value) fun v => .refl _
  | assign target op value line =>
    rw [Widgetry.exec, Widgetry.exec]
    exact .assign (ih.eval c value) c target op line
  | choose subject arms line =>
    rw [Widgetry.exec, Widgetry.exec]
    refine .bind (ih.eval c subject) fun v =>
      .bind (.firstWhere (fun arm => .takes (ih.eval c) v arm.pattern) arms) fun taken => ?_
    cases taken with
    | none => exact .refl _
    | some arm => exact .inScope {} (ih.body c arm.body)
  | each name items body line =>
    rw [Widgetry.exec, Widgetry.exec]
    refine .bind (ih.eval c items) fun v => ?_
    split
    · exact .refl _
    · exact .bind (.each (fun item => .inScope _ (ih.body c body)) _) fun _ => .refl _
  | fn decl =>
    rw [Widgetry.exec, Widgetry.exec]
    exact .refl _
  | type decl =>
    rw [Widgetry.exec, Widgetry.exec]
    exact .refl _

end Deeper

theorem deeper (d : Nat) : Deeper d := by
  induction d with
  | zero =>
    -- without depth all of them halt
    refine ⟨fun c e => ?_, fun c name args line => ?_, fun c fn args => ?_, fun c s => ?_⟩
    · rw [eval]
      exact .tooDeep _
    · rw [callMethod]
      exact .tooDeep _
    · rw [call]
      exact .tooDeep _
    · rw [exec]
      exact .tooDeep _
  | succ d ih =>
    refine ⟨ih.eval_succ, ih.callMethod_succ, fun c fn args => ?_, ih.exec_succ⟩
    rw [call, call]
    exact .inCall _ (ih.body c fn.body)

/-- Where more depth is left, an expression that does not nest too deep does the same. -/
theorem eval_deeper {d n : Nat} (h : d ≤ n) (c : Context) (e : Expr) :
    Deepens (eval d c e) (eval n c e) := by
  obtain ⟨k, rfl⟩ := Nat.exists_eq_add_of_le h
  induction k with
  | zero => exact .refl _
  | succ k ih => exact (ih (Nat.le_add_right d k)).trans ((deeper (d + k)).eval c e)

/-- So does a statement. -/
theorem exec_deeper {d n : Nat} (h : d ≤ n) (c : Context) (s : Stmt) :
    Deepens (exec d c s) (exec n c s) := by
  obtain ⟨k, rfl⟩ := Nat.exists_eq_add_of_le h
  induction k with
  | zero => exact .refl _
  | succ k ih => exact (ih (Nat.le_add_right d k)).trans ((deeper (d + k)).exec c s)

end Widgetry
