import Widgetry.Proofs.Generation.Handlers
import Mathlib.Data.List.Basic

/-!
# What methods return

A method of a widget answers the value of its last expression. The interpreter finds that in the
last statement of the body, and if this is a choice, in the last statement of the arm that is taken,
and so on. The generator writes `return` in front of an expression that is the last statement of the
body.

> `Concludes`: which expression a body that is run ends with, and along which arms;
> `call_concludes_or_nil`: every call that comes to a result answers that of such an expression, or
> nothing;
> `result_returned_iff`: the expression is generated with a `return` exactly if it stands in no arm.

What an arm ends with is lost in the generated method (`arm_result_dropped`).
-/

namespace Widgetry

open Run

/-! ## The expression that a body ends with -/

/-- Whether a body that is run ends with the value of an expression: of its last statement, or of
the last statement in the arm that its last statement takes, and so on. The path says which arms
these are. -/
inductive Concludes (c : Context) :
    Nat → Machine → List Stmt → List Nat → Expr → Value → Machine → Prop where
  | value {d : Nat} {m m₁ m₂ m₃ : Machine} {front : List Stmt} {e : Expr} {line : Nat}
      {u v : Value} : last (exec (d + 1) c) .nil front m = (.ok u, m₁) →
      eval d c e m₁ = (.ok v, m₂) → collect v m₂ = (.ok (), m₃) →
      Concludes c (d + 1) m (front ++ [.expr e line]) [] e v m₃
  | arm {d : Nat} {m m₁ m₂ m₃ m₄ m₅ : Machine} {front : List Stmt} {subject e : Expr}
      {before after : List Arm} {a : Arm} {line : Nat} {path : List Nat} {u w v : Value} :
      last (exec (d + 1) c) .nil front m = (.ok u, m₁) → eval d c subject m₁ = (.ok w, m₂) →
      firstWhere (fun a : Arm => takes (eval d c) w a.pattern) before m₂ = (.ok none, m₃) →
      takes (eval d c) w a.pattern m₃ = (.ok true, m₄) →
      Concludes c d { m₄ with locals := {} :: m₄.locals } a.body path e v m₅ →
      Concludes c (d + 1) m (front ++ [.choose subject (before ++ a :: after) line])
        (before.length :: path) e v { m₅ with locals := m₅.locals.tail }

/-- The first item that passes a test stands behind others that do not. -/
theorem Run.firstWhere_eq_some_iff {α : Type} {test : α → Run Bool} {a : α} {m' : Machine} :
    ∀ {l : List α} {m : Machine}, firstWhere test l m = (.ok (some a), m') ↔
      ∃ before after m₁, l = before ++ a :: after ∧ firstWhere test before m = (.ok none, m₁) ∧
        test a m₁ = (.ok true, m') := by
  intro l
  induction l with
  | nil =>
    intro m
    constructor
    · intro h
      cases h
    · rintro ⟨before, after, -, hl, -⟩
      cases before <;> cases hl
  | cons b rest ih =>
    intro m
    rw [firstWhere, run_bind_eq_ok]
    constructor
    · rintro ⟨passed, m₁, htest, h⟩
      cases passed with
      | true =>
        cases h
        exact ⟨[], rest, m, rfl, rfl, htest⟩
      | false =>
        obtain ⟨before, after, m₂, rfl, hnone, ha⟩ := ih.mp h
        exact ⟨b :: before, after, m₂, rfl, (run_bind_ok htest).trans hnone, ha⟩
    · rintro ⟨before, after, m₁, hl, hnone, ha⟩
      cases before with
      | nil =>
        cases hl
        cases hnone
        exact ⟨true, m', ha, rfl⟩
      | cons b' before =>
        cases hl
        obtain ⟨passed, m₂, htest, hnone⟩ := run_bind_eq_ok.mp hnone
        cases passed with
        | true => cases hnone
        | false => exact ⟨false, m₂, htest, ih.mpr ⟨before, after, m₁, rfl, hnone, ha⟩⟩

section Runs

variable {c : Context} {d : Nat} {m m' : Machine} {body : List Stmt} {path : List Nat} {e : Expr}
  {v : Value}

/-- The value of the expression that a body ends with is the value of the body. -/
theorem Concludes.run (h : Concludes c d m body path e v m') :
    last (exec d c) .nil body m = (.ok v, m') := by
  induction h with
  | value hfront he hcollect =>
    rw [last_concat, run_bind_ok hfront, exec, run_bind_ok he, run_bind_ok hcollect]
    rfl
  | arm hfront hsubject hnone ha hbody ih =>
    have htaken after := firstWhere_eq_some_iff.mpr ⟨_, after, _, rfl, hnone, ha⟩
    rw [last_concat, run_bind_ok hfront, exec, run_bind_ok hsubject, run_bind_ok (htaken _)]
    exact run_bind_ok ih

/-- An assignment has no value. -/
theorem assign_nil {target : Target} {op : AssignOp} {x : Run Value} {line : Nat}
    (h : Run.assign c target op x line m = (.ok v, m')) : v = .nil := by
  obtain ⟨slot, m₁, -, h⟩ := run_bind_eq_ok.mp h
  obtain ⟨w, m₂, -, h⟩ := run_bind_eq_ok.mp h
  rw [run_bind_ok (run_get m₂)] at h
  cases hop : op.binary? with
  | none =>
    rw [hop] at h
    cases h
    rfl
  | some o =>
    rw [hop] at h
    obtain ⟨u, m₃, -, h⟩ := run_bind_eq_ok.mp h
    cases h
    rfl

/-- **A body that comes to its end has the value of the expression that it ends with, or none.** -/
theorem concludes_or_nil : ∀ {d : Nat} {m : Machine} {body : List Stmt} {v : Value} {m' : Machine},
    last (exec d c) .nil body m = (.ok v, m') →
      (∃ path e, Concludes c d m body path e v m') ∨ v = .nil := by
  intro d
  induction d with
  | zero =>
    intro m body v m' h
    -- nothing can be run, so the body has no statement
    cases body with
    | nil =>
      cases h
      exact .inr rfl
    | cons s rest =>
      obtain ⟨_, _, hs, -⟩ := run_bind_eq_ok.mp h
      cases hs
  | succ d ih =>
    intro m body v m' h
    obtain rfl | ⟨front, s, rfl⟩ := List.eq_nil_or_concat' body
    · cases h
      exact .inr rfl
    rw [last_concat] at h
    obtain ⟨u, m₁, hfront, h⟩ := run_bind_eq_ok.mp h
    cases s with
    | expr e line =>
      rw [exec] at h
      obtain ⟨w, m₂, he, h⟩ := run_bind_eq_ok.mp h
      obtain ⟨_, m₃, hcollect, h⟩ := run_bind_eq_ok.mp h
      cases h
      exact .inl ⟨[], e, .value hfront he hcollect⟩
    | bind name value type mutable line =>
      rw [exec] at h
      obtain ⟨w, m₂, -, h⟩ := run_bind_eq_ok.mp h
      cases h
      exact .inr rfl
    | assign target op value line =>
      rw [exec] at h
      exact .inr (assign_nil h)
    | choose subject arms line =>
      rw [exec] at h
      obtain ⟨w, m₂, hsubject, h⟩ := run_bind_eq_ok.mp h
      obtain ⟨taken, m₃, htaken, h⟩ := run_bind_eq_ok.mp h
      cases taken with
      | none =>
        cases h
        exact .inr rfl
      | some a =>
        obtain ⟨w', m₅, hbody, h⟩ := run_bind_eq_ok.mp
          (show (last (exec d c) .nil a.body >>= _) { m₃ with locals := {} :: m₃.locals } = _
            from h)
        cases h
        obtain ⟨path, e, hconcludes⟩ | rfl := ih hbody
        · obtain ⟨before, after, m₄, rfl, hnone, ha⟩ := firstWhere_eq_some_iff.mp htaken
          exact .inl ⟨_, e, .arm hfront hsubject hnone ha hconcludes⟩
        · exact .inr rfl
    | each name items body line =>
      rw [exec] at h
      obtain ⟨w, m₂, -, h⟩ := run_bind_eq_ok.mp h
      cases hitems : Machine.items? w with
      | none =>
        rw [hitems] at h
        cases h
      | some ws =>
        rw [hitems] at h
        obtain ⟨_, m₃, -, h⟩ := run_bind_eq_ok.mp h
        cases h
        exact .inr rfl
    | fn decl =>
      rw [exec] at h
      cases h
    | type decl =>
      rw [exec] at h
      cases h

/-- The machine on which a function that is called begins to run. -/
def Machine.entered (m : Machine) (fn : FnDecl) (args : List Value) : Machine :=
  { m with locals := [.ofParams fn.paramNames args], children := none }

variable {fn : FnDecl} {args : List Value}

/-- A call answers the value of the expression that its body ends with. -/
theorem call_concludes (h : Concludes c d (m.entered fn args) fn.body path e v m') :
    call (d + 1) c fn args m = (.ok v, { m' with locals := m.locals, children := m.children }) := by
  rw [call, inCall, show { m with locals := _, children := none } = m.entered fn args from rfl, h.run]

/-- **A call that comes to a result answers the value of the expression that its body ends with, or
nothing.** -/
theorem call_concludes_or_nil (h : call d c fn args m = (.ok v, m')) :
    (∃ d' path e m₁, Concludes c d' (m.entered fn args) fn.body path e v m₁) ∨ v = .nil := by
  cases d with
  | zero => cases h
  | succ d =>
    rw [call] at h
    obtain ⟨m₁, hbody, rfl⟩ := inCall_eq_ok h
    obtain ⟨path, e, hconcludes⟩ | rfl := concludes_or_nil hbody
    · exact .inl ⟨d, path, e, m₁, hconcludes⟩
    · exact .inr rfl

end Runs

/-! ## The line of that expression -/

/-- What stands behind the word `case` for an arm. -/
def Arm.label (g : Naming) (locals : List String) (a : Arm) : String :=
  match a.pattern with
  | none => "_"
  | some p => p.source g locals

namespace Stmt

/-- The local names behind some statements. -/
def localsBehind (locals : List String) (stmts : List Stmt) : List String :=
  stmts.foldl localsAfter locals

/-- The lines of a body in front of the expression that it ends with along some arms. -/
def leadingLines (g : Naming) (locals : List String) (body : List Stmt) : List Nat → List Line
  | [] => restLines g locals body.dropLast
  | i :: path =>
    let inner := localsBehind locals body.dropLast
    restLines g locals body.dropLast ++
      match body.getLast? with
      | some (.choose subject arms _) =>
        .at0 ("match " ++ subject.source g inner ++ ":") ::
          Line.indented (armLines g inner (arms.take i) ++
            match arms[i]? with
            | some a => .at0 ("case " ++ a.label g inner ++ ":") ::
                Line.indented (leadingLines g inner a.body path)
            | none => [])
      | _ => []

/-- The local names at the expression that a body ends with along some arms. -/
def endLocals (locals : List String) (body : List Stmt) : List Nat → List String
  | [] => localsBehind locals body.dropLast
  | i :: path =>
    match body.getLast? with
    | some (.choose _ arms _) =>
      match arms[i]? with
      | some a => endLocals (localsBehind locals body.dropLast) a.body path
      | none => []
    | _ => []

variable {g : Naming} {locals : List String}

theorem restLines_append (xs ys : List Stmt) : ∀ locals : List String,
    restLines g locals (xs ++ ys)
      = restLines g locals xs ++ restLines g (localsBehind locals xs) ys := by
  induction xs with
  | nil => exact fun _ => rfl
  | cons s rest ih =>
    intro locals
    rw [List.cons_append, restLines, ih, restLines, List.append_assoc]
    rfl

theorem armLines_cons (a : Arm) (rest : List Arm) : armLines g locals (a :: rest)
    = .at0 ("case " ++ a.label g locals ++ ":") :: Line.indented (blockLines g locals a.body) ++
      armLines g locals rest := by
  obtain ⟨pattern, body, line⟩ := a
  cases pattern <;> rfl

theorem armLines_append (xs ys : List Arm) :
    armLines g locals (xs ++ ys) = armLines g locals xs ++ armLines g locals ys := by
  induction xs with
  | nil => rfl
  | cons a rest ih => rw [List.cons_append, armLines_cons, ih, armLines_cons, List.append_assoc]

/-- A block that is not empty is written statement by statement. -/
theorem blockLines_append (front : List Stmt) (s : Stmt) (after : List Stmt) :
    blockLines g locals (front ++ s :: after)
      = restLines g locals front ++ (s.lines g (localsBehind locals front) ++
        restLines g (s.localsAfter (localsBehind locals front)) after) := by
  have hrest : blockLines g locals (front ++ s :: after)
      = restLines g locals (front ++ s :: after) := by
    cases front <;> rfl
  rw [hrest, restLines_append, restLines]

section Arms

variable (front : List Stmt) (subject : Expr) (before after : List Arm) (a : Arm) (line : Nat)
  (path : List Nat)

theorem leadingLines_arm :
    leadingLines g locals (front ++ [.choose subject (before ++ a :: after) line])
      (before.length :: path) = restLines g locals front ++
        .at0 ("match " ++ subject.source g (localsBehind locals front) ++ ":") ::
          Line.indented (armLines g (localsBehind locals front) before ++
            .at0 ("case " ++ a.label g (localsBehind locals front) ++ ":") ::
              Line.indented (leadingLines g (localsBehind locals front) a.body path)) := by
  simp [leadingLines]

theorem endLocals_arm :
    endLocals locals (front ++ [.choose subject (before ++ a :: after) line])
      (before.length :: path) = endLocals (localsBehind locals front) a.body path := by
  simp [endLocals]

/-- A line of the body of an arm stands in the lines of the choice. -/
theorem choose_lines {lead rest : List Line} {n : Nat} {text : String}
    (h : blockLines g locals a.body = lead ++ ⟨n, text⟩ :: rest) :
    ∃ rest', (Stmt.choose subject (before ++ a :: after) line).lines g locals
      = .at0 ("match " ++ subject.source g locals ++ ":") ::
          Line.indented (armLines g locals before ++
            .at0 ("case " ++ a.label g locals ++ ":") :: Line.indented lead) ++
          ⟨n + 2, text⟩ :: rest' := by
  refine ⟨Line.indented (Line.indented rest ++ armLines g locals after), ?_⟩
  rw [lines, armLines_append, armLines_cons, h]
  simp [Line.indented]

end Arms

end Stmt

namespace Widget

variable {g : Naming}

/-- A method is written statement by statement, but for its last. -/
theorem helperBody_append (s : Stmt) (after : List Stmt) :
    ∀ (front : List Stmt) (locals : List String), helperBody g locals (front ++ s :: after)
      = Stmt.restLines g locals front ++
        helperBody g (Stmt.localsBehind locals front) (s :: after)
  | [], _ => rfl
  | [s'], locals => by
    show helperBody g locals (s' :: s :: after) = _
    rw [helperBody_cons, Stmt.restLines, Stmt.restLines, List.append_nil]
    rfl
  | s' :: s'' :: rest, locals => by
    have hrest := helperBody_append s after (s'' :: rest) (s'.localsAfter locals)
    show helperBody g locals (s' :: s'' :: (rest ++ s :: after)) = _
    rw [helperBody_cons, ← List.cons_append, hrest, ← List.append_assoc]
    rfl

end Widget

section Written

variable {c : Context} {d : Nat} {m m' : Machine} {body : List Stmt} {path : List Nat} {e : Expr}
  {v : Value} {g : Naming}

/-- In a block, the expression that it ends with stands as it is on a line of its own. -/
theorem Concludes.blockLines (h : Concludes c d m body path e v m') : ∀ locals : List String,
    ∃ rest, Stmt.blockLines g locals body = Stmt.leadingLines g locals body path ++
      ⟨2 * path.length, e.source g (Stmt.endLocals locals body path)⟩ :: rest := by
  induction h with
  | value =>
    intro locals
    refine ⟨[], ?_⟩
    rw [Stmt.blockLines_append, Stmt.leadingLines, Stmt.endLocals, List.dropLast_concat]
    rfl
  | arm _ _ _ _ _ ih =>
    intro locals
    obtain ⟨rest, hrest⟩ := ih (Stmt.localsBehind locals _)
    obtain ⟨rest', hlines⟩ := Stmt.choose_lines _ _ _ _ _ hrest
    refine ⟨rest', ?_⟩
    rw [Stmt.blockLines_append, hlines, Stmt.restLines, List.append_nil, Stmt.leadingLines_arm,
      Stmt.endLocals_arm, List.append_assoc]
    rfl

/-- In a method, it stands behind a `return` if it is the last statement of the body itself. -/
theorem Concludes.helperBody (h : Concludes c d m body path e v m') (locals : List String) :
    ∃ rest, Widget.helperBody g locals body = Stmt.leadingLines g locals body path ++
      ⟨2 * path.length, (if path = [] then "return " else "") ++
        e.source g (Stmt.endLocals locals body path)⟩ :: rest := by
  cases h with
  | value =>
    refine ⟨[], ?_⟩
    rw [Widget.helperBody_append, Stmt.leadingLines, Stmt.endLocals, List.dropLast_concat]
    rfl
  | arm _ _ _ _ hbody =>
    obtain ⟨rest, hrest⟩ := hbody.blockLines (Stmt.localsBehind locals _)
    obtain ⟨rest', hlines⟩ := Stmt.choose_lines _ _ _ _ _ hrest
    refine ⟨rest', ?_⟩
    rw [Widget.helperBody_append, Stmt.leadingLines_arm, Stmt.endLocals_arm]
    show Stmt.restLines g locals _ ++ (Stmt.choose _ _ _).lines g _ = _
    rw [hlines, List.append_assoc]
    rfl

end Written

/-- All methods but the view and the event method are generated as they are. -/
theorem mem_helpers {decl : TypeDecl} {policy : Policy} {file : Option String} {w : Widget}
    (hw : Widget.ofType decl policy file = .ok w) {fn : FnDecl} (hfn : fn ∈ decl.methods)
    (hview : fn.name ≠ "view") (hon : fn.name ≠ "on") : fn ∈ w.helpers := by
  rw [(ofType_reflects hw).helpers]
  exact List.mem_filter.mpr ⟨hfn, by simp [Widget.reservedMethods, hview, hon]⟩

/-- **The expression that a method ends with is generated behind a `return` exactly if it is the
last statement of the method itself.** The interpreter answers its value wherever it stands: in an
arm it is generated all the same, at the same place, but on a line of its own. -/
theorem result_returned_iff {decl : TypeDecl} {policy : Policy} {file : Option String} {w : Widget}
    (hw : Widget.ofType decl policy file = .ok w) {types : TypeMap} {messages : String}
    {comp : Component} (hc : w.component types messages = .ok comp) {fn : FnDecl}
    (hfn : fn ∈ decl.methods) (hview : fn.name ≠ "view") (hon : fn.name ≠ "on") {c : Context}
    {d : Nat} {args : List Value} {m m' : Machine} {path : List Nat} {e : Expr} {v : Value}
    (h : Concludes c d (m.entered fn args) fn.body path e v m') :
    (∃ m₁, call (d + 1) c fn args m = (.ok v, m₁)) ∧
    Line.indented (Widget.helperLines (w.naming messages) fn) <:+: comp.lines ∧
    ∃ text rest,
      Widget.helperBody (w.naming messages) (Text.sortedSet fn.paramNames) fn.body
        = Stmt.leadingLines (w.naming messages) (Text.sortedSet fn.paramNames) fn.body path ++
          ⟨2 * path.length, text⟩ :: rest ∧
      text = (if path = [] then "return " else "") ++ e.source (w.naming messages)
        (Stmt.endLocals (Text.sortedSet fn.paramNames) fn.body path) ∧
      (text = "return " ++ e.source (w.naming messages)
        (Stmt.endLocals (Text.sortedSet fn.paramNames) fn.body path) ↔ path = []) := by
  obtain ⟨rest, hbody⟩ := h.helperBody (g := w.naming messages) (Text.sortedSet fn.paramNames)
  refine ⟨⟨_, call_concludes h⟩, helperLines_within hc (mem_helpers hw hfn hview hon), _, rest,
    hbody, rfl, ?_⟩
  constructor
  · intro heq
    by_contra hpath
    rw [if_neg hpath, String.empty_append] at heq
    have hlength := congrArg String.length heq
    rw [String.length_append] at hlength
    exact absurd hlength (by simp)
  · intro hpath
    rw [if_pos hpath]

/-! ## A method that chooses what it returns -/

/-- A widget with some methods, a field `n` that starts with 7, and an empty column for a view. -/
def widgetWith (methods : List FnDecl) : TypeDecl where
  name := "W"
  specs := ["Widget"]
  members := [⟨"n", "int", some (.literal (.int 7) 1), 1⟩]
  methods := methods ++ [⟨"view", [], [.expr (.node "col" [] [] [] 1) 1], none, 1⟩]
  line := 1

/-- What the methods of a widget see that is alone in its program. -/
def TypeDecl.alone (decl : TypeDecl) : Context := ⟨⟨[.type decl], none⟩, some decl.name, some ⟨0⟩⟩

/-- A machine with the field as it starts. -/
def startMachine : Machine := { store := ⟨#[[("n", .int 7)]]⟩ }

/-- Answers the field for 1, and 0 for all else. -/
def pick : FnDecl where
  name := "pick"
  params := [("a", none)]
  body := [.choose (.ident "a" 1)
    [⟨some (.literal (.int 1) 1), [.expr (.ident "n" 1) 1], 1⟩,
      ⟨none, [.expr (.literal (.int 0) 1) 1], 1⟩] 1]
  result := none
  line := 1

/-- Answers the field. -/
def always : FnDecl where
  name := "always"
  params := []
  body := [.expr (.ident "n" 1) 1]
  result := none
  line := 1

def picker : TypeDecl := widgetWith [pick, always]

theorem picker_component : ∃ w comp, Widget.ofType picker .strict none = .ok w ∧
    w.component .standard "Msg" = .ok comp ∧
    w.naming "Msg" = ⟨"Msg", ["n"], ["pick", "always", "view"]⟩ :=
  ⟨_, _, rfl, rfl, rfl⟩

/-- What is always answered is generated behind a `return`. -/
theorem always_returned : ∃ w comp rest, Widget.ofType picker .strict none = .ok w ∧
    w.component .standard "Msg" = .ok comp ∧
    (call 5 picker.alone always [] startMachine).1 = .ok (.int 7) ∧
    Widget.helperBody (w.naming "Msg") [] always.body = ⟨0, "return self.n"⟩ :: rest := by
  obtain ⟨w, comp, hw, hc, hg⟩ := picker_component
  have hends : Concludes picker.alone 4 (startMachine.entered always [])
      ([] ++ [.expr (.ident "n" 1) 1]) [] (.ident "n" 1) (.int 7)
      (startMachine.entered always []) := .value rfl rfl rfl
  have hmem : always ∈ picker.methods := List.mem_cons_of_mem _ List.mem_cons_self
  obtain ⟨⟨m₁, hcall⟩, -, text, rest, hbody, -, hreturn⟩ :=
    result_returned_iff hw hc hmem (by decide) (by decide) hends
  refine ⟨w, comp, rest, hw, hc, ?_, ?_⟩
  · rw [hcall]
  · rw [hreturn.mpr rfl, hg] at hbody
    rw [hg]
    exact hbody

/-- What is answered for 1 is not: its line has no `return`, nor has any other. -/
theorem arm_result_dropped : ∃ w comp m', Widget.ofType picker .strict none = .ok w ∧
    w.component .standard "Msg" = .ok comp ∧
    Concludes picker.alone 4 (startMachine.entered pick [.int 1]) pick.body [0] (.ident "n" 1)
      (.int 7) m' ∧
    (call 5 picker.alone pick [.int 1] startMachine).1 = .ok (.int 7) ∧
    (Widget.helperLines (w.naming "Msg") pick).map (·.text)
      = ["def pick(self, a):", "match a:", "case 1:", "self.n", "case _:", "0"] := by
  obtain ⟨w, comp, hw, hc, hg⟩ := picker_component
  have harm : Concludes picker.alone 3
      { startMachine.entered pick [.int 1] with
        locals := {} :: (startMachine.entered pick [.int 1]).locals }
      ([] ++ [.expr (.ident "n" 1) 1]) [] (.ident "n" 1) (.int 7) _ := .value rfl rfl rfl
  have htakes : takes (eval 3 picker.alone) (.int 1) (some (.literal (.int 1) 1))
      (startMachine.entered pick [.int 1]) = (.ok true, startMachine.entered pick [.int 1]) := by
    have hread : ∀ σ : Store, σ.read (.int 1) = .int 1 := fun _ => rfl
    simp [takes, eval, run_bind, Run.same, hread, Value.same, Scalar.same, Scalar.whole?]
  have hends : Concludes picker.alone 4 (startMachine.entered pick [.int 1])
      ([] ++ [.choose (.ident "a" 1)
        ([] ++ ⟨some (.literal (.int 1) 1), [.expr (.ident "n" 1) 1], 1⟩
          :: [⟨none, [.expr (.literal (.int 0) 1) 1], 1⟩]) 1]) [0] (.ident "n" 1) (.int 7) _ :=
    .arm rfl rfl rfl htakes harm
  refine ⟨w, comp, _, hw, hc, hends, ?_, ?_⟩
  · rw [call_concludes hends]
  · rw [hg]
    decide

end Widgetry
