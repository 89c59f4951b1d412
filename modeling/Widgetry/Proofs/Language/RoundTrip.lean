import Widgetry.Proofs.Language.Statements

/-!
# Parsing what was printed

A program that is printed to tokens is parsed to the same program: operators keep their operands,
node expressions their form and bodies, and every token is taken.

> `parse_program`: whatever style a program is printed in, the parser gives it back with the line of
> the tokens in place of its own lines.

Every part of a tree is read back if its own parts are, so this goes by recursion over the tree.
-/

namespace Widgetry

open Widgetry.Parser

section

variable {style : Style} {n : Nat}

mutual

theorem Expr.readable : (e : Expr) → e.writable = true → e.Readable style n
  | .literal v line, h => Expr.readable_literal h line
  | .ident x line, _ => Expr.readable_ident x line
  | .array items line, h => Expr.readable_array (Expr.allReadable items h) line
  | .unary op e line, h => Expr.readable_unary (Expr.readable e h) op line
  | .binary op l r line, h => by
    rw [Expr.writable, Bool.and_eq_true] at h
    exact Expr.readable_binary (Expr.readable l h.1) (Expr.readable r h.2) op line
  | .member e x line, h => Expr.readable_member (Expr.readable e h) x line
  | .call f args line, h => by
    rw [Expr.writable, Bool.and_eq_true, Bool.and_eq_true, Bool.not_eq_true'] at h
    exact Expr.readable_call (Expr.readable f h.1.2) (Expr.allReadable args h.2 true) h.1.1 line
  | .node kind args props body line, h => by
    rw [Expr.writable, Bool.and_eq_true, Bool.and_eq_true] at h
    exact Expr.readable_node (Expr.allReadable args h.1.1 true)
      (nodeBody_reads (Property.allReadable props h.1.2) (Stmt.allReadable body h.2) kind _) line

theorem Expr.allReadable : (es : List Expr) → Expr.allWritable es = true →
    ∀ braces, Expr.ReadableItems style n braces es
  | [], _, _ => .nil
  | e :: rest, h, braces => by
    rw [Expr.allWritable, Bool.and_eq_true] at h
    exact .cons (Expr.item_of_readable (Expr.readable e h.1) braces)
      (Expr.allReadable rest h.2 braces)

theorem Expr.optionReadable : (o : Option Expr) → Expr.optionWritable o = true →
    ReadableOption style n o
  | none, _ => trivial
  | some e, h => Expr.readable e h

theorem Property.allReadable : (props : List Property) → Property.allWritable props = true →
    ReadableProperties style n props
  | [], _ => .nil
  | ⟨x, value, _⟩ :: rest, h => by
    rw [Property.allWritable, Bool.and_eq_true] at h
    exact .cons (property_item (Expr.readable value h.1) x) (Property.allReadable rest h.2)

theorem Target.readable : (t : Target) → t.writable = true → t.toExpr.Readable style n
  | .name x line, _ => Expr.readable_ident x line
  | .member e x line, h => Expr.readable_member (Expr.readable e h) x line

theorem Stmt.readable : (s : Stmt) → s.writable = true → ReadsStmt n (style.stmt s) (s.atLine n)
  | .expr e _, h => stmt_expr (Expr.readable e h)
  | .bind x value type mutable _, h => stmt_bind (Expr.readable value h) x type mutable
  | .assign t op value _, h => by
    rw [Stmt.writable, Bool.and_eq_true] at h
    exact stmt_assign (Target.readable t h.1) (Expr.readable value h.2) op
  | .choose subject arms _, h => by
    rw [Stmt.writable, Bool.and_eq_true] at h
    exact stmt_choose (Expr.readable subject h.1) (Arm.allReadable arms h.2)
  | .each x items body _, h => by
    rw [Stmt.writable, Bool.and_eq_true] at h
    exact stmt_each (Expr.readable items h.1) (Stmt.allReadable body h.2) x
  | .fn d, h => stmt_fn (FnDecl.readable d h)
  | .type d, h => TypeDecl.readable d h

theorem Stmt.allReadable : (body : List Stmt) → Stmt.allWritable body = true →
    ReadableBody style n body
  | [], _ => .nil
  | s :: rest, h => by
    rw [Stmt.allWritable, Bool.and_eq_true] at h
    exact .cons (Stmt.readable s h.1) (Stmt.allReadable rest h.2)

theorem Arm.allReadable : (arms : List Arm) → Arm.allWritable arms = true →
    ReadableArms style n arms
  | [], _ => .nil
  | ⟨pattern, body, _⟩ :: rest, h => by
    rw [Arm.allWritable, Bool.and_eq_true, Bool.and_eq_true] at h
    exact .cons (arm_item (Expr.optionReadable pattern h.1.1) (Stmt.allReadable body h.1.2))
      (Arm.allReadable rest h.2)

theorem FnDecl.readable : (d : FnDecl) → d.writable = true → d.Readable style n
  | ⟨name, params, body, result, line⟩, h =>
    fn_readable (Stmt.allReadable body h) name params result line

theorem FieldDecl.allReadable : (fields : List FieldDecl) → FieldDecl.allWritable fields = true →
    ReadableFields style n fields
  | [], _ => .nil
  | ⟨name, type, default, _⟩ :: rest, h => by
    rw [FieldDecl.allWritable, Bool.and_eq_true] at h
    exact .cons (field_item (Expr.optionReadable default h.1) name type)
      (FieldDecl.allReadable rest h.2)

theorem FnDecl.allReadable : (fns : List FnDecl) → FnDecl.allWritable fns = true →
    ReadableMethods style n fns
  | [], _ => .nil
  | d :: rest, h => by
    rw [FnDecl.allWritable, Bool.and_eq_true] at h
    exact .cons (method_item (FnDecl.readable d h.1)) (FnDecl.allReadable rest h.2)

theorem TypeDecl.readable : (d : TypeDecl) → d.writable = true →
    ReadsStmt n (style.type d) (.type (d.atLine n))
  | ⟨name, names, members, methods, line⟩, h => by
    rw [TypeDecl.writable, Bool.and_eq_true] at h
    exact stmt_type (FieldDecl.allReadable members h.1) (FnDecl.allReadable methods h.2) name names
      line

end

end

/-! ## Whole programs -/

/-- A program is read up to its end. -/
theorem code_reads (style : Style) (n : Nat) {c : Code} (hc : c.writable = true) :
    ∃ D, Reads n D (fun d => code d) (style.program c) (c.atLine n).stmts (·.kind = .eof) := by
  have hitems : List.Forall₂ (Reads.Item n (fun d => statement d) Lexeme.Starts Lexeme.Stops)
      (style.stmts c.stmts) (c.atLine n).stmts :=
    (Stmt.allReadable c.stmts hc).imp fun _ _ h => h.item
  obtain ⟨D, hD⟩ := Reads.statementsToEnd (fun l hl => hl.notEnd) (fun l hl => hl.not_separates)
    (Or.inl rfl) (fun l hl => Or.inr (Or.inr hl)) hitems
  -- every statement takes a token at least, so the rounds that the tokens allow are enough
  have hlen := Reads.length_le_separated ";" hitems
  have hsep : ∀ l : Lexeme, l.kind = .eof → ¬ ((style.program c).head?.getD l).Separates := by
    intro l hl
    rw [Style.program, ← List.append_nil (Lexeme.separated _ _)]
    refine Reads.not_separates_head hitems (fun l hl => hl.not_separates) ?_
    rintro (rfl | rfl) <;> cases hl
  exact ⟨D, .skip (.rounds fun m hm => hD m (Nat.le_trans hlen hm)) hsep⟩

/-- **What is printed for a program is parsed as the program.** Whatever the style and wherever on
a line the tokens stand, the parser takes all of them up to the end and gives the program back, with
that line for its own ones. It does so if it may nest deep enough; if not, it says that. -/
theorem parse_program (style : Style) (c : Code) (hc : c.writable = true) (line : Nat) :
    ∃ depth, ∀ (limit : Nat) (ts : List Token) (last : Token),
      ts.map Token.lexeme = style.program c → (∀ t ∈ ts ++ [last], t.line = line) →
      last.isEnd = true → StateT.run (code limit) (Stream.ofTokens (ts ++ [last]))
        = if depth ≤ limit then .ok ((c.atLine line).stmts, ⟨[], last⟩)
          else .error deepFault := by
  obtain ⟨D, hD⟩ := code_reads style line hc
  refine ⟨D, fun limit ts last hts hline hlast => ?_⟩
  have hstream : Stream.ofTokens (ts ++ [last]) = Stream.after ⟨[], last⟩ ts := by
    simp [Stream.ofTokens, Stream.after]
  have hspells : Spells line (style.program c) ts :=
    ⟨hts, fun t ht => hline t (List.mem_append_left _ ht)⟩
  have hend : last.kind = .eof := by simpa [Token.isEnd] using hlast
  rw [hstream]
  exact hD limit ts ⟨[], last⟩ hspells (hline last (by simp)) hend

/-- A program with an operand in brackets, a node expression where no brace may follow a name, and
a widget. -/
def mixture : Code where
  stmts := [
    .bind "n" (.binary .mul (.binary .add (.literal (.int 1) 0) (.ident "a" 0) 0)
      (.unary .minus (.literal (.int 2) 0) 0) 0) none true 0,
    .each "x" (.array [.node "col" [] [] [] 0] 0) [.assign (.member (.ident "self" 0) "k" 0) .add
      (.call (.ident "f" 0) [.literal (.str "s") 0] 0) 0] 0,
    .type ⟨"W", ["Widget"], [⟨"n", "[]int", some (.array [] 0), 0⟩],
      [⟨"view", [("e", none)], [.choose (.ident "e" 0) [⟨some (.literal .nil 0),
        [.expr (.node "text" [.literal (.str "a") 0] [⟨"gap", .literal .nil 0, 0⟩] [] 0) 0], 0⟩] 0],
        none, 0⟩], 0⟩]
  file := none

/-- How it is printed. -/
def mixtureTokens : List Token :=
  (Style.program ⟨true, true, false, false⟩ mixture).mapIdx fun i l => l.at 3 (i + 1)

/-- The end behind it. -/
def mixtureEnd : Token := ⟨.eof, "", ⟨3, 100⟩⟩

/-- It is parsed back, for the nesting that the parser allows is deep enough. -/
theorem mixture_parsed : StateT.run (code nestingLimit)
      (Stream.ofTokens (mixtureTokens ++ [mixtureEnd]))
    = .ok ((mixture.atLine 3).stmts, ⟨[], mixtureEnd⟩) := by
  obtain ⟨depth, h⟩ := parse_program ⟨true, true, false, false⟩ mixture (by decide +kernel) 3
  have hrun := h nestingLimit mixtureTokens mixtureEnd (by decide +kernel) (by decide +kernel)
    (by decide)
  have hok : (StateT.run (code nestingLimit)
      (Stream.ofTokens (mixtureTokens ++ [mixtureEnd]))).isOk = true := by decide +kernel
  -- the depth is not known, but too small a limit would have been an error
  by_cases hd : depth ≤ nestingLimit
  · rw [hrun, if_pos hd]
  · rw [hrun, if_neg hd] at hok
    cases hok

end Widgetry
