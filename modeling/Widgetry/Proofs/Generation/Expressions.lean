import Widgetry.Proofs.Generation.Spelling

/-!
# The text of generated expressions

An expression of names, literals, operators, points and calls has a formula: the one with the same
operators in the same places. Fields and methods are parts of the widget itself there, and what
stands beside a text in a sum is made a text.

> `scans_source`: the text that is generated for an expression is split into the tokens that one
> expects, if its words can be written at all.

Names have to be names of generated source too, and a point behind the digits of a whole number
would belong to the number. Which formula the tokens are read as is another question.
-/

namespace Widgetry

open Formula (Apart Scans Written)

/-! ## The formula of an expression -/

/-- A literal as a part of a formula. -/
def Scalar.atom : Scalar → Atom
  | .nil => .nothing
  | .bool b => .truth b
  | .int n => .whole n.toNat
  | .float x => .fraction (numberLayout.render x)
  | .str s => .text s

/-- Whether a literal is written with one word. -/
def Scalar.IsPlain : Scalar → Prop
  | .int n => 0 ≤ n
  | .float x => Formula.IsPlain x
  | _ => True

namespace Formula

/-- A name, or a part of the widget itself. -/
def named (own : Bool) (x : String) : Formula :=
  if own then .member (.atom (.name "self")) x else .atom (.name x)

/-- The text of something. -/
def asText (x : Formula) : Formula := .call (.atom (.name "str")) [x]

end Formula

namespace Naming

/-- Whether a chosen name is one of a field. -/
def isField (g : Naming) (locals : List String) (x : String) : Bool :=
  !(locals.contains x || x == "self") && g.fields.contains x

/-- Whether a name that is called is one of a method. -/
def isMethod (g : Naming) (locals : List String) (x : String) : Bool :=
  g.methods.contains x && !locals.contains x

end Naming

namespace Expr

/-- Whether an operand is made a text because a text is joined to it from the right. -/
def joinsLeft (op : BinaryOp) (l r : Expr) : Bool := op == .add && r.isText && !l.isText

/-- Whether an operand is made a text because it is joined to a text. -/
def joinsRight (op : BinaryOp) (l r : Expr) : Bool := op == .add && l.isText && !r.isText

mutual

/-- What an expression means in generated source, with all its operators where they are. -/
def formula (g : Naming) (locals : List String) : Expr → Formula
  | literal s _ => .atom s.atom
  | ident x _ => .named (g.isField locals x) x
  | unary op e _ => .unary op (e.formula g locals)
  | binary op l r _ => .binary op
      (if joinsLeft op l r then (l.formula g locals).asText else l.formula g locals)
      (if joinsRight op l r then (r.formula g locals).asText else r.formula g locals)
  | member obj x _ => .member (obj.formula g locals) x
  | call (ident x _) args _ => .call (.named (g.isMethod locals x) x) (formulas g locals args)
  | call callee args _ => .call (callee.formula g locals) (formulas g locals args)
  | array _ _ | node .. => .atom .nothing

def formulas (g : Naming) (locals : List String) : List Expr → List Formula
  | [] => []
  | e :: rest => e.formula g locals :: formulas g locals rest

end

/-! ## Words that can be written -/

/-- Whether a text ends with the digits of a whole number. -/
def endsWhole : Expr → Bool
  | literal (.int _) _ => true
  | unary _ e _ => !e.isBinary && e.endsWhole
  | binary op l r _ => !joinsRight op l r && !r.isBinary && r.endsWhole
  | _ => false

mutual

/-- Whether the words of an expression can be written in generated source. -/
def Legible : Expr → Prop
  | literal s _ => s.IsPlain
  | ident x _ => Formula.IsName x ∧ x ≠ "Msg"
  | unary _ e _ => e.Legible
  | binary _ l r _ => l.Legible ∧ r.Legible
  | member obj x _ => obj.Legible ∧ Formula.IsName x ∧ obj.endsWhole = false
  | call callee args _ => callee.Legible ∧ LegibleAll args
  | array _ _ | node .. => False

def LegibleAll : List Expr → Prop
  | [] => True
  | e :: rest => e.Legible ∧ LegibleAll rest

end

/-! ## The tokens of the generated text -/

def namedTokens (own : Bool) (x : String) : List Formula.Token :=
  if own then [.atom (.name "self"), .point, .atom (.name x)] else [.atom (.name x)]

/-- The tokens of an operand, in parentheses if it has an operator between operands. -/
def operandTokens (e : Expr) (ts : List Formula.Token) : List Formula.Token :=
  if e.isBinary then .opening :: ts ++ [.closing] else ts

def textTokens (ts : List Formula.Token) : List Formula.Token :=
  .atom (.name "str") :: .opening :: ts ++ [.closing]

mutual

/-- The tokens of what is generated for an expression. -/
def tokens (g : Naming) (locals : List String) : Expr → List Formula.Token
  | literal s _ => [.atom s.atom]
  | ident x _ => namedTokens (g.isField locals x) x
  | unary op e _ => op.token :: e.operandTokens (e.tokens g locals)
  | binary op l r _ =>
    (if joinsLeft op l r then textTokens (l.tokens g locals)
      else l.operandTokens (l.tokens g locals)) ++
    .operator op ::
    (if joinsRight op l r then textTokens (r.tokens g locals)
      else r.operandTokens (r.tokens g locals))
  | member obj x _ => obj.tokens g locals ++ [.point, .atom (.name x)]
  | call (ident x _) args _ => namedTokens (g.isMethod locals x) x ++
      .opening :: Formula.listed (tokensAll g locals args) ++ [.closing]
  | call callee args _ => callee.tokens g locals ++
      .opening :: Formula.listed (tokensAll g locals args) ++ [.closing]
  | array _ _ | node .. => []

def tokensAll (g : Naming) (locals : List String) : List Expr → List (List Formula.Token)
  | [] => []
  | e :: rest => e.tokens g locals :: tokensAll g locals rest

end

/-! ## The text is split into these tokens -/

section Text

variable {g : Naming} {locals : List String}

theorem scans_named (own : Bool) {x : String} (hx : Formula.IsName x) : Scans (Apart true)
    ((if own then "self." else "") ++ x).toList (namedTokens own x) := by
  have hname := Formula.scans_name (b := true) hx
  cases own with
  | false =>
    rw [String.toList_append]
    exact hname
  | true =>
    have hself := Formula.scans_name (b := true) (x := "self") ⟨by decide, by decide⟩
    rw [String.toList_append]
    exact hself.append (Formula.scans_point.then hname) fun _ _ => Or.inr ⟨rfl, rfl⟩

theorem nameSource_eq (x : String) :
    nameSource g locals x = (if g.isField locals x then "self." else "") ++ x := by
  unfold nameSource Naming.isField
  cases locals.contains x || x == "self" with
  | true => simp
  | false => cases g.fields.contains x <;> simp

theorem scans_literal {s : Scalar} (hs : s.IsPlain) (line : Nat) :
    Scans (Apart !(literal s line).endsWhole) s.source.toList [.atom s.atom] := by
  have hword : ∀ w : String, Text.isIdentifier w = true → ∀ a, Formula.wordToken w = .atom a →
      Scans (Apart true) w.toList [.atom a] := by
    intro w hw a ha
    rw [← ha]
    exact Formula.scans_word hw
  cases s with
  | nil => exact hword "None" rfl _ rfl
  | bool b =>
    cases b with
    | true => exact hword "True" rfl _ rfl
    | false => exact hword "False" rfl _ rfl
  | int n =>
    obtain ⟨k, rfl⟩ := Int.eq_ofNat_of_zero_le hs
    exact Formula.scans_whole k
  | float x => exact Formula.scans_float hs
  | str s => exact Formula.scans_text s

variable {e : Expr} {text : String} {ts : List Formula.Token} {F : List Char → Prop}

theorem apart_closing (b : Bool) (rest : List Char) : Apart b (')' :: rest) :=
  Or.inl (by decide)

theorem scans_operand {b : Bool} (h : Scans (Apart b) text.toList ts) :
    Scans (Apart (e.isBinary || b)) (e.asOperand text).toList (e.operandTokens ts) := by
  unfold asOperand operandTokens
  cases e.isBinary with
  | false => exact h
  | true =>
    have hinner := h.append (Formula.scans_closing (F := Apart true)) fun rest _ => apart_closing _ rest
    have hall := (Formula.scans_opening (F := fun _ => True)).then hinner
    simpa [String.toList_append] using hall

theorem scans_asText {b : Bool} (h : Scans (Apart b) text.toList ts) :
    Scans F ("str(" ++ text ++ ")").toList (textTokens ts) := by
  have hname := Formula.scans_name (b := true) (x := "str") ⟨by decide, by decide⟩
  have hinner := h.append (Formula.scans_closing (F := F)) fun rest _ => apart_closing _ rest
  have hargs := (Formula.scans_opening (F := fun _ => True)).then hinner
  have hall := hname.append hargs fun rest _ => Or.inl (by decide)
  rw [String.toList_append, String.toList_append]
  exact hall

/-- The left operand of an operator; a blank follows. -/
theorem scans_left {j b : Bool} (h : Scans (Apart b) text.toList ts) :
    Scans (fun rest => rest.head? = some ' ')
      (if j then "str(" ++ text ++ ")" else e.asOperand text).toList
      (if j then textTokens ts else e.operandTokens ts) := by
  cases j with
  | true => exact scans_asText h
  | false =>
    exact (scans_operand h).weaken fun _ hrest => .of_head (by decide) hrest

/-- The right operand of an operator. -/
theorem scans_right {j : Bool} (h : Scans (Apart !e.endsWhole) text.toList ts) :
    Scans (Apart !(!j && !e.isBinary && e.endsWhole))
      (if j then "str(" ++ text ++ ")" else e.asOperand text).toList
      (if j then textTokens ts else e.operandTokens ts) := by
  cases j with
  | true => exact scans_asText h
  | false =>
    have he := scans_operand (e := e) h
    rw [Bool.not_false, Bool.true_and, Bool.not_and, Bool.not_not]
    exact he

theorem ident_or_not (e : Expr) : (∃ x l, e = ident x l) ∨ ∀ x l, e ≠ ident x l := by
  cases e with
  | ident x l => exact .inl ⟨x, l, rfl⟩
  | _ => exact .inr fun x l he => by cases he

theorem source_member {obj : Expr} (h : obj.Legible) (x : String) (line : Nat) :
    (member obj x line).source g locals = obj.source g locals ++ "." ++ x := by
  generalize hr : obj.source g locals ++ "." ++ x = r
  unfold source
  split
  case h_6 heq =>
    -- the messages are named by `Msg`, which no legible expression is
    cases heq
    exact absurd rfl h.2
  case h_7 heq =>
    cases heq
    exact hr
  all_goals contradiction

/-- The owner of a part is written as it is, unless it is `Msg` and means the messages. -/
theorem source_member_cases (g : Naming) (locals : List String) (obj : Expr) (x : String)
    (line : Nat) : (member obj x line).source g locals = obj.source g locals ++ "." ++ x ∨
      (∃ l, obj = ident "Msg" l) ∧
        (member obj x line).source g locals = g.messages ++ "." ++ x := by
  generalize hr : (member obj x line).source g locals = r
  unfold source at hr
  split at hr
  case h_6 heq =>
    cases heq
    split at hr
    · exact Or.inl hr.symm
    · exact Or.inr ⟨⟨_, rfl⟩, hr.symm⟩
  case h_7 heq =>
    cases heq
    exact Or.inl hr.symm
  all_goals contradiction

theorem source_call {callee : Expr} (h : ∀ x l, callee ≠ ident x l) (args : List Expr) (line : Nat) :
    (call callee args line).source g locals
      = callee.source g locals ++ "(" ++ commaSeparated (sources g locals args) ++ ")" := by
  cases callee with
  | ident x l => exact absurd rfl (h x l)
  | _ => rfl

theorem tokens_call {callee : Expr} (h : ∀ x l, callee ≠ ident x l) (args : List Expr) (line : Nat) :
    (call callee args line).tokens g locals = callee.tokens g locals ++
      .opening :: Formula.listed (tokensAll g locals args) ++ [.closing] := by
  cases callee with
  | ident x l => exact absurd rfl (h x l)
  | _ => rfl

theorem source_call_ident (x : String) (l : Nat) (args : List Expr) (line : Nat) :
    (call (ident x l) args line).source g locals
      = (if g.isMethod locals x then "self." else "") ++ x ++ "("
        ++ commaSeparated (sources g locals args) ++ ")" := rfl

theorem scans_call {name : String} {b : Bool} {args : List Expr}
    (h : Scans (Apart b) name.toList ts)
    (hargs : Scans (fun rest => rest.head? = some ')')
      (commaSeparated (sources g locals args)).toList (Formula.listed (tokensAll g locals args))) :
    Scans F (name ++ "(" ++ commaSeparated (sources g locals args) ++ ")").toList
      (ts ++ .opening :: Formula.listed (tokensAll g locals args) ++ [.closing]) := by
  have hinner := hargs.append (Formula.scans_closing (F := F)) fun rest _ => rfl
  have hcall := (Formula.scans_opening (F := fun _ => True)).then hinner
  have hall := h.append hcall fun rest _ => Or.inl (by decide)
  simpa [String.toList_append] using hall

theorem commaSeparated_cons (a b : String) (rest : List String) :
    (commaSeparated (a :: b :: rest)).toList
      = a.toList ++ ([',', ' '] ++ (commaSeparated (b :: rest)).toList) := by
  rw [commaSeparated, String.intercalate_cons_cons, String.toList_append, String.toList_append,
    List.append_assoc]
  rfl

mutual

/-- **The text of an expression is split into its tokens.** -/
theorem scans_source : ∀ e : Expr, e.Legible →
    Scans (Apart !e.endsWhole) (e.source g locals).toList (e.tokens g locals)
  | literal s l, h => scans_literal h l
  | ident x l, h => by
    show Scans _ (nameSource g locals x).toList _
    rw [nameSource_eq]
    exact scans_named _ h.1
  | unary op e l, h => by
    have he := scans_operand (e := e) (scans_source e h)
    show Scans _ (op.source ++ e.asOperand (e.source g locals)).toList _
    rw [tokens, endsWhole, String.toList_append, Bool.not_and, Bool.not_not]
    cases op with
    | bang => exact Formula.scans_negation.then he
    | minus => exact Formula.scans_sign.then he
  | binary op l r _, h => by
    have hl := scans_left (e := l) (j := joinsLeft op l r) (scans_source l h.1)
    have hr := scans_right (e := r) (j := joinsRight op l r) (scans_source r h.2)
    have hop := Formula.scans_operator (F := fun _ => True) op
    have hall := hl.append (hop.then hr) fun rest _ => rfl
    show Scans _ ((if joinsLeft op l r then "str(" ++ l.source g locals ++ ")"
      else l.asOperand (l.source g locals)) ++ " " ++ op.source ++ " "
      ++ (if joinsRight op l r then "str(" ++ r.source g locals ++ ")"
      else r.asOperand (r.source g locals))).toList _
    rw [tokens, endsWhole]
    simpa [String.toList_append] using hall
  | member obj x line, h => by
    have hobj := scans_source obj h.1
    -- behind a whole number the point would be read as its own
    rw [h.2.2] at hobj
    have hname := Formula.scans_point.then (Formula.scans_name (b := true) h.2.1)
    rw [source_member h.1, String.toList_append, String.toList_append, List.append_assoc]
    exact hobj.append hname fun rest _ => Or.inr ⟨rfl, rfl⟩
  | call callee args line, h => by
    have hargs := scans_sources args h.2
    rcases ident_or_not callee with ⟨x, l, rfl⟩ | hne
    · rw [source_call_ident]
      exact scans_call (scans_named _ h.1.1) hargs
    · rw [source_call hne, tokens_call hne]
      exact scans_call (scans_source callee h.1) hargs

theorem scans_sources : ∀ es : List Expr, LegibleAll es →
    Scans (fun rest => rest.head? = some ')') (commaSeparated (sources g locals es)).toList
      (Formula.listed (tokensAll g locals es))
  | [], _ => Scans.nil
  | [e], h => by
    have he := scans_source e h.1
    rw [sources, sources, commaSeparated, String.intercalate_singleton]
    exact he.weaken fun _ hrest => .of_head (by decide) hrest
  | e :: e' :: rest, h => by
    have he := scans_source e h.1
    have hrest := scans_sources (e' :: rest) h.2
    rw [sources, sources, commaSeparated_cons]
    exact he.append (Formula.scans_comma.then hrest) fun rest _ => Or.inl (by decide)

end

end Text

end Expr

end Widgetry
