import Widgetry.Language.Parser

/-!
# What trees are parsed from

The grammar of the language as relations between a tree, the tokens that lie ahead where it begins
and those that lie ahead behind it. A derivation says for each node of the tree which tokens it was
parsed from.

The relations say nothing of their own about the lines in a tree: a `LineRule` does, and each node
has to keep it. What a rule must allow for the parser to keep it is `LineRule.Allows`: a node may
have the line of any token that it was parsed from, but a call behind an expression has the line of
the token behind its closing bracket.
-/

namespace Widgetry

/-- What is asked of the line of a node that is parsed between two places, each given by the tokens
that lie ahead there; and what of a call behind an expression. -/
structure LineRule where
  node : Nat → List Token → List Token → Prop
  call : Nat → List Token → List Token → Prop

/-- What the parser needs of a rule, on some tokens: the line of a token is the one of a node that
begins at or before the token and ends behind it. Every node has to take a token. -/
structure LineRule.Allows (L : LineRule) (tokens : List Token) : Prop where
  shorter {line : Nat} {start stop : List Token} : L.node line start stop →
    stop.length < start.length
  node {t : Token} {start mid stop : List Token} : start <:+ tokens → t :: mid <:+ start →
    stop <:+ mid → L.node t.line start stop
  call {close next : Token} {start rest : List Token} : start <:+ tokens →
    close :: next :: rest <:+ start → close.isOp ")" = true →
    L.call next.line start (next :: rest)

/-- A node may have the line of the token that it begins with. -/
theorem LineRule.Allows.here {L : LineRule} {tokens : List Token} (h : L.Allows tokens) {t : Token}
    {s stop : List Token} (hs : t :: s <:+ tokens) (hstop : stop <:+ s) :
    L.node t.line (t :: s) stop := h.node hs (List.suffix_refl _) hstop

/-! ## The grammar -/

section Lists

variable {α : Type} (R : α → List Token → List Token → Prop)

/-- Items with a comma after each but, if one wants, the last. -/
inductive Listed : List α → List Token → List Token → Prop where
  | nil {s : List Token} : Listed [] s s
  | last {a : α} {s s' : List Token} : R a s s' → Listed [a] s s'
  | cons {a : α} {as : List α} {t : Token} {s s₁ s' : List Token} : R a s (t :: s₁) →
      t.isOp "," = true → Listed as s₁ s' → Listed (a :: as) s s'

/-- Items with separators in front of them and behind each, or none. -/
inductive Spaced : List α → List Token → List Token → Prop where
  | nil {s : List Token} : Spaced [] s s
  | skip {as : List α} {t : Token} {s s' : List Token} : Parser.isSeparator t = true →
      Spaced as s s' → Spaced as (t :: s) s'
  | cons {a : α} {as : List α} {s s₁ s' : List Token} : R a s s₁ → Spaced as s₁ s' →
      Spaced (a :: as) s s'

variable {R}

theorem Spaced.skips {as : List α} {seps s s' : List Token}
    (hseps : ∀ t ∈ seps, Parser.isSeparator t = true) (h : Spaced R as s s') :
    Spaced R as (seps ++ s) s' := by
  induction seps with
  | nil => exact h
  | cons t seps ih =>
    obtain ⟨ht, hseps⟩ := List.forall_mem_cons.mp hseps
    exact .skip ht (ih hseps)

end Lists

/-- A name. -/
inductive NameFrom : String → List Token → List Token → Prop where
  | intro {t : Token} {s : List Token} : t.kind = .ident → NameFrom t.text (t :: s) s

theorem nameFrom_iff {n : String} {s s' : List Token} :
    NameFrom n s s' ↔ ∃ t : Token, s = t :: s' ∧ t.kind = .ident ∧ n = t.text := by
  constructor
  · rintro ⟨ht⟩
    exact ⟨_, rfl, ht, rfl⟩
  · rintro ⟨t, rfl, ht, rfl⟩
    exact .intro ht

/-- The name of a type. -/
inductive TypeFrom : String → List Token → List Token → Prop where
  | name {n : String} {s s' : List Token} : NameFrom n s s' → TypeFrom n s s'
  | array {inner : String} {t u : Token} {s s' : List Token} : t.isOp "[" = true →
      u.isOp "]" = true → TypeFrom inner s s' → TypeFrom ("[]" ++ inner) (t :: u :: s) s'

/-- Something that may be missing. -/
inductive Optionally {α : Type} (R : α → List Token → List Token → Prop) :
    Option α → List Token → List Token → Prop where
  | none {s : List Token} : Optionally R none s s
  | some {a : α} {s s' : List Token} : R a s s' → Optionally R (some a) s s'

/-- A parameter with its type. -/
inductive ParamFrom : String × Option String → List Token → List Token → Prop where
  | intro {n : String} {type : Option String} {s s₁ s' : List Token} : NameFrom n s s₁ →
      Optionally TypeFrom type s₁ s' → ParamFrom (n, type) s s'

/-- The names behind a comma each. -/
inductive MoreSpecsFrom : List String → List Token → List Token → Prop where
  | nil {s : List Token} : MoreSpecsFrom [] s s
  | cons {n : String} {ns : List String} {t : Token} {s s₁ s' : List Token} : t.isOp "," = true →
      NameFrom n s s₁ → MoreSpecsFrom ns s₁ s' → MoreSpecsFrom (n :: ns) (t :: s) s'

/-- The word `mut`, or nothing. -/
inductive MarkFrom : Bool → List Token → List Token → Prop where
  | none {s : List Token} : MarkFrom false s s
  | some {t : Token} {s : List Token} : t.isKeyword "mut" = true → MarkFrom true (t :: s) s

/-- What a type is declared to be. -/
inductive SpecsFrom : List String → List Token → List Token → Prop where
  | none {s : List Token} : SpecsFrom [] s s
  | some {n : String} {ns : List String} {t : Token} {s s₁ s' : List Token} :
      t.isKeyword "is" = true → NameFrom n s s₁ → MoreSpecsFrom ns s₁ s' →
      SpecsFrom (n :: ns) (t :: s) s'

mutual

/-- An expression. -/
inductive ExprFrom (L : LineRule) : Expr → List Token → List Token → Prop where
  | whole {t : Token} {n line : Nat} {s : List Token} : t.kind = .int →
      Decimal.readWhole t.text = .ok n → L.node line (t :: s) s →
      ExprFrom L (.literal (.int n) line) (t :: s) s
  | fraction {t : Token} {x : Float} {line : Nat} {s : List Token} : t.kind = .float →
      Decimal.readFraction t.text = .ok x → L.node line (t :: s) s →
      ExprFrom L (.literal (.float x) line) (t :: s) s
  | text {t : Token} {line : Nat} {s : List Token} : t.kind = .str → L.node line (t :: s) s →
      ExprFrom L (.literal (.str t.text) line) (t :: s) s
  | bool {t : Token} {b : Bool} {line : Nat} {s : List Token} :
      t.isKeyword (if b then "true" else "false") = true → L.node line (t :: s) s →
      ExprFrom L (.literal (.bool b) line) (t :: s) s
  | nil {t : Token} {line : Nat} {s : List Token} : t.isKeyword "nil" = true →
      L.node line (t :: s) s → ExprFrom L (.literal .nil line) (t :: s) s
  | ident {n : String} {line : Nat} {s s' : List Token} : NameFrom n s s' → L.node line s s' →
      ExprFrom L (.ident n line) s s'
  /-- brackets make no node -/
  | group {e : Expr} {t u : Token} {s s' : List Token} : t.isOp "(" = true →
      ExprFrom L e s (u :: s') → u.isOp ")" = true → ExprFrom L e (t :: s) s'
  | array {items : List Expr} {line : Nat} {t u : Token} {s s' : List Token} : t.isOp "[" = true →
      Listed (ExprFrom L) items s (u :: s') → u.isOp "]" = true → L.node line (t :: s) s' →
      ExprFrom L (.array items line) (t :: s) s'
  | unary {op : UnaryOp} {operand : Expr} {line : Nat} {t : Token} {s s' : List Token} :
      Parser.prefixOp? t = some op → ExprFrom L operand s s' → L.node line (t :: s) s' →
      ExprFrom L (.unary op operand line) (t :: s) s'
  | binary {op : BinaryOp} {left right : Expr} {line : Nat} {t : Token} {s s₁ s' : List Token} :
      ExprFrom L left s (t :: s₁) → Parser.operatorAt? op.level t = some op →
      ExprFrom L right s₁ s' → L.node line s s' → ExprFrom L (.binary op left right line) s s'
  | member {obj : Expr} {n : String} {line : Nat} {t : Token} {s s₁ s' : List Token} :
      ExprFrom L obj s (t :: s₁) → t.isOp "." = true → NameFrom n s₁ s' → L.node line s s' →
      ExprFrom L (.member obj n line) s s'
  /-- a call behind an expression -/
  | call {callee : Expr} {args : List Expr} {line : Nat} {s s₁ s' : List Token} :
      ExprFrom L callee s s₁ → ArgsFrom L args s₁ s' → L.call line s s' →
      ExprFrom L (.call callee args line) s s'
  /-- a call of a name -/
  | named {n : String} {args : List Expr} {line line' : Nat} {s s₁ s' : List Token} :
      NameFrom n s s₁ → L.node line s s₁ → ArgsFrom L args s₁ s' → L.node line' s s' →
      ExprFrom L (.call (.ident n line) args line') s s'
  /-- a node expression with a text behind its name -/
  | caption {t u : Token} {line line' : Nat} {s : List Token} : t.kind = .ident →
      u.kind = .str → u.line = t.line → L.node line (u :: s) s → L.node line' (t :: u :: s) s →
      ExprFrom L (.node t.text [.literal (.str u.text) line] [] [] line') (t :: u :: s) s
  | captioned {t u : Token} {items : List (Property ⊕ Stmt)} {line line' : Nat}
      {s s' : List Token} : t.kind = .ident → u.kind = .str → u.line = t.line →
      L.node line (u :: s) s → BodyFrom L items s s' → L.node line' (t :: u :: s) s' →
      ExprFrom L (.node t.text [.literal (.str u.text) line] (Parser.separate items).1
        (Parser.separate items).2 line') (t :: u :: s) s'
  /-- a node expression with arguments -/
  | applied {n : String} {args : List Expr} {items : List (Property ⊕ Stmt)} {line : Nat}
      {s s₁ s₂ s' : List Token} : NameFrom n s s₁ → ArgsFrom L args s₁ s₂ →
      BodyFrom L items s₂ s' → L.node line s s' →
      ExprFrom L (.node n args (Parser.separate items).1 (Parser.separate items).2 line) s s'
  /-- a node expression with a body only -/
  | bare {n : String} {items : List (Property ⊕ Stmt)} {line : Nat} {s s₁ s' : List Token} :
      NameFrom n s s₁ → BodyFrom L items s₁ s' → L.node line s s' →
      ExprFrom L (.node n [] (Parser.separate items).1 (Parser.separate items).2 line) s s'

/-- Arguments in brackets. -/
inductive ArgsFrom (L : LineRule) : List Expr → List Token → List Token → Prop where
  | intro {args : List Expr} {t u : Token} {s s' : List Token} : t.isOp "(" = true →
      Listed (ExprFrom L) args s (u :: s') → u.isOp ")" = true → ArgsFrom L args (t :: s) s'

/-- The body of a node expression. -/
inductive BodyFrom (L : LineRule) : List (Property ⊕ Stmt) → List Token → List Token → Prop where
  | intro {items : List (Property ⊕ Stmt)} {t u : Token} {s s' : List Token} :
      t.isOp "\x7b" = true → Spaced (ItemFrom L) items s (u :: s') → u.isOp "\x7d" = true →
      BodyFrom L items (t :: s) s'

/-- A property or a statement in such a body. -/
inductive ItemFrom (L : LineRule) : Property ⊕ Stmt → List Token → List Token → Prop where
  | property {n : String} {value : Expr} {line : Nat} {t : Token} {s s₁ s' : List Token} :
      NameFrom n s (t :: s₁) → t.isOp ":" = true → ExprFrom L value s₁ s' → L.node line s s' →
      ItemFrom L (.inl ⟨n, value, line⟩) s s'
  | stmt {st : Stmt} {s s' : List Token} : StmtFrom L st s s' → ItemFrom L (.inr st) s s'

/-- A statement. -/
inductive StmtFrom (L : LineRule) : Stmt → List Token → List Token → Prop where
  | expr {e : Expr} {line : Nat} {s s' : List Token} : ExprFrom L e s s' → L.node line s s' →
      StmtFrom L (.expr e line) s s'
  | assign {e value : Expr} {target : Target} {op : AssignOp} {line : Nat} {t : Token}
      {s s₁ s' : List Token} : ExprFrom L e s (t :: s₁) → Target.ofExpr? e = some target →
      Parser.assignOp? t = some op → ExprFrom L value s₁ s' → L.node line s s' →
      StmtFrom L (.assign target op value line) s s'
  | bind {n : String} {value : Expr} {type : Option String} {marked : Bool} {line : Nat}
      {t u : Token} {s s₁ s₂ s₃ s' : List Token} :
      (t.isKeyword "let" || t.isKeyword "var") = true → MarkFrom marked s s₁ →
      NameFrom n s₁ s₂ → Optionally TypeFrom type s₂ (u :: s₃) → u.isOp "=" = true →
      ExprFrom L value s₃ s' → L.node line (t :: s) s' →
      StmtFrom L (.bind n value type (t.text == "var" || marked) line) (t :: s) s'
  | choose {subject : Expr} {arms : List Arm} {line : Nat} {t u v : Token}
      {s s₁ s' : List Token} : t.isKeyword "is" = true → ExprFrom L subject s (u :: s₁) →
      u.isOp "\x7b" = true → Spaced (ArmFrom L) arms s₁ (v :: s') → v.isOp "\x7d" = true →
      L.node line (t :: s) s' → StmtFrom L (.choose subject arms line) (t :: s) s'
  | each {n : String} {items : Expr} {body : List Stmt} {line : Nat} {t u : Token}
      {s s₁ s₂ s' : List Token} : t.isKeyword "for" = true → NameFrom n s (u :: s₁) →
      u.isKeyword "in" = true → ExprFrom L items s₁ s₂ → BlockFrom L body s₂ s' →
      L.node line (t :: s) s' → StmtFrom L (.each n items body line) (t :: s) s'
  | fn {decl : FnDecl} {s s' : List Token} : FnFrom L decl s s' → StmtFrom L (.fn decl) s s'
  | type {n : String} {specs : List String} {items : List (FieldDecl ⊕ FnDecl)} {line : Nat}
      {t u v : Token} {s s₁ s₂ s' : List Token} : t.isKeyword "type" = true → NameFrom n s s₁ →
      SpecsFrom specs s₁ (u :: s₂) → u.isOp "\x7b" = true →
      Spaced (MemberFrom L) items s₂ (v :: s') → v.isOp "\x7d" = true → L.node line (t :: s) s' →
      StmtFrom L (.type ⟨n, specs, (Parser.separate items).1, (Parser.separate items).2, line⟩)
        (t :: s) s'

/-- A block of statements. -/
inductive BlockFrom (L : LineRule) : List Stmt → List Token → List Token → Prop where
  | intro {body : List Stmt} {t u : Token} {s s' : List Token} : t.isOp "\x7b" = true →
      Spaced (StmtFrom L) body s (u :: s') → u.isOp "\x7d" = true → BlockFrom L body (t :: s) s'

/-- An arm of an `is` statement. -/
inductive ArmFrom (L : LineRule) : Arm → List Token → List Token → Prop where
  | wild {body : List Stmt} {line : Nat} {t u : Token} {s s' : List Token} :
      (t.isKeyword "else" || t.kind == .ident && t.text == "_") = true → u.isOp "=>" = true →
      ActionFrom L body s s' → L.node line (t :: u :: s) s' →
      ArmFrom L ⟨none, body, line⟩ (t :: u :: s) s'
  | pattern {p : Expr} {body : List Stmt} {line : Nat} {u : Token} {s s₁ s' : List Token} :
      ExprFrom L p s (u :: s₁) → u.isOp "=>" = true → ActionFrom L body s₁ s' → L.node line s s' →
      ArmFrom L ⟨some p, body, line⟩ s s'

/-- What an arm does: a block or a statement. -/
inductive ActionFrom (L : LineRule) : List Stmt → List Token → List Token → Prop where
  | block {body : List Stmt} {s s' : List Token} : BlockFrom L body s s' → ActionFrom L body s s'
  | stmt {st : Stmt} {s s' : List Token} : StmtFrom L st s s' → ActionFrom L [st] s s'

/-- A function. -/
inductive FnFrom (L : LineRule) : FnDecl → List Token → List Token → Prop where
  | intro {n : String} {params : List (String × Option String)} {result : Option String}
      {body : List Stmt} {line : Nat} {t u v : Token} {s s₁ s₂ s₃ s' : List Token} :
      t.isKeyword "fn" = true → NameFrom n s (u :: s₁) → u.isOp "(" = true →
      Listed ParamFrom params s₁ (v :: s₂) → v.isOp ")" = true →
      Optionally TypeFrom result s₂ s₃ → BlockFrom L body s₃ s' → L.node line (t :: s) s' →
      FnFrom L ⟨n, params, body, result, line⟩ (t :: s) s'

/-- A field or a method of a type. -/
inductive MemberFrom (L : LineRule) : FieldDecl ⊕ FnDecl → List Token → List Token → Prop where
  | plain {n type : String} {line : Nat} {s s₁ s' : List Token} : NameFrom n s s₁ →
      TypeFrom type s₁ s' → L.node line s s' → MemberFrom L (.inl ⟨n, type, none, line⟩) s s'
  | initial {n type : String} {value : Expr} {line : Nat} {t : Token} {s s₁ s₂ s' : List Token} :
      NameFrom n s s₁ → TypeFrom type s₁ (t :: s₂) → t.isOp "=" = true →
      ExprFrom L value s₂ s' → L.node line s s' →
      MemberFrom L (.inl ⟨n, type, some value, line⟩) s s'
  | method {decl : FnDecl} {s s' : List Token} : FnFrom L decl s s' →
      MemberFrom L (.inr decl) s s'

end

/-- The statements of a whole text, up to the token of its end. -/
def CodeFrom (L : LineRule) (stmts : List Stmt) (tokens : List Token) : Prop :=
  ∃ e : Token, e.isEnd = true ∧ Spaced (StmtFrom L) stmts tokens [e]

end Widgetry
