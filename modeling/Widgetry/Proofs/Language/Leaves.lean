import Mathlib.Algebra.Group.Prod
import Mathlib.Algebra.Order.Group.Multiset
import Mathlib.Tactic.Abel
import Widgetry.Proofs.Language.Derivations
import Widgetry.Proofs.Language.Words

/-!
# The parser loses nothing

The leaves of a tree are its names and literal values, those of a text its identifiers, numbers,
quoted texts, and the words `true`, `false` and `nil`. The parser keeps each leaf as often as it
stands in the text:

> `parse_leaves`: the leaves of a text are the leaves of its tree, and beside them one `_` for each
> arm that is written with it.

What a tree has in it is tallied up along its derivation. The tally is compared with the tokens that
each part was parsed from by a relation that has to be right for single tokens and to be kept by
what stands next to each other and in brackets (`Conserves`).
-/

namespace Widgetry

/-! ## Leaves -/

/-- A name or a literal value. -/
inductive Leaf where
  | name (n : String)
  | literal (v : Scalar)

/-- What a token leaves in a tree. -/
def Token.leaf? (t : Token) : Option Leaf :=
  match t.kind with
  | .ident => some (.name t.text)
  | .int => (Decimal.readWhole t.text).toOption.map fun n => .literal (.int n)
  | .float => (Decimal.readFraction t.text).toOption.map fun x => .literal (.float x)
  | .str => some (.literal (.str t.text))
  | .keyword =>
    if t.text = "true" then some (.literal (.bool true))
    else if t.text = "false" then some (.literal (.bool false))
    else if t.text = "nil" then some (.literal .nil)
    else none
  | .op | .eof => none

/-- Whether a token is an operator, a separator or a bracket, or a word of the grammar. -/
def Token.Silent (t : Token) : Prop :=
  t.kind = .op ∨ t.kind = .keyword ∧ t.text ≠ "true" ∧ t.text ≠ "false" ∧ t.text ≠ "nil"

/-- The brackets of the grammar. -/
def brackets : List (String × String) := [("(", ")"), ("[", "]"), ("\x7b", "\x7d")]

def Token.opens (t : Token) : Bool := t.kind == .op && (brackets.map (·.1)).contains t.text

def Token.closes (t : Token) : Bool := t.kind == .op && (brackets.map (·.2)).contains t.text

theorem Token.isOp_iff {t : Token} {symbol : String} :
    t.isOp symbol = true ↔ t.kind = .op ∧ t.text = symbol := by
  rw [Token.isOp, Bool.and_eq_true, beq_iff_eq, beq_iff_eq]

theorem Token.isKeyword_iff {t : Token} {word : String} :
    t.isKeyword word = true ↔ t.kind = .keyword ∧ t.text = word := by
  rw [Token.isKeyword, Bool.and_eq_true, beq_iff_eq, beq_iff_eq]

/-- A token that is no bracket. -/
structure Token.Plain (t : Token) : Prop where
  opens : t.opens = false
  closes : t.closes = false

namespace Token.Plain

variable {t : Token}

theorem of_kind (ht : t.kind ≠ .op) : t.Plain := by
  constructor
  · rw [Token.opens, beq_eq_false_iff_ne.mpr ht, Bool.false_and]
  · rw [Token.closes, beq_eq_false_iff_ne.mpr ht, Bool.false_and]

theorem of_text (hopen : t.text ∉ brackets.map (·.1)) (hclose : t.text ∉ brackets.map (·.2)) :
    t.Plain := by
  constructor
  · rw [Token.opens, List.contains_eq_mem, decide_eq_false hopen, Bool.and_false]
  · rw [Token.closes, List.contains_eq_mem, decide_eq_false hclose, Bool.and_false]

theorem of_isOp {symbol : String} (ht : t.isOp symbol = true)
    (hopen : symbol ∉ brackets.map (·.1)) (hclose : symbol ∉ brackets.map (·.2)) : t.Plain := by
  obtain ⟨-, rfl⟩ := isOp_iff.mp ht
  exact of_text hopen hclose

/-- A symbol of a kind of operator that no bracket is. -/
theorem of_symbol {α : Type} {ofSymbol? : String → Option α} {op : α}
    (ht : ofSymbol? t.text = some op)
    (hopen : ∀ symbol ∈ brackets.map (·.1), ofSymbol? symbol = none)
    (hclose : ∀ symbol ∈ brackets.map (·.2), ofSymbol? symbol = none) : t.Plain :=
  of_text (fun h => nomatch ht.symm.trans (hopen _ h)) fun h => nomatch ht.symm.trans (hclose _ h)

theorem of_operatorAt {level : Nat} {op : BinaryOp} (ht : Parser.operatorAt? level t = some op) :
    t.Plain := by
  rw [Parser.operatorAt?, Option.ite_none_right_eq_some] at ht
  exact of_symbol (Option.filter_eq_some_iff.mp ht.2).1 (by decide) (by decide)

theorem of_prefixOp {op : UnaryOp} (ht : Parser.prefixOp? t = some op) : t.Plain := by
  rw [Parser.prefixOp?, Option.ite_none_right_eq_some] at ht
  exact of_symbol ht.2 (by decide) (by decide)

theorem of_assignOp {op : AssignOp} (ht : Parser.assignOp? t = some op) : t.Plain := by
  rw [Parser.assignOp?, Option.ite_none_right_eq_some] at ht
  exact of_symbol ht.2 (by decide) (by decide)

end Token.Plain

/-- A type name without the brackets in front of it. -/
def elementChars : List Char → List Char
  | '[' :: ']' :: cs => elementChars cs
  | cs => cs

def elementType (type : String) : String := String.ofList (elementChars type.toList)

theorem elementType_array (type : String) : elementType ("[]" ++ type) = elementType type := by
  rw [elementType, String.toList_append]
  rfl

/-- The leaves of a part of a tree, and how many of its arms have no pattern. -/
abbrev Tally := Multiset Leaf × ℕ

namespace Tally

def leaf (l : Leaf) : Tally := ({l}, 0)

def name (n : String) : Tally := leaf (.name n)

def type (t : String) : Tally := name (elementType t)

def optionalType (t : Option String) : Tally := t.elim 0 type

def param (p : String × Option String) : Tally := name p.1 + optionalType p.2

def wildcard : Tally := (0, 1)

end Tally

mutual

def Expr.tally : Expr → Tally
  | .literal v _ => Tally.leaf (.literal v)
  | .ident n _ => Tally.name n
  | .array items _ => Expr.allTally items
  | .unary _ e _ => e.tally
  | .binary _ left right _ => left.tally + right.tally
  | .member obj n _ => obj.tally + Tally.name n
  | .call callee args _ => callee.tally + Expr.allTally args
  | .node kind args props body _ =>
    Tally.name kind + Expr.allTally args + Property.allTally props + Stmt.allTally body

def Expr.allTally : List Expr → Tally
  | [] => 0
  | e :: rest => e.tally + Expr.allTally rest

def Expr.optionTally : Option Expr → Tally
  | none => 0
  | some e => e.tally

def Property.allTally : List Property → Tally
  | [] => 0
  | ⟨n, value, _⟩ :: rest => Tally.name n + value.tally + Property.allTally rest

def Target.tally : Target → Tally
  | .name n _ => Tally.name n
  | .member obj n _ => obj.tally + Tally.name n

def Stmt.tally : Stmt → Tally
  | .expr e _ => e.tally
  | .bind n value type _ _ => Tally.name n + Tally.optionalType type + value.tally
  | .assign target _ value _ => target.tally + value.tally
  | .choose subject arms _ => subject.tally + Arm.allTally arms
  | .each n items body _ => Tally.name n + items.tally + Stmt.allTally body
  | .fn decl => decl.tally
  | .type decl => decl.tally

def Stmt.allTally : List Stmt → Tally
  | [] => 0
  | s :: rest => s.tally + Stmt.allTally rest

def Arm.allTally : List Arm → Tally
  | [] => 0
  | ⟨none, body, _⟩ :: rest => Tally.wildcard + Stmt.allTally body + Arm.allTally rest
  | ⟨some p, body, _⟩ :: rest => p.tally + Stmt.allTally body + Arm.allTally rest

def FnDecl.tally : FnDecl → Tally
  | ⟨n, params, body, result, _⟩ =>
    Tally.name n + (params.map Tally.param).sum + Tally.optionalType result + Stmt.allTally body

def FnDecl.allTally : List FnDecl → Tally
  | [] => 0
  | d :: rest => d.tally + FnDecl.allTally rest

def FieldDecl.allTally : List FieldDecl → Tally
  | [] => 0
  | ⟨n, type, default, _⟩ :: rest =>
    Tally.name n + Tally.type type + Expr.optionTally default + FieldDecl.allTally rest

def TypeDecl.tally : TypeDecl → Tally
  | ⟨n, specs, members, methods, _⟩ =>
    Tally.name n + (specs.map Tally.name).sum + FieldDecl.allTally members +
      FnDecl.allTally methods

end

def Property.tally (p : Property) : Tally := Tally.name p.name + p.value.tally

def Arm.tally : Arm → Tally
  | ⟨none, body, _⟩ => Tally.wildcard + Stmt.allTally body
  | ⟨some p, body, _⟩ => p.tally + Stmt.allTally body

def FieldDecl.tally (m : FieldDecl) : Tally :=
  Tally.name m.name + Tally.type m.type + Expr.optionTally m.default

/-- The leaves of a whole program. -/
def Code.leaves (c : Code) : Multiset Leaf := (Stmt.allTally c.stmts).1

/-- How many arms of a whole program have no pattern. -/
def Code.wildcards (c : Code) : ℕ := (Stmt.allTally c.stmts).2

/-! ## Tallies of lists -/

/-- A list is tallied up item by item. -/
theorem sum_of_cons {α : Type} {all : List α → Tally} {one : α → Tally} (hnil : all [] = 0)
    (hcons : ∀ a as, all (a :: as) = one a + all as) (as : List α) :
    all as = (as.map one).sum := by
  induction as with
  | nil => exact hnil
  | cons a as ih => rw [hcons, ih, List.map_cons, List.sum_cons]

theorem Expr.allTally_eq (es : List Expr) : Expr.allTally es = (es.map Expr.tally).sum :=
  sum_of_cons (by rw [Expr.allTally]) (fun _ _ => by rw [Expr.allTally]) es

theorem Property.allTally_eq (ps : List Property) :
    Property.allTally ps = (ps.map Property.tally).sum :=
  sum_of_cons (by rw [Property.allTally]) (fun ⟨_, _, _⟩ _ => by
    rw [Property.allTally, Property.tally]) ps

theorem Stmt.allTally_eq (ss : List Stmt) : Stmt.allTally ss = (ss.map Stmt.tally).sum :=
  sum_of_cons (by rw [Stmt.allTally]) (fun _ _ => by rw [Stmt.allTally]) ss

theorem Arm.allTally_eq (arms : List Arm) : Arm.allTally arms = (arms.map Arm.tally).sum :=
  sum_of_cons (by rw [Arm.allTally]) (fun a _ => by
    obtain ⟨p, _, _⟩ := a
    cases p <;> rw [Arm.allTally, Arm.tally]) arms

theorem FnDecl.allTally_eq (ds : List FnDecl) : FnDecl.allTally ds = (ds.map FnDecl.tally).sum :=
  sum_of_cons (by rw [FnDecl.allTally]) (fun _ _ => by rw [FnDecl.allTally]) ds

theorem FieldDecl.allTally_eq (ms : List FieldDecl) :
    FieldDecl.allTally ms = (ms.map FieldDecl.tally).sum :=
  sum_of_cons (by rw [FieldDecl.allTally]) (fun ⟨_, _, _, _⟩ _ => by
    rw [FieldDecl.allTally, FieldDecl.tally]) ms

theorem ofExpr?_tally {e : Expr} {target : Target} (h : Target.ofExpr? e = some target) :
    e.tally = target.tally := by
  cases e <;> cases h <;> rfl

/-- Things of two sorts have one tally, whether they are separated or not. -/
theorem separate_tally {α β : Type} (f : α → Tally) (g : β → Tally) (items : List (α ⊕ β)) :
    ((Parser.separate items).1.map f).sum + ((Parser.separate items).2.map g).sum =
      (items.map (Sum.elim f g)).sum := by
  induction items with
  | nil => rfl
  | cons item rest ih =>
    rw [List.map_cons, List.sum_cons, ← ih]
    cases item with
    | inl a =>
      rw [Parser.separate, List.map_cons, List.sum_cons, add_assoc]
      rfl
    | inr b =>
      rw [Parser.separate, List.map_cons, List.sum_cons, add_left_comm]
      rfl

/-! ## What tokens are conserved as -/

/-- What is asked of a relation between tokens and tallies that is to hold of each part of a tree
and the tokens that it was parsed from. -/
structure Conserves (C : List Token → Tally → Prop) : Prop where
  nil : C [] 0
  append {own own' : List Token} {a b : Tally} : C own a → C own' b → C (own ++ own') (a + b)
  silent {t : Token} : t.Silent → t.Plain → t.isKeyword "else" = false → C [t] 0
  leaf {t : Token} {l : Leaf} : t.leaf? = some l → C [t] (.leaf l)
  type {t : Token} : t.kind = .ident → C [t] (.type t.text)
  wildcard {t : Token} : (t.isKeyword "else" || t.kind == .ident && t.text == "_") = true →
    C [t] .wildcard
  group {opening close : String} {own : List Token} {a : Tally} {t u : Token} :
    (opening, close) ∈ brackets → t.isOp opening = true → u.isOp close = true → C own a →
    C (t :: own ++ [u]) a

/-- Whether the tokens between two places are related to a tally. -/
def Accounts (C : List Token → Tally → Prop) (a : Tally) (start stop : List Token) : Prop :=
  ∃ own, start = own ++ stop ∧ C own a

section Conserves

variable {C : List Token → Tally → Prop} (hC : Conserves C)

include hC

namespace Accounts

variable {a b : Tally} {t u : Token} {start mid stop : List Token}

theorem none : Accounts C 0 stop stop := ⟨[], rfl, hC.nil⟩

theorem trans (h : Accounts C a start mid) (h' : Accounts C b mid stop) :
    Accounts C (a + b) start stop := by
  obtain ⟨own, rfl, hown⟩ := h
  obtain ⟨own', rfl, hown'⟩ := h'
  exact ⟨own ++ own', (List.append_assoc ..).symm, hC.append hown hown'⟩

/-- A token that leaves nothing may stand in front. -/
theorem skip (ht : C [t] 0) (h : Accounts C a mid stop) : Accounts C a (t :: mid) stop :=
  zero_add a ▸ trans hC ⟨[t], rfl, ht⟩ h

/-- And behind. -/
theorem close (hu : C [u] 0) (h : Accounts C a start (u :: stop)) : Accounts C a start stop :=
  add_zero a ▸ trans hC h ⟨[u], rfl, hu⟩

theorem group {opening close : String} (hpair : (opening, close) ∈ brackets)
    (ht : t.isOp opening = true) (hu : u.isOp close = true) (h : Accounts C a mid (u :: stop)) :
    Accounts C a (t :: mid) stop := by
  obtain ⟨own, rfl, hown⟩ := h
  exact ⟨t :: own ++ [u], by simp, hC.group hpair ht hu hown⟩

theorem leaf {l : Leaf} (ht : t.leaf? = some l) : Accounts C (.leaf l) (t :: stop) stop :=
  ⟨[t], rfl, hC.leaf ht⟩

end Accounts

/-! ## Single tokens -/

section Tokens

variable {t : Token}

/-- An operator that is no bracket. -/
theorem silent_plain (hkind : t.kind = .op) (ht : t.Plain) : C [t] 0 :=
  hC.silent (.inl hkind) ht (by rw [Token.isKeyword, hkind]; rfl)

theorem silent_op {symbol : String} (ht : t.isOp symbol = true)
    (hopen : symbol ∉ brackets.map (·.1)) (hclose : symbol ∉ brackets.map (·.2)) : C [t] 0 :=
  silent_plain hC (Token.isOp_iff.mp ht).1 (.of_isOp ht hopen hclose)

theorem silent_word {word : String} (ht : t.isKeyword word = true)
    (hword : word ∉ ["true", "false", "nil", "else"]) : C [t] 0 := by
  obtain ⟨hkind, rfl⟩ := Token.isKeyword_iff.mp ht
  simp only [List.mem_cons, List.not_mem_nil, or_false, not_or] at hword
  exact hC.silent (.inr ⟨hkind, hword.1, hword.2.1, hword.2.2.1⟩) (.of_kind (hkind ▸ nofun))
    (Bool.eq_false_iff.mpr fun h => hword.2.2.2 (Token.isKeyword_iff.mp h).2)

theorem silent_operator {level : Nat} {op : BinaryOp} (ht : Parser.operatorAt? level t = some op) :
    C [t] 0 :=
  silent_plain hC (Option.ite_none_right_eq_some.mp ht).1 (.of_operatorAt ht)

theorem silent_unary {op : UnaryOp} (ht : Parser.prefixOp? t = some op) : C [t] 0 :=
  silent_plain hC (Option.ite_none_right_eq_some.mp ht).1 (.of_prefixOp ht)

theorem silent_assign {op : AssignOp} (ht : Parser.assignOp? t = some op) : C [t] 0 :=
  silent_plain hC (Option.ite_none_right_eq_some.mp ht).1 (.of_assignOp ht)

theorem silent_separator (ht : Parser.isSeparator t = true) : C [t] 0 := by
  rw [Parser.isSeparator, Bool.or_eq_true] at ht
  exact ht.elim (fun h => silent_op hC h (by decide) (by decide))
    fun h => silent_op hC h (by decide) (by decide)

theorem silent_binder (ht : (t.isKeyword "let" || t.isKeyword "var") = true) : C [t] 0 := by
  rw [Bool.or_eq_true] at ht
  exact ht.elim (fun h => silent_word hC h (by decide)) fun h => silent_word hC h (by decide)

end Tokens

/-! ## Names and types -/

section Names

variable {s s' : List Token}

theorem NameFrom.accounts {n : String} : NameFrom n s s' → Accounts C (.name n) s s'
  | .intro ht => .leaf hC (by rw [Token.leaf?, ht])

theorem TypeFrom.accounts {n : String} (h : TypeFrom n s s') : Accounts C (.type n) s s' := by
  induction h with
  | name hn =>
    obtain ⟨t, rfl, hkind, rfl⟩ := nameFrom_iff.mp hn
    exact ⟨[t], rfl, hC.type hkind⟩
  | array ht hu _ ih =>
    rw [Tally.type, elementType_array, ← zero_add (Tally.name _)]
    exact .trans hC (.group hC (by decide) ht hu (.none hC)) ih

theorem optionalType_accounts {type : Option String} :
    Optionally TypeFrom type s s' → Accounts C (.optionalType type) s s'
  | .none => .none hC
  | .some h => h.accounts hC

theorem ParamFrom.accounts {p : String × Option String} :
    ParamFrom p s s' → Accounts C (.param p) s s'
  | .intro hn htype => .trans hC (hn.accounts hC) (optionalType_accounts hC htype)

/-- A mark may stand in front. -/
theorem MarkFrom.accounts {marked : Bool} {a : Tally} {stop : List Token} :
    MarkFrom marked s s' → Accounts C a s' stop → Accounts C a s stop
  | .none, h => h
  | .some ht, h => .skip hC (silent_word hC ht (by decide)) h

theorem MoreSpecsFrom.accounts {ns : List String} (h : MoreSpecsFrom ns s s') :
    Accounts C (ns.map Tally.name).sum s s' := by
  induction h with
  | nil => exact .none hC
  | cons ht hn _ ih =>
    exact .skip hC (silent_op hC ht (by decide) (by decide)) (.trans hC (hn.accounts hC) ih)

theorem SpecsFrom.accounts {ns : List String} :
    SpecsFrom ns s s' → Accounts C (ns.map Tally.name).sum s s'
  | .none => .none hC
  | .some ht hn hns => .skip hC (silent_word hC ht (by decide))
    (.trans hC (hn.accounts hC) (hns.accounts hC))

theorem params_account {ps : List (String × Option String)} (h : Listed ParamFrom ps s s') :
    Accounts C (ps.map Tally.param).sum s s' := by
  induction h with
  | nil => exact .none hC
  | last hp => exact .trans hC (hp.accounts hC) (.none hC)
  | cons hp ht _ ih =>
    exact .trans hC (.close hC (silent_op hC ht (by decide) (by decide)) (hp.accounts hC)) ih

end Names

/-! ## Trees -/

section Trees

variable {L : LineRule}

omit hC in
/-- In a node, properties and statements are tallied up as they stand in its body. -/
theorem node_tally (kind : String) (args : List Expr) (items : List (Property ⊕ Stmt))
    (line : Nat) :
    (Expr.node kind args (Parser.separate items).1 (Parser.separate items).2 line).tally =
      Tally.name kind +
        (Expr.allTally args + (items.map (Sum.elim Property.tally Stmt.tally)).sum) := by
  rw [Expr.tally, Property.allTally_eq, Stmt.allTally_eq, add_assoc, separate_tally, add_assoc]

mutual

theorem ExprFrom.accounts {e : Expr} {s s' : List Token} :
    ExprFrom L e s s' → Accounts C e.tally s s'
  | .whole hk hn _ => .leaf hC (by rw [Token.leaf?, hk, hn]; rfl)
  | .fraction hk hx _ => .leaf hC (by rw [Token.leaf?, hk, hx]; rfl)
  | .text hk _ => .leaf hC (by rw [Token.leaf?, hk])
  | .bool (b := b) ht _ => .leaf hC (by
      obtain ⟨hk, htext⟩ := Token.isKeyword_iff.mp ht
      cases b <;> rw [Token.leaf?, hk, htext] <;> rfl)
  | .nil ht _ => .leaf hC (by
      obtain ⟨hk, htext⟩ := Token.isKeyword_iff.mp ht
      rw [Token.leaf?, hk, htext]
      rfl)
  | .ident hn _ => hn.accounts hC
  | .group ht he hu => .group hC (by decide) ht hu he.accounts
  | .array ht hitems hu _ => by
    rw [Expr.tally]
    exact .group hC (by decide) ht hu (exprs_account hitems)
  | .unary hop he _ => by
    rw [Expr.tally]
    exact .skip hC (silent_unary hC hop) he.accounts
  | .binary hl hop hr _ => by
    rw [Expr.tally]
    exact .trans hC (.close hC (silent_operator hC hop) hl.accounts) hr.accounts
  | .member ho ht hn _ => by
    rw [Expr.tally]
    exact .trans hC (.close hC (silent_op hC ht (by decide) (by decide)) ho.accounts)
      (hn.accounts hC)
  | .call hc ha _ => by
    rw [Expr.tally]
    exact .trans hC hc.accounts ha.accounts
  | .named hn _ ha _ => by
    rw [Expr.tally, Expr.tally]
    exact .trans hC (hn.accounts hC) ha.accounts
  | .caption ht hu _ _ _ => by
    rw [Expr.tally]
    exact .trans hC (.trans hC (.trans hC (.leaf hC (by rw [Token.leaf?, ht]))
      (.trans hC (.leaf hC (by rw [Token.leaf?, hu])) (.none hC))) (.none hC)) (.none hC)
  | .captioned ht hu _ _ hb _ => by
    rw [node_tally]
    exact .trans hC (.leaf hC (by rw [Token.leaf?, ht]))
      (.trans hC (.trans hC (.leaf hC (by rw [Token.leaf?, hu])) (.none hC)) hb.accounts)
  | .applied hn ha hb _ => by
    rw [node_tally]
    exact .trans hC (hn.accounts hC) (.trans hC ha.accounts hb.accounts)
  | .bare hn hb _ => by
    rw [node_tally]
    exact .trans hC (hn.accounts hC) (.trans hC (.none hC) hb.accounts)

theorem exprs_account {es : List Expr} {s s' : List Token} :
    Listed (ExprFrom L) es s s' → Accounts C (Expr.allTally es) s s'
  | .nil => .none hC
  | .last he => .trans hC he.accounts (.none hC)
  | .cons he ht hes => .trans hC (.close hC (silent_op hC ht (by decide) (by decide)) he.accounts)
    (exprs_account hes)

theorem ArgsFrom.accounts {es : List Expr} {s s' : List Token} :
    ArgsFrom L es s s' → Accounts C (Expr.allTally es) s s'
  | .intro ht hes hu => .group hC (by decide) ht hu (exprs_account hes)

theorem BodyFrom.accounts {items : List (Property ⊕ Stmt)} {s s' : List Token} :
    BodyFrom L items s s' →
      Accounts C (items.map (Sum.elim Property.tally Stmt.tally)).sum s s'
  | .intro ht hitems hu => .group hC (by decide) ht hu (items_account hitems)

theorem items_account {items : List (Property ⊕ Stmt)} {s s' : List Token} :
    Spaced (ItemFrom L) items s s' →
      Accounts C (items.map (Sum.elim Property.tally Stmt.tally)).sum s s'
  | .nil => .none hC
  | .skip ht h => .skip hC (silent_separator hC ht) (items_account h)
  | .cons h hs => .trans hC h.accounts (items_account hs)

theorem ItemFrom.accounts {item : Property ⊕ Stmt} {s s' : List Token} :
    ItemFrom L item s s' → Accounts C (Sum.elim Property.tally Stmt.tally item) s s'
  | .property hn ht hv _ =>
    .trans hC (.close hC (silent_op hC ht (by decide) (by decide)) (hn.accounts hC)) hv.accounts
  | .stmt h => h.accounts

theorem StmtFrom.accounts {st : Stmt} {s s' : List Token} :
    StmtFrom L st s s' → Accounts C st.tally s s'
  | .expr he _ => by
    rw [Stmt.tally]
    exact he.accounts
  | .assign he htarget hop hv _ => by
    rw [Stmt.tally, ← ofExpr?_tally htarget]
    exact .trans hC (.close hC (silent_assign hC hop) he.accounts) hv.accounts
  | .bind hlet hmark hn htype heq hv _ => by
    rw [Stmt.tally]
    exact .skip hC (silent_binder hC hlet) (hmark.accounts hC (.trans hC
      (.trans hC (hn.accounts hC)
        (.close hC (silent_op hC heq (by decide) (by decide)) (optionalType_accounts hC htype)))
      hv.accounts))
  | .choose hword he ht harms hu _ => by
    rw [Stmt.tally, Arm.allTally_eq]
    exact .skip hC (silent_word hC hword (by decide))
      (.trans hC he.accounts (.group hC (by decide) ht hu (arms_account harms)))
  | .each hfor hn hin he hb _ => by
    rw [Stmt.tally]
    exact .skip hC (silent_word hC hfor (by decide))
      (.trans hC (.trans hC (.close hC (silent_word hC hin (by decide)) (hn.accounts hC))
        he.accounts) hb.accounts)
  | .fn h => by
    rw [Stmt.tally]
    exact h.accounts
  | .type hword hn hspecs ht hitems hu _ => by
    rw [Stmt.tally, TypeDecl.tally, FieldDecl.allTally_eq, FnDecl.allTally_eq, add_assoc,
      separate_tally]
    exact .skip hC (silent_word hC hword (by decide))
      (.trans hC (.trans hC (hn.accounts hC) (hspecs.accounts hC))
        (.group hC (by decide) ht hu (members_account hitems)))

theorem BlockFrom.accounts {body : List Stmt} {s s' : List Token} :
    BlockFrom L body s s' → Accounts C (Stmt.allTally body) s s'
  | .intro ht hbody hu => .group hC (by decide) ht hu (stmts_account hbody)

theorem stmts_account {body : List Stmt} {s s' : List Token} :
    Spaced (StmtFrom L) body s s' → Accounts C (Stmt.allTally body) s s'
  | .nil => .none hC
  | .skip ht h => .skip hC (silent_separator hC ht) (stmts_account h)
  | .cons h hs => .trans hC h.accounts (stmts_account hs)

theorem arms_account {arms : List Arm} {s s' : List Token} :
    Spaced (ArmFrom L) arms s s' → Accounts C (arms.map Arm.tally).sum s s'
  | .nil => .none hC
  | .skip ht h => .skip hC (silent_separator hC ht) (arms_account h)
  | .cons h hs => .trans hC h.accounts (arms_account hs)

theorem ArmFrom.accounts {a : Arm} {s s' : List Token} :
    ArmFrom L a s s' → Accounts C a.tally s s'
  | .wild hword harrow hb _ => .trans hC ⟨[_], rfl, hC.wildcard hword⟩
    (.skip hC (silent_op hC harrow (by decide) (by decide)) hb.accounts)
  | .pattern hp harrow hb _ =>
    .trans hC (.close hC (silent_op hC harrow (by decide) (by decide)) hp.accounts) hb.accounts

theorem ActionFrom.accounts {body : List Stmt} {s s' : List Token} :
    ActionFrom L body s s' → Accounts C (Stmt.allTally body) s s'
  | .block h => h.accounts
  | .stmt h => .trans hC h.accounts (.none hC)

theorem FnFrom.accounts {decl : FnDecl} {s s' : List Token} :
    FnFrom L decl s s' → Accounts C decl.tally s s'
  | .intro hword hn hopen hparams hclose hresult hbody _ => by
    rw [FnDecl.tally]
    exact .skip hC (silent_word hC hword (by decide))
      (.trans hC (.trans hC (.trans hC (hn.accounts hC)
        (.group hC (by decide) hopen hclose (params_account hC hparams)))
        (optionalType_accounts hC hresult)) hbody.accounts)

theorem members_account {items : List (FieldDecl ⊕ FnDecl)} {s s' : List Token} :
    Spaced (MemberFrom L) items s s' →
      Accounts C (items.map (Sum.elim FieldDecl.tally FnDecl.tally)).sum s s'
  | .nil => .none hC
  | .skip ht h => .skip hC (silent_separator hC ht) (members_account h)
  | .cons h hs => .trans hC h.accounts (members_account hs)

theorem MemberFrom.accounts {item : FieldDecl ⊕ FnDecl} {s s' : List Token} :
    MemberFrom L item s s' → Accounts C (Sum.elim FieldDecl.tally FnDecl.tally item) s s'
  | .plain hn htype _ =>
    .trans hC (.trans hC (hn.accounts hC) (htype.accounts hC)) (.none hC)
  | .initial hn htype heq hv _ =>
    .trans hC (.trans hC (hn.accounts hC)
      (.close hC (silent_op hC heq (by decide) (by decide)) (htype.accounts hC))) hv.accounts
  | .method h => h.accounts

end

end Trees

/-! ## Whole texts -/

theorem CodeFrom.accounts {L : LineRule} {stmts : List Stmt} {ts : List Token}
    (h : CodeFrom L stmts ts) :
    ∃ own e, ts = own ++ [e] ∧ e.isEnd = true ∧ C own (Stmt.allTally stmts) := by
  obtain ⟨e, he, hstmts⟩ := h
  obtain ⟨own, rfl, hown⟩ := stmts_account hC hstmts
  exact ⟨own, e, rfl, he, hown⟩

end Conserves

/-- Whether the leaves of tokens are those of a tally, and beside them one `_` for each arm without
a pattern that has no `else`. A type is only known by its name if that is a word. -/
def Conserved (own : List Token) (a : Tally) : Prop :=
  (∀ t ∈ own, t.Worded) → (∀ t ∈ own, t.leaf? = none → t.Silent) ∧
    ∃ k, a.2 = k + own.countP (·.isKeyword "else") ∧
      (own.filterMap Token.leaf? : Multiset Leaf) = a.1 + Multiset.replicate k (.name "_")

theorem Token.Silent.leaf? {t : Token} (h : t.Silent) : t.leaf? = none := by
  obtain hk | ⟨hk, htrue, hfalse, hnil⟩ := h
  · rw [Token.leaf?, hk]
  · rw [Token.leaf?, hk]
    simp only [htrue, hfalse, hnil, if_false]

theorem isKeyword_else_of_leaf {t : Token} {l : Leaf} (h : t.leaf? = some l) :
    t.isKeyword "else" = false := by
  refine Bool.eq_false_iff.mpr fun helse => ?_
  obtain ⟨hk, htext⟩ := Token.isKeyword_iff.mp helse
  rw [Token.leaf?, hk, htext] at h
  exact nomatch h

theorem conserved_leaf {t : Token} {l : Leaf} (h : t.leaf? = some l) :
    Conserved [t] (.leaf l) := by
  refine fun _ => ⟨fun u hu hnone => ?_, 0, ?_, ?_⟩
  · rw [List.mem_singleton.mp hu, h] at hnone
    cases hnone
  · rw [List.countP_singleton, isKeyword_else_of_leaf h]
    rfl
  · rw [List.filterMap_cons_some h]
    rfl

theorem conserved_silent {t : Token} (h : t.Silent) :
    Conserved [t] (0, [t].countP (·.isKeyword "else")) :=
  fun _ => ⟨fun _ hu _ => List.mem_singleton.mp hu ▸ h, 0, (Nat.zero_add _).symm, by
    rw [List.filterMap_cons_none h.leaf?]
    rfl⟩

theorem conserved_wildcard {t : Token}
    (h : (t.isKeyword "else" || t.kind == .ident && t.text == "_") = true) :
    Conserved [t] .wildcard := by
  cases helse : t.isKeyword "else" with
  | true =>
    obtain ⟨hk, htext⟩ := Token.isKeyword_iff.mp helse
    have := conserved_silent (t := t) (.inr (by rw [hk, htext]; decide))
    rwa [List.countP_singleton, helse] at this
  | false =>
    rw [helse, Bool.false_or, Bool.and_eq_true, beq_iff_eq, beq_iff_eq] at h
    have hleaf : t.leaf? = some (.name "_") := by rw [Token.leaf?, h.1, h.2]
    refine fun _ => ⟨fun u hu hnone => ?_, 1, ?_, ?_⟩
    · rw [List.mem_singleton.mp hu, hleaf] at hnone
      cases hnone
    · rw [List.countP_singleton, helse]
      rfl
    · rw [List.filterMap_cons_some hleaf]
      rfl

/-- No bracket stands in front of a word. -/
theorem IsWord.elementType {n : String} (h : IsWord n) : elementType n = n := by
  have hfirst : ∀ cs, n.toList ≠ '[' :: ']' :: cs := fun cs hcs =>
    h.not_mem (c := '[') (by decide) (hcs ▸ List.mem_cons_self)
  rw [Widgetry.elementType, elementChars, String.ofList_toList]
  exact hfirst

theorem conserved_append {own own' : List Token} {a b : Tally} (h : Conserved own a)
    (h' : Conserved own' b) : Conserved (own ++ own') (a + b) := by
  intro hw
  obtain ⟨hs, k, hk, hl⟩ := h fun t ht => hw t (List.mem_append_left _ ht)
  obtain ⟨hs', k', hk', hl'⟩ := h' fun t ht => hw t (List.mem_append_right _ ht)
  refine ⟨fun t ht => (List.mem_append.mp ht).elim (hs t) (hs' t), k + k', ?_, ?_⟩
  · rw [List.countP_append, Prod.snd_add, hk, hk']
    omega
  · rw [List.filterMap_append, ← Multiset.coe_add, hl, hl', Multiset.replicate_add, Prod.fst_add]
    abel

theorem conserved_op {t : Token} {symbol : String} (h : t.isOp symbol = true) :
    Conserved [t] 0 := by
  have hk := (Token.isOp_iff.mp h).1
  have := conserved_silent (t := t) (.inl hk)
  rwa [List.countP_singleton, Token.isKeyword, hk] at this

theorem conserves_conserved : Conserves Conserved where
  nil _ := ⟨nofun, 0, rfl, rfl⟩
  append := conserved_append
  silent ht _ helse := by
    have := conserved_silent ht
    rwa [List.countP_singleton, helse] at this
  leaf := conserved_leaf
  type {t} hk hw := by
    have hword := hw t (List.mem_singleton_self t) hk
    have := conserved_leaf (t := t) (l := .name t.text) (by rw [Token.leaf?, hk]) hw
    rwa [Tally.type, hword.elementType]
  wildcard := conserved_wildcard
  group _ ht hu hown := by
    have := conserved_append (conserved_append (conserved_op ht) hown) (conserved_op hu)
    rwa [zero_add, add_zero] at this

/-- A rule that leaves it open what line a node has. -/
def anyLine : LineRule := ⟨fun _ start stop => stop.length < start.length, fun _ _ _ => True⟩

theorem anyLine_allows (ts : List Token) : anyLine.Allows ts where
  shorter := id
  node _ hmid hstop := by
    have := hmid.length_le
    have := hstop.length_le
    rw [List.length_cons] at *
    exact Nat.lt_of_lt_of_le (Nat.lt_succ_of_le hstop.length_le) hmid.length_le
  call _ _ _ := trivial

/-- **The parser loses nothing.** Only operators, separators, brackets, words of the grammar and the
end leave nothing in the tree of a text, and all leaves of the text but the `_` of arms are in it as
often. Of the arms without a pattern those are written with `_` that have no `else`. -/
theorem parse_leaves {source : String} {file : Option String} {c : Code}
    (h : parse source file = .ok c) : ∃ ts, tokenize source file = .ok ts ∧
      (∀ t ∈ ts, t.leaf? = none ↔ t.Silent ∨ t.isEnd = true) ∧
      ∃ k, c.wildcards = k + ts.countP (·.isKeyword "else") ∧
        (ts.filterMap Token.leaf? : Multiset Leaf) =
          c.leaves + Multiset.replicate k (.name "_") := by
  obtain ⟨ts, hts, hderived⟩ := parse_derived h
  obtain ⟨own, e, rfl, he, hown⟩ :=
    CodeFrom.accounts conserves_conserved (hderived anyLine (anyLine_allows ts))
  have hend : e.kind = .eof := beq_iff_eq.mp he
  have hleaf : e.leaf? = none := by rw [Token.leaf?, hend]
  obtain ⟨hsilent, k, hk, hleaves⟩ := hown fun t ht =>
    tokenize_worded hts t (List.mem_append_left _ ht)
  refine ⟨_, hts, fun t ht => ⟨fun hnone => ?_, fun h => ?_⟩, k, ?_, ?_⟩
  · rcases List.mem_append.mp ht with ht | ht
    · exact .inl (hsilent t ht hnone)
    · exact .inr (List.mem_singleton.mp ht ▸ he)
  · rcases h with hsilent | hend
    · exact hsilent.leaf?
    · rw [Token.leaf?, beq_iff_eq.mp hend]
  · rw [List.countP_append, List.countP_singleton, Token.isKeyword, hend]
    exact hk
  · rw [List.filterMap_append, List.filterMap_cons_none hleaf, List.filterMap_nil, List.append_nil]
    exact hleaves

/-- A binding with a type and a choice with two arms without a pattern. -/
def twoWildcards : String := "let xs []int = [1_0]\nis xs \x7b _ => nil, else => text \"a\" \x7d"

def twoWildcardsCode : Code := ⟨[
    .bind "xs" (.array [.literal (.int 10) 1] 1) (some "[]int") false 1,
    .choose (.ident "xs" 2) [⟨none, [.expr (.literal .nil 2) 2], 2⟩,
      ⟨none, [.expr (.node "text" [.literal (.str "a") 2] [] [] 2) 2], 2⟩] 2], none⟩

def twoWildcardsTokens : List Token :=
  [⟨.keyword, "let", ⟨1, 1⟩⟩, ⟨.ident, "xs", ⟨1, 5⟩⟩, ⟨.op, "[", ⟨1, 8⟩⟩, ⟨.op, "]", ⟨1, 9⟩⟩,
    ⟨.ident, "int", ⟨1, 10⟩⟩, ⟨.op, "=", ⟨1, 14⟩⟩, ⟨.op, "[", ⟨1, 16⟩⟩, ⟨.int, "10", ⟨1, 17⟩⟩,
    ⟨.op, "]", ⟨1, 20⟩⟩, ⟨.keyword, "is", ⟨2, 1⟩⟩, ⟨.ident, "xs", ⟨2, 4⟩⟩, ⟨.op, "\x7b", ⟨2, 7⟩⟩,
    ⟨.ident, "_", ⟨2, 9⟩⟩, ⟨.op, "=>", ⟨2, 11⟩⟩, ⟨.keyword, "nil", ⟨2, 14⟩⟩, ⟨.op, ",", ⟨2, 17⟩⟩,
    ⟨.keyword, "else", ⟨2, 19⟩⟩, ⟨.op, "=>", ⟨2, 24⟩⟩, ⟨.ident, "text", ⟨2, 27⟩⟩,
    ⟨.str, "a", ⟨2, 32⟩⟩, ⟨.op, "\x7d", ⟨2, 36⟩⟩, ⟨.eof, "", ⟨2, 37⟩⟩]

theorem twoWildcards_tokens : tokenize twoWildcards none = .ok twoWildcardsTokens :=
  toOption_eq_some_iff.mp (by decide +kernel)

theorem twoWildcards_parsed : parse twoWildcards none = .ok twoWildcardsCode := by
  rw [parse, Parser.run, twoWildcards_tokens]
  rfl

/-- All leaves but the `_` of the first arm are in the tree. -/
theorem twoWildcards_leaves : parse twoWildcards none = .ok twoWildcardsCode ∧
    (∀ t ∈ twoWildcardsTokens, t.leaf? = none ↔ t.Silent ∨ t.isEnd = true) ∧
    twoWildcardsCode.wildcards = 2 ∧
    (twoWildcardsTokens.filterMap Token.leaf? : Multiset Leaf) =
      twoWildcardsCode.leaves + {.name "_"} := by
  obtain ⟨ts, hts, hsilent, k, hk, hleaves⟩ := parse_leaves twoWildcards_parsed
  cases hts.symm.trans twoWildcards_tokens
  -- the other arm has the only `else`
  have hone : 1 + 1 = k + 1 := hk
  cases Nat.add_right_cancel hone
  exact ⟨twoWildcards_parsed, hsilent, rfl, hleaves⟩

end Widgetry
