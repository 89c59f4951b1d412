import Widgetry.Proofs.Generation.Brackets
import Widgetry.Proofs.Generation.Expressions

/-!
# The operators of generated source

Of the operands of an operator, only those that have an operator between operands themselves get
parentheses. What is generated is a formula all the same, but not always with the operators where
the expression has them.

> `source_read_iff`: it is read as the formula of the expression exactly if no negation is the
> operand of a sign or of an operator other than `&&` and `||`, and no point or call stands behind
> an operator.

So two such expressions over local names that are not the same have different texts.
-/

namespace Widgetry

open Formula (Written Bare Balanced)

/-- The same literal. Fractions are the same if they have the same digits. -/
def Scalar.Same : Scalar → Scalar → Prop
  | .float x, .float y => numberLayout.render x = numberLayout.render y
  | s, t => s = t

def Formula.isText : Formula → Bool
  | .atom (.text _) => true
  | _ => false

/-- The kind of the expressions over local names that have a formula. -/
def Formula.kind : Formula → Nat
  | .atom (.name _) => 1
  | .atom _ => 0
  | .unary .. => 2
  | .binary .. => 3
  | .member .. => 4
  | .call .. => 5

namespace Expr

def isNegation : Expr → Bool
  | unary .bang _ _ => true
  | _ => false

/-- Whether an expression has an operator outermost. -/
def isOperation : Expr → Bool
  | unary .. | binary .. => true
  | _ => false

mutual

/-- Whether every operator binds its operands in generated source too. -/
def Grouped : Expr → Prop
  | unary op e _ => e.Grouped ∧ (op = .minus → e.isNegation = false)
  | binary op l r _ => (l.Grouped ∧ r.Grouped) ∧ (op.isLogical = false →
      (joinsLeft op l r = true ∨ l.isNegation = false) ∧
      (joinsRight op l r = true ∨ r.isNegation = false))
  | member obj _ _ => obj.Grouped ∧ obj.isOperation = false
  | call callee args _ => (callee.Grouped ∧ callee.isOperation = false) ∧ GroupedAll args
  | _ => True

def GroupedAll : List Expr → Prop
  | [] => True
  | e :: rest => e.Grouped ∧ GroupedAll rest

end

/-! ## Grouped expressions are written for their formulas -/

variable {g : Naming} {locals : List String} {e : Expr} {x : Formula} {k : Nat}
  {ts : List Formula.Token}

/-- How tightly what is generated for an expression binds. -/
def rank : Expr → Nat
  | unary op _ _ => op.rank
  | binary op _ _ _ => op.rank
  | _ => 7

/-- How tightly an operand binds. -/
def operandRank (e : Expr) : Nat := if e.isBinary then 7 else e.rank

theorem rank_of_not_operation (h : e.isOperation = false) : e.rank = 7 := by
  cases e with
  | unary op e line => cases h
  | binary op l r line => cases h
  | _ => rfl

theorem le_operandRank (e : Expr) : 2 ≤ e.operandRank := by
  cases e with
  | unary op e line =>
    cases op with
    | bang => exact Nat.le_refl 2
    | minus => exact (by decide : 2 ≤ 6)
  | _ => exact (by decide : 2 ≤ 7)

theorem le_operandRank_of_not_negation (h : e.isNegation = false) : 6 ≤ e.operandRank := by
  cases e with
  | unary op e line =>
    cases op with
    | bang => cases h
    | minus => exact Nat.le_refl 6
  | _ => exact (by decide : 6 ≤ 7)

theorem ranks_of_isLogical {op : BinaryOp} (h : op.isLogical = true) :
    op.leftRank ≤ 2 ∧ op.rightRank ≤ 2 := by
  revert h
  cases op <;> decide

theorem ranks_le (op : BinaryOp) : op.leftRank ≤ 6 ∧ op.rightRank ≤ 6 := by
  cases op <;> decide

theorem written_named (own : Bool) (x : String) :
    Written 7 (namedTokens own x) (Formula.named own x) := by
  cases own with
  | false => exact .atom _
  | true => exact .member x (.atom (.name "self"))

theorem written_operand (h : Written e.rank ts x) :
    Written e.operandRank (e.operandTokens ts) x := by
  unfold operandRank operandTokens
  split
  · exact .group (.looser h (Nat.zero_le _))
  · exact h

theorem written_asText (h : Written 0 ts x) : Written 7 (textTokens ts) x.asText :=
  @Written.call [.atom (.name "str")] (.atom (.name "str")) [(ts, x)] (.atom _) fun a ha => by
    cases List.mem_singleton.mp ha
    exact h

/-- An operand of an operator between operands. -/
theorem written_chosen {j : Bool} (h : Written e.rank ts x) (hk : k ≤ 7)
    (hj : j = true ∨ k ≤ e.operandRank) : Written k
      (if j then textTokens ts else e.operandTokens ts) (if j then x.asText else x) := by
  cases j with
  | true => exact .looser (written_asText (.looser h (Nat.zero_le _))) hk
  | false => exact .looser (written_operand h) (hj.resolve_left Bool.false_ne_true)

theorem tokensAll_eq (es : List Expr) : tokensAll g locals es = es.map (tokens g locals) := by
  induction es with
  | nil => rfl
  | cons e rest ih => rw [tokensAll, ih, List.map_cons]

theorem formulas_eq (es : List Expr) : formulas g locals es = es.map (formula g locals) := by
  induction es with
  | nil => rfl
  | cons e rest ih => rw [formulas, ih, List.map_cons]

theorem formula_call {callee : Expr} (h : ∀ x l, callee ≠ ident x l) (args : List Expr) (line : Nat) :
    (call callee args line).formula g locals
      = .call (callee.formula g locals) (formulas g locals args) := by
  cases callee with
  | ident x l => exact absurd rfl (h x l)
  | _ => rfl

/-- A call of what is written already. -/
theorem written_call {args : List Expr} (h : Written 7 ts x)
    (hargs : ∀ e ∈ args, Written 0 (e.tokens g locals) (e.formula g locals)) :
    Written 7 (ts ++ .opening :: Formula.listed (tokensAll g locals args) ++ [.closing])
      (.call x (formulas g locals args)) := by
  have hall := @Written.call ts x (args.map fun e => (e.tokens g locals, e.formula g locals)) h
    fun a ha => by
      obtain ⟨e, he, rfl⟩ := List.mem_map.mp ha
      exact hargs e he
  rw [List.map_map, List.map_map] at hall
  rw [tokensAll_eq, formulas_eq]
  exact hall

/-- Both operands of a grouped operator bind tightly enough. -/
theorem le_ranks {op : BinaryOp} {l r : Expr} {line : Nat} (h : (binary op l r line).Grouped) :
    (joinsLeft op l r = true ∨ op.leftRank ≤ l.operandRank) ∧
      (joinsRight op l r = true ∨ op.rightRank ≤ r.operandRank) := by
  cases hop : op.isLogical with
  | true =>
    obtain ⟨hl, hr⟩ := ranks_of_isLogical hop
    exact ⟨.inr (Nat.le_trans hl (le_operandRank l)), .inr (Nat.le_trans hr (le_operandRank r))⟩
  | false =>
    obtain ⟨hl, hr⟩ := h.2 hop
    refine ⟨hl.imp_right fun hl => ?_, hr.imp_right fun hr => ?_⟩
    · exact Nat.le_trans (ranks_le op).1 (le_operandRank_of_not_negation hl)
    · exact Nat.le_trans (ranks_le op).2 (le_operandRank_of_not_negation hr)

mutual

theorem written : ∀ e : Expr, e.Legible → e.Grouped →
    Written e.rank (e.tokens g locals) (e.formula g locals)
  | literal s _, _, _ => .atom _
  | ident x _, _, _ => written_named _ x
  | unary op e _, h, hg => by
    refine .unary (.looser (written_operand (written e h hg.1)) ?_)
    cases op with
    | bang => exact le_operandRank e
    | minus => exact le_operandRank_of_not_negation (hg.2 rfl)
  | binary op l r _, h, hg => by
    obtain ⟨hl, hr⟩ := le_ranks hg
    exact .binary
      (written_chosen (written l h.1 hg.1.1) (Nat.le_of_lt op.leftRank_lt) hl)
      (written_chosen (written r h.2 hg.1.2) (Nat.le_of_lt op.rightRank_lt) hr)
  | member obj x _, h, hg => by
    have hobj := written obj h.1 hg.1
    rw [rank_of_not_operation hg.2] at hobj
    exact .member x hobj
  | call callee args line, h, hg => by
    have hargs := writtenAll args h.2 hg.2
    rcases ident_or_not callee with ⟨x, l, rfl⟩ | hne
    · exact written_call (written_named _ x) hargs
    · have hcallee := written callee h.1 hg.1.1
      rw [rank_of_not_operation hg.1.2] at hcallee
      rw [tokens_call hne, formula_call hne]
      exact written_call hcallee hargs

theorem writtenAll : ∀ es : List Expr, LegibleAll es → GroupedAll es →
    ∀ e ∈ es, Written 0 (e.tokens g locals) (e.formula g locals)
  | [], _, _, _, he => nomatch he
  | e :: rest, h, hg, e', he => by
    rcases List.mem_cons.mp he with he | he
    · rw [he]
      exact .looser (written e h.1 hg.1) (Nat.zero_le _)
    · exact writtenAll rest h.2 hg.2 e' he

end

/-! ## The tokens but for their brackets -/

theorem flat_operand (ts : List Formula.Token) :
    Formula.flat (e.operandTokens ts) = Formula.flat ts := by
  unfold operandTokens
  split
  · exact Formula.flat_group ts
  · rfl

theorem flat_chosen {j : Bool} (h : Formula.flat ts = x.plain) :
    Formula.flat (if j then textTokens ts else e.operandTokens ts)
      = (if j then x.asText else x).plain := by
  cases j with
  | true =>
    show .atom (.name "str") :: Formula.flat (.opening :: ts ++ [.closing]) = _
    rw [Formula.flat_group, h]
    rfl
  | false => exact (flat_operand ts).trans h

theorem balanced_operand (h : Balanced ts) : Balanced (e.operandTokens ts) := by
  unfold operandTokens
  split
  · exact h.group
  · exact h

theorem balanced_chosen {j : Bool} (h : Balanced ts) :
    Balanced (if j then textTokens ts else e.operandTokens ts) := by
  cases j with
  | true => exact .cons rfl h.group
  | false => exact balanced_operand h

theorem flat_call {args : List Expr} (h : Formula.flat ts = x.plain)
    (hargs : Formula.flat (Formula.listed (tokensAll g locals args))
      = Formula.plainAll (formulas g locals args)) :
    Formula.flat (ts ++ .opening :: Formula.listed (tokensAll g locals args) ++ [.closing])
      = (Formula.call x (formulas g locals args)).plain := by
  rw [List.append_assoc, List.cons_append, ← List.cons_append, Formula.flat_append,
    Formula.flat_group, h, hargs]
  rfl

mutual

theorem flat_tokens : ∀ e : Expr, e.Legible →
    Formula.flat (e.tokens g locals) = (e.formula g locals).plain
  | literal s _, _ => rfl
  | ident x _, _ => (written_named _ x).flat_eq
  | unary op e _, h => by
    rw [tokens, Formula.flat_cons (Formula.isBracket_token op), flat_operand, flat_tokens e h]
    rfl
  | binary op l r _, h => by
    rw [tokens, Formula.flat_append, Formula.flat_cons rfl, flat_chosen (flat_tokens l h.1),
      flat_chosen (flat_tokens r h.2)]
    rfl
  | member obj x _, h => by
    rw [tokens, Formula.flat_append, flat_tokens obj h.1]
    rfl
  | call callee args _, h => by
    have hargs := flat_tokensAll args h.2
    rcases ident_or_not callee with ⟨x, l, rfl⟩ | hne
    · exact flat_call (written_named _ x).flat_eq hargs
    · rw [tokens_call hne, formula_call hne]
      exact flat_call (flat_tokens callee h.1) hargs

theorem flat_tokensAll : ∀ es : List Expr, LegibleAll es →
    Formula.flat (Formula.listed (tokensAll g locals es))
      = Formula.plainAll (formulas g locals es)
  | [], _ => rfl
  | [e], h => flat_tokens e h.1
  | e :: e' :: rest, h => by
    have hrest := flat_tokensAll (e' :: rest) h.2
    show Formula.flat (e.tokens g locals ++ .comma ::
      Formula.listed (tokensAll g locals (e' :: rest))) = _
    rw [Formula.flat_append, Formula.flat_cons rfl, hrest, flat_tokens e h.1]
    rfl

end

theorem balanced_call {args : List Expr} (h : Balanced ts)
    (hargs : ∀ e ∈ args, Balanced (e.tokens g locals)) :
    Balanced (ts ++ .opening :: Formula.listed (tokensAll g locals args) ++ [.closing]) := by
  rw [List.append_assoc, tokensAll_eq]
  refine h.append (Balanced.group (Formula.balanced_listed _ fun a ha => ?_))
  obtain ⟨e, he, rfl⟩ := List.mem_map.mp ha
  exact hargs e he

mutual

theorem balanced_tokens : ∀ e : Expr, e.Legible → Balanced (e.tokens g locals)
  | literal s _, _ => .mark rfl
  | ident x _, _ => (written_named _ x).balanced
  | unary op e _, h => .cons (Formula.isBracket_token op) (balanced_operand (balanced_tokens e h))
  | binary op l r _, h => (balanced_chosen (balanced_tokens l h.1)).append
      (.cons rfl (balanced_chosen (balanced_tokens r h.2)))
  | member obj x _, h => (balanced_tokens obj h.1).append (.cons rfl (.mark rfl))
  | call callee args _, h => by
    have hargs := balanced_tokensAll args h.2
    rcases ident_or_not callee with ⟨x, l, rfl⟩ | hne
    · exact balanced_call (written_named _ x).balanced hargs
    · rw [tokens_call hne]
      exact balanced_call (balanced_tokens callee h.1) hargs

theorem balanced_tokensAll : ∀ es : List Expr, LegibleAll es →
    ∀ e ∈ es, Balanced (e.tokens g locals)
  | [], _, _, he => nomatch he
  | e :: rest, h, e', he => by
    rcases List.mem_cons.mp he with he | he
    · rw [he]
      exact balanced_tokens e h.1
    · exact balanced_tokensAll rest h.2 e' he

end

/-! ## What is written for its formula is grouped -/

/-- Nothing that begins with a mark is in brackets as a whole. -/
theorem bare_cons {t : Formula.Token} (ht : t.isBracket = false) (hne : ts ≠ [])
    (h : Written k (t :: ts) x) : ∃ n, k ≤ n ∧ Bare n (t :: ts) x := by
  have hall : Written k ([t] ++ ts) x := h
  exact hall.bare (.mark ht) (List.cons_ne_nil _ _) hne

/-- A call is written with its function and its arguments. -/
theorem of_call {us : List Formula.Token} {f : Formula} {args : List Formula} (hts : Balanced ts)
    (hne : ts ≠ []) (hus : Balanced us)
    (h : Written k (ts ++ .opening :: us ++ [.closing]) (.call f args)) :
    Written 7 ts f ∧ ∃ pairs : List (List Formula.Token × Formula),
      us = Formula.listed (pairs.map (·.1)) ∧ args = pairs.map (·.2) ∧
      ∀ a ∈ pairs, Written 0 a.1 a.2 := by
  rw [List.append_assoc] at h
  obtain ⟨n, -, hb⟩ := h.bare hts hne (List.cons_ne_nil _ _)
  obtain ⟨fs, pairs, he, hargs, hf, hpairs⟩ := hb.of_call
  rw [← List.append_assoc] at he
  have hlisted : Balanced (Formula.listed (pairs.map (·.1))) :=
    Formula.balanced_listed _ fun a ha => by
      obtain ⟨b, hb, rfl⟩ := List.mem_map.mp ha
      exact (hpairs b hb).balanced
  obtain ⟨rfl, rfl⟩ := Formula.split_at_call hts hf.balanced hus hlisted he
  exact ⟨hf, pairs, rfl, hargs, hpairs⟩

theorem of_asText {x : Formula} (hts : Balanced ts) (h : Written k (textTokens ts) x.asText) :
    Written 0 ts x := by
  have hname : Balanced [Formula.Token.atom (.name "str")] := .mark rfl
  obtain ⟨-, pairs, rfl, hargs, hpairs⟩ := of_call hname (List.cons_ne_nil _ _) hts h
  cases pairs with
  | nil => cases hargs
  | cons a rest =>
    cases rest with
    | nil =>
      obtain ⟨rfl, -⟩ := List.cons.inj hargs
      exact hpairs a (List.mem_singleton.mpr rfl)
    | cons b rest => cases hargs

theorem tokens_ne_nil (h : e.Legible) : e.tokens g locals ≠ [] := by
  cases e with
  | literal s line => exact List.cons_ne_nil _ _
  | ident x line => exact (written_named _ x).ne_nil
  | unary op e line => exact List.cons_ne_nil _ _
  | binary op l r line => exact List.append_ne_nil_of_right_ne_nil _ (List.cons_ne_nil _ _)
  | member obj x line => exact List.append_ne_nil_of_right_ne_nil _ (List.cons_ne_nil _ _)
  | call callee args line =>
    rcases ident_or_not callee with ⟨x, l, rfl⟩ | hne
    · exact List.append_ne_nil_of_right_ne_nil _ (List.cons_ne_nil _ _)
    · rw [tokens_call hne]
      exact List.append_ne_nil_of_right_ne_nil _ (List.cons_ne_nil _ _)
  | array items line => exact h.elim
  | node kind args props body line => exact h.elim

theorem operand_ne_nil (h : e.Legible) : e.operandTokens (e.tokens g locals) ≠ [] := by
  unfold operandTokens
  split
  · exact List.cons_ne_nil _ _
  · exact tokens_ne_nil h

theorem chosen_ne_nil {j : Bool} (h : e.Legible) :
    (if j then textTokens (e.tokens g locals) else e.operandTokens (e.tokens g locals)) ≠ [] := by
  cases j with
  | true => exact List.cons_ne_nil _ _
  | false => exact operand_ne_nil h

/-- An operator in front is written with its operand. -/
theorem of_unary {op : UnaryOp} {line : Nat} (he : (unary op e line).Legible)
    (h : Written k ((unary op e line).tokens g locals) ((unary op e line).formula g locals)) :
    k ≤ op.rank ∧ Written op.rank (e.operandTokens (e.tokens g locals)) (e.formula g locals) := by
  obtain ⟨n, hk, hb⟩ := bare_cons (Formula.isBracket_token op)
    (operand_ne_nil (e := e) he) h
  obtain ⟨rfl, us, hus, hx⟩ := hb.of_unary
  rw [(List.cons.inj hus).2]
  exact ⟨hk, hx⟩

/-- An operator is written with both its operands. -/
theorem of_binary {op : BinaryOp} {l r : Expr} {line : Nat} (he : (binary op l r line).Legible)
    (h : Written k ((binary op l r line).tokens g locals)
      ((binary op l r line).formula g locals)) :
    k ≤ op.rank ∧
      Written op.leftRank (if joinsLeft op l r then textTokens (l.tokens g locals)
        else l.operandTokens (l.tokens g locals))
        (if joinsLeft op l r then (l.formula g locals).asText else l.formula g locals) ∧
      Written op.rightRank (if joinsRight op l r then textTokens (r.tokens g locals)
        else r.operandTokens (r.tokens g locals))
        (if joinsRight op l r then (r.formula g locals).asText else r.formula g locals) := by
  obtain ⟨n, hk, hb⟩ := Written.bare h (balanced_chosen (balanced_tokens l he.1))
    (chosen_ne_nil he.1) (List.cons_ne_nil _ _)
  obtain ⟨rfl, ls, rs, hsplit, hl, hr⟩ := hb.of_binary
  -- both fronts are written for the left operand, so they are the same but for brackets
  have hflat := (flat_chosen (e := l) (flat_tokens l he.1)).trans hl.flat_eq.symm
  obtain ⟨hls, hrs⟩ := Formula.split_at_mark rfl hflat hsplit
  rw [hls, hrs]
  exact ⟨hk, hl, hr⟩

theorem of_operand (he : e.Legible)
    (h : Written k (e.operandTokens (e.tokens g locals)) (e.formula g locals)) :
    Written 0 (e.tokens g locals) (e.formula g locals) ∧ (e.isNegation = true → k ≤ 2) := by
  cases e with
  | binary op l r line =>
    refine ⟨?_, (fun hn => nomatch hn)⟩
    rcases h.bare_or_group with ⟨n, -, hb⟩ | ⟨us, hus, hx⟩
    · -- its operator would stand behind a balanced part, though a bracket is open there
      obtain ⟨-, ls, rs, hsplit, hl, -⟩ := hb.of_binary
      have hdepth := (balanced_tokens _ he).front_group hsplit hl.ne_nil (List.cons_ne_nil _ _)
      rw [hl.balanced.total] at hdepth
      exact absurd hdepth (Int.lt_irrefl 0)
    · have htokens := List.append_cancel_right (List.cons.inj hus).2
      rw [htokens]
      exact hx
  | unary op e line =>
    refine ⟨.looser h (Nat.zero_le _), fun hn => ?_⟩
    cases op with
    | minus => cases hn
    | bang => exact (of_unary he h).1
  | _ => exact ⟨.looser h (Nat.zero_le _), fun hn => nomatch hn⟩

theorem of_chosen {j : Bool} (he : e.Legible) (h : Written k
    (if j then textTokens (e.tokens g locals) else e.operandTokens (e.tokens g locals))
    (if j then (e.formula g locals).asText else e.formula g locals)) :
    Written 0 (e.tokens g locals) (e.formula g locals) ∧
      (2 < k → j = true ∨ e.isNegation = false) := by
  cases j with
  | true => exact ⟨of_asText (balanced_tokens e he) h, fun _ => .inl rfl⟩
  | false =>
    obtain ⟨hw, hn⟩ := of_operand he h
    refine ⟨hw, fun hk => .inr ?_⟩
    cases hneg : e.isNegation with
    | false => rfl
    | true => exact absurd (hn hneg) (Nat.not_le.mpr hk)

theorem not_operation (he : e.Legible) (h : Written 7 (e.tokens g locals) (e.formula g locals)) :
    e.isOperation = false := by
  cases e with
  | unary op e line =>
    exact absurd (of_unary he h).1 (by cases op <;> decide)
  | binary op l r line =>
    exact absurd (of_binary he h).1 (by cases op <;> decide)
  | _ => rfl

theorem two_lt_ranks {op : BinaryOp} (h : op.isLogical = false) :
    2 < op.leftRank ∧ 2 < op.rightRank := by
  revert h
  cases op <;> decide

theorem flats_tokensAll {args : List Expr} (h : LegibleAll args) :
    (tokensAll g locals args).map Formula.flat = (formulas g locals args).map Formula.plain := by
  induction args with
  | nil => rfl
  | cons e rest ih =>
    rw [tokensAll, formulas, List.map_cons, List.map_cons, flat_tokens e h.1, ih h.2]

theorem flats_pairs {pairs : List (List Formula.Token × Formula)}
    (h : ∀ a ∈ pairs, Written 0 a.1 a.2) :
    (pairs.map (·.1)).map Formula.flat = (pairs.map (·.2)).map Formula.plain := by
  rw [List.map_map, List.map_map]
  exact List.map_congr_left fun a ha => (h a ha).flat_eq

/-- Arguments are written one by one. -/
theorem written_args {args : List Expr} (h : LegibleAll args)
    {pairs : List (List Formula.Token × Formula)}
    (hlisted : Formula.listed (tokensAll g locals args) = Formula.listed (pairs.map (·.1)))
    (hformulas : formulas g locals args = pairs.map (·.2))
    (hpairs : ∀ a ∈ pairs, Written 0 a.1 a.2) :
    ∀ e ∈ args, Written 0 (e.tokens g locals) (e.formula g locals) := by
  have hflat : (tokensAll g locals args).map Formula.flat
      = (pairs.map (·.1)).map Formula.flat := by
    rw [flats_tokensAll h, hformulas, flats_pairs hpairs]
  have htokens := Formula.listed_injective _ _ hflat hlisted
  intro e he
  obtain ⟨i, hi, rfl⟩ := List.getElem_of_mem he
  rw [tokensAll_eq] at htokens
  rw [formulas_eq] at hformulas
  have hlen : i < pairs.length := by
    have hlengths := congrArg List.length htokens
    rw [List.length_map, List.length_map] at hlengths
    rwa [← hlengths]
  have hfst := List.getElem_of_eq htokens (i := i) (by rwa [List.length_map])
  have hsnd := List.getElem_of_eq hformulas (i := i) (by rwa [List.length_map])
  rw [List.getElem_map, List.getElem_map] at hfst hsnd
  rw [hfst, hsnd]
  exact hpairs _ (List.getElem_mem hlen)

mutual

theorem grouped : ∀ e : Expr, e.Legible → Written 0 (e.tokens g locals) (e.formula g locals) →
    e.Grouped
  | literal .., _, _ => trivial
  | ident .., _, _ => trivial
  | unary op e _, h, hw => by
    obtain ⟨he, hn⟩ := of_operand (e := e) h (of_unary h hw).2
    refine ⟨grouped e h he, ?_⟩
    rintro rfl
    cases hneg : e.isNegation with
    | false => rfl
    | true => exact absurd (hn hneg) (by decide)
  | binary op l r _, h, hw => by
    obtain ⟨-, hl, hr⟩ := of_binary h hw
    obtain ⟨hl, hnl⟩ := of_chosen h.1 hl
    obtain ⟨hr, hnr⟩ := of_chosen h.2 hr
    refine ⟨⟨grouped l h.1 hl, grouped r h.2 hr⟩, fun hop => ?_⟩
    obtain ⟨hkl, hkr⟩ := two_lt_ranks hop
    exact ⟨hnl hkl, hnr hkr⟩
  | member obj x _, h, hw => by
    obtain ⟨n, -, hb⟩ := Written.bare hw (balanced_tokens obj h.1) (tokens_ne_nil h.1)
      (List.cons_ne_nil _ _)
    obtain ⟨us, hus, hobj⟩ := hb.of_member
    rw [← List.append_cancel_right hus] at hobj
    exact ⟨grouped obj h.1 (.looser hobj (Nat.zero_le _)), not_operation h.1 hobj⟩
  | call callee args line, h, hw => by
    have hargs : Balanced (Formula.listed (tokensAll g locals args)) := by
      rw [tokensAll_eq]
      refine Formula.balanced_listed _ fun a ha => ?_
      obtain ⟨e, he, rfl⟩ := List.mem_map.mp ha
      exact balanced_tokensAll args h.2 e he
    rcases ident_or_not callee with ⟨x, l, rfl⟩ | hne
    · obtain ⟨-, pairs, hlisted, hformulas, hpairs⟩ := of_call (written_named _ x).balanced
        (written_named _ x).ne_nil hargs hw
      exact ⟨⟨trivial, rfl⟩, groupedAll args h.2 (written_args h.2 hlisted hformulas hpairs)⟩
    · rw [tokens_call hne, formula_call hne] at hw
      obtain ⟨hcallee, pairs, hlisted, hformulas, hpairs⟩ := of_call (balanced_tokens callee h.1)
        (tokens_ne_nil h.1) hargs hw
      exact ⟨⟨grouped callee h.1 (.looser hcallee (Nat.zero_le _)), not_operation h.1 hcallee⟩,
        groupedAll args h.2 (written_args h.2 hlisted hformulas hpairs)⟩

theorem groupedAll : ∀ es : List Expr, LegibleAll es →
    (∀ e ∈ es, Written 0 (e.tokens g locals) (e.formula g locals)) → GroupedAll es
  | [], _, _ => trivial
  | e :: rest, h, hw => ⟨grouped e h.1 (hw e List.mem_cons_self),
      groupedAll rest h.2 fun e' he' => hw e' (List.mem_cons_of_mem _ he')⟩

end

/-! ## Expressions over local names -/

mutual

/-- Whether all names of an expression that are not behind a point are local. -/
def IsLocal (locals : List String) : Expr → Prop
  | ident x _ => x ∈ locals
  | unary _ e _ => e.IsLocal locals
  | binary _ l r _ => l.IsLocal locals ∧ r.IsLocal locals
  | member obj _ _ => obj.IsLocal locals
  | call callee args _ => callee.IsLocal locals ∧ AllLocal locals args
  | _ => True

def AllLocal (locals : List String) : List Expr → Prop
  | [] => True
  | e :: rest => e.IsLocal locals ∧ AllLocal locals rest

end

mutual

/-- The same expression but for the lines. -/
def Same : Expr → Expr → Prop
  | literal s _, literal t _ => s.Same t
  | ident x _, ident y _ => x = y
  | unary op e _, unary op' e' _ => op = op' ∧ e.Same e'
  | binary op l r _, binary op' l' r' _ => op = op' ∧ l.Same l' ∧ r.Same r'
  | member obj x _, member obj' x' _ => obj.Same obj' ∧ x = x'
  | call callee args _, call callee' args' _ => callee.Same callee' ∧ AllSame args args'
  | _, _ => False

def AllSame : List Expr → List Expr → Prop
  | [], [] => True
  | e :: rest, e' :: rest' => e.Same e' ∧ AllSame rest rest'
  | _, _ => False

end

theorem same_of_atom {s t : Scalar} (hs : s.IsPlain) (ht : t.IsPlain) (h : s.atom = t.atom) :
    s.Same t := by
  cases s with
  | int m =>
    cases t with
    | int n =>
      have hm : 0 ≤ m := hs
      have hn : 0 ≤ n := ht
      have hmn : m.toNat = n.toNat := Atom.whole.inj h
      exact congrArg Scalar.int (by omega)
    | _ => nomatch h
  | float x =>
    cases t with
    | float y => exact Atom.fraction.inj h
    | _ => nomatch h
  | nil => cases t <;> first | rfl | nomatch h
  | bool b =>
    cases t with
    | bool c => exact congrArg Scalar.bool (Atom.truth.inj h)
    | _ => nomatch h
  | str a =>
    cases t with
    | str b => exact congrArg Scalar.str (Atom.text.inj h)
    | _ => nomatch h

theorem named_of_local {x : String} (h : x ∈ locals) :
    Formula.named (g.isField locals x) x = .atom (.name x) := by
  have hfield : g.isField locals x = false := by simp [Naming.isField, h]
  rw [hfield]
  rfl

theorem callee_of_local {x : String} (h : x ∈ locals) :
    Formula.named (g.isMethod locals x) x = .atom (.name x) := by
  have hmethod : g.isMethod locals x = false := by simp [Naming.isMethod, h]
  rw [hmethod]
  rfl

/-- Among local names, what is called has the formula that it has elsewhere. -/
theorem formula_call_local {callee : Expr} (h : callee.IsLocal locals) (args : List Expr)
    (line : Nat) : (call callee args line).formula g locals
      = .call (callee.formula g locals) (formulas g locals args) := by
  rcases ident_or_not callee with ⟨x, l, rfl⟩ | hne
  · show Formula.call (.named (g.isMethod locals x) x) _ = .call (.named (g.isField locals x) x) _
    rw [callee_of_local h, named_of_local h]
  · exact formula_call hne args line

theorem isText_formula (h : e.Legible) : (e.formula g locals).isText = e.isText := by
  cases e with
  | literal s line => cases s <;> rfl
  | ident x line =>
    show (Formula.named (g.isField locals x) x).isText = false
    cases g.isField locals x <;> rfl
  | call callee args line =>
    rcases ident_or_not callee with ⟨x, l, rfl⟩ | hne
    · rfl
    · rw [formula_call hne]
      rfl
  | array items line => exact h.elim
  | node kind args props body line => exact h.elim
  | _ => rfl

/-- An operand that is made a text is none. -/
theorem isText_chosen {j : Bool} (h : e.Legible) (hj : j = true → e.isText = false) :
    Formula.isText (if j then (e.formula g locals).asText else e.formula g locals)
      = e.isText := by
  cases j with
  | true => exact (hj rfl).symm
  | false => exact isText_formula h

theorem chosen_injective {j : Bool} {x y : Formula}
    (h : (if j then x.asText else x) = if j then y.asText else y) : x = y := by
  cases j with
  | true =>
    obtain ⟨-, hargs⟩ := Formula.call.inj h
    exact (List.cons.inj hargs).1
  | false => exact h

theorem operands_of_formula {op : BinaryOp} {l r l' r' : Expr} (h : l.Legible ∧ r.Legible)
    (h' : l'.Legible ∧ r'.Legible)
    (hl : (if joinsLeft op l r then (l.formula g locals).asText else l.formula g locals)
      = if joinsLeft op l' r' then (l'.formula g locals).asText else l'.formula g locals)
    (hr : (if joinsRight op l r then (r.formula g locals).asText else r.formula g locals)
      = if joinsRight op l' r' then (r'.formula g locals).asText else r'.formula g locals) :
    l.formula g locals = l'.formula g locals ∧ r.formula g locals = r'.formula g locals := by
  have hleft : ∀ {l r : Expr}, joinsLeft op l r = true → l.isText = false := by
    intro l r hj
    simp only [joinsLeft, Bool.and_eq_true, Bool.not_eq_true'] at hj
    exact hj.2
  have hright : ∀ {l r : Expr}, joinsRight op l r = true → r.isText = false := by
    intro l r hj
    simp only [joinsRight, Bool.and_eq_true, Bool.not_eq_true'] at hj
    exact hj.2
  -- whether an operand is a text can be seen in the formula
  have htl := congrArg Formula.isText hl
  rw [isText_chosen h.1 hleft, isText_chosen h'.1 hleft] at htl
  have htr := congrArg Formula.isText hr
  rw [isText_chosen h.2 hright, isText_chosen h'.2 hright] at htr
  have hjl : joinsLeft op l r = joinsLeft op l' r' := by rw [joinsLeft, joinsLeft, htl, htr]
  have hjr : joinsRight op l r = joinsRight op l' r' := by rw [joinsRight, joinsRight, htl, htr]
  rw [hjl] at hl
  rw [hjr] at hr
  exact ⟨chosen_injective hl, chosen_injective hr⟩

def kind : Expr → Nat
  | literal .. => 0
  | ident .. => 1
  | unary .. => 2
  | binary .. => 3
  | member .. => 4
  | call .. => 5
  | array .. | node .. => 6

theorem kind_formula (h : e.Legible) (hl : e.IsLocal locals) :
    (e.formula g locals).kind = e.kind := by
  cases e with
  | literal s line => cases s <;> rfl
  | ident x line => exact congrArg Formula.kind (named_of_local hl)
  | call callee args line => exact congrArg Formula.kind (formula_call_local hl.1 args line)
  | array items line => exact h.elim
  | node kind args props body line => exact h.elim
  | _ => rfl

mutual

theorem same_of_formula : ∀ e e' : Expr, e.Legible → e'.Legible → e.IsLocal locals →
    e'.IsLocal locals → e.formula g locals = e'.formula g locals → e.Same e'
  | e, e', h, h', hl, hl', heq => by
    -- only expressions of one kind are left to be compared
    have hkind : e.kind = e'.kind := by
      rw [← kind_formula (g := g) h hl, ← kind_formula (g := g) h' hl', heq]
    cases e with
    | literal s _ => cases e' with
      | literal t _ => exact same_of_atom h h' (Formula.atom.inj heq)
      | _ => nomatch hkind
    | ident x _ => cases e' with
      | ident y _ =>
        have hnames := ((named_of_local hl).symm.trans heq).trans (named_of_local hl')
        exact Atom.name.inj (Formula.atom.inj hnames)
      | _ => nomatch hkind
    | unary op e _ => cases e' with
      | unary op' e' _ =>
        obtain ⟨hop, he⟩ := Formula.unary.inj heq
        exact ⟨hop, same_of_formula e e' h h' hl hl' he⟩
      | _ => nomatch hkind
    | binary op l r _ => cases e' with
      | binary op' l' r' _ =>
        obtain ⟨rfl, hleft, hright⟩ := Formula.binary.inj heq
        obtain ⟨hleft, hright⟩ := operands_of_formula h h' hleft hright
        exact ⟨rfl, same_of_formula l l' h.1 h'.1 hl.1 hl'.1 hleft,
          same_of_formula r r' h.2 h'.2 hl.2 hl'.2 hright⟩
      | _ => nomatch hkind
    | member obj x _ => cases e' with
      | member obj' x' _ =>
        obtain ⟨hobj, hx⟩ := Formula.member.inj heq
        exact ⟨same_of_formula obj obj' h.1 h'.1 hl hl' hobj, hx⟩
      | _ => nomatch hkind
    | call callee args line => cases e' with
      | call callee' args' line' =>
        rw [formula_call_local hl.1, formula_call_local hl'.1] at heq
        obtain ⟨hcallee, hargs⟩ := Formula.call.inj heq
        exact ⟨same_of_formula callee callee' h.1 h'.1 hl.1 hl'.1 hcallee,
          same_of_formulas args args' h.2 h'.2 hl.2 hl'.2 hargs⟩
      | _ => nomatch hkind
    | array items _ => exact h.elim
    | node kind args props body _ => exact h.elim

theorem same_of_formulas : ∀ es es' : List Expr, LegibleAll es → LegibleAll es' →
    AllLocal locals es → AllLocal locals es' → formulas g locals es = formulas g locals es' →
    AllSame es es'
  | [], [], _, _, _, _, _ => trivial
  | [], _ :: _, _, _, _, _, heq => nomatch heq
  | _ :: _, [], _, _, _, _, heq => nomatch heq
  | e :: rest, e' :: rest', h, h', hl, hl', heq => by
    obtain ⟨he, hrest⟩ := List.cons.inj heq
    exact ⟨same_of_formula e e' h.1 h'.1 hl.1 hl'.1 he,
      same_of_formulas rest rest' h.2 h'.2 hl.2 hl'.2 hrest⟩

end

/-! ## What the generated text is read as -/

/-- The text is read as its tokens are. -/
theorem ofText_source (h : e.Legible) :
    Formula.ofText (e.source g locals) = Formula.ofTokens (e.tokens g locals) := by
  have htokens := (@scans_source g locals e h).tokens trivial
  rw [Formula.ofText, htokens]
  rfl

/-- **What is generated for an expression is read as its formula exactly if it is grouped**, and two
grouped expressions over local names that have the same text are the same but for their lines. -/
theorem source_read_iff (h : e.Legible) :
    (Formula.ofText (e.source g locals) = some (e.formula g locals) ↔ e.Grouped) ∧
      ∀ e' : Expr, e'.Legible → e.Grouped → e'.Grouped → e.IsLocal locals →
        e'.IsLocal locals → e.source g locals = e'.source g locals → e.Same e' := by
  have hread : ∀ {e : Expr}, e.Legible →
      (Formula.ofText (e.source g locals) = some (e.formula g locals) ↔ e.Grouped) := by
    intro e h
    rw [ofText_source h, Formula.ofTokens_eq_some_iff]
    exact ⟨grouped e h, fun hg => .looser (written e h hg) (Nat.zero_le _)⟩
  refine ⟨hread h, fun e' h' hg hg' hl hl' hsource => ?_⟩
  refine same_of_formula (g := g) e e' h h' hl hl' (Option.some.inj ?_)
  rw [← (hread h).mpr hg, ← (hread h').mpr hg', hsource]

/-! ## Some texts -/

/-- `!a && -n * 2 < a.b("x" + n)` -/
def spread (line : Nat) : Expr :=
  binary .and (unary .bang (ident "a" line) line)
    (binary .lt (binary .mul (unary .minus (ident "n" line) line) (literal (.int 2) line) line)
      (call (member (ident "a" line) "b" line)
        [binary .add (literal (.str "x") line) (ident "n" line) line] line) line) line

theorem legible_spread (line : Nat) : (spread line).Legible := by
  have ha : (ident "a" line).Legible := ⟨⟨by decide, by decide⟩, by decide⟩
  have hn : (ident "n" line).Legible := ⟨⟨by decide, by decide⟩, by decide⟩
  have h2 : (literal (.int 2) line).Legible := (by decide : (0 : Int) ≤ 2)
  exact ⟨ha, ⟨hn, h2⟩, ⟨ha, ⟨by decide, by decide⟩, rfl⟩, ⟨trivial, hn⟩, trivial⟩

theorem grouped_spread (line : Nat) : (spread line).Grouped := by
  have hminus : (unary .minus (ident "n" line) line).Grouped := ⟨trivial, fun _ => rfl⟩
  have hmul : (binary .mul (unary .minus (ident "n" line) line) (literal (.int 2) line)
      line).Grouped := ⟨⟨hminus, trivial⟩, fun _ => ⟨.inr rfl, .inr rfl⟩⟩
  have hcall : (call (member (ident "a" line) "b" line)
      [binary .add (literal (.str "x") line) (ident "n" line) line] line).Grouped :=
    ⟨⟨⟨trivial, rfl⟩, rfl⟩, ⟨⟨trivial, trivial⟩, fun _ => ⟨.inr rfl, .inl rfl⟩⟩, trivial⟩
  exact ⟨⟨⟨trivial, fun h => nomatch h⟩, ⟨hmul, hcall⟩, fun _ => ⟨.inr rfl, .inr rfl⟩⟩,
    fun h => nomatch h⟩

theorem isLocal_spread (line : Nat) : (spread line).IsLocal ["a", "n"] := by
  have ha : (ident "a" line).IsLocal ["a", "n"] := (by decide : "a" ∈ ["a", "n"])
  have hn : (ident "n" line).IsLocal ["a", "n"] := (by decide : "n" ∈ ["a", "n"])
  exact ⟨ha, ⟨hn, trivial⟩, ⟨ha, ⟨trivial, hn⟩, trivial⟩⟩

/-- It is read as its formula where `n` is a field, and is the same on another line if both names
are local. -/
theorem spread_read :
    Formula.ofText ((spread 1).source { fields := ["n"] } ["a"])
        = some ((spread 1).formula { fields := ["n"] } ["a"]) ∧
      (spread 1).Same (spread 2) :=
  ⟨(source_read_iff (legible_spread 1)).1.mpr (grouped_spread 1),
    (source_read_iff (g := {}) (legible_spread 1)).2 (spread 2) (legible_spread 2)
      (grouped_spread 1) (grouped_spread 2) (isLocal_spread 1) (isLocal_spread 2) rfl⟩

/-- `!a == b` is read as `!(a == b)`, and `(!a).b` has the text of `!a.b`. -/
theorem negation_spreads :
    Formula.ofText ((binary .eq (unary .bang (ident "a" 1) 1) (ident "b" 1) 1).source {} [])
        = some ((unary .bang (binary .eq (ident "a" 1) (ident "b" 1) 1) 1).formula {} []) ∧
      (member (unary .bang (ident "a" 1) 1) "b" 1).source {} []
        = (unary .bang (member (ident "a" 1) "b" 1) 1).source {} [] ∧
      ¬ (member (unary .bang (ident "a" 1) 1) "b" 1).Same
        (unary .bang (member (ident "a" 1) "b" 1) 1) :=
  ⟨rfl, rfl, id⟩

end Expr

end Widgetry
