import Widgetry.Proofs.Language.Words

/-!
# Which numbers stop the parser

A text may hold numbers that cannot be read: with digits that are not decimal, or with too many.

> `parse_number`: if a fault in a number ends the parsing of a text, it is that of a token of the
> text.

Only one rule of the grammar reads numbers, and all others pass on what it ends with (`Traces`).
-/

namespace Widgetry

/-- Whether a token is a number that cannot be read. -/
inductive Token.Unreadable (t : Token) (n : NumberFault) : Prop where
  | whole : t.kind = .int → Decimal.readWhole t.text = .error n → Unreadable t n
  | fraction : t.kind = .float → Decimal.readFraction t.text = .error n → Unreadable t n

namespace Parser

/-- Whether what lies ahead are tokens of a list. -/
structure From (ts : List Token) (s : Stream) : Prop where
  ahead : ∀ t ∈ s.ahead, t ∈ ts
  last : s.last ∈ ts

variable {ts : List Token} {α β : Type}

/-- Whether a rule that ends with a fault in a number has it from a token of a list. -/
def Traces (ts : List Token) (x : Parser α) : Prop :=
  ∀ s, From ts s → (∀ a s', x s = .ok (a, s') → From ts s') ∧
    ∀ n, x s = .error (.number n) → ∃ t ∈ ts, t.Unreadable n

theorem traces_pure (a : α) : Traces ts (pure a : Parser α) := by
  intro s hs
  refine ⟨fun b s' h => ?_, nofun⟩
  cases h
  exact hs

theorem traces_bind {x : Parser α} {f : α → Parser β} (hx : Traces ts x)
    (hf : ∀ a, Traces ts (f a)) : Traces ts (x >>= f) := by
  intro s hs
  obtain ⟨hok, herror⟩ := hx s hs
  rw [show (x >>= f) s = (x s >>= fun r => f r.1 r.2) from rfl]
  cases hr : x s with
  | error e =>
    refine ⟨nofun, fun n h => herror n ?_⟩
    cases h
    exact hr
  | ok r => exact hf r.1 r.2 (hok r.1 r.2 hr)

theorem traces_map {x : Parser α} (hx : Traces ts x) (f : α → β) : Traces ts (f <$> x) := by
  rw [← bind_pure_comp]
  exact traces_bind hx fun a => traces_pure (f a)

theorem traces_ite {c : Prop} [Decidable c] {x y : Parser α} (hx : Traces ts x)
    (hy : Traces ts y) : Traces ts (if c then x else y) := by
  split
  · exact hx
  · exact hy

theorem traces_throw (e : SourceError) : Traces ts (throw (.source e) : Parser α) :=
  fun _ _ => ⟨nofun, nofun⟩

theorem traces_failAt (cause : Cause) (t : Token) : Traces ts (failAt cause t : Parser α) :=
  traces_throw _

/-! ## Single tokens -/

theorem From.next {s : Stream} (hs : From ts s) : s.ahead.head?.getD s.last ∈ ts := by
  cases hh : s.ahead with
  | nil => exact hs.last
  | cons t rest => exact hs.ahead t (hh ▸ List.mem_cons_self)

/-- What follows a look at a token may count on it to be one of the list. -/
theorem traces_token {k : Token → Parser α} (hk : ∀ t ∈ ts, Traces ts (k t)) :
    Traces ts (peek >>= k) :=
  fun s hs => hk _ hs.next s hs

theorem traces_peek : Traces ts peek := by
  intro s hs
  refine ⟨fun a s' h => ?_, nofun⟩
  cases h
  exact hs

theorem traces_peekSecond : Traces ts peekSecond := by
  intro s hs
  refine ⟨fun a s' h => ?_, nofun⟩
  cases h
  exact hs

theorem traces_advance : Traces ts advance := by
  intro s hs
  refine ⟨fun a s' h => ?_, nofun⟩
  cases h
  exact ⟨fun t ht => hs.ahead t (List.mem_of_mem_tail ht), hs.last⟩

theorem traces_skip : Traces ts skipSeparators := by
  intro s hs
  refine ⟨fun a s' h => ?_, nofun⟩
  cases h
  exact ⟨fun t ht => hs.ahead t ((List.dropWhile_sublist _).subset ht), hs.last⟩

theorem traces_rounds : Traces ts rounds := by
  intro s hs
  refine ⟨fun a s' h => ?_, nofun⟩
  cases h
  exact hs

theorem traces_expectOp (symbol : String) : Traces ts (expectOp symbol) :=
  traces_bind traces_peek fun _ => traces_ite traces_advance (traces_failAt _ _)

theorem traces_expectKeyword (word : String) : Traces ts (expectKeyword word) :=
  traces_bind traces_peek fun _ => traces_ite traces_advance (traces_failAt _ _)

theorem traces_expectName : Traces ts expectName :=
  traces_bind traces_peek fun _ => traces_ite traces_advance (traces_failAt _ _)

/-- A number is read off a token of the list. -/
theorem traces_number {r : Except NumberFault α}
    (hr : ∀ n, r = .error n → ∃ t ∈ ts, t.Unreadable n) : Traces ts (number r) := by
  cases r with
  | ok a => exact traces_pure a
  | error e =>
    refine fun _ _ => ⟨nofun, fun n h => hr n ?_⟩
    cases h
    rfl

/-! ## Loops -/

theorem traces_itemsWithin (cause : Cause) {item : Parser α} (hi : Traces ts item) (n : Nat) :
    Traces ts (itemsWithin cause item n) := by
  induction n with
  | zero => exact traces_bind traces_peek fun _ => traces_failAt _ _
  | succ n ih =>
    exact traces_bind traces_peek fun _ => traces_ite (traces_pure _) <|
      traces_ite (traces_failAt _ _) <| traces_bind hi fun _ => traces_bind traces_skip fun _ =>
        traces_bind ih fun _ => traces_pure _

theorem traces_braced (cause : Cause) {item : Parser α} (hi : Traces ts item) :
    Traces ts (braced cause item) :=
  traces_bind (traces_expectOp _) fun _ => traces_bind traces_skip fun _ =>
    traces_bind traces_rounds fun n => traces_bind (traces_itemsWithin cause hi (n + 1)) fun _ =>
      traces_bind (traces_expectOp _) fun _ => traces_pure _

theorem traces_listedUpTo (close : String) {item : Parser α} (hi : Traces ts item) (n : Nat) :
    Traces ts (listedUpTo close item n) := by
  induction n with
  | zero => exact traces_bind traces_peek fun _ => traces_failAt _ _
  | succ n ih =>
    refine traces_bind traces_peek fun _ => traces_ite (traces_pure _) <|
      traces_bind hi fun x => traces_bind traces_peek fun _ => ?_
    have hrest : Traces ts (do
        let xs ← listedUpTo close item n
        return x :: xs) := traces_bind ih fun _ => traces_pure _
    exact traces_ite hrest <| traces_bind (traces_expectOp _) fun _ => hrest

theorem traces_bracketed (opening close : String) {item : Parser α} (hi : Traces ts item) :
    Traces ts (bracketed opening close item) :=
  traces_bind (traces_expectOp _) fun _ => traces_bind traces_rounds fun n =>
    traces_bind (traces_listedUpTo close hi (n + 1)) fun _ =>
      traces_bind (traces_expectOp _) fun _ => traces_pure _

theorem traces_chain (level : Nat) {operand : Parser Expr} (ho : Traces ts operand) (n : Nat) :
    ∀ e, Traces ts (chain level operand n e) := by
  induction n with
  | zero => exact fun e => traces_pure e
  | succ n ih =>
    refine fun e => traces_bind traces_peek fun token => ?_
    split
    · exact traces_pure e
    · exact traces_bind traces_advance fun _ => traces_bind ho fun _ => ih _

theorem traces_suffixes {args : Parser (List Expr)} (ha : Traces ts args) (n : Nat) :
    ∀ e, Traces ts (suffixes args n e) := by
  induction n with
  | zero => exact fun e => traces_pure e
  | succ n ih =>
    exact fun e => traces_bind traces_peek fun _ => traces_ite
      (traces_bind traces_advance fun _ => traces_bind traces_expectName fun _ => ih _) <|
      traces_ite (traces_bind ha fun _ => traces_bind traces_peek fun _ => ih _) (traces_pure e)

theorem traces_statementsToEnd {statement : Parser Stmt} (hs : Traces ts statement) (n : Nat) :
    Traces ts (statementsToEnd statement n) := by
  induction n with
  | zero => exact traces_pure _
  | succ n ih =>
    exact traces_bind traces_peek fun _ => traces_ite (traces_pure _) <| traces_bind hs fun _ =>
      traces_bind traces_skip fun _ => traces_bind ih fun _ => traces_pure _

/-! ## Rules -/

theorem traces_tooDeep : Traces ts (tooDeep : Parser α) := traces_throw _

theorem traces_typeName (d : Nat) : Traces ts (typeName d) := by
  induction d with
  | zero => exact traces_tooDeep
  | succ d ih =>
    exact traces_bind traces_peek fun _ => traces_ite
      (traces_bind traces_advance fun _ => traces_bind (traces_expectOp _) fun _ =>
        traces_bind ih fun _ => traces_pure _)
      (traces_bind traces_expectName fun _ => traces_pure _)

theorem traces_optionalType (d : Nat) : Traces ts (optionalType d) :=
  traces_bind traces_peek fun _ => traces_ite
    (traces_bind (traces_typeName d) fun _ => traces_pure _) (traces_pure _)

theorem traces_param (d : Nat) : Traces ts (param d) :=
  traces_bind traces_expectName fun _ => traces_bind (traces_optionalType d) fun _ =>
    traces_pure _

theorem traces_moreSpecs (n : Nat) : Traces ts (moreSpecs n) := by
  induction n with
  | zero => exact traces_pure _
  | succ n ih =>
    exact traces_bind traces_peek fun _ => traces_ite
      (traces_bind traces_advance fun _ => traces_bind traces_expectName fun _ =>
        traces_bind ih fun _ => traces_pure _) (traces_pure _)

theorem traces_specs : Traces ts specs :=
  traces_bind traces_peek fun _ => traces_ite
    (traces_bind traces_advance fun _ => traces_bind traces_expectName fun _ =>
      traces_bind traces_rounds fun n => traces_bind (traces_moreSpecs n) fun _ => traces_pure _)
    (traces_pure _)

/-- All rules of a depth have their faults in numbers from tokens. -/
structure TracedRules (ts : List Token) (d : Nat) : Prop where
  expression (b : Bool) : Traces ts (expression d b)
  binary (level : Nat) (b : Bool) : Traces ts (binary d level b)
  unary (b : Bool) : Traces ts (unary d b)
  suffixed (b : Bool) : Traces ts (suffixed d b)
  arguments : Traces ts (arguments d)
  primary (b : Bool) : Traces ts (primary d b)
  named (b : Bool) : Traces ts (named d b)
  nodeBody (kind : String) : Traces ts (nodeBody d kind)
  statement : Traces ts (statement d)
  block : Traces ts (block d)
  binding : Traces ts (binding d)
  choice : Traces ts (choice d)
  arm : Traces ts (arm d)
  iteration : Traces ts (iteration d)
  fnDecl : Traces ts (fnDecl d)
  fieldDecl : Traces ts (fieldDecl d)
  typeDecl : Traces ts (typeDecl d)

theorem tracedRules_zero : TracedRules ts 0 where
  expression _ := traces_tooDeep
  binary _ _ := traces_tooDeep
  unary _ := traces_tooDeep
  suffixed _ := traces_tooDeep
  arguments := traces_tooDeep
  primary _ := traces_tooDeep
  named _ := traces_tooDeep
  nodeBody _ := traces_tooDeep
  statement := traces_tooDeep
  block := traces_tooDeep
  binding := traces_tooDeep
  choice := traces_tooDeep
  arm := traces_tooDeep
  iteration := traces_tooDeep
  fnDecl := traces_tooDeep
  fieldDecl := traces_tooDeep
  typeDecl := traces_tooDeep

section Step

variable {d : Nat} (ih : TracedRules ts d)

include ih

theorem traces_unary (b : Bool) : Traces ts (unary (d + 1) b) := by
  refine traces_bind traces_peek fun token => ?_
  split
  · exact traces_bind traces_advance fun _ => traces_bind (ih.unary b) fun _ => traces_pure _
  · exact ih.suffixed b

/-- The rule that reads the numbers. -/
theorem traces_primary (b : Bool) : Traces ts (primary (d + 1) b) := by
  refine traces_token fun token ht => ?_
  have hliteral : ∀ e : Expr, Traces ts (do
      let _ ← advance
      return e) := fun e => traces_bind traces_advance fun _ => traces_pure e
  split
  · next hk =>
    exact traces_bind traces_advance fun _ => traces_bind
      (traces_number fun n hn => ⟨token, ht, .whole hk hn⟩) fun _ => traces_pure _
  · next hk =>
    exact traces_bind traces_advance fun _ => traces_bind
      (traces_number fun n hn => ⟨token, ht, .fraction hk hn⟩) fun _ => traces_pure _
  · exact hliteral _
  · exact traces_ite (hliteral _) <| traces_ite (hliteral _) (traces_failAt _ _)
  · exact ih.named b
  · exact traces_ite
      (traces_bind traces_advance fun _ => traces_bind (ih.expression true) fun _ =>
        traces_bind (traces_expectOp _) fun _ => traces_pure _) <|
      traces_ite (traces_bind (traces_bracketed _ _ (ih.expression b)) fun _ => traces_pure _)
        (traces_failAt _ _)
  · exact traces_failAt _ _

theorem traces_named (b : Bool) : Traces ts (named (d + 1) b) := by
  refine traces_bind traces_advance fun name => traces_bind traces_peek fun next => ?_
  have hnode : ∀ args, Traces ts (do
      let r ← nodeBody d name.text
      return Expr.node name.text args r.1 r.2 name.line) :=
    fun args => traces_bind (ih.nodeBody name.text) fun _ => traces_pure _
  refine traces_ite ?_ <| traces_ite ?_ <| traces_ite (hnode []) (traces_pure _)
  · exact traces_bind traces_advance fun _ => traces_bind traces_peek fun _ =>
      traces_ite (hnode _) (traces_pure _)
  · exact traces_bind ih.arguments fun args => traces_bind traces_peek fun _ =>
      traces_ite (hnode args) (traces_pure _)

theorem traces_nodeBody (kind : String) : Traces ts (nodeBody (d + 1) kind) := by
  refine traces_bind (traces_braced _ ?_) fun _ => traces_pure _
  refine traces_bind traces_peek fun _ => traces_bind traces_peekSecond fun _ => traces_ite ?_ ?_
  · exact traces_bind traces_advance fun _ => traces_bind traces_advance fun _ =>
      traces_bind (ih.expression true) fun _ => traces_pure _
  · exact traces_bind ih.statement fun _ => traces_pure _

theorem traces_statement : Traces ts (statement (d + 1)) := by
  refine traces_bind traces_peek fun token => traces_ite ih.typeDecl <| traces_ite
    (traces_bind ih.fnDecl fun _ => traces_pure _) <| traces_ite ih.binding <|
    traces_ite ih.choice <| traces_ite ih.iteration <|
    traces_bind (ih.expression true) fun e => traces_bind traces_peek fun next => ?_
  split
  · exact traces_pure _
  · refine traces_bind traces_advance fun _ => ?_
    split
    · exact traces_failAt _ _
    · exact traces_bind (ih.expression true) fun _ => traces_pure _

theorem traces_binding : Traces ts (binding (d + 1)) := by
  refine traces_bind traces_advance fun start => traces_bind traces_peek fun next => ?_
  -- whether it is marked or not, a name, a type and a value follow
  have hvalue : ∀ (name : Token) (type : Option String), Traces ts (do
      let _ ← expectOp "="
      let value ← expression d true
      return Stmt.bind name.text value type (start.text == "var" || next.isKeyword "mut")
        start.line) := fun _ _ =>
    traces_bind (traces_expectOp _) fun _ => traces_bind (ih.expression true) fun _ =>
      traces_pure _
  refine traces_ite (traces_bind traces_advance fun _ => ?_) ?_
  all_goals
    exact traces_bind traces_expectName fun name => traces_bind traces_peek fun _ => traces_ite
      (traces_bind (traces_pure none) fun _ => hvalue name _)
      (traces_bind (traces_map (traces_typeName d) some) fun _ => hvalue name _)

theorem traces_choice : Traces ts (choice (d + 1)) :=
  traces_bind (traces_expectKeyword _) fun _ => traces_bind (ih.expression false) fun _ =>
    traces_bind (traces_braced _ ih.arm) fun _ => traces_pure _

theorem traces_arm : Traces ts (arm (d + 1)) := by
  refine traces_bind traces_peek fun token => ?_
  have hbody : ∀ pattern : Option Expr, Traces ts (do
      let _ ← expectOp "=>"
      let body ← if (← peek).isOp "\x7b" then block d else List.singleton <$> statement d
      return (⟨pattern, body, token.line⟩ : Arm)) := fun _ =>
    traces_bind (traces_expectOp _) fun _ => traces_bind traces_peek fun _ => traces_ite
      (traces_bind ih.block fun _ => traces_pure _)
      (traces_bind (traces_map ih.statement List.singleton) fun _ => traces_pure _)
  exact traces_ite (traces_bind traces_advance fun _ => traces_bind (traces_pure none) hbody)
    (traces_bind (traces_map (ih.expression false) some) hbody)

theorem traces_iteration : Traces ts (iteration (d + 1)) :=
  traces_bind (traces_expectKeyword _) fun _ => traces_bind traces_expectName fun _ =>
    traces_bind (traces_expectKeyword _) fun _ => traces_bind (ih.expression false) fun _ =>
      traces_bind ih.block fun _ => traces_pure _

theorem traces_fnDecl : Traces ts (fnDecl (d + 1)) :=
  traces_bind (traces_expectKeyword _) fun _ => traces_bind traces_expectName fun _ =>
    traces_bind (traces_bracketed _ _ (traces_param d)) fun _ =>
      traces_bind (traces_optionalType d) fun _ => traces_bind ih.block fun _ => traces_pure _

theorem traces_fieldDecl : Traces ts (fieldDecl (d + 1)) :=
  traces_bind traces_expectName fun _ => traces_bind (traces_typeName d) fun _ =>
    traces_bind traces_peek fun _ => traces_ite
      (traces_bind traces_advance fun _ => traces_bind (ih.expression true) fun _ =>
        traces_pure _) (traces_pure _)

theorem traces_typeDecl : Traces ts (typeDecl (d + 1)) := by
  refine traces_bind (traces_expectKeyword _) fun _ => traces_bind traces_expectName fun _ =>
    traces_bind traces_specs fun _ => traces_bind (traces_braced _ ?_) fun _ => traces_pure _
  exact traces_bind traces_peek fun _ => traces_ite
    (traces_bind ih.fnDecl fun _ => traces_pure _) (traces_bind ih.fieldDecl fun _ => traces_pure _)

theorem tracedRules_succ : TracedRules ts (d + 1) where
  expression b := ih.binary 0 b
  binary level b := traces_ite (ih.unary b) <| traces_bind (ih.binary _ b) fun e =>
    traces_bind traces_rounds fun n => traces_chain level (ih.binary _ b) n e
  unary := traces_unary ih
  suffixed b := traces_bind (ih.primary b) fun e => traces_bind traces_rounds fun n =>
    traces_suffixes ih.arguments n e
  arguments := traces_bracketed _ _ (ih.expression true)
  primary := traces_primary ih
  named := traces_named ih
  nodeBody := traces_nodeBody ih
  statement := traces_statement ih
  block := traces_braced _ ih.statement
  binding := traces_binding ih
  choice := traces_choice ih
  arm := traces_arm ih
  iteration := traces_iteration ih
  fnDecl := traces_fnDecl ih
  fieldDecl := traces_fieldDecl ih
  typeDecl := traces_typeDecl ih

end Step

theorem tracedRules (d : Nat) : TracedRules ts d := by
  induction d with
  | zero => exact tracedRules_zero
  | succ d ih => exact tracedRules_succ ih

theorem traces_code (d : Nat) : Traces ts (code d) :=
  traces_bind traces_skip fun _ => traces_bind traces_rounds fun n =>
    traces_statementsToEnd (tracedRules d).statement n

end Parser

theorem Stream.ofTokens_from {ts : List Token} (hne : ts ≠ []) :
    Parser.From ts (Stream.ofTokens ts) where
  ahead _ ht := (List.dropLast_sublist ts).subset ht
  last := by
    rw [Stream.ofTokens, List.getLast?_eq_some_getLast hne]
    exact List.getLast_mem hne

/-- **A fault in a number that ends the parsing of a text is that of a token of the text.** -/
theorem parse_number {source : String} {file : Option String} {n : NumberFault}
    (h : parse source file = .error (.number n)) :
    ∃ ts, tokenize source file = .ok ts ∧ ∃ t ∈ ts, t.Unreadable n := by
  rw [parse, Parser.run] at h
  cases hts : tokenize source file with
  | error e =>
    rw [hts] at h
    cases h
  | ok ts =>
    rw [hts] at h
    refine ⟨ts, rfl, ?_⟩
    have hne : ts ≠ [] := by
      obtain ⟨us, q, rfl⟩ := tokenize_end hts
      simp
    have htraces := (Parser.traces_code nestingLimit _ (Stream.ofTokens_from hne)).2 n
    revert h htraces
    dsimp only [StateT.run]
    cases Parser.code nestingLimit (.ofTokens ts) with
    | ok r =>
      intro h
      cases h
    | error f =>
      cases f with
      | source e =>
        intro h
        cases h
      | number m =>
        intro h htraces
        cases h
        exact htraces rfl

end Widgetry
