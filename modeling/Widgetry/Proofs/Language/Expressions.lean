import Widgetry.Proofs.Language.Reads

/-!
# Reading expressions

The rules of the grammar for expressions read what is printed for an expression.

An expression can be read at each level up to its own: a rule for one level goes down to the next
one, and comes back with the operand as it is. An operand of a looser level stands in brackets, and
what stands in brackets can be read at every level.

> `Expr.Readable`: at each level, the printed operand is read as the expression.

There is one lemma for each kind of expression, which gets this from its parts.
-/

namespace Widgetry

/-! ## Numbers -/

namespace Decimal

theorem decimalValue?_digit {c : Char} (h : c.isDigit = true) :
    Text.decimalValue? c = some (c.toNat - '0'.toNat) := by
  have hlt : c.toNat < 128 := by
    obtain ⟨-, hle⟩ := Char.isDigit_iff_toNat.mp h
    exact Nat.lt_of_le_of_lt hle (by decide)
  rw [Text.decimalValue?, if_pos hlt, if_pos h]

theorem valueOf?_digits (ds : List Char) (h : ∀ c ∈ ds, c.isDigit = true) :
    valueOf? Text.decimalValue? ds = some (Nat.ofDigitChars 10 ds 0) := by
  rw [valueOf?]
  generalize 0 = k
  induction ds generalizing k with
  | nil => rfl
  | cons c ds ih =>
    rw [List.foldlM_cons, decimalValue?_digit (h c List.mem_cons_self)]
    exact ih (fun c hc => h c (List.mem_cons_of_mem _ hc)) _

/-- The text of a number is read back. -/
theorem readWhole_repr {k : Nat} (h : (Nat.repr k).length ≤ digitLimit) :
    readWhole (Nat.repr k) = .ok k := by
  have hdigits : ∀ c ∈ (Nat.repr k).toList, c.isDigit = true := by
    intro c hc
    rw [Nat.repr_eq_ofList_toDigits, String.toList_ofList] at hc
    exact Nat.isDigit_of_mem_toDigits (by decide) (by decide) hc
  have hlength : ((Nat.repr k).toList.takeWhile isDecimal).length ≤ digitLimit := by
    have hle := (List.takeWhile_sublist isDecimal (l := (Nat.repr k).toList)).length_le
    rw [String.length_toList] at hle
    omega
  have hvalue : Nat.ofDigitChars 10 (Nat.repr k).toList 0 = k := by
    rw [Nat.repr_eq_ofList_toDigits, String.toList_ofList]
    exact Nat.ofDigitChars_toDigits (by decide) (by decide)
  rw [readWhole, if_neg (Nat.not_lt.mpr hlength), valueOf?_digits _ hdigits, hvalue]

end Decimal

/-! ## What may follow -/

/-- Whether a lexeme does not continue an operand of a level. -/
structure Lexeme.Closes (level : Nat) (braces : Bool) (l : Lexeme) : Prop where
  operator : ∀ op : BinaryOp, l = .op op.symbol → op.level < level
  dot : l ≠ .op "."
  call : l ≠ .op "("
  text : l.kind ≠ .str
  body : braces = true → l ≠ .op "\x7b"

/-- Whether a lexeme does not continue what a member access or a call may stand behind. A call of a
name is a thing of its own. -/
structure Lexeme.Joins (name braces : Bool) (l : Lexeme) : Prop where
  call : name = true → l ≠ .op "("
  text : l.kind ≠ .str
  body : braces = true → l ≠ .op "\x7b"

theorem BinaryOp.symbol_inj {a b : BinaryOp} (h : a.symbol = b.symbol) : a = b := by
  revert h
  cases a <;> cases b <;> decide

theorem BinaryOp.ofSymbol?_symbol (op : BinaryOp) : ofSymbol? op.symbol = some op := by
  cases op <;> rfl

theorem BinaryOp.symbol_of_ofSymbol? {s : String} {op : BinaryOp} (h : ofSymbol? s = some op) :
    op.symbol = s := by
  simpa using List.find?_some h

theorem BinaryOp.level_lt (op : BinaryOp) : op.level < levels := by
  cases op <;> decide

namespace Lexeme

variable {level : Nat} {name braces : Bool} {l : Lexeme}

theorem Closes.joins (h : l.Closes level braces) : l.Joins name braces :=
  ⟨fun _ => h.call, h.text, h.body⟩

theorem Closes.mono {level' : Nat} (h : l.Closes level braces) (hl : level ≤ level') :
    l.Closes level' braces :=
  ⟨fun op ho => Nat.lt_of_lt_of_le (h.operator op ho) hl, h.dot, h.call, h.text, h.body⟩

theorem closes_operator (op : BinaryOp) (h : op.level < level) :
    (Lexeme.op op.symbol).Closes level braces where
  operator op' ho := by
    rw [← BinaryOp.symbol_inj (op_inj.mp ho)]
    exact h
  dot := by cases op <;> simp [BinaryOp.symbol]
  call := by cases op <;> simp [BinaryOp.symbol]
  text := nofun
  body _ := by cases op <;> simp [BinaryOp.symbol]

/-- A symbol that is no part of an expression. -/
theorem closes_op {s : String}
    (h : s ∈ [")", "]", ",", ";", "\x7d", "=>", "=", "+=", "-=", "*=", "/="]) :
    (Lexeme.op s).Closes level braces := by
  have hs : BinaryOp.ofSymbol? s = none ∧ s ≠ "." ∧ s ≠ "(" ∧ s ≠ "\x7b" := by
    revert s
    decide
  obtain ⟨hop, hdot, hcall, hbody⟩ := hs
  refine ⟨fun op ho => ?_, by simpa using hdot, by simpa using hcall, nofun,
    fun _ => by simpa using hbody⟩
  rw [op_inj.mp ho, BinaryOp.ofSymbol?_symbol] at hop
  cases hop

/-- A brace where no node expression can stand. -/
theorem closes_brace : (Lexeme.op "\x7b").Closes level false := by
  refine ⟨fun op ho => ?_, by simp, by simp, nofun, nofun⟩
  have := op_inj.mp ho
  cases op <;> simp [BinaryOp.symbol] at this

theorem closes_end (h : l.kind = .eof) : l.Closes level braces := by
  have hne : ∀ s, l ≠ .op s := by
    rintro s rfl
    cases h
  exact ⟨fun op ho => absurd ho (hne _), hne _, hne _, by rw [h]; nofun, fun _ => hne _⟩

end Lexeme

namespace Parser

open Reads (takes_advance takes_op takes_keyword takes_name)

variable {n D : Nat} {braces name : Bool} {level : Nat} {ls : List Lexeme} {l : Lexeme} {e : Expr}

/-! ## Operators -/

theorem operatorAt?_symbol (op : BinaryOp) (c : Nat) :
    operatorAt? op.level ((Lexeme.op op.symbol).at n c) = some op := by
  simp [operatorAt?, BinaryOp.ofSymbol?_symbol, Option.filter]

theorem operatorAt?_closes (h : l.Closes level braces) (c : Nat) :
    operatorAt? level (l.at n c) = none := by
  rw [operatorAt?]
  split
  · next hk =>
    rw [Option.filter_eq_none_iff]
    intro op ho
    have hl : l = .op op.symbol := by
      rw [BinaryOp.symbol_of_ofSymbol? ho]
      obtain ⟨kind, text⟩ := l
      cases hk
      rfl
    have hlt := h.operator op hl
    simp only [beq_iff_eq]
    omega
  · rfl

/-! ## Loops of the grammar -/

/-- How the operators of a level go on behind an operand. -/
def chainLoop (level : Nat) (braces : Bool) (d m : Nat) (e : Expr) : Parser Expr :=
  chain level (binary d (level + 1) braces) m e

/-- How member accesses and calls go on. -/
def suffixLoop (d m : Nat) (e : Expr) : Parser Expr := suffixes (arguments d) m e

/-- A chain ends before what closes its level. -/
theorem chain_done (m : Nat) :
    Reads n 0 (fun d => chainLoop level braces d m e) [] e (Lexeme.Closes level braces) := by
  cases m with
  | zero => exact .pure e
  | succ m =>
    simp only [chainLoop, chain]
    refine .lookBehind fun l c hl => ?_
    rw [operatorAt?_closes hl]
    exact .pure e

/-- A round of a chain: an operator and its right operand. -/
theorem chain_round {op : BinaryOp} {r : Expr} (left : Expr)
    (hr : Reads n D (fun d => binary d (op.level + 1) braces) ls r
      (Lexeme.Closes (op.level + 1) braces)) :
    Round n D (chainLoop op.level braces) (.op op.symbol :: ls) left (.binary op left r n)
      (Lexeme.Closes (op.level + 1) braces) := by
  intro d m ts s hts hn hs
  obtain ⟨c, ts, rfl, hts'⟩ := hts.cons
  rw [chainLoop, chain, Reads.run_peek, Stream.next_after_cons, operatorAt?_symbol]
  dsimp only
  rw [(Reads.takes_advance _).run_bind, hr.run_bind _ hts' hn hs]
  rfl

theorem suffixes_done (m : Nat) :
    Reads n 0 (fun d => suffixLoop d m e) [] e (Lexeme.Closes level braces) := by
  cases m with
  | zero => exact .pure e
  | succ m =>
    simp only [suffixLoop, suffixes]
    refine .lookBehind fun l c hl => .neg ?_ (.neg ?_ (.pure e))
    · simpa using hl.dot
    · simp [hl.call]

theorem member_round (f : String) {F : Lexeme → Prop} :
    Round n 0 suffixLoop [.op ".", .name f] e (.member e f n) F := by
  intro d m ts s hts hn hs
  obtain ⟨c, ts, rfl, hdot⟩ := hts.cons
  obtain ⟨c', ts, rfl, hname⟩ := hdot.cons
  cases hname.nil
  rw [suffixLoop, suffixes, Reads.run_peek, Stream.next_after_cons, if_pos (by simp),
    (Reads.takes_advance _).run_bind, (Reads.takes_name f).run_bind, if_pos (Nat.zero_le d)]
  rfl

/-- A call has the line of what stands behind it. -/
theorem call_round {args : List Expr} {F : Lexeme → Prop} (he : e.isNode = false)
    (ha : Reads n D arguments (.op "(" :: ls) args F) :
    Round n D suffixLoop (.op "(" :: ls) e (.call e args n) F := by
  intro d m ts s hts hn hs
  have hrun := ha.run_bind (f := fun xs => peek >>= fun next =>
    suffixes (arguments d) m (.call e xs next.line)) (d := d) hts hn hs
  obtain ⟨c, ts, rfl, -⟩ := hts.cons
  rw [suffixLoop, suffixes, Reads.run_peek, Stream.next_after_cons, if_neg (by simp),
    if_pos (by simp [he]), hrun, Reads.run_peek, hn]
  rfl

/-! ## Levels -/

theorem binary_succ (d : Nat) (h : level < BinaryOp.levels) : binary (d + 1) level braces =
    binary d (level + 1) braces >>= fun e => rounds >>= fun m => chainLoop level braces d m e := by
  rw [binary, if_neg (Nat.ne_of_lt h)]
  rfl

theorem binary_levels (d : Nat) : binary (d + 1) BinaryOp.levels braces = unary d braces := by
  rw [binary, if_pos rfl]

/-- Whether lexemes are read as an operand of a level. -/
def ReadsOperand (n : Nat) (braces : Bool) (level : Nat) (ls : List Lexeme) (e : Expr) : Prop :=
  ∃ D, Reads n D (fun d => binary d level braces) ls e (Lexeme.Closes level braces)

/-- Whether lexemes are read as what a chain of a level begins with. -/
def ReadsSpine (n : Nat) (braces : Bool) (level : Nat) (ls : List Lexeme) (e : Expr) : Prop :=
  ∃ D, ReadsTo n D (fun d => binary (d + 1) level braces) (chainLoop level braces) ls e
    (Lexeme.Closes (level + 1) braces)

def ReadsUnary (n : Nat) (braces : Bool) (ls : List Lexeme) (e : Expr) : Prop :=
  ∃ D, Reads n D (fun d => unary d braces) ls e (Lexeme.Closes BinaryOp.levels braces)

/-- Whether lexemes are read as what a member access or a call may stand behind. -/
def ReadsLead (n : Nat) (name braces : Bool) (ls : List Lexeme) (e : Expr) : Prop :=
  ∃ D, ReadsTo n D (fun d => suffixed (d + 1) braces) suffixLoop ls e (Lexeme.Joins name braces)

theorem operand_of_spine (h : ReadsSpine n braces level ls e) :
    ReadsOperand n braces level ls e := by
  obtain ⟨D, h⟩ := h
  exact ⟨_, .rule (binary.eq_1 ..) (h.done (fun l hl => hl.mono (Nat.le_succ _)) chain_done)⟩

theorem spine_of_operand (hl : level < BinaryOp.levels)
    (h : ReadsOperand n braces (level + 1) ls e) : ReadsSpine n braces level ls e := by
  obtain ⟨D, h⟩ := h
  refine ⟨D, ?_⟩
  simp only [binary_succ _ hl]
  exact .start h

theorem operand_of_unary (h : ReadsUnary n braces ls e) :
    ReadsOperand n braces BinaryOp.levels ls e := by
  obtain ⟨D, h⟩ := h
  refine ⟨D + 1, .rule (binary.eq_1 ..) ?_⟩
  simp only [binary_levels]
  exact h

/-- What can be read at a level can be read at all looser ones. -/
theorem operand_le {looser : Nat} (hle : looser ≤ level) (h : ReadsOperand n braces level ls e)
    (hl : level ≤ BinaryOp.levels) : ReadsOperand n braces looser ls e := by
  obtain ⟨k, rfl⟩ := Nat.exists_eq_add_of_le hle
  induction k generalizing looser with
  | zero => exact h
  | succ k ih =>
    have hsucc : looser + (k + 1) = looser + 1 + k := by omega
    rw [hsucc] at h hl
    have hnext := ih (Nat.le_add_right _ _) h hl
    exact operand_of_spine (spine_of_operand (by omega) hnext)

theorem prefixOp?_symbol (op : UnaryOp) (c : Nat) :
    prefixOp? ((Lexeme.op op.symbol).at n c) = some op := by
  cases op <;> rfl

theorem prefixOp?_eq_none (h : ∀ op : UnaryOp, l ≠ .op op.symbol) (c : Nat) :
    prefixOp? (l.at n c) = none := by
  rw [prefixOp?]
  split
  · next hk =>
    refine List.find?_eq_none.mpr fun op _ hop => ?_
    obtain ⟨kind, text⟩ := l
    cases hk
    exact h op (congrArg Lexeme.op (beq_iff_eq.mp hop)).symm
  · rfl

/-- Without a prefix operator the rule for them goes on to the next one. -/
theorem unary_of_lead (h : ReadsLead n name braces (l :: ls) e)
    (hl : ∀ op : UnaryOp, l ≠ .op op.symbol) : ReadsUnary n braces (l :: ls) e := by
  obtain ⟨D, h⟩ := h
  have hs : Reads n (D + 1) (fun d => suffixed d braces) (l :: ls) e
      (Lexeme.Closes BinaryOp.levels braces) :=
    .rule (suffixed.eq_1 ..) (h.done (fun l hl => hl.joins) suffixes_done)
  refine Reads.ofRule (unary.eq_1 ..) ?_
  simp only [unary]
  refine Reads.ofLook ?_
  simp only [prefixOp?_eq_none hl]
  exact ⟨_, fun _ => hs⟩

theorem lead_of_primary
    (h : ∃ D, Reads n D (fun d => primary d braces) ls e (Lexeme.Joins name braces)) :
    ReadsLead n name braces ls e := by
  obtain ⟨D, h⟩ := h
  refine ⟨D, ?_⟩
  simp only [suffixed]
  exact .start h

theorem expression_of_operand (h : ReadsOperand n braces 0 ls e) :
    ∃ D, Reads n D (fun d => expression d braces) ls e (Lexeme.Closes 0 braces) := by
  obtain ⟨D, h⟩ := h
  exact ⟨_, .rule (expression.eq_1 ..) h⟩

/-- What stands in brackets can stand anywhere. -/
theorem lead_of_brackets (h : ReadsOperand n true 0 ls e) :
    ReadsLead n name braces (Lexeme.enclosed "(" ")" ls) e := by
  obtain ⟨D, he⟩ := expression_of_operand h
  refine lead_of_primary (Reads.ofRule (primary.eq_1 ..) ?_)
  simp only [primary]
  refine Reads.ofLook ?_
  simp only [Lexeme.at_kind, Lexeme.op_kind, Lexeme.at_text, Lexeme.op_text, if_true]
  exact ⟨_, fun _ => .take (takes_advance _) fun _ => .bind he
    (.take (takes_op ")") fun _ => .pure e) fun _ _ => Lexeme.closes_op (by simp)⟩

/-- What lexemes are read as an expression by: at each level up to a highest one. -/
structure Reached (n : Nat) (name braces : Bool) (top : Nat) (ls : List Lexeme) (e : Expr) :
    Prop where
  operand : ∀ level ≤ top, level ≤ BinaryOp.levels → ReadsOperand n braces level ls e
  spine : ∀ level ≤ top, level < BinaryOp.levels → ReadsSpine n braces level ls e
  unary : BinaryOp.levels ≤ top → ReadsUnary n braces ls e
  lead : BinaryOp.levels < top → ReadsLead n name braces ls e

namespace Reached

theorem of_spine (hl : level < BinaryOp.levels) (h : ReadsSpine n braces level ls e) :
    Reached n name braces level ls e := by
  have hlooser : ∀ looser ≤ level, ReadsOperand n braces looser ls e :=
    fun looser hle => operand_le hle (operand_of_spine h) (Nat.le_of_lt hl)
  refine ⟨fun looser hle _ => hlooser looser hle, fun looser hle hlt => ?_, ?_, ?_⟩
  · obtain hlt' | rfl := Nat.lt_or_eq_of_le hle
    · exact spine_of_operand hlt (hlooser (looser + 1) hlt')
    · exact h
  · exact fun hle => absurd hl (Nat.not_lt.mpr hle)
  · exact fun hlt => absurd hl (Nat.not_lt.mpr (Nat.le_of_lt hlt))

theorem of_unary (h : ReadsUnary n braces ls e) :
    Reached n name braces BinaryOp.levels ls e := by
  have hlooser : ∀ looser ≤ BinaryOp.levels, ReadsOperand n braces looser ls e :=
    fun looser hle => operand_le hle (operand_of_unary h) (Nat.le_refl _)
  refine ⟨fun looser hle _ => hlooser looser hle, fun looser _ hlt => ?_, fun _ => h, ?_⟩
  · exact spine_of_operand hlt (hlooser (looser + 1) hlt)
  · exact fun hlt => absurd hlt (Nat.lt_irrefl _)

theorem of_lead (h : ReadsLead n name braces (l :: ls) e)
    (hl : ∀ op : UnaryOp, l ≠ .op op.symbol) :
    Reached n name braces (BinaryOp.levels + 1) (l :: ls) e := by
  have hu : ReadsUnary n braces (l :: ls) e := unary_of_lead h hl
  have hbelow : Reached n name braces BinaryOp.levels (l :: ls) e := of_unary hu
  exact ⟨fun looser _ hle => hbelow.operand looser hle hle,
    fun looser _ hlt => hbelow.spine looser (Nat.le_of_lt hlt) hlt, fun _ => hu, fun _ => h⟩

theorem of_brackets (h : ReadsOperand n true 0 ls e) :
    Reached n name braces (BinaryOp.levels + 1) (Lexeme.enclosed "(" ")" ls) e := by
  refine of_lead (lead_of_brackets h) fun op => ?_
  cases op <;> simp [UnaryOp.symbol]

/-- Looser levels are reached as well. -/
theorem mono {level' : Nat} (h : Reached n name braces level ls e) (hle : level' ≤ level) :
    Reached n name braces level' ls e where
  operand looser hl := h.operand looser (Nat.le_trans hl hle)
  spine looser hl := h.spine looser (Nat.le_trans hl hle)
  unary hl := h.unary (Nat.le_trans hl hle)
  lead hl := h.lead (Nat.lt_of_lt_of_le hl hle)

end Reached

end Parser

/-! ## What an expression begins with -/

/-- Whether a lexeme may be the first one of an expression; a tight one has no prefix operator. -/
structure Lexeme.Begins (tight : Bool) (l : Lexeme) : Prop where
  op : l.kind = .op → l = .op "(" ∨ l = .op "[" ∨
    tight = false ∧ ∃ op : UnaryOp, l = .op op.symbol
  word : l.kind = .keyword → l = .word "nil" ∨ l = .word "true" ∨ l = .word "false"
  notEnd : l.kind ≠ .eof

/-- Whether lexemes begin like an expression, and not like a property. -/
def Lexeme.Opens (tight : Bool) (ls : List Lexeme) : Prop :=
  ∃ l rest, ls = l :: rest ∧ l.Begins tight ∧ (l.kind = .ident → rest.head? ≠ some (.op ":"))

namespace Lexeme

variable {tight : Bool} {l : Lexeme} {ls us : List Lexeme}

theorem Begins.mono (h : l.Begins tight) : l.Begins false := by
  refine ⟨fun hk => ?_, h.word, h.notEnd⟩
  obtain hl | hl | ⟨-, hl⟩ := h.op hk
  · exact Or.inl hl
  · exact Or.inr (Or.inl hl)
  · exact Or.inr (Or.inr ⟨rfl, hl⟩)

theorem Begins.not_prefix (h : l.Begins true) (op : UnaryOp) : l ≠ .op op.symbol := by
  rintro rfl
  obtain hl | hl | ⟨hl, -⟩ := h.op rfl
  · cases op <;> simp [UnaryOp.symbol] at hl
  · cases op <;> simp [UnaryOp.symbol] at hl
  · cases hl

theorem Begins.ne_op (h : l.Begins tight) {s : String} (hs : s ∈ [")", "]", "\x7d", ",", ";"]) :
    l ≠ .op s := by
  rintro rfl
  obtain hl | hl | ⟨-, op, hl⟩ := h.op rfl
  · simp [op_inj.mp hl] at hs
  · simp [op_inj.mp hl] at hs
  · cases op <;> simp [op_inj.mp hl, UnaryOp.symbol] at hs

theorem begins_of_kind (hop : l.kind ≠ .op) (hword : l.kind ≠ .keyword) (hend : l.kind ≠ .eof) :
    l.Begins tight :=
  ⟨fun h => absurd h hop, fun h => absurd h hword, hend⟩

theorem Opens.append (h : Opens tight ls) (hus : us.head? ≠ some (.op ":")) :
    Opens tight (ls ++ us) := by
  obtain ⟨l, rest, rfl, hl, hrest⟩ := h
  refine ⟨l, rest ++ us, rfl, hl, fun hk => ?_⟩
  cases rest with
  | nil => exact hus
  | cons => exact hrest hk

theorem Opens.mono (h : Opens tight ls) {tight' : Bool} (ht : tight' = true → tight = true) :
    Opens tight' ls := by
  obtain ⟨l, rest, rfl, hl, hrest⟩ := h
  refine ⟨l, rest, rfl, ?_, hrest⟩
  cases tight' with
  | false => exact hl.mono
  | true =>
    rw [ht rfl] at hl
    exact hl

theorem opens_singleton (h : l.Begins tight) : Opens tight [l] := ⟨l, [], rfl, h, fun _ => nofun⟩

theorem opens_op {s : String} (h : s = "(" ∨ s = "[") : Opens tight (.op s :: ls) := by
  refine ⟨.op s, ls, rfl, ⟨fun _ => ?_, nofun, nofun⟩, nofun⟩
  obtain rfl | rfl := h
  · exact Or.inl rfl
  · exact Or.inr (Or.inl rfl)

theorem opens_literal (v : Scalar) : Opens tight [v.lexeme] := by
  refine opens_singleton ?_
  cases v with
  | nil => exact ⟨nofun, fun _ => Or.inl rfl, nofun⟩
  | bool b =>
    cases b with
    | true => exact ⟨nofun, fun _ => Or.inr (Or.inl rfl), nofun⟩
    | false => exact ⟨nofun, fun _ => Or.inr (Or.inr rfl), nofun⟩
  | _ => exact begins_of_kind nofun nofun nofun

end Lexeme

open Widgetry.Parser
open Parser.Reads (takes_advance takes_op takes_keyword takes_name)

namespace Expr

/-- Whether an expression is a name. -/
def isName : Expr → Bool
  | .ident .. => true
  | _ => false

variable {style : Style} {n : Nat} {e : Expr}

/-- Whether the printed expression is read as the expression, as an operand of each level. -/
def Readable (style : Style) (n : Nat) (e : Expr) : Prop :=
  ∀ level braces, level ≤ BinaryOp.levels + 1 →
    Reached n e.isName braces level (style.operand e level braces) (e.atLine n)

/-- An expression is readable if it is so at its own level, where it needs no brackets. -/
theorem readable_of_own (h : ∀ braces, (e.isNode = true → braces = true) →
    Reached n e.isName braces e.level (style.bare e braces) (e.atLine n)) :
    e.Readable style n := by
  intro level braces hlevel
  rw [Style.operand, Lexeme.wrapped]
  by_cases hb : e.bracketed level braces = true
  · rw [if_pos hb]
    have hown := h true fun _ => rfl
    exact (Reached.of_brackets (hown.operand 0 (Nat.zero_le _) (Nat.zero_le _))).mono hlevel
  · rw [if_neg hb]
    simp only [bracketed, Bool.or_eq_true, decide_eq_true_eq, Bool.and_eq_true, Bool.not_eq_true',
      not_or, Nat.not_lt, not_and, Bool.not_eq_false] at hb
    exact (h braces hb.2).mono hb.1

theorem opens_wrapped {ls : Bool → List Lexeme} {level level' : Nat} {node braces : Bool}
    (h : ∀ braces, Lexeme.Opens (decide (BinaryOp.levels < level)) (ls braces)) :
    Lexeme.Opens (decide (BinaryOp.levels < level'))
      (Lexeme.wrapped (decide (level < level') || node) ls braces) := by
  rw [Lexeme.wrapped]
  split
  · exact Lexeme.opens_op (Or.inl rfl)
  · next hb =>
    refine (h braces).mono fun hl => ?_
    simp only [Bool.or_eq_true, decide_eq_true_eq, not_or, Nat.not_lt] at hb hl ⊢
    omega

theorem head_nodeRest (text? : Option String) (args items : List (List Lexeme)) :
    (style.nodeRest text? args items).head? ≠ some (.op ":") := by
  have hargs : ∀ us, (Lexeme.arguments args ++ us).head? ≠ some (.op ":") := by
    intro us
    simp [Lexeme.arguments, Lexeme.enclosed]
  have hblock : (Lexeme.block items).head? ≠ some (.op ":") := by
    simp [Lexeme.block, Lexeme.enclosed]
  unfold Style.nodeRest
  split
  · split
    · exact hblock
    · cases text? with
      | none => exact hargs _
      | some s => simp
  · exact hargs _

/-- What an expression begins with. -/
theorem opens_bare (style : Style) : ∀ (e : Expr) (braces : Bool),
    Lexeme.Opens (decide (BinaryOp.levels < e.level)) (style.bare e braces)
  | .literal v _, _ => by
    rw [Style.bare]
    exact Lexeme.opens_literal v
  | .ident x _, _ => by
    rw [Style.bare]
    exact Lexeme.opens_singleton (Lexeme.begins_of_kind nofun nofun nofun)
  | .array items _, _ => by
    rw [Style.bare]
    exact Lexeme.opens_op (Or.inr rfl)
  | .unary op e _, braces => by
    rw [Style.bare]
    exact ⟨_, _, rfl, ⟨fun _ => Or.inr (Or.inr ⟨rfl, op, rfl⟩), nofun, nofun⟩, nofun⟩
  | .binary op l r _, braces => by
    rw [Style.bare]
    refine (opens_wrapped (opens_bare style l)).append ?_
    cases op <;> simp [BinaryOp.symbol]
  | .member e x _, braces => by
    rw [Style.bare]
    exact (opens_wrapped (opens_bare style e)).append (by simp)
  | .call f args _, braces => by
    rw [Style.bare]
    exact (opens_wrapped (opens_bare style f)).append (by simp [Lexeme.arguments, Lexeme.enclosed])
  | .node kind args props body _, _ => by
    rw [Style.bare]
    exact ⟨_, _, rfl, Lexeme.begins_of_kind nofun nofun nofun, fun _ => head_nodeRest _ _ _⟩

/-! ## One kind of expression after the other -/

/-- What a member access or a call may stand behind is readable. -/
theorem readable_of_lead (he : e.level = BinaryOp.levels + 1)
    (h : ∀ braces, (e.isNode = true → braces = true) →
      ReadsLead n e.isName braces (style.bare e braces) (e.atLine n)) : e.Readable style n := by
  refine readable_of_own fun braces hb => ?_
  have hlead := h braces hb
  obtain ⟨l, rest, hls, hl, -⟩ := opens_bare style e braces
  rw [hls] at hlead ⊢
  rw [he] at hl ⊢
  exact Reached.of_lead hlead hl.not_prefix

theorem readable_literal {v : Scalar} (hv : v.writable = true) (line : Nat) :
    (Expr.literal v line).Readable style n := by
  refine readable_of_lead rfl fun braces _ => lead_of_primary (Reads.ofRule (primary.eq_1 ..) ?_)
  rw [Style.bare, Expr.atLine]
  simp only [primary]
  refine Reads.ofLook ?_
  have hread : ∀ c (w : Scalar), Reads n 0
      (fun _ => advance >>= fun _ => pure (Expr.literal w (v.lexeme.at n c).line)) [v.lexeme]
      (.literal w n) (Lexeme.Joins false braces) :=
    fun c w => .take (takes_advance _) fun _ => .pure _
  cases v with
  | nil => exact ⟨0, fun c => hread c .nil⟩
  | bool b =>
    cases b with
    | true => exact ⟨0, fun c => hread c (.bool true)⟩
    | false => exact ⟨0, fun c => hread c (.bool false)⟩
  | int k =>
    simp only [Scalar.writable, Bool.and_eq_true, decide_eq_true_eq] at hv
    refine ⟨0, fun c => .take (takes_advance _) fun _ => ?_⟩
    show Reads n 0 (fun _ => number (Decimal.readWhole (Nat.repr k.toNat)) >>= fun m =>
      pure (Expr.literal (.int m) n)) [] _ _
    rw [Decimal.readWhole_repr hv.2]
    -- a number that is written has no sign
    have hk : Expr.literal (.int k) n = .literal (.int k.toNat) n := by
      rw [Int.toNat_of_nonneg hv.1]
    rw [hk]
    exact .pure _
  | float x => cases hv
  | str s => exact ⟨0, fun c => hread c (.str s)⟩

theorem primary_of_named {F : Lexeme → Prop} {braces : Bool} {x : String} {ls : List Lexeme}
    (h : ∃ D, Reads n D (fun d => named d braces) (.name x :: ls) e F) :
    ∃ D, Reads n D (fun d => primary d braces) (.name x :: ls) e F := by
  obtain ⟨D, h⟩ := h
  refine Reads.ofRule (primary.eq_1 ..) ?_
  simp only [primary]
  exact ⟨D, .look fun _ => h⟩

/-- A name on which nothing is called and that has no body. -/
theorem readable_ident (x : String) (line : Nat) : (Expr.ident x line).Readable style n := by
  refine readable_of_lead rfl fun braces _ => lead_of_primary ?_
  rw [Style.bare, Expr.atLine]
  refine primary_of_named (Reads.ofRule (named.eq_1 ..) ?_)
  simp only [named]
  refine ⟨0, .take (takes_advance _) fun _ => .lookBehind fun l c hl => ?_⟩
  refine .neg (fun ht => hl.text ht.1) <| .neg ?_ <| .neg ?_ <| .pure _
  · simpa using hl.call rfl
  · simpa using hl.body

/-- Whether items are read as the expressions of a list. -/
def ReadableItems (style : Style) (n : Nat) (braces : Bool) (es : List Expr) : Prop :=
  List.Forall₂ (Reads.Item n (fun d => expression d braces) (Lexeme.Begins false)
    (Lexeme.Closes 0 braces)) (style.operands es braces) (Expr.allAtLine n es)

theorem item_of_readable (h : e.Readable style n) (braces : Bool) :
    Reads.Item n (fun d => expression d braces) (Lexeme.Begins false) (Lexeme.Closes 0 braces)
      (style.operand e 0 braces) (e.atLine n) := by
  have hopens : Lexeme.Opens (decide (BinaryOp.levels < 0)) (style.operand e 0 braces) :=
    opens_wrapped (opens_bare style e)
  obtain ⟨l, rest, hls, hl, -⟩ := hopens
  exact ⟨expression_of_operand ((h 0 braces (Nat.zero_le _)).operand 0 (Nat.le_refl _)
    (Nat.zero_le _)), l, rest, hls, hl⟩

theorem readable_array {items : List Expr} (h : ∀ braces, ReadableItems style n braces items)
    (line : Nat) : (Expr.array items line).Readable style n := by
  refine readable_of_lead rfl fun braces _ => lead_of_primary (Reads.ofRule (primary.eq_1 ..) ?_)
  rw [Style.bare, Expr.atLine]
  simp only [primary]
  obtain ⟨D, hD⟩ := Reads.bracketed "[" "]" (F := Lexeme.Joins false braces)
    (fun l hl => hl.ne_op (by simp)) (by decide) (Lexeme.closes_op (by simp))
    (Lexeme.closes_op (by simp)) (h braces)
  refine Reads.ofLook ?_
  simp only [Lexeme.at_kind, Lexeme.op_kind, Lexeme.at_text, Lexeme.op_text]
  exact ⟨D, fun c => .neg (by simp) (.pos trivial (.map _ hD))⟩

theorem readable_unary (h : e.Readable style n) (op : UnaryOp) (line : Nat) :
    (Expr.unary op e line).Readable style n := by
  refine readable_of_own fun braces _ => ?_
  rw [Style.bare, Expr.atLine]
  obtain ⟨D, hD⟩ := (h BinaryOp.levels braces (Nat.le_succ _)).unary (Nat.le_refl _)
  refine Reached.of_unary (Reads.ofRule (Parser.unary.eq_1 ..) ?_)
  simp only [Parser.unary]
  refine Reads.ofLook ?_
  simp only [prefixOp?_symbol]
  exact ⟨D, fun c => .take (takes_advance _) fun _ => .map (fun e => Expr.unary op e n) hD⟩

theorem readable_binary {l r : Expr} (hl : l.Readable style n) (hr : r.Readable style n)
    (op : BinaryOp) (line : Nat) : (Expr.binary op l r line).Readable style n := by
  refine readable_of_own fun braces _ => ?_
  rw [Style.bare, Expr.atLine]
  have hlevel := op.level_lt
  -- the left operand begins the chain of this level, and the right one must be of a higher level
  obtain ⟨D, hD⟩ := (hl op.level braces (by omega)).spine op.level (Nat.le_refl _) hlevel
  obtain ⟨E, hE⟩ := (hr (op.level + 1) braces (by omega)).operand (op.level + 1) (Nat.le_refl _)
    hlevel
  exact Reached.of_spine hlevel ⟨_, hD.next (chain_round _ hE)
    (Lexeme.closes_operator op (Nat.lt_succ_self _))⟩

theorem readable_member (h : e.Readable style n) (x : String) (line : Nat) :
    (Expr.member e x line).Readable style n := by
  refine readable_of_lead rfl fun braces _ => ?_
  rw [Style.bare, Expr.atLine]
  obtain ⟨D, hD⟩ := (h _ braces (Nat.le_refl _)).lead (Nat.lt_succ_self _)
  exact ⟨_, hD.next (member_round x) ⟨fun _ => by simp, nofun, fun _ => by simp⟩⟩

/-! ## Calls and node expressions -/

theorem arguments_of_items {args : List Expr} (h : ReadableItems style n true args)
    (F : Lexeme → Prop) : ∃ D, Reads n D Parser.arguments
      (Lexeme.arguments (style.operands args true)) (Expr.allAtLine n args) F := by
  obtain ⟨D, hD⟩ := Reads.bracketed "(" ")" (F := F)
    (fun l hl => hl.ne_op (by simp)) (by decide) (Lexeme.closes_op (by simp))
    (Lexeme.closes_op (by simp)) h
  exact ⟨_, .rule Parser.arguments.eq_1 hD⟩

/-- A call of a name has a rule of its own. -/
theorem readable_call_ident {args : List Expr} (ha : ReadableItems style n true args) (x : String)
    (line' line : Nat) : (Expr.call (.ident x line') args line).Readable style n := by
  refine readable_of_lead rfl fun braces _ => lead_of_primary ?_
  rw [Style.bare, Expr.atLine]
  obtain ⟨D, hD⟩ := arguments_of_items ha (Lexeme.Joins false braces)
  refine primary_of_named (Reads.ofRule (named.eq_1 ..) ?_)
  simp only [named]
  exact ⟨_, .take (takes_advance _) fun _ => .look fun _ => .neg (fun ht => nomatch ht.1) <|
    .pos (by simp) <| .last hD
      (.lookBehind fun l _ hl => .neg (by simpa using hl.body) (.pure _)) fun _ hl => hl⟩

theorem readable_call {f : Expr} {args : List Expr} (hf : f.Readable style n)
    (ha : ReadableItems style n true args) (hnode : f.isNode = false) (line : Nat) :
    (Expr.call f args line).Readable style n := by
  cases hname : f.isName with
  | true =>
    cases f with
    | ident x line' => exact readable_call_ident ha x line' line
    | _ => cases hname
  | false =>
    refine readable_of_lead rfl fun braces _ => ?_
    rw [Style.bare, Expr.atLine]
    obtain ⟨D, hD⟩ := (hf _ braces (Nat.le_refl _)).lead (Nat.lt_succ_self _)
    obtain ⟨E, hE⟩ := arguments_of_items ha (Lexeme.Joins false braces)
    have hnode' : (f.atLine n).isNode = false := by
      cases f <;> first | rfl | cases hnode
    have hjoin : (Lexeme.op "(").Joins f.isName braces :=
      ⟨fun h => (nomatch hname.symm.trans h), nofun, fun _ => by simp⟩
    exact ⟨_, hD.next (call_round hnode' hE) hjoin⟩

section Nodes

variable {kind : String} {args : List Expr} {props : List Property} {body : List Stmt}
  {items : List (List Lexeme)} {D : Nat}

/-- A kind with a body only. -/
theorem named_plain (hb : Reads n D (fun d => nodeBody d kind) (Lexeme.block items) (props, body)
      (Lexeme.Joins false true)) :
    ∃ D, Reads n D (fun d => named d true) (.name kind :: Lexeme.block items)
      (.node kind [] props body n) (Lexeme.Joins false true) := by
  refine Reads.ofRule (named.eq_1 ..) ?_
  simp only [named]
  exact ⟨_, .take (takes_advance _) fun _ => .look fun _ => .neg (fun ht => nomatch ht.1) <|
    .neg (by simp) <| .pos (by simp) <| .map (fun b => Expr.node kind [] b.1 b.2 n) hb⟩

/-- A kind with a text behind it. -/
theorem named_quoted (hb : Reads n D (fun d => nodeBody d kind) (Lexeme.block items) (props, body)
      (Lexeme.Joins false true)) (s : String) :
    ∃ D, Reads n D (fun d => named d true) (.name kind :: .quoted s :: Lexeme.block items)
      (.node kind [.literal (.str s) n] props body n) (Lexeme.Joins false true) := by
  refine Reads.ofRule (named.eq_1 ..) ?_
  simp only [named]
  exact ⟨_, .take (takes_advance _) fun _ => .look fun _ => .pos ⟨rfl, rfl⟩ <|
    .take (takes_advance _) fun _ => .look fun _ => .pos (by simp) <|
      .map (fun b => Expr.node kind [.literal (.str s) n] b.1 b.2 n) hb⟩

theorem named_quoted_only (kind s : String) :
    ∃ D, Reads n D (fun d => named d true) [.name kind, .quoted s]
      (.node kind [.literal (.str s) n] [] [] n) (Lexeme.Joins false true) := by
  refine Reads.ofRule (named.eq_1 ..) ?_
  simp only [named]
  exact ⟨_, .take (takes_advance _) fun _ => .look fun _ => .pos ⟨rfl, rfl⟩ <|
    .take (takes_advance _) fun _ => .lookBehind fun l _ hl =>
      .neg (by simpa using hl.body) (.pure _)⟩

/-- A kind with arguments in brackets. -/
theorem named_called (ha : ReadableItems style n true args)
    (hb : Reads n D (fun d => nodeBody d kind) (Lexeme.block items) (props, body)
      (Lexeme.Joins false true)) :
    ∃ D, Reads n D (fun d => named d true)
      (.name kind :: (Lexeme.arguments (style.operands args true) ++ Lexeme.block items))
      (.node kind (allAtLine n args) props body n) (Lexeme.Joins false true) := by
  obtain ⟨E, hE⟩ := arguments_of_items ha (fun _ => True)
  refine Reads.ofRule (named.eq_1 ..) ?_
  simp only [named]
  have hbody : Reads n D (fun d => peek >>= fun t => if (true && t.isOp "\x7b") = true then
        nodeBody d kind >>= fun b => pure (Expr.node kind (allAtLine n args) b.1 b.2 n)
      else pure (Expr.call (.ident kind n) (allAtLine n args) n)) (Lexeme.block items)
      (.node kind (allAtLine n args) props body n) (Lexeme.Joins false true) :=
    .look fun _ => .pos (by simp) <|
      .map (fun b => Expr.node kind (allAtLine n args) b.1 b.2 n) hb
  exact ⟨_, .take (takes_advance _) fun _ => .look fun _ => .neg (fun ht => nomatch ht.1) <|
    .pos (by simp) <| .bind hE hbody fun _ _ => trivial⟩

end Nodes

theorem soleText?_eq {args : List Expr} {s : String} (h : soleText? args = some s) :
    allAtLine n args = [.literal (.str s) n] := by
  unfold soleText? at h
  split at h
  · cases h
    rfl
  · cases h

theorem properties_eq_nil {props : List Property} (h : style.properties props = []) :
    props = [] := by
  cases props with
  | nil => rfl
  | cons p rest =>
    obtain ⟨name, value, line⟩ := p
    rw [Style.properties] at h
    cases h

theorem stmts_eq_nil {body : List Stmt} (h : style.stmts body = []) : body = [] := by
  cases body with
  | nil => rfl
  | cons s rest =>
    rw [Style.stmts] at h
    cases h

theorem readable_node {kind : String} {args : List Expr} {props : List Property}
    {body : List Stmt} (ha : ReadableItems style n true args)
    (hb : ∃ D, Reads n D (fun d => nodeBody d kind)
      (Lexeme.block (style.properties props ++ style.stmts body))
      (Property.allAtLine n props, Stmt.allAtLine n body) (Lexeme.Joins false true))
    (line : Nat) : (Expr.node kind args props body line).Readable style n := by
  refine readable_of_lead rfl fun braces hbraces => lead_of_primary ?_
  rw [Style.bare, Expr.atLine, hbraces rfl]
  refine primary_of_named ?_
  obtain ⟨D, hD⟩ := hb
  unfold Style.nodeRest
  split
  · split
    · next hnil =>
      cases args with
      | nil => exact named_plain hD
      | cons =>
        rw [Style.operands] at hnil
        cases hnil
    · cases hs : soleText? args with
      | none => exact named_called ha hD
      | some s =>
        rw [soleText?_eq hs]
        dsimp only
        split
        · next hnil =>
          -- only a text and no items: the kind needs no braces
          obtain ⟨hp, hs⟩ := List.append_eq_nil_iff.mp hnil
          rw [properties_eq_nil hp, stmts_eq_nil hs, Property.allAtLine, Stmt.allAtLine]
          exact named_quoted_only kind s
        · exact named_quoted hD s
  · exact named_called ha hD

end Expr

end Widgetry
