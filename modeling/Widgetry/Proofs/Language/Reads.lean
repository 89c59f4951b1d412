import Mathlib.Data.List.Forall2
import Widgetry.Proofs.Language.Printing

/-!
# What a rule of the grammar reads

A rule `Reads` some lexemes if it takes just the tokens that say them and gives one answer, whatever
stands behind them, as long as that begins with a lexeme that may follow. How deep rules may nest
is part of this: from some depth on the rule gives its answer, and with less it gives up.

The lemmas follow the way rules are put together: one thing after another, a look at the next
token, a rule that uses another one at one less depth.
-/

namespace Widgetry

/-! ## Tokens on a line -/

/-- Whether a lexeme separates items. -/
def Lexeme.Separates (l : Lexeme) : Prop := l = .op "," ∨ l = .op ";"

/-- A token that says what a lexeme says. -/
def Lexeme.at (l : Lexeme) (line column : Nat) : Token := ⟨l.kind, l.text, ⟨line, column⟩⟩

namespace Lexeme

variable (l : Lexeme) (n c : Nat)

@[simp] theorem at_kind : (l.at n c).kind = l.kind := rfl

@[simp] theorem at_text : (l.at n c).text = l.text := rfl

@[simp] theorem at_line : (l.at n c).line = n := rfl

@[simp] theorem lexeme_at : (l.at n c).lexeme = l := rfl

@[simp] theorem isOp_at (symbol : String) : (l.at n c).isOp symbol = decide (l = .op symbol) := by
  obtain ⟨kind, text⟩ := l
  simp only [Token.isOp, Lexeme.at, Lexeme.op, Lexeme.mk.injEq, Bool.decide_and]
  rfl

@[simp] theorem isKeyword_at (w : String) :
    (l.at n c).isKeyword w = decide (l = .word w) := by
  obtain ⟨kind, text⟩ := l
  simp only [Token.isKeyword, Lexeme.at, Lexeme.word, Lexeme.mk.injEq, Bool.decide_and]
  rfl

@[simp] theorem isEnd_at : (l.at n c).isEnd = decide (l.kind = .eof) := rfl

@[simp] theorem op_kind (s : String) : (op s).kind = .op := rfl

@[simp] theorem op_text (s : String) : (op s).text = s := rfl

@[simp] theorem word_kind (s : String) : (word s).kind = .keyword := rfl

@[simp] theorem word_text (s : String) : (word s).text = s := rfl

@[simp] theorem name_kind (s : String) : (name s).kind = .ident := rfl

@[simp] theorem name_text (s : String) : (name s).text = s := rfl

@[simp] theorem quoted_kind (s : String) : (quoted s).kind = .str := rfl

@[simp] theorem quoted_text (s : String) : (quoted s).text = s := rfl

@[simp] theorem op_inj {a b : String} : op a = op b ↔ a = b := by
  simp only [op, mk.injEq, true_and]

@[simp] theorem word_inj {a b : String} : word a = word b ↔ a = b := by
  simp only [word, mk.injEq, true_and]

@[simp] theorem op_ne_word (a b : String) : op a ≠ word b := fun h => nomatch congrArg kind h

@[simp] theorem op_ne_name (a b : String) : op a ≠ name b := fun h => nomatch congrArg kind h

@[simp] theorem word_ne_op (a b : String) : word a ≠ op b := fun h => nomatch congrArg kind h

@[simp] theorem name_ne_op (a b : String) : name a ≠ op b := fun h => nomatch congrArg kind h

@[simp] theorem name_ne_word (a b : String) : name a ≠ word b := fun h => nomatch congrArg kind h

@[simp] theorem quoted_ne_op (a b : String) : quoted a ≠ op b := fun h => nomatch congrArg kind h

end Lexeme

theorem Token.eq_at (t : Token) : t = t.lexeme.at t.line t.position.column := rfl

/-- Whether tokens on one line say what lexemes say. -/
structure Spells (n : Nat) (ls : List Lexeme) (ts : List Token) : Prop where
  lexemes : ts.map Token.lexeme = ls
  line : ∀ t ∈ ts, t.line = n

namespace Spells

variable {n : Nat} {l : Lexeme} {ls us : List Lexeme} {ts : List Token}

theorem nil (h : Spells n [] ts) : ts = [] := List.map_eq_nil_iff.mp h.lexemes

theorem cons (h : Spells n (l :: ls) ts) :
    ∃ c ts', ts = l.at n c :: ts' ∧ Spells n ls ts' := by
  obtain ⟨t, ts', rfl, rfl, hls⟩ := List.map_eq_cons_iff.mp h.lexemes
  have hline : t.line = n := h.line t List.mem_cons_self
  refine ⟨t.position.column, ts', ?_, hls, fun u hu => h.line u (List.mem_cons_of_mem _ hu)⟩
  rw [← hline]
  rfl

theorem append (h : Spells n (ls ++ us) ts) :
    ∃ ts₁ ts₂, ts = ts₁ ++ ts₂ ∧ Spells n ls ts₁ ∧ Spells n us ts₂ := by
  obtain ⟨ts₁, ts₂, rfl, hls, hus⟩ := List.map_eq_append_iff.mp h.lexemes
  exact ⟨ts₁, ts₂, rfl, ⟨hls, fun t ht => h.line t (List.mem_append_left _ ht)⟩,
    ⟨hus, fun t ht => h.line t (List.mem_append_right _ ht)⟩⟩

theorem length (h : Spells n ls ts) : ts.length = ls.length := by
  rw [← h.lexemes, List.length_map]

end Spells

namespace Stream

/-- The token that lies ahead. -/
def next (s : Stream) : Token := s.ahead.head?.getD s.last

/-- The stream with more tokens in front. -/
def after (s : Stream) (ts : List Token) : Stream := { s with ahead := ts ++ s.ahead }

variable (s : Stream) (t : Token) (ts us : List Token)

@[simp] theorem after_nil : s.after [] = s := rfl

theorem after_append : s.after (ts ++ us) = (s.after us).after ts := by
  rw [after, List.append_assoc]
  rfl

@[simp] theorem next_after_cons : (s.after (t :: ts)).next = t := rfl

/-- What lies ahead says the first of the lexemes in front, or else what lay ahead before. -/
theorem next_after {n : Nat} {ls : List Lexeme} (h : Spells n ls ts) (hs : s.next.line = n) :
    (s.after ts).next.line = n ∧ (s.after ts).next.lexeme = ls.head?.getD s.next.lexeme := by
  cases ls with
  | nil =>
    rw [h.nil]
    exact ⟨hs, rfl⟩
  | cons l ls =>
    obtain ⟨c, ts', rfl, -⟩ := h.cons
    exact ⟨rfl, rfl⟩

end Stream

namespace Parser

/-- A property or a statement in the body of a node expression. -/
def nodeItem (d : Nat) : Parser (Property ⊕ Stmt) := do
  let token ← peek
  if token.kind = .ident && (← peekSecond).isOp ":" then
    let _ ← advance
    let _ ← advance
    let value ← expression d true
    return Sum.inl ⟨token.text, value, token.line⟩
  else
    let s ← statement d
    return Sum.inr s

/-- A member of a type. -/
def typeItem (d : Nat) : Parser (FieldDecl ⊕ FnDecl) := do
  if (← peek).isKeyword "fn" then return Sum.inr (← fnDecl d)
  else return Sum.inl (← fieldDecl d)

/-- What a rule answers that nests too deep. -/
def deepFault : Fault := .source ⟨.parsing, .nestingTooDeep, {}⟩

/-- Whether a rule reads lexemes on a line if it may nest to a depth, and with less gives up. -/
def Reads {α : Type} (n depth : Nat) (rule : Nat → Parser α) (ls : List Lexeme) (a : α)
    (follow : Lexeme → Prop) : Prop :=
  ∀ (d : Nat) (ts : List Token) (s : Stream), Spells n ls ts → s.next.line = n →
    follow s.next.lexeme →
    StateT.run (rule d) (s.after ts) = if depth ≤ d then .ok (a, s) else .error deepFault

namespace Reads

variable {α β : Type} {n D E : Nat} {l : Lexeme} {ls us : List Lexeme} {a : α} {b : β}
  {F G : Lexeme → Prop}

theorem mono {x : Nat → Parser α} (h : Reads n D x ls a F) (hF : ∀ l, G l → F l) :
    Reads n D x ls a G :=
  fun d ts s hts hn hs => h d ts s hts hn (hF _ hs)

theorem pure (a : α) : Reads n 0 (fun _ => Pure.pure a) [] a F := by
  intro d ts s hts _ _
  rw [hts.nil, if_pos (Nat.zero_le d)]
  rfl

theorem run_bind {x : Nat → Parser α} (hx : Reads n D x ls a F) {d : Nat} (f : α → Parser β)
    {ts : List Token} {s : Stream} (hts : Spells n ls ts) (hn : s.next.line = n)
    (hs : F s.next.lexeme) : StateT.run (x d >>= f) (s.after ts)
      = if D ≤ d then StateT.run (f a) s else .error deepFault := by
  rw [StateT.run_bind, hx d ts s hts hn hs]
  by_cases hD : D ≤ d
  · rw [if_pos hD, if_pos hD]
    rfl
  · rw [if_neg hD, if_neg hD]
    rfl

/-- One thing after another: the second one begins with what may follow the first. -/
theorem bind {x : Nat → Parser α} {f : Nat → α → Parser β} (hx : Reads n D x ls a F)
    (hf : Reads n E (fun d => f d a) us b G) (hF : ∀ l, G l → F (us.head?.getD l)) :
    Reads n (max D E) (fun d => x d >>= f d) (ls ++ us) b G := by
  intro d ts s hts hn hs
  obtain ⟨ts₁, ts₂, rfl, h₁, h₂⟩ := hts.append
  obtain ⟨hn', hl⟩ := Stream.next_after s ts₂ h₂ hn
  rw [Stream.after_append, hx.run_bind _ h₁ hn' (hl ▸ hF _ hs)]
  by_cases hD : D ≤ d
  · rw [if_pos hD, hf d ts₂ s h₂ hn hs]
    by_cases hE : E ≤ d
    · rw [if_pos hE, if_pos (by omega)]
    · rw [if_neg hE, if_neg (by omega)]
  · rw [if_neg hD, if_neg (by omega)]

/-- The second thing takes nothing. -/
theorem last {x : Nat → Parser α} {f : Nat → α → Parser β} (hx : Reads n D x ls a F)
    (hf : Reads n E (fun d => f d a) [] b G) (hF : ∀ l, G l → F l) :
    Reads n (max D E) (fun d => x d >>= f d) ls b G :=
  ls.append_nil ▸ bind hx hf hF

/-- What a rule ends with may depend on its parts. -/
theorem map {x : Nat → Parser α} (f : α → β) (hx : Reads n D x ls a F) :
    Reads n D (fun d => x d >>= fun a => Pure.pure (f a)) ls (f a) F :=
  fun _ _ _ hts hn hs => hx.run_bind _ hts hn hs

/-- A rule that uses another one at one less depth. -/
theorem rule {x : Nat → Parser α} (h₀ : x 0 = tooDeep)
    (h : Reads n D (fun d => x (d + 1)) ls a F) : Reads n (D + 1) x ls a F := by
  intro d ts s hts hn hs
  cases d with
  | zero =>
    rw [h₀, if_neg (by omega)]
    rfl
  | succ d =>
    rw [h d ts s hts hn hs]
    by_cases hD : D ≤ d
    · rw [if_pos hD, if_pos (by omega)]
    · rw [if_neg hD, if_neg (by omega)]

theorem ofRule {x : Nat → Parser α} (h₀ : x 0 = tooDeep)
    (h : ∃ D, Reads n D (fun d => x (d + 1)) ls a F) : ∃ D, Reads n D x ls a F := by
  obtain ⟨D, h⟩ := h
  exact ⟨D + 1, rule h₀ h⟩

theorem pos {c : Prop} [Decidable c] {x y : Nat → Parser α} (hc : c)
    (h : Reads n D x ls a F) : Reads n D (fun d => if c then x d else y d) ls a F := by
  simp only [hc, if_true]
  exact h

theorem neg {c : Prop} [Decidable c] {x y : Nat → Parser α} (hc : ¬ c)
    (h : Reads n D y ls a F) : Reads n D (fun d => if c then x d else y d) ls a F := by
  simp only [hc, if_false]
  exact h

/-! ## Single tokens -/

theorem run_peek (f : Token → Parser β) (s : Stream) :
    StateT.run (peek >>= f) s = StateT.run (f s.next) s := rfl

/-- A look at a token that is to be read. -/
theorem look {f : Nat → Token → Parser β}
    (h : ∀ c, Reads n D (fun d => f d (l.at n c)) (l :: ls) b F) :
    Reads n D (fun d => peek >>= f d) (l :: ls) b F := by
  intro d ts s hts hn hs
  obtain ⟨c, ts', rfl, -⟩ := hts.cons
  exact h c d _ s hts hn hs

theorem ofLook {f : Nat → Token → Parser β}
    (h : ∃ D, ∀ c, Reads n D (fun d => f d (l.at n c)) (l :: ls) b F) :
    ∃ D, Reads n D (fun d => peek >>= f d) (l :: ls) b F := by
  obtain ⟨D, h⟩ := h
  exact ⟨D, look h⟩

/-- A look at what follows. -/
theorem lookBehind {f : Nat → Token → Parser β}
    (h : ∀ l c, F l → Reads n D (fun d => f d (l.at n c)) [] b F) :
    Reads n D (fun d => peek >>= f d) [] b F := by
  intro d ts s hts hn hs
  cases hts.nil
  have ht : s.next = s.next.lexeme.at n s.next.position.column := by
    rw [← hn]
    rfl
  rw [run_peek, Stream.after_nil, ht]
  exact h _ _ hs d [] s hts hn hs

/-- A look at the token after the next one, which may lie behind what is read. -/
theorem lookSecond {f : Nat → Token → Parser β}
    (h : ∀ l' c, (us = [] ∧ F l' ∨ us.head? = some l') →
      Reads n D (fun d => f d (l'.at n c)) (l :: us) b F) :
    Reads n D (fun d => peekSecond >>= f d) (l :: us) b F := by
  intro d ts s hts hn hs
  obtain ⟨c, ts', rfl, hus⟩ := hts.cons
  cases us with
  | nil =>
    cases hus.nil
    have hnext : StateT.run (peekSecond >>= f d) (s.after [l.at n c])
        = StateT.run (f d s.next) (s.after [l.at n c]) := by
      obtain ⟨ahead, last⟩ := s
      cases ahead <;> rfl
    have ht : s.next = s.next.lexeme.at n s.next.position.column := by
      rw [← hn]
      rfl
    rw [hnext, ht]
    exact h _ _ (Or.inl ⟨rfl, hs⟩) d _ s hts hn hs
  | cons l' us =>
    obtain ⟨c', ts, rfl, -⟩ := hus.cons
    exact h l' c' (Or.inr rfl) d _ s hts hn hs

/-- Whether a rule takes a token and answers it. -/
def Takes (x : Parser Token) (l : Lexeme) : Prop :=
  ∀ n c ts s, StateT.run x (Stream.after s (l.at n c :: ts)) = .ok (l.at n c, s.after ts)

theorem Takes.run_bind {x : Parser Token} (hx : Takes x l) (f : Token → Parser β) (n c : Nat)
    (ts : List Token) (s : Stream) : StateT.run (x >>= f) (s.after (l.at n c :: ts))
      = StateT.run (f (l.at n c)) (s.after ts) := by
  rw [StateT.run_bind, hx]
  rfl

theorem takes_advance (l : Lexeme) : Takes advance l := fun _ _ _ _ => rfl

theorem takes_op (symbol : String) : Takes (expectOp symbol) (.op symbol) := by
  intro n c ts s
  rw [expectOp, run_peek, Stream.next_after_cons, if_pos (by simp)]
  rfl

theorem takes_keyword (w : String) : Takes (expectKeyword w) (.word w) := by
  intro n c ts s
  rw [expectKeyword, run_peek, Stream.next_after_cons, if_pos (by simp)]
  rfl

theorem takes_name (name : String) : Takes expectName (.name name) := by
  intro n c ts s
  rw [expectName, run_peek, Stream.next_after_cons, if_pos (by simp)]
  rfl

theorem take {x : Parser Token} {f : Nat → Token → Parser β} (hx : Takes x l)
    (h : ∀ c, Reads n D (fun d => f d (l.at n c)) ls b F) :
    Reads n D (fun d => x >>= f d) (l :: ls) b F := by
  intro d ts s hts hn hs
  obtain ⟨c, ts', rfl, hts'⟩ := hts.cons
  rw [hx.run_bind]
  exact h c d ts' s hts' hn hs

/-! ## Separators -/

theorem isSeparator_iff (t : Token) : isSeparator t = true ↔ t.lexeme.Separates := by
  rw [t.eq_at]
  simp [isSeparator, Lexeme.Separates]

theorem run_skip {f : Unit → Parser β} {s : Stream} (h : ¬ s.next.lexeme.Separates) :
    StateT.run (skipSeparators >>= f) s = StateT.run (f ()) s := by
  obtain ⟨ahead, last⟩ := s
  cases ahead with
  | nil => rfl
  | cons t rest =>
    have ht : isSeparator t = false := Bool.eq_false_iff.mpr ((isSeparator_iff t).not.mpr h)
    show StateT.run (f ()) ⟨(t :: rest).dropWhile isSeparator, last⟩ = _
    rw [List.dropWhile_cons, ht]
    rfl

/-- No separator is there to be skipped. -/
theorem skip {f : Nat → Unit → Parser β} (h : Reads n D (fun d => f d ()) ls b F)
    (hl : ∀ l, F l → ¬ (ls.head?.getD l).Separates) :
    Reads n D (fun d => skipSeparators >>= f d) ls b F := by
  intro d ts s hts hn hs
  obtain ⟨-, hnext⟩ := Stream.next_after s ts hts hn
  rw [run_skip (hnext ▸ hl _ hs)]
  exact h d ts s hts hn hs

/-- A separator is skipped, and no more. -/
theorem skipOne {f : Nat → Unit → Parser β} (hl : l.Separates)
    (h : Reads n D (fun d => f d ()) ls b F) (hls : ∀ l, F l → ¬ (ls.head?.getD l).Separates) :
    Reads n D (fun d => skipSeparators >>= f d) (l :: ls) b F := by
  intro d ts s hts hn hs
  obtain ⟨c, ts', rfl, hts'⟩ := hts.cons
  have ht : isSeparator (l.at n c) = true := (isSeparator_iff _).mpr hl
  have hskip : StateT.run (skipSeparators >>= f d) (s.after (l.at n c :: ts'))
      = StateT.run (skipSeparators >>= f d) (s.after ts') := by
    show StateT.run (f d ()) ⟨(l.at n c :: (ts' ++ s.ahead)).dropWhile isSeparator, s.last⟩ = _
    rw [List.dropWhile_cons, ht]
    rfl
  rw [hskip]
  exact skip h hls d ts' s hts' hn hs

/-! ## Loops

A loop is given more rounds than it needs, as many as there are tokens. -/

theorem rounds {f : Nat → Nat → Parser β}
    (h : ∀ m, ls.length ≤ m → Reads n D (fun d => f d m) ls b F) :
    Reads n D (fun d => Parser.rounds >>= f d) ls b F := by
  intro d ts s hts hn hs
  have hlen : ls.length ≤ (s.after ts).ahead.length := by
    rw [Stream.after, List.length_append, hts.length]
    omega
  exact h _ hlen d ts s hts hn hs

/-- Whether a rule reads the lexemes of an item, which begin with one of those that may start it. -/
structure Item (n : Nat) (rule : Nat → Parser α) (starts follow : Lexeme → Prop)
    (ls : List Lexeme) (a : α) : Prop where
  reads : ∃ D, Reads n D rule ls a follow
  head : ∃ l rest, ls = l :: rest ∧ starts l

section Loops

variable {item : Nat → Parser α} {starts : Lexeme → Prop} {items : List (List Lexeme)}
  {as : List α} {separator : String}

theorem separated_cons (x y : List Lexeme) (rest : List (List Lexeme)) :
    Lexeme.separated separator (x :: y :: rest)
      = x ++ .op separator :: Lexeme.separated separator (y :: rest) := by
  simp [Lexeme.separated, List.intercalate, List.intersperse]

theorem separated_singleton (x : List Lexeme) : Lexeme.separated separator [x] = x := by
  simp [Lexeme.separated, List.intercalate, List.intersperse]

/-- What items and something behind them begin with is no separator if none begins with one. -/
theorem not_separates_head (h : List.Forall₂ (Item n item starts G) items as)
    (hsep : ∀ l, starts l → ¬ l.Separates) {us : List Lexeme}
    (hus : ¬ (us.head?.getD l).Separates) :
    ¬ ((Lexeme.separated separator items ++ us).head?.getD l).Separates := by
  cases h with
  | nil => exact hus
  | @cons x a rest as hx hrest =>
    obtain ⟨l, x, rfl, hl⟩ := hx.head
    cases rest with
    | nil =>
      rw [separated_singleton]
      exact hsep l hl
    | cons y rest =>
      rw [separated_cons]
      exact hsep l hl

theorem length_le_separated (separator : String)
    (h : List.Forall₂ (Item n item starts G) items as) :
    items.length ≤ (Lexeme.separated separator items).length := by
  induction h with
  | nil => exact Nat.le_refl 0
  | @cons x a rest as hx hrest ih =>
    obtain ⟨l, x, rfl, -⟩ := hx.head
    cases rest with
    | nil =>
      rw [separated_singleton]
      simp
    | cons y rest =>
      rw [separated_cons]
      simp only [List.length_append, List.length_cons] at ih ⊢
      omega

/-- Items with commas between them, up to a closing bracket. -/
theorem listedUpTo {close : String} (hclose : ∀ l, starts l → l ≠ .op close)
    (hne : "," ≠ close) (hc : G (.op ",")) (he : G (.op close))
    (h : List.Forall₂ (Item n item starts G) items as) :
    ∃ D, ∀ m, items.length < m → Reads n D (fun d => Parser.listedUpTo close (item d) m)
      (Lexeme.separated "," items) as (· = .op close) := by
  induction h with
  | nil =>
    refine ⟨0, fun m hm => ?_⟩
    obtain ⟨m, rfl⟩ := Nat.exists_eq_succ_of_ne_zero (Nat.ne_of_gt hm)
    simp only [Parser.listedUpTo]
    exact lookBehind fun l c hl => .pos (by simp [hl]) (.pure _)
  | @cons x a rest as hx hrest ih =>
    obtain ⟨D, hD⟩ := hx.reads
    obtain ⟨E, hE⟩ := ih
    obtain ⟨l, x, rfl, hl⟩ := hx.head
    have hopen : l ≠ .op close := hclose l hl
    refine ⟨max D E, fun m hm => ?_⟩
    obtain ⟨m, rfl⟩ := Nat.exists_eq_succ_of_ne_zero (Nat.ne_of_gt (Nat.zero_lt_of_lt hm))
    have hrest := hE m (Nat.lt_of_succ_lt_succ hm)
    simp only [Parser.listedUpTo]
    cases rest with
    | nil =>
      rw [separated_singleton]
      refine .look fun c => .neg (by simpa using hopen) (.last hD ?_ ?_)
      · exact lookBehind fun l c hl => .pos (by simp [hl]) (.map (a :: ·) hrest)
      · rintro l rfl
        exact he
    | cons y rest =>
      rw [separated_cons, List.cons_append]
      refine .look fun c => .neg (by simpa using hopen) (.bind hD ?_ fun _ _ => hc)
      exact .look fun c => .neg (by simpa using hne) <| .take (takes_op ",") fun c =>
        .map (a :: ·) hrest

/-- A bracketed list. -/
theorem bracketed (opening close : String) (hclose : ∀ l, starts l → l ≠ .op close)
    (hne : "," ≠ close) (hc : G (.op ",")) (he : G (.op close))
    (h : List.Forall₂ (Item n item starts G) items as) :
    ∃ D, Reads n D (fun d => Parser.bracketed opening close (item d))
      (Lexeme.enclosed opening close (Lexeme.separated "," items)) as F := by
  obtain ⟨D, hD⟩ := listedUpTo hclose hne hc he h
  have hrounds : ∀ m, (Lexeme.separated "," items ++ [Lexeme.op close]).length ≤ m →
      items.length < m + 1 := by
    intro m hm
    have hle := length_le_separated "," h
    rw [List.length_append] at hm
    omega
  exact ⟨_, .take (takes_op opening) fun c => .rounds fun m hm =>
    .bind (hD _ (hrounds m hm)) (.take (takes_op close) fun c => .pure as) fun _ _ => rfl⟩

/-- Items with semicolons between them, up to a closing brace. -/
theorem itemsWithin (cause : Cause) (hbrace : ∀ l, starts l → l ≠ .op "\x7d" ∧ l.kind ≠ .eof)
    (hsep : ∀ l, starts l → ¬ l.Separates) (hc : G (.op ";")) (he : G (.op "\x7d"))
    (h : List.Forall₂ (Item n item starts G) items as) :
    ∃ D, ∀ m, items.length < m → Reads n D (fun d => Parser.itemsWithin cause (item d) m)
      (Lexeme.separated ";" items) as (· = .op "\x7d") := by
  induction h with
  | nil =>
    refine ⟨0, fun m hm => ?_⟩
    obtain ⟨m, rfl⟩ := Nat.exists_eq_succ_of_ne_zero (Nat.ne_of_gt hm)
    simp only [Parser.itemsWithin]
    exact lookBehind fun l c hl => .pos (by simp [hl]) (.pure _)
  | @cons x a rest as hx hrest ih =>
    obtain ⟨D, hD⟩ := hx.reads
    obtain ⟨E, hE⟩ := ih
    obtain ⟨l, x, rfl, hl⟩ := hx.head
    obtain ⟨hopen, hend⟩ := hbrace l hl
    refine ⟨max D E, fun m hm => ?_⟩
    obtain ⟨m, rfl⟩ := Nat.exists_eq_succ_of_ne_zero (Nat.ne_of_gt (Nat.zero_lt_of_lt hm))
    have hnext := hE m (Nat.lt_of_succ_lt_succ hm)
    simp only [Parser.itemsWithin]
    cases rest with
    | nil =>
      rw [separated_singleton]
      refine .look fun c => .neg (by simpa using hopen) <| .neg (by simpa using hend) <|
        .last hD (.skip (.map (a :: ·) hnext) ?_) ?_
      · rintro l rfl
        simp [Lexeme.Separates]
      · rintro l rfl
        exact he
    | cons y rest =>
      rw [separated_cons, List.cons_append]
      refine .look fun c => .neg (by simpa using hopen) <| .neg (by simpa using hend) <|
        .bind hD (.skipOne (Or.inr rfl) (.map (a :: ·) hnext) ?_) fun _ _ => hc
      rintro l rfl
      rw [← List.append_nil (Lexeme.separated _ _)]
      exact not_separates_head hrest hsep (by simp [Lexeme.Separates])

/-- A braced sequence. -/
theorem braced (cause : Cause) (hbrace : ∀ l, starts l → l ≠ .op "\x7d" ∧ l.kind ≠ .eof)
    (hsep : ∀ l, starts l → ¬ l.Separates) (hc : G (.op ";")) (he : G (.op "\x7d"))
    (h : List.Forall₂ (Item n item starts G) items as) :
    ∃ D, Reads n D (fun d => Parser.braced cause (item d)) (Lexeme.block items) as F := by
  obtain ⟨D, hD⟩ := itemsWithin cause hbrace hsep hc he h
  have hrounds : ∀ m, (Lexeme.separated ";" items ++ [Lexeme.op "\x7d"]).length ≤ m →
      items.length < m + 1 := by
    intro m hm
    have hle := length_le_separated ";" h
    rw [List.length_append] at hm
    omega
  have hhead : ∀ l, F l →
      ¬ ((Lexeme.separated ";" items ++ [Lexeme.op "\x7d"]).head?.getD l).Separates := fun l _ =>
    not_separates_head h hsep (by simp [Lexeme.Separates])
  exact ⟨_, .take (takes_op "\x7b") fun c => .skip (.rounds fun m hm =>
    .bind (hD _ (hrounds m hm)) (.take (takes_op "\x7d") fun c => .pure as) fun _ _ => rfl) hhead⟩

/-- Statements with semicolons between them, up to the end. -/
theorem statementsToEnd {item : Nat → Parser Stmt} {as : List Stmt}
    (hend : ∀ l, starts l → l.kind ≠ .eof) (hsep : ∀ l, starts l → ¬ l.Separates)
    (hc : G (.op ";")) (he : ∀ l, l.kind = .eof → G l)
    (h : List.Forall₂ (Item n item starts G) items as) :
    ∃ D, ∀ m, items.length ≤ m → Reads n D (fun d => Parser.statementsToEnd (item d) m)
      (Lexeme.separated ";" items) as (·.kind = .eof) := by
  have hlast : ∀ l : Lexeme, l.kind = .eof → ¬ l.Separates := by
    rintro l hl (rfl | rfl) <;> cases hl
  induction h with
  | nil =>
    refine ⟨0, fun m _ => ?_⟩
    cases m with
    | zero => exact .pure []
    | succ m =>
      simp only [Parser.statementsToEnd]
      exact lookBehind fun l c hl => .pos (by simpa using hl) (.pure _)
  | @cons x a rest as hx hrest ih =>
    obtain ⟨D, hD⟩ := hx.reads
    obtain ⟨E, hE⟩ := ih
    obtain ⟨l, x, rfl, hl⟩ := hx.head
    refine ⟨max D E, fun m hm => ?_⟩
    obtain ⟨m, rfl⟩ := Nat.exists_eq_succ_of_ne_zero (Nat.ne_of_gt (Nat.zero_lt_of_lt hm))
    have hnext := hE m (Nat.le_of_succ_le_succ hm)
    simp only [Parser.statementsToEnd]
    cases rest with
    | nil =>
      rw [separated_singleton]
      exact .look fun c => .neg (by simpa using hend l hl) <|
        .last hD (.skip (.map (a :: ·) hnext) hlast) he
    | cons y rest =>
      rw [separated_cons, List.cons_append]
      refine .look fun c => .neg (by simpa using hend l hl) <|
        .bind hD (.skipOne (Or.inr rfl) (.map (a :: ·) hnext) ?_) fun _ _ => hc
      intro l hl
      rw [← List.append_nil (Lexeme.separated _ _)]
      exact not_separates_head hrest hsep (hlast l hl)

end Loops

end Reads

/-! ## Rules that end in a loop

A chain of operators is read from the left: each round makes a larger expression of the one it was
given. So what a rule does is told by how far its loop has come. -/

section Rounds

variable {α β : Type} {n D E : Nat} {ls us : List Lexeme} {a : α} {b b' : β}
  {F G : Lexeme → Prop} {x : Nat → Parser α} {loop : Nat → Nat → β → Parser α}

/-- Whether a rule reads lexemes up to where its loop has something; the rounds that are left are
enough for what lies ahead. -/
def ReadsTo (n depth : Nat) (rule : Nat → Parser α) (loop : Nat → Nat → β → Parser α)
    (ls : List Lexeme) (b : β) (follow : Lexeme → Prop) : Prop :=
  ∀ (d : Nat) (ts : List Token) (s : Stream), Spells n ls ts → s.next.line = n →
    follow s.next.lexeme → ∃ m, s.ahead.length ≤ m ∧ StateT.run (rule d) (s.after ts)
      = if depth ≤ d then StateT.run (loop d m b) s else .error deepFault

/-- Whether a round of a loop reads lexemes and makes one thing of another. -/
def Round (n depth : Nat) (loop : Nat → Nat → β → Parser α) (ls : List Lexeme) (b b' : β)
    (follow : Lexeme → Prop) : Prop :=
  ∀ (d m : Nat) (ts : List Token) (s : Stream), Spells n ls ts → s.next.line = n →
    follow s.next.lexeme → StateT.run (loop d (m + 1) b) (s.after ts)
      = if depth ≤ d then StateT.run (loop d m b') s else .error deepFault

namespace ReadsTo

theorem mono (h : ReadsTo n D x loop ls b F) (hF : ∀ l, G l → F l) :
    ReadsTo n D x loop ls b G :=
  fun d ts s hts hn hs => h d ts s hts hn (hF _ hs)

/-- The first thing is read before the loop begins. -/
theorem start {y : Nat → Parser β} (h : Reads n D y ls b F) :
    ReadsTo n D (fun d => y d >>= fun b => Parser.rounds >>= fun m => loop d m b) loop ls b F := by
  intro d ts s hts hn hs
  exact ⟨s.ahead.length, Nat.le_refl _, h.run_bind _ hts hn hs⟩

/-- The loop goes on. -/
theorem next (h : ReadsTo n D x loop ls b F) {l : Lexeme} (hr : Round n E loop (l :: us) b b' G)
    (hF : F l) : ReadsTo n (max D E) x loop (ls ++ l :: us) b' G := by
  intro d ts s hts hn hs
  obtain ⟨ts₁, ts₂, rfl, h₁, h₂⟩ := hts.append
  obtain ⟨hn', hl⟩ := Stream.next_after s ts₂ h₂ hn
  obtain ⟨m, hm, hrun⟩ := h d ts₁ (s.after ts₂) h₁ hn' (hl ▸ hF)
  -- the lexemes are at least one, and so there is a round for them
  have hlen : s.ahead.length + (us.length + 1) ≤ m := by
    rw [Stream.after, List.length_append, h₂.length, List.length_cons] at hm
    omega
  obtain ⟨m, rfl⟩ : ∃ k, m = k + 1 := ⟨m - 1, by omega⟩
  refine ⟨m, by omega, ?_⟩
  rw [Stream.after_append, hrun]
  by_cases hD : D ≤ d
  · rw [if_pos hD, hr d m ts₂ s h₂ hn hs]
    by_cases hE : E ≤ d
    · rw [if_pos hE, if_pos (by omega)]
    · rw [if_neg hE, if_neg (by omega)]
  · rw [if_neg hD, if_neg (by omega)]

/-- The loop ends. -/
theorem done (h : ReadsTo n D x loop ls b F) (hF : ∀ l, G l → F l)
    (hend : ∀ m, Reads n 0 (fun d => loop d m b) [] a G) : Reads n D x ls a G := by
  intro d ts s hts hn hs
  obtain ⟨m, -, hrun⟩ := h d ts s hts hn (hF _ hs)
  have hloop := hend m d [] s ⟨rfl, fun _ ht => nomatch ht⟩ hn hs
  rw [if_pos (Nat.zero_le d)] at hloop
  rw [hrun, ← hloop]
  rfl

end ReadsTo

end Rounds

end Parser

end Widgetry
