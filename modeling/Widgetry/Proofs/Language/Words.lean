import Widgetry.Language.Parser

/-!
# Names are words

Whatever a parsed text calls by a name, the name is a word of the text: it is not empty and has only
letters, digits and underscores. No point, quote, bracket or blank gets into a name.

> `parse_worded`: all names in a parsed text are words.

Names come from the tokens that are identifiers, so the proof follows these from the lexer through
all rules of the grammar (`Parser.Gives`).
-/

namespace Widgetry

/-- Whether a text can be a name. -/
structure IsWord (s : String) : Prop where
  ne_empty : s ≠ ""
  continues : ∀ c ∈ s.toList, Lexer.continuesWord c = true

/-- A character that no word has. -/
theorem IsWord.not_mem {s : String} (h : IsWord s) {c : Char} (hc : Lexer.continuesWord c = false) :
    c ∉ s.toList := fun hm => by rw [h.continues c hm] at hc; cases hc

/-! ## Tokens -/

/-- Whether a token is a word, if it is an identifier. -/
def Token.Worded (t : Token) : Prop := t.kind = .ident → IsWord t.text

namespace Lexer

theorem continues_of_starts {c : Char} (h : startsWord c = true) : continuesWord c = true := by
  rw [startsWord, Text.isLetter, Bool.or_eq_true] at h
  rw [continuesWord, Text.isAlphanumeric, Bool.or_eq_true]
  refine h.imp_left fun h => ?_
  split at h
  · rw [if_pos ‹_›, Char.isAlphanum, h, Bool.true_or]
  · rw [if_neg ‹_›, h, Bool.true_or]

theorem scanWord_isWord {c : Char} (hc : startsWord c = true) (rest : List Char) :
    IsWord (String.ofList (scanWord c rest).text) where
  ne_empty h := by
    have hlist := congrArg String.toList h
    rw [String.toList_ofList] at hlist
    cases hlist
  continues d hd := by
    rw [String.toList_ofList] at hd
    rcases List.mem_cons.mp hd with rfl | hd
    · exact continues_of_starts hc
    · exact List.all_eq_true.mp List.all_takeWhile d hd

/-- Only words are scanned as identifiers. -/
theorem scan_worded {c : Char} {rest : List Char} {p : Position} {s : Scan}
    (h : scan c rest p = .ok s) (hs : s.kind = .ident) : IsWord (String.ofList s.text) := by
  unfold scan at h
  split at h
  · next hc =>
    cases h
    exact scanWord_isWord hc rest
  split at h
  · cases h
    revert hs
    unfold scanNumber
    simp only
    split
    · split <;> exact nofun
    · exact nofun
  split at h
  · rw [scanString] at h
    cases hb : scanBody c p (p.advance c) rest with
    | error e =>
      rw [hb] at h
      cases h
    | ok b =>
      rw [hb] at h
      cases h
      cases hs
  · split at h
    · next s' hs' =>
      cases h
      obtain ⟨op, -, rfl⟩ := Option.map_eq_some_iff.mp hs'
      cases hs
    · cases h

theorem tokens_worded {cs : List Char} {p : Position} {ts : List Token} (h : tokens cs p = .ok ts) :
    ∀ t ∈ ts, t.Worded := by
  fun_induction tokens cs p generalizing ts with
  | case1 => cases h
  | case2 =>
    cases h
    intro t ht
    cases List.mem_singleton.mp ht
    exact nofun
  | case3 => cases h
  | case4 cs p c rest q hk s hs ih =>
    cases ht : tokens s.rest (q.after s.lexeme) with
    | error e =>
      rw [ht] at h
      cases h
    | ok us =>
      rw [ht] at h
      cases h
      intro t hm
      rcases List.mem_cons.mp hm with rfl | hm
      · exact fun hkind => scan_worded hs hkind
      · exact ih ht t hm

/-- The last token of a text is its end. -/
theorem tokens_end {cs : List Char} {p : Position} {ts : List Token}
    (h : tokens cs p = .ok ts) : ∃ us q, ts = us ++ [⟨.eof, "", q⟩] := by
  fun_induction tokens cs p generalizing ts with
  | case1 => cases h
  | case2 p cs q =>
    cases h
    exact ⟨[], q, rfl⟩
  | case3 => cases h
  | case4 cs p c rest q hk s hs ih =>
    cases ht : tokens s.rest (q.after s.lexeme) with
    | error e =>
      rw [ht] at h
      cases h
    | ok us =>
      rw [ht] at h
      cases h
      obtain ⟨vs, r, rfl⟩ := ih ht
      exact ⟨_ :: vs, r, rfl⟩

end Lexer

theorem tokenize_end {source : String} {file : Option String} {ts : List Token}
    (h : tokenize source file = .ok ts) : ∃ us q, ts = us ++ [⟨.eof, "", q⟩] := by
  rw [tokenize] at h
  cases hl : Lexer.tokens source.toList .start with
  | error e =>
    rw [hl] at h
    cases h
  | ok us =>
    rw [hl] at h
    cases h
    exact Lexer.tokens_end hl

theorem tokenize_worded {source : String} {file : Option String} {ts : List Token}
    (h : tokenize source file = .ok ts) : ∀ t ∈ ts, t.Worded := by
  rw [tokenize] at h
  cases hl : Lexer.tokens source.toList .start with
  | error e =>
    rw [hl] at h
    cases h
  | ok us =>
    rw [hl] at h
    cases h
    exact Lexer.tokens_worded hl

/-! ## Trees -/

mutual

/-- Whether all names in an expression are words. -/
inductive Expr.Worded : Expr → Prop where
  | literal {s : Scalar} {line : Nat} : Expr.Worded (.literal s line)
  | ident {name : String} {line : Nat} : IsWord name → Expr.Worded (.ident name line)
  | array {items : List Expr} {line : Nat} : (∀ e ∈ items, Expr.Worded e) →
      Expr.Worded (.array items line)
  | unary {op : UnaryOp} {operand : Expr} {line : Nat} : Expr.Worded operand →
      Expr.Worded (.unary op operand line)
  | binary {op : BinaryOp} {left right : Expr} {line : Nat} : Expr.Worded left → Expr.Worded right →
      Expr.Worded (.binary op left right line)
  | member {obj : Expr} {name : String} {line : Nat} : Expr.Worded obj → IsWord name →
      Expr.Worded (.member obj name line)
  | call {callee : Expr} {args : List Expr} {line : Nat} : Expr.Worded callee →
      (∀ e ∈ args, Expr.Worded e) → Expr.Worded (.call callee args line)
  | node {kind : String} {args : List Expr} {props : List Property} {body : List Stmt}
      {line : Nat} : IsWord kind → (∀ e ∈ args, Expr.Worded e) → (∀ p ∈ props, IsWord p.name) →
      (∀ p ∈ props, Expr.Worded p.value) → (∀ s ∈ body, Stmt.Worded s) →
      Expr.Worded (.node kind args props body line)

/-- Whether all names in a statement are words. -/
inductive Stmt.Worded : Stmt → Prop where
  | expr {e : Expr} {line : Nat} : Expr.Worded e → Stmt.Worded (.expr e line)
  | bind {name : String} {value : Expr} {type : Option String} {mutable : Bool} {line : Nat} :
      IsWord name → Expr.Worded value → Stmt.Worded (.bind name value type mutable line)
  | assign {target : Target} {op : AssignOp} {value : Expr} {line : Nat} :
      Expr.Worded target.toExpr → Expr.Worded value → Stmt.Worded (.assign target op value line)
  | choose {subject : Expr} {arms : List Arm} {line : Nat} : Expr.Worded subject →
      (∀ a ∈ arms, ∀ p, a.pattern = some p → Expr.Worded p) →
      (∀ a ∈ arms, ∀ s ∈ a.body, Stmt.Worded s) → Stmt.Worded (.choose subject arms line)
  | each {name : String} {items : Expr} {body : List Stmt} {line : Nat} : IsWord name →
      Expr.Worded items → (∀ s ∈ body, Stmt.Worded s) → Stmt.Worded (.each name items body line)
  | fn {decl : FnDecl} : IsWord decl.name → (∀ p ∈ decl.paramNames, IsWord p) →
      (∀ s ∈ decl.body, Stmt.Worded s) → Stmt.Worded (.fn decl)
  | type {decl : TypeDecl} : IsWord decl.name → (∀ m ∈ decl.members, IsWord m.name) →
      (∀ m ∈ decl.members, ∀ e, m.default = some e → Expr.Worded e) →
      (∀ fn ∈ decl.methods, Stmt.Worded (.fn fn)) → Stmt.Worded (.type decl)

end

/-- Whether all names in a list of expressions are words. -/
abbrev WordedItems (es : List Expr) : Prop := ∀ e ∈ es, e.Worded

abbrev WordedBody (ss : List Stmt) : Prop := ∀ s ∈ ss, s.Worded

namespace Parser

variable {α β : Type} {Q : α → Prop} {R : β → Prop}

/-- Whether the tokens ahead are words, as far as they are identifiers. -/
structure Worded (s : Stream) : Prop where
  ahead : ∀ t ∈ s.ahead, t.Worded
  last : s.last.Worded

/-- Whether a rule makes something that has a property, if the tokens that it reads are words. -/
def Gives (Q : α → Prop) (x : Parser α) : Prop :=
  ∀ s, Worded s → ∀ a s', x s = .ok (a, s') → Q a ∧ Worded s'

theorem gives_pure {a : α} (h : Q a) : Gives Q (pure a : Parser α) := by
  intro s hs b s' hb
  cases hb
  exact ⟨h, hs⟩

theorem gives_bind {x : Parser α} {f : α → Parser β} (hx : Gives Q x)
    (hf : ∀ a, Q a → Gives R (f a)) : Gives R (x >>= f) := by
  intro s hs b s' hb
  cases hr : x s with
  | error e =>
    rw [show (x >>= f) s = (x s >>= fun r => f r.1 r.2) from rfl, hr] at hb
    cases hb
  | ok r =>
    rw [show (x >>= f) s = (x s >>= fun r => f r.1 r.2) from rfl, hr] at hb
    obtain ⟨hq, hs'⟩ := hx s hs r.1 r.2 hr
    exact hf r.1 hq r.2 hs' b s' hb

theorem gives_map {x : Parser α} {f : α → β} (hx : Gives Q x) (hf : ∀ a, Q a → R (f a)) :
    Gives R (f <$> x) := by
  rw [← bind_pure_comp]
  exact gives_bind hx fun a ha => gives_pure (hf a ha)

theorem gives_throw (f : Fault) : Gives Q (throw f : Parser α) := fun _ _ _ _ h => nomatch h

theorem gives_any {x : Parser α} (h : Gives Q x) : Gives (fun _ => True) x :=
  fun s hs a s' ha => ⟨trivial, (h s hs a s' ha).2⟩

/-! ## Single tokens -/

theorem worded_head {s : Stream} (hs : Worded s) : (s.ahead.head?.getD s.last).Worded := by
  cases hh : s.ahead with
  | nil => exact hs.last
  | cons t rest => exact hs.ahead t (hh ▸ List.mem_cons_self)

theorem gives_peek : Gives Token.Worded peek := by
  intro s hs a s' h
  cases h
  exact ⟨worded_head hs, hs⟩

/-- The token that a rule looks at is the next one of the stream that the rule goes on with. -/
theorem gives_peek_at {f : Token → Parser α}
    (hf : ∀ s, Worded s → ∀ a s', f (s.ahead.head?.getD s.last) s = .ok (a, s') →
      Q a ∧ Worded s') : Gives Q (peek >>= f) := hf

theorem gives_peekSecond : Gives Token.Worded peekSecond := by
  intro s hs a s' h
  cases h
  refine ⟨?_, hs⟩
  cases hh : s.ahead[1]? with
  | none => exact hs.last
  | some t => exact hs.ahead t (List.mem_of_getElem? hh)

theorem gives_advance : Gives Token.Worded advance := by
  intro s hs a s' h
  cases h
  exact ⟨worded_head hs, ⟨fun t ht => hs.ahead t (List.mem_of_mem_tail ht), hs.last⟩⟩

theorem gives_after_advance {f : Token → Parser α} {s s' : Stream} {a : α} (hs : Worded s)
    (hf : Gives Q (f (s.ahead.head?.getD s.last))) (h : (advance >>= f) s = .ok (a, s')) :
    Q a ∧ Worded s' :=
  hf _ (gives_advance s hs _ _ rfl).2 a s' h

theorem gives_failAt (cause : Cause) (token : Token) : Gives Q (failAt cause token) :=
  gives_throw _

theorem gives_ite {c : Prop} [Decidable c] {x y : Parser α} (hx : c → Gives Q x)
    (hy : ¬ c → Gives Q y) : Gives Q (if c then x else y) := by
  split
  · exact hx ‹_›
  · exact hy ‹_›

theorem gives_expectOp (symbol : String) : Gives (fun _ => True) (expectOp symbol) :=
  gives_bind gives_peek fun _ _ =>
    gives_ite (fun _ => gives_any gives_advance) fun _ => gives_failAt _ _

theorem gives_expectKeyword (word : String) : Gives (fun _ => True) (expectKeyword word) :=
  gives_bind gives_peek fun _ _ =>
    gives_ite (fun _ => gives_any gives_advance) fun _ => gives_failAt _ _

/-- A name is the text of an identifier. -/
theorem gives_expectName : Gives (fun t => IsWord t.text) expectName := by
  intro s hs a s' h
  have hrun : expectName s = (if (s.ahead.head?.getD s.last).kind = .ident then advance s
      else failAt (.expectedName (s.ahead.head?.getD s.last)) (s.ahead.head?.getD s.last) s) := by
    show (if (s.ahead.head?.getD s.last).kind = .ident then advance else failAt _ _) s = _
    split <;> rfl
  rw [hrun] at h
  split at h
  · next hk =>
    have ha := (gives_advance s hs a s' h).2
    cases h
    exact ⟨worded_head hs hk, ha⟩
  · cases h

theorem gives_skip : Gives (fun _ => True) skipSeparators := by
  intro s hs a s' h
  cases h
  exact ⟨trivial, ⟨fun t ht => hs.ahead t ((List.dropWhile_sublist _).subset ht), hs.last⟩⟩

theorem gives_rounds : Gives (fun _ => True) rounds := by
  intro s hs a s' h
  cases h
  exact ⟨trivial, hs⟩

theorem gives_number {ε : Except NumberFault α} : Gives (fun _ => True) (number ε) := by
  cases ε with
  | ok a => exact gives_pure trivial
  | error e => exact gives_throw _

/-! ## Loops -/

theorem gives_itemsWithin (cause : Cause) {item : Parser α} (hi : Gives Q item) (n : Nat) :
    Gives (fun as => ∀ a ∈ as, Q a) (itemsWithin cause item n) := by
  induction n with
  | zero => exact gives_bind gives_peek fun _ _ => gives_failAt _ _
  | succ n ih =>
    refine gives_bind gives_peek fun _ _ => gives_ite (fun _ => gives_pure ?_) fun _ =>
      gives_ite (fun _ => gives_failAt _ _) fun _ => ?_
    · exact fun _ h => nomatch h
    · exact gives_bind hi fun a ha => gives_bind gives_skip fun _ _ => gives_bind ih fun as has =>
        gives_pure (List.forall_mem_cons.mpr ⟨ha, has⟩)

theorem gives_braced (cause : Cause) {item : Parser α} (hi : Gives Q item) :
    Gives (fun as => ∀ a ∈ as, Q a) (braced cause item) :=
  gives_bind (gives_expectOp _) fun _ _ => gives_bind gives_skip fun _ _ =>
    gives_bind gives_rounds fun n _ => gives_bind (gives_itemsWithin cause hi (n + 1)) fun _ has =>
      gives_bind (gives_expectOp _) fun _ _ => gives_pure has

theorem gives_listedUpTo (close : String) {item : Parser α} (hi : Gives Q item) (n : Nat) :
    Gives (fun as => ∀ a ∈ as, Q a) (listedUpTo close item n) := by
  induction n with
  | zero => exact gives_bind gives_peek fun _ _ => gives_failAt _ _
  | succ n ih =>
    refine gives_bind gives_peek fun _ _ => gives_ite (fun _ => gives_pure ?_) fun _ => ?_
    · exact fun _ h => nomatch h
    · refine gives_bind hi fun a ha => gives_bind gives_peek fun _ _ => ?_
      have hrest : Gives (fun as => ∀ a ∈ as, Q a) (do
          let xs ← listedUpTo close item n
          return a :: xs) :=
        gives_bind ih fun as has => gives_pure (List.forall_mem_cons.mpr ⟨ha, has⟩)
      exact gives_ite (fun _ => hrest) fun _ => gives_bind (gives_expectOp _) fun _ _ => hrest

theorem gives_bracketed (opening close : String) {item : Parser α} (hi : Gives Q item) :
    Gives (fun as => ∀ a ∈ as, Q a) (bracketed opening close item) :=
  gives_bind (gives_expectOp _) fun _ _ => gives_bind gives_rounds fun n _ =>
    gives_bind (gives_listedUpTo close hi (n + 1)) fun _ has =>
      gives_bind (gives_expectOp _) fun _ _ => gives_pure has

theorem gives_chain (level : Nat) {operand : Parser Expr} (ho : Gives Expr.Worded operand)
    (n : Nat) : ∀ {left : Expr}, left.Worded → Gives Expr.Worded (chain level operand n left) := by
  induction n with
  | zero => exact fun hl => gives_pure hl
  | succ n ih =>
    intro left hl
    refine gives_bind gives_peek fun token _ => ?_
    split
    · exact gives_pure hl
    · exact gives_bind gives_advance fun _ _ => gives_bind ho fun right hr => ih (.binary hl hr)

theorem gives_suffixes {args : Parser (List Expr)} (ha : Gives WordedItems args) (n : Nat) :
    ∀ {e : Expr}, e.Worded → Gives Expr.Worded (suffixes args n e) := by
  induction n with
  | zero => exact fun he => gives_pure he
  | succ n ih =>
    intro e he
    refine gives_bind gives_peek fun token _ => gives_ite (fun _ => ?_) fun _ =>
      gives_ite (fun _ => ?_) fun _ => gives_pure he
    · exact gives_bind gives_advance fun _ _ => gives_bind gives_expectName fun name hn =>
        ih (.member he hn)
    · exact gives_bind ha fun xs hxs => gives_bind gives_peek fun next _ => ih (.call he hxs)

theorem gives_statementsToEnd {statement : Parser Stmt} (hs : Gives Stmt.Worded statement)
    (n : Nat) : Gives WordedBody (statementsToEnd statement n) := by
  induction n with
  | zero => exact gives_pure fun _ h => nomatch h
  | succ n ih =>
    refine gives_bind gives_peek fun _ _ => gives_ite (fun _ => gives_pure ?_) fun _ => ?_
    · exact fun _ h => nomatch h
    · exact gives_bind hs fun s hs => gives_bind gives_skip fun _ _ => gives_bind ih fun ss hss =>
        gives_pure (List.forall_mem_cons.mpr ⟨hs, hss⟩)

/-! ## Rules -/

theorem gives_typeName (d : Nat) : Gives (fun _ => True) (typeName d) := by
  induction d with
  | zero => exact gives_throw _
  | succ d ih =>
    refine gives_bind gives_peek fun _ _ => gives_ite (fun _ => ?_) fun _ => ?_
    · exact gives_bind gives_advance fun _ _ => gives_bind (gives_expectOp _) fun _ _ =>
        gives_bind ih fun _ _ => gives_pure trivial
    · exact gives_bind gives_expectName fun _ _ => gives_pure trivial

theorem gives_optionalType (d : Nat) : Gives (fun _ => True) (optionalType d) :=
  gives_bind gives_peek fun _ _ => gives_ite
    (fun _ => gives_bind (gives_typeName d) fun _ _ => gives_pure trivial)
    fun _ => gives_pure trivial

theorem gives_param (d : Nat) : Gives (fun p => IsWord p.1) (param d) :=
  gives_bind gives_expectName fun _ hn => gives_bind (gives_optionalType d) fun _ _ =>
    gives_pure hn

theorem gives_moreSpecs (n : Nat) : Gives (fun _ => True) (moreSpecs n) := by
  induction n with
  | zero => exact gives_pure trivial
  | succ n ih =>
    exact gives_bind gives_peek fun _ _ => gives_ite (fun _ => gives_bind gives_advance fun _ _ =>
      gives_bind gives_expectName fun _ _ => gives_bind ih fun _ _ => gives_pure trivial)
      fun _ => gives_pure trivial

theorem gives_specs : Gives (fun _ => True) specs :=
  gives_bind gives_peek fun _ _ => gives_ite (fun _ => gives_bind gives_advance fun _ _ =>
    gives_bind gives_expectName fun _ _ => gives_bind gives_rounds fun n _ =>
      gives_bind (gives_moreSpecs n) fun _ _ => gives_pure trivial) fun _ => gives_pure trivial

theorem mem_separate {γ : Type} (items : List (α ⊕ γ)) :
    (∀ a ∈ (separate items).1, Sum.inl a ∈ items) ∧
      ∀ c ∈ (separate items).2, Sum.inr c ∈ items := by
  induction items with
  | nil => exact ⟨(fun _ h => nomatch h), fun _ h => nomatch h⟩
  | cons item rest ih =>
    cases item with
    | inl a =>
      refine ⟨fun a' h => ?_, fun c h => List.mem_cons_of_mem _ (ih.2 c h)⟩
      rcases List.mem_cons.mp h with rfl | h
      · exact List.mem_cons_self
      · exact List.mem_cons_of_mem _ (ih.1 a' h)
    | inr c =>
      refine ⟨fun a h => List.mem_cons_of_mem _ (ih.1 a h), fun c' h => ?_⟩
      rcases List.mem_cons.mp h with rfl | h
      · exact List.mem_cons_self
      · exact List.mem_cons_of_mem _ (ih.2 c' h)

/-- Whether all names in a part of a tree that is neither expression nor statement are words. -/
abbrev WordedProperty (p : Property) : Prop := IsWord p.name ∧ p.value.Worded

abbrev WordedArm (a : Arm) : Prop :=
  (∀ p, a.pattern = some p → p.Worded) ∧ ∀ s ∈ a.body, s.Worded

abbrev WordedField (m : FieldDecl) : Prop := IsWord m.name ∧ ∀ e, m.default = some e → e.Worded

theorem ofExpr?_words {e : Expr} {t : Target} (he : e.Worded) (h : Target.ofExpr? e = some t) :
    t.toExpr.Worded := by
  cases e with
  | ident | member =>
    cases h
    exact he
  | _ => cases h

/-- What all rules of a depth make has words for names. -/
structure GivesWords (d : Nat) : Prop where
  expression (b : Bool) : Gives Expr.Worded (expression d b)
  binary (level : Nat) (b : Bool) : Gives Expr.Worded (binary d level b)
  unary (b : Bool) : Gives Expr.Worded (unary d b)
  suffixed (b : Bool) : Gives Expr.Worded (suffixed d b)
  arguments : Gives WordedItems (arguments d)
  primary (b : Bool) : Gives Expr.Worded (primary d b)
  /-- the rule for names is only used where a name stands -/
  named (b : Bool) (s : Stream) : Worded s → (s.ahead.head?.getD s.last).kind = .ident →
    ∀ e s', named d b s = .ok (e, s') → e.Worded ∧ Worded s'
  nodeBody (kind : String) :
    Gives (fun r => (∀ p ∈ r.1, WordedProperty p) ∧ WordedBody r.2) (nodeBody d kind)
  statement : Gives Stmt.Worded (statement d)
  block : Gives WordedBody (block d)
  binding : Gives Stmt.Worded (binding d)
  choice : Gives Stmt.Worded (choice d)
  arm : Gives WordedArm (arm d)
  iteration : Gives Stmt.Worded (iteration d)
  fnDecl : Gives (fun fn => Stmt.Worded (.fn fn)) (fnDecl d)
  fieldDecl : Gives WordedField (fieldDecl d)
  typeDecl : Gives Stmt.Worded (typeDecl d)

theorem givesWords_zero : GivesWords 0 where
  expression _ := gives_throw _
  binary _ _ := gives_throw _
  unary _ := gives_throw _
  suffixed _ := gives_throw _
  arguments := gives_throw _
  primary _ := gives_throw _
  named _ _ _ _ _ _ h := nomatch h
  nodeBody _ := gives_throw _
  statement := gives_throw _
  block := gives_throw _
  binding := gives_throw _
  choice := gives_throw _
  arm := gives_throw _
  iteration := gives_throw _
  fnDecl := gives_throw _
  fieldDecl := gives_throw _
  typeDecl := gives_throw _

section Step

variable {d : Nat} (ih : GivesWords d)

include ih

theorem binary_words (level : Nat) (b : Bool) : Gives Expr.Worded (binary (d + 1) level b) :=
  gives_ite (fun _ => ih.unary b) fun _ => gives_bind (ih.binary _ b) fun _ hl =>
    gives_bind gives_rounds fun n _ => gives_chain level (ih.binary _ b) n hl

theorem unary_words (b : Bool) : Gives Expr.Worded (unary (d + 1) b) := by
  refine gives_bind gives_peek fun token _ => ?_
  split
  · exact gives_bind gives_advance fun _ _ => gives_bind (ih.unary b) fun _ ho =>
      gives_pure (.unary ho)
  · exact ih.suffixed b

theorem suffixed_words (b : Bool) : Gives Expr.Worded (suffixed (d + 1) b) :=
  gives_bind (ih.primary b) fun _ he => gives_bind gives_rounds fun n _ =>
    gives_suffixes ih.arguments n he

theorem primary_words (b : Bool) : Gives Expr.Worded (primary (d + 1) b) := by
  -- a name is read where the next token is one, so the token is looked at in its place
  refine gives_peek_at fun s hs e s' => ?_
  generalize ht : s.ahead.head?.getD s.last = token
  have hliteral : ∀ v : Scalar, Gives Expr.Worded (do
      let _ ← advance
      return .literal v token.line) := fun v =>
    gives_bind gives_advance fun _ _ => gives_pure .literal
  cases hk : token.kind with
  | ident => exact ih.named b s hs (ht ▸ hk) e s'
  | int =>
    have hint : Gives Expr.Worded (do
        let _ ← advance
        let n ← number (Decimal.readWhole token.text)
        return .literal (.int n) token.line) :=
      gives_bind gives_advance fun _ _ => gives_bind gives_number fun _ _ => gives_pure .literal
    exact hint s hs e s'
  | float =>
    have hfloat : Gives Expr.Worded (do
        let _ ← advance
        let x ← number (Decimal.readFraction token.text)
        return .literal (.float x) token.line) :=
      gives_bind gives_advance fun _ _ => gives_bind gives_number fun _ _ => gives_pure .literal
    exact hfloat s hs e s'
  | str => exact hliteral _ s hs e s'
  | keyword =>
    exact gives_ite (fun _ => hliteral _) (fun _ => gives_ite (fun _ => hliteral _)
      fun _ => gives_failAt _ _) s hs e s'
  | op =>
    refine gives_ite (fun _ => ?_) (fun _ => gives_ite (fun _ => ?_)
      fun _ => gives_failAt _ _) s hs e s'
    · exact gives_bind gives_advance fun _ _ => gives_bind (ih.expression true) fun _ he =>
        gives_bind (gives_expectOp _) fun _ _ => gives_pure he
    · exact gives_bind (gives_bracketed _ _ (ih.expression b)) fun _ hes =>
        gives_pure (.array hes)
  | eof => exact gives_failAt _ _ s hs e s'

/-- A node with the body that follows, if one does. -/
theorem nodeTail_words {name : Token} {args : List Expr} (hn : IsWord name.text)
    (ha : WordedItems args) : Gives Expr.Worded (do
      let (props, body) ← nodeBody d name.text
      return .node name.text args props body name.line) :=
  gives_bind (ih.nodeBody name.text) fun _ hr =>
    gives_pure (.node hn ha (fun p hp => (hr.1 p hp).1) (fun p hp => (hr.1 p hp).2) hr.2)

theorem named_words (b : Bool) (s : Stream) (hs : Worded s)
    (hk : (s.ahead.head?.getD s.last).kind = .ident) (e : Expr) (s' : Stream)
    (h : named (d + 1) b s = .ok (e, s')) : e.Worded ∧ Worded s' := by
  have hn : IsWord (s.ahead.head?.getD s.last).text := worded_head hs hk
  have hnone : WordedItems [] := fun _ h => nomatch h
  refine gives_after_advance hs ?_ h
  refine gives_bind gives_peek fun next _ => gives_ite (fun _ => ?_) fun _ =>
    gives_ite (fun _ => ?_) fun _ => gives_ite (fun _ => ?_) fun _ => gives_pure (.ident hn)
  · have ha : WordedItems [Expr.literal (.str next.text) next.line] :=
      List.forall_mem_singleton.mpr .literal
    exact gives_bind gives_advance fun _ _ => gives_bind gives_peek fun _ _ =>
      gives_ite (fun _ => nodeTail_words ih hn ha) fun _ => gives_pure
        (.node hn ha (fun _ h => nomatch h) (fun _ h => nomatch h) fun _ h => nomatch h)
  · exact gives_bind ih.arguments fun _ ha => gives_bind gives_peek fun _ _ =>
      gives_ite (fun _ => nodeTail_words ih hn ha) fun _ => gives_pure (.call (.ident hn) ha)
  · exact nodeTail_words ih hn hnone

theorem nodeBody_words (kind : String) :
    Gives (fun r => (∀ p ∈ r.1, WordedProperty p) ∧ WordedBody r.2) (nodeBody (d + 1) kind) := by
  refine gives_bind (Q := fun items => ∀ item ∈ items, Sum.elim WordedProperty Stmt.Worded item)
    (gives_braced _ (gives_bind gives_peek fun token ht => gives_bind gives_peekSecond fun _ _ =>
      gives_ite (fun hc => ?_) fun _ => ?_)) fun items hitems => gives_pure ⟨?_, ?_⟩
  · have hk : token.kind = .ident := by
      rw [Bool.and_eq_true, decide_eq_true_eq] at hc
      exact hc.1
    exact gives_bind gives_advance fun _ _ => gives_bind gives_advance fun _ _ =>
      gives_bind (ih.expression true) fun _ he => gives_pure ⟨ht hk, he⟩
  · exact gives_bind ih.statement fun _ hs => gives_pure hs
  · exact fun p hp => hitems _ ((mem_separate items).1 p hp)
  · exact fun s hs => hitems _ ((mem_separate items).2 s hs)

theorem statement_words : Gives Stmt.Worded (statement (d + 1)) := by
  refine gives_bind gives_peek fun token _ => gives_ite (fun _ => ih.typeDecl) fun _ =>
    gives_ite (fun _ => ?_) fun _ => gives_ite (fun _ => ih.binding) fun _ =>
      gives_ite (fun _ => ih.choice) fun _ => gives_ite (fun _ => ih.iteration) fun _ => ?_
  · exact gives_bind ih.fnDecl fun _ hfn => gives_pure hfn
  · refine gives_bind (ih.expression true) fun e he => gives_bind gives_peek fun next _ => ?_
    split
    · exact gives_pure (.expr he)
    · refine gives_bind gives_advance fun _ _ => ?_
      split
      · exact gives_failAt _ _
      · exact gives_bind (ih.expression true) fun _ hv =>
          gives_pure (.assign (ofExpr?_words he ‹_›) hv)

theorem binding_words : Gives Stmt.Worded (binding (d + 1)) := by
  refine gives_bind gives_advance fun start _ => gives_bind gives_peek fun t _ => ?_
  -- whether it is marked or not, a name, a type and a value follow
  have hvalue : ∀ (name : Token) (type : Option String), IsWord name.text →
      Gives Stmt.Worded (do
        let _ ← expectOp "="
        let value ← expression d true
        return .bind name.text value type (start.text == "var" || t.isKeyword "mut") start.line) :=
    fun _ _ hn => gives_bind (gives_expectOp _) fun _ _ => gives_bind (ih.expression true)
      fun _ hv => gives_pure (.bind hn hv)
  refine gives_ite (fun _ => gives_bind gives_advance fun _ _ => ?_) fun _ => ?_
  all_goals
    refine gives_bind gives_expectName fun name hn => gives_bind gives_peek fun _ _ =>
      gives_ite (fun _ => ?_) fun _ => ?_
  all_goals first
    | exact gives_bind (Q := fun _ => True) (gives_pure trivial) fun type _ => hvalue name type hn
    | exact gives_bind (Q := fun _ => True) (gives_map (gives_typeName d) fun _ _ => trivial)
        fun type _ => hvalue name type hn

theorem choice_words : Gives Stmt.Worded (choice (d + 1)) :=
  gives_bind (gives_expectKeyword _) fun _ _ => gives_bind (ih.expression false) fun _ hs =>
    gives_bind (gives_braced _ ih.arm) fun _ harms =>
      gives_pure (.choose hs (fun a ha => (harms a ha).1) fun a ha => (harms a ha).2)

theorem arm_words : Gives WordedArm (arm (d + 1)) := by
  refine gives_bind gives_peek fun t _ => ?_
  have hbody : ∀ pattern : Option Expr, (∀ p, pattern = some p → p.Worded) →
      Gives WordedArm (do
        let _ ← expectOp "=>"
        let body ← if (← peek).isOp "\x7b" then block d else List.singleton <$> statement d
        return ⟨pattern, body, t.line⟩) :=
    fun _ hp => gives_bind (gives_expectOp _) fun _ _ => gives_bind gives_peek fun _ _ =>
      gives_ite (fun _ => gives_bind ih.block fun _ hb => gives_pure ⟨hp, hb⟩) fun _ =>
        gives_bind (gives_map ih.statement fun _ hs => List.forall_mem_singleton.mpr hs)
          fun _ hb => gives_pure ⟨hp, hb⟩
  refine gives_ite (fun _ => gives_bind gives_advance fun _ _ => ?_) fun _ => ?_
  · exact gives_bind (Q := (· = none)) (gives_pure rfl) fun pattern hp =>
      hbody pattern (by rw [hp]; exact nofun)
  · refine gives_bind (Q := fun pattern => ∀ p, pattern = some p → p.Worded)
      (gives_map (ih.expression false) fun e he p hp => ?_) fun pattern hp => hbody pattern hp
    cases hp
    exact he

theorem iteration_words : Gives Stmt.Worded (iteration (d + 1)) :=
  gives_bind (gives_expectKeyword _) fun _ _ => gives_bind gives_expectName fun _ hn =>
    gives_bind (gives_expectKeyword _) fun _ _ => gives_bind (ih.expression false) fun _ hi =>
      gives_bind ih.block fun _ hb => gives_pure (.each hn hi hb)

theorem fnDecl_words : Gives (fun fn => Stmt.Worded (.fn fn)) (fnDecl (d + 1)) :=
  gives_bind (gives_expectKeyword _) fun _ _ => gives_bind gives_expectName fun _ hn =>
    gives_bind (gives_bracketed _ _ (gives_param d)) fun _ hps =>
      gives_bind (gives_optionalType d) fun _ _ => gives_bind ih.block fun _ hb =>
        gives_pure (.fn hn (by simpa [FnDecl.paramNames] using hps) hb)

theorem fieldDecl_words : Gives WordedField (fieldDecl (d + 1)) := by
  refine gives_bind gives_expectName fun _ hn => gives_bind (gives_typeName d) fun _ _ =>
    gives_bind gives_peek fun _ _ => gives_ite (fun _ => ?_) fun _ => gives_pure ⟨hn, nofun⟩
  exact gives_bind gives_advance fun _ _ => gives_bind (ih.expression true) fun _ hv =>
    gives_pure ⟨hn, fun e he => by cases he; exact hv⟩

theorem typeDecl_words : Gives Stmt.Worded (typeDecl (d + 1)) := by
  refine gives_bind (gives_expectKeyword _) fun _ _ => gives_bind gives_expectName fun _ hn =>
    gives_bind gives_specs fun _ _ => gives_bind
      (Q := fun items => ∀ item ∈ items, Sum.elim WordedField (fun fn => Stmt.Worded (.fn fn)) item)
      (gives_braced _ (gives_bind gives_peek fun _ _ => gives_ite (fun _ => ?_) fun _ => ?_))
      fun items hitems => gives_pure (.type hn ?_ ?_ ?_)
  · exact gives_bind ih.fnDecl fun _ hfn => gives_pure hfn
  · exact gives_bind ih.fieldDecl fun _ hm => gives_pure hm
  · exact fun m hm => (hitems _ ((mem_separate items).1 m hm)).1
  · exact fun m hm => (hitems _ ((mem_separate items).1 m hm)).2
  · exact fun fn hfn => hitems _ ((mem_separate items).2 fn hfn)

theorem givesWords_succ : GivesWords (d + 1) where
  expression b := ih.binary 0 b
  binary := binary_words ih
  unary := unary_words ih
  suffixed := suffixed_words ih
  arguments := gives_bracketed _ _ (ih.expression true)
  primary := primary_words ih
  named := named_words ih
  nodeBody := nodeBody_words ih
  statement := statement_words ih
  block := gives_braced _ ih.statement
  binding := binding_words ih
  choice := choice_words ih
  arm := arm_words ih
  iteration := iteration_words ih
  fnDecl := fnDecl_words ih
  fieldDecl := fieldDecl_words ih
  typeDecl := typeDecl_words ih

end Step

/-- What the rules of any depth make has words for names. -/
theorem givesWords (d : Nat) : GivesWords d := by
  induction d with
  | zero => exact givesWords_zero
  | succ d ih => exact givesWords_succ ih

theorem gives_code (d : Nat) : Gives WordedBody (code d) :=
  gives_bind gives_skip fun _ _ => gives_bind gives_rounds fun n _ =>
    gives_statementsToEnd (givesWords d).statement n

end Parser

/-- **All names in a parsed text are words.** -/
theorem parse_worded {source : String} {file : Option String} {c : Code}
    (h : parse source file = .ok c) : ∀ s ∈ c.stmts, s.Worded := by
  rw [parse, Parser.run] at h
  cases ht : tokenize source file with
  | error e =>
    rw [ht] at h
    cases h
  | ok ts =>
    simp only [ht] at h
    have htokens := tokenize_worded ht
    have hstream : Parser.Worded (Stream.ofTokens ts) := by
      refine ⟨fun t hm => htokens t (List.dropLast_subset _ hm), ?_⟩
      show (ts.getLast?.getD _).Worded
      cases hlast : ts.getLast? with
      | none => exact nofun
      | some t => exact htokens t (List.mem_of_getLast? hlast)
    cases hr : StateT.run (Parser.code nestingLimit) (Stream.ofTokens ts) with
    | error e =>
      rw [hr] at h
      cases h
    | ok r =>
      rw [hr] at h
      cases h
      exact (Parser.gives_code nestingLimit _ hstream r.1 r.2 hr).1

end Widgetry
