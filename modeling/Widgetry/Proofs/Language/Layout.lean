import Widgetry.Proofs.Language.Reads
import Widgetry.Proofs.Language.Words

/-!
# Layout does not matter

Where the words of a text stand does not change how it is parsed, but for one thing: a quoted text
right behind a name is the name's argument if the two stand on one line.

> `parse_layout`: two texts with the same words, of which the same quoted texts stand on the line of
> the name before them, are parsed to the same tree, but for its lines, or are refused with the same
> message.

The parser runs on both texts at once, and the two runs stay together (`Agrees`): what they make
differs in lines only, and what lies ahead of them still has the same words. Only the rule for names
looks at a line.
-/

namespace Widgetry

/-! ## The same words -/

/-- For each quoted text right behind a name, whether the two stand on one line. -/
def joints : List Token → List Bool
  | t :: u :: rest =>
    if t.kind = .ident ∧ u.kind = .str then decide (u.line = t.line) :: joints (u :: rest)
    else joints (u :: rest)
  | _ => []

/-- Whether two lists of tokens have the same words, and the same joints between them. -/
structure SameWords (ts us : List Token) : Prop where
  lexemes : ts.map Token.lexeme = us.map Token.lexeme
  joints : joints ts = joints us

instance (ts us : List Token) : Decidable (SameWords ts us) :=
  decidable_of_iff (ts.map Token.lexeme = us.map Token.lexeme ∧ joints ts = joints us)
    ⟨fun h => ⟨h.1, h.2⟩, fun h => ⟨h.lexemes, h.joints⟩⟩

theorem Token.kind_eq {t u : Token} (h : t.lexeme = u.lexeme) : t.kind = u.kind :=
  congrArg Lexeme.kind h

/-- Tokens that say the same differ in their places only. -/
theorem Token.of_lexeme {P : Token → Token → Prop} {t u : Token} (h : t.lexeme = u.lexeme)
    (hP : ∀ kind text p q, P ⟨kind, text, p⟩ ⟨kind, text, q⟩) : P t u := by
  obtain ⟨kind, text, p⟩ := t
  obtain ⟨kind', text', q⟩ := u
  cases h
  exact hP kind text p q

/-- A last token that is no quoted text takes part in no joint. -/
theorem joints_concat {e : Token} (he : e.kind ≠ .str) (ts : List Token) :
    joints (ts ++ [e]) = joints ts := by
  induction ts with
  | nil => rfl
  | cons t ts ih =>
    cases ts with
    | nil => exact if_neg fun h => he h.2
    | cons u rest =>
      show (if _ then _ :: joints (u :: rest ++ [e]) else joints (u :: rest ++ [e])) = _
      rw [ih]
      rfl

namespace SameWords

variable {t t' u u' : Token} {ts us : List Token}

theorem length (h : SameWords ts us) : ts.length = us.length := by
  simpa using congrArg List.length h.lexemes

theorem head (h : SameWords (t :: ts) (u :: us)) : t.lexeme = u.lexeme :=
  (List.cons.inj h.lexemes).1

theorem tail (h : SameWords (t :: ts) (u :: us)) : SameWords ts us := by
  have hrest : ts.map Token.lexeme = us.map Token.lexeme := (List.cons.inj h.lexemes).2
  refine ⟨hrest, ?_⟩
  have hj : Widgetry.joints (t :: ts) = Widgetry.joints (u :: us) := h.joints
  match ts, us, hrest, hj with
  | [], [], _, _ => rfl
  | t' :: ts, u' :: us, hrest, hj =>
    have ht : t.kind = u.kind := Token.kind_eq h.head
    have ht' : t'.kind = u'.kind := Token.kind_eq (List.cons.inj hrest).1
    rw [Widgetry.joints, Widgetry.joints, ← ht, ← ht'] at hj
    split at hj
    · exact (List.cons.inj hj).2
    · exact hj

/-- A quoted text stands on the line of the name before it in both lists or in neither. -/
theorem joint (h : SameWords (t :: t' :: ts) (u :: u' :: us)) (ht : t.kind = .ident)
    (ht' : t'.kind = .str) : t'.line = t.line ↔ u'.line = u.line := by
  have hj := h.joints
  rw [Widgetry.joints, Widgetry.joints, if_pos ⟨ht, ht'⟩, if_pos
    ⟨Token.kind_eq h.head ▸ ht, Token.kind_eq h.tail.head ▸ ht'⟩] at hj
  exact decide_eq_decide.mp (List.cons.inj hj).1

theorem dropWhile {p : Token → Bool} (hp : ∀ t u : Token, t.lexeme = u.lexeme → p t = p u) :
    ∀ {ts us : List Token}, SameWords ts us → SameWords (ts.dropWhile p) (us.dropWhile p)
  | [], [], h => h
  | t :: ts, u :: us, h => by
    rw [List.dropWhile_cons, List.dropWhile_cons, ← hp t u h.head]
    split
    · exact dropWhile hp h.tail
    · exact h

end SameWords

/-! ## Trees that differ in lines -/

def Property.atLine (n : Nat) (p : Property) : Property := ⟨p.name, p.value.atLine n, n⟩

def Arm.atLine (n : Nat) (a : Arm) : Arm :=
  ⟨a.pattern.map (Expr.atLine n), a.body.map (Stmt.atLine n), n⟩

def FieldDecl.atLine (n : Nat) (m : FieldDecl) : FieldDecl :=
  ⟨m.name, m.type, m.default.map (Expr.atLine n), n⟩

theorem Expr.optionAtLine_eq (n : Nat) (e : Option Expr) :
    Expr.optionAtLine n e = e.map (Expr.atLine n) := by cases e <;> rfl

/-- A list is put on a line part by part. -/
theorem map_of_cons {α : Type} {all : List α → List α} {one : α → α} (hnil : all [] = [])
    (hcons : ∀ a as, all (a :: as) = one a :: all as) (as : List α) : all as = as.map one := by
  induction as with
  | nil => exact hnil
  | cons a as ih => rw [hcons, ih, List.map_cons]

section Lists

variable (n : Nat)

theorem Expr.allAtLine_eq : Expr.allAtLine n = List.map (Expr.atLine n) :=
  funext (map_of_cons (by rw [Expr.allAtLine]) fun _ _ => by rw [Expr.allAtLine])

theorem Stmt.allAtLine_eq : Stmt.allAtLine n = List.map (Stmt.atLine n) :=
  funext (map_of_cons (by rw [Stmt.allAtLine]) fun _ _ => by rw [Stmt.allAtLine])

theorem Property.allAtLine_eq : Property.allAtLine n = List.map (Property.atLine n) :=
  funext (map_of_cons (by rw [Property.allAtLine]) fun ⟨_, _, _⟩ _ => by
    rw [Property.allAtLine, Property.atLine])

theorem Arm.allAtLine_eq : Arm.allAtLine n = List.map (Arm.atLine n) :=
  funext (map_of_cons (by rw [Arm.allAtLine]) fun ⟨_, _, _⟩ _ => by
    rw [Arm.allAtLine, Arm.atLine, Expr.optionAtLine_eq, Stmt.allAtLine_eq])

theorem FnDecl.allAtLine_eq : FnDecl.allAtLine n = List.map (FnDecl.atLine n) :=
  funext (map_of_cons (by rw [FnDecl.allAtLine]) fun _ _ => by rw [FnDecl.allAtLine])

theorem FieldDecl.allAtLine_eq : FieldDecl.allAtLine n = List.map (FieldDecl.atLine n) :=
  funext (map_of_cons (by rw [FieldDecl.allAtLine]) fun ⟨_, _, _, _⟩ _ => by
    rw [FieldDecl.allAtLine, FieldDecl.atLine, Expr.optionAtLine_eq])

end Lists

theorem Expr.isNode_atLine (n : Nat) (e : Expr) : (e.atLine n).isNode = e.isNode := by
  cases e <;> rfl

theorem Target.ofExpr?_atLine (n : Nat) (e : Expr) :
    Target.ofExpr? (e.atLine n) = (Target.ofExpr? e).map (Target.atLine n) := by
  cases e <;> simp [Target.ofExpr?, Target.atLine]

/-! ## Faults that say the same -/

/-- Whether two faults are of one kind and have one message, wherever they are. -/
inductive Fault.Alike : Fault → Fault → Prop where
  | source {e e' : SourceError} : e.phase = e'.phase → e.message = e'.message →
      Alike (.source e) (.source e')
  | number (e : NumberFault) : Alike (.number e) (.number e)

theorem Fault.Alike.inFile {e e' : Fault} (h : e.Alike e') (file file' : Option String) :
    (e.inFile file).Alike (e'.inFile file') := by
  cases h with
  | source hp hm => exact .source hp hm
  | number e => exact .number e

/-! ## Two runs -/

/-- Whether the same words lie ahead. -/
structure Stream.Alike (s s' : Stream) : Prop where
  ahead : SameWords s.ahead s'.ahead
  last : s.last.lexeme = s'.last.lexeme
  closed : s.last.kind ≠ .str

theorem Stream.Alike.next {s s' : Stream} (h : s.Alike s') :
    s.next.lexeme = s'.next.lexeme := by
  obtain ⟨ts, last⟩ := s
  obtain ⟨us, last'⟩ := s'
  match ts, us, h with
  | [], [], h => exact h.last
  | _ :: _, _ :: _, h => exact h.ahead.head

theorem Stream.Alike.tail {s s' : Stream} (h : s.Alike s') :
    Stream.Alike { s with ahead := s.ahead.tail } { s' with ahead := s'.ahead.tail } := by
  obtain ⟨ts, last⟩ := s
  obtain ⟨us, last'⟩ := s'
  match ts, us, h with
  | [], [], h => exact h
  | _ :: _, _ :: _, h => exact ⟨h.ahead.tail, h.last, h.closed⟩

namespace Parser

variable {α β γ δ : Type} {f : α → β} {g : γ → δ}

/-- Whether two runs end in the same way: with results that are the same to `f` and the same words
ahead, or with faults that say the same. -/
inductive Ends (f : α → β) : Except Fault (α × Stream) → Except Fault (α × Stream) → Prop where
  | done {a b : α} {s s' : Stream} : f a = f b → s.Alike s' → Ends f (.ok (a, s)) (.ok (b, s'))
  | failed {e e' : Fault} : e.Alike e' → Ends f (.error e) (.error e')

/-- Whether two rules end in the same way wherever the same words lie ahead of them. -/
def Agrees (f : α → β) (x y : Parser α) : Prop := ∀ s s', s.Alike s' → Ends f (x s) (y s')

/-- Whether a rule makes the same of the same words. -/
abbrev Steady (f : α → β) (x : Parser α) : Prop := Agrees f x x

theorem agrees_pure {a b : α} (hab : f a = f b) : Agrees f (pure a) (pure b) :=
  fun _ _ hs => .done hab hs

theorem agrees_bind {x y : Parser α} {k l : α → Parser γ} (hx : Agrees f x y)
    (hk : ∀ a b, f a = f b → Agrees g (k a) (l b)) : Agrees g (x >>= k) (y >>= l) := by
  intro s s' hs
  rw [show (x >>= k) s = (x s >>= fun r => k r.1 r.2) from rfl,
    show (y >>= l) s' = (y s' >>= fun r => l r.1 r.2) from rfl]
  have hr := hx s s' hs
  revert hr
  generalize x s = r, y s' = r'
  rintro (⟨hab, ht⟩ | he)
  · exact hk _ _ hab _ _ ht
  · exact .failed he

/-- What follows two equal results is followed from one of them. -/
theorem agrees_same {x y : Parser α} {k l : α → Parser γ} (hx : Agrees id x y)
    (hk : ∀ a, Agrees g (k a) (l a)) : Agrees g (x >>= k) (y >>= l) :=
  agrees_bind hx fun a b (hab : a = b) => hab ▸ hk a

theorem agrees_map {x y : Parser α} {k l : α → γ} (hx : Agrees f x y)
    (hk : ∀ a b, f a = f b → g (k a) = g (l b)) : Agrees g (k <$> x) (l <$> y) := by
  rw [← bind_pure_comp, ← bind_pure_comp]
  exact agrees_bind hx fun a b hab => agrees_pure (hk a b hab)

theorem agrees_throw {e e' : Fault} (he : e.Alike e') : Agrees f (throw e) (throw e') :=
  fun _ _ _ => .failed he

theorem agrees_failAt {cause cause' : Cause} (hc : cause.message = cause'.message) (t u : Token) :
    Agrees f (failAt cause t) (failAt cause' u) :=
  agrees_throw (.source rfl hc)

theorem agrees_ite {c : Prop} [Decidable c] {x x' y y' : Parser α} (hx : Agrees f x x')
    (hy : Agrees f y y') : Agrees f (if c then x else y) (if c then x' else y') := by
  split
  · exact hx
  · exact hy

/-! ## Single tokens -/

theorem agrees_peek : Steady Token.lexeme peek := fun _ _ hs => .done hs.next hs

theorem agrees_advance : Steady Token.lexeme advance := fun _ _ hs => .done hs.next hs.tail

theorem agrees_peekSecond : Steady Token.lexeme peekSecond := by
  rintro ⟨ts, last⟩ ⟨us, last'⟩ hs
  refine .done ?_ hs
  match ts, us, hs with
  | [], [], hs => exact hs.last
  | [_], [_], hs => exact hs.last
  | _ :: _ :: _, _ :: _ :: _, hs => exact hs.ahead.tail.head
  | [_], _ :: _ :: _, hs => exact nomatch hs.ahead.length
  | _ :: _ :: _, [_], hs => exact nomatch hs.ahead.length

/-- What follows a token may depend on what the token says. -/
theorem agrees_token {x y : Parser Token} {k l : Token → Parser α} (hx : Agrees Token.lexeme x y)
    (hk : ∀ kind text p q, Agrees f (k ⟨kind, text, p⟩) (l ⟨kind, text, q⟩)) :
    Agrees f (x >>= k) (y >>= l) :=
  agrees_bind hx fun _ _ ht => Token.of_lexeme (P := fun t u => Agrees f (k t) (l u)) ht hk

/-- The token that is looked at lies ahead of what follows. -/
theorem ends_peek {k l : Token → Parser α} {s s' : Stream} (hs : s.Alike s')
    (hk : ∀ kind text p q, s.next = ⟨kind, text, p⟩ →
      Ends f (k ⟨kind, text, p⟩ s) (l ⟨kind, text, q⟩ s')) :
    Ends f ((peek >>= k) s) ((peek >>= l) s') :=
  Token.of_lexeme (P := fun t u => s.next = t → Ends f (k t s) (l u s'))
    hs.next hk rfl

/-- What follows a name and the token behind it may depend on what the two say and, if the second is
a quoted text, on whether they stand on one line. -/
theorem ends_name {k l : Token → Token → Parser α} {s s' : Stream} (hs : s.Alike s')
    (hname : s.next.kind = .ident)
    (hk : ∀ name p q kind text p' q', (kind = .str → (p'.line = p.line ↔ q'.line = q.line)) →
      Agrees f (k ⟨.ident, name, p⟩ ⟨kind, text, p'⟩) (l ⟨.ident, name, q⟩ ⟨kind, text, q'⟩)) :
    Ends f ((advance >>= fun t => peek >>= k t) s) ((advance >>= fun t => peek >>= l t) s') := by
  have htokens : ∀ t u t' u' : Token, t.lexeme = u.lexeme → t'.lexeme = u'.lexeme →
      t.kind = .ident → (t'.kind = .str → (t'.line = t.line ↔ u'.line = u.line)) →
      Agrees f (k t t') (l u u') := by
    rintro ⟨_, _, _⟩ ⟨_, _, _⟩ ⟨_, _, _⟩ ⟨_, _, _⟩ ⟨⟩ ⟨⟩ rfl hline
    exact hk _ _ _ _ _ _ _ hline
  refine htokens _ _ _ _ hs.next hs.tail.next hname ?_ _ _ hs.tail
  obtain ⟨ts, last⟩ := s
  obtain ⟨us, last'⟩ := s'
  -- behind the last token ahead stands the end, which is no quoted text
  match ts, us, hs with
  | [], [], hs => exact fun h => absurd h hs.closed
  | [_], [_], hs => exact fun h => absurd h hs.closed
  | t :: t' :: _, u :: u' :: _, hs => exact hs.ahead.joint hname
  | [_], _ :: _ :: _, hs => exact nomatch hs.ahead.length
  | _ :: _ :: _, [_], hs => exact nomatch hs.ahead.length

theorem agrees_expectOp (symbol : String) : Steady Token.lexeme (expectOp symbol) :=
  agrees_token agrees_peek fun _ _ _ _ => agrees_ite agrees_advance (agrees_failAt (by rfl) _ _)

theorem agrees_expectKeyword (word : String) : Steady Token.lexeme (expectKeyword word) :=
  agrees_token agrees_peek fun _ _ _ _ => agrees_ite agrees_advance (agrees_failAt (by rfl) _ _)

theorem agrees_expectName : Steady Token.lexeme expectName :=
  agrees_token agrees_peek fun _ _ _ _ => agrees_ite agrees_advance (agrees_failAt (by rfl) _ _)

theorem agrees_skip : Steady id skipSeparators := fun _ _ hs =>
  .done rfl ⟨hs.ahead.dropWhile fun _ _ ht => Token.of_lexeme
    (P := fun t u => isSeparator t = isSeparator u) ht fun _ _ _ _ => rfl, hs.last, hs.closed⟩

theorem agrees_rounds : Steady id rounds := fun _ _ hs => .done hs.ahead.length hs

theorem agrees_number (r : Except NumberFault α) : Steady id (number r) := by
  cases r with
  | ok a => exact agrees_pure rfl
  | error e => exact agrees_throw (.number e)

/-! ## Loops -/

theorem agrees_itemsWithin {cause : Cause} {item : Parser α} (hi : Steady f item) (n : Nat) :
    Steady (List.map f) (itemsWithin cause item n) := by
  induction n with
  | zero => exact agrees_bind agrees_peek fun t u _ => agrees_failAt rfl t u
  | succ n ih =>
    refine agrees_token agrees_peek fun _ _ _ _ => agrees_ite (agrees_pure rfl) <| agrees_ite
      (agrees_failAt rfl _ _) <| agrees_bind hi fun a b hab => agrees_same agrees_skip fun _ =>
        agrees_bind ih fun as bs habs => agrees_pure ?_
    rw [List.map_cons, List.map_cons, hab, habs]

theorem agrees_braced {cause : Cause} {item : Parser α} (hi : Steady f item) :
    Steady (List.map f) (braced cause item) :=
  agrees_bind (agrees_expectOp _) fun _ _ _ => agrees_same agrees_skip fun _ =>
    agrees_same agrees_rounds fun n => agrees_bind (agrees_itemsWithin hi (n + 1))
      fun _ _ has => agrees_bind (agrees_expectOp _) fun _ _ _ => agrees_pure has

theorem agrees_listedUpTo (close : String) {item : Parser α} (hi : Steady f item) (n : Nat) :
    Steady (List.map f) (listedUpTo close item n) := by
  induction n with
  | zero => exact agrees_token agrees_peek fun _ _ _ _ => agrees_failAt (by rfl) _ _
  | succ n ih =>
    refine agrees_token agrees_peek fun _ _ _ _ => agrees_ite (agrees_pure rfl) <|
      agrees_bind hi fun a b hab => agrees_token agrees_peek fun _ _ _ _ => ?_
    have hrest : Agrees (List.map f) (do
          let xs ← listedUpTo close item n
          return a :: xs) (do
          let xs ← listedUpTo close item n
          return b :: xs) :=
      agrees_bind ih fun as bs habs => agrees_pure (by rw [List.map_cons, List.map_cons, hab, habs])
    exact agrees_ite hrest <| agrees_bind (agrees_expectOp _) fun _ _ _ => hrest

theorem agrees_bracketed (opening close : String) {item : Parser α} (hi : Steady f item) :
    Steady (List.map f) (bracketed opening close item) :=
  agrees_bind (agrees_expectOp _) fun _ _ _ => agrees_same agrees_rounds fun n =>
    agrees_bind (agrees_listedUpTo close hi (n + 1)) fun _ _ has =>
      agrees_bind (agrees_expectOp _) fun _ _ _ => agrees_pure has

theorem agrees_chain (level : Nat) {operand : Parser Expr} (ho : Steady (Expr.atLine 0) operand)
    (n : Nat) : ∀ {e e' : Expr}, e.atLine 0 = e'.atLine 0 →
      Agrees (Expr.atLine 0) (chain level operand n e) (chain level operand n e') := by
  induction n with
  | zero => exact fun he => agrees_pure he
  | succ n ih =>
    intro e e' he
    refine agrees_token agrees_peek fun kind text p q => ?_
    have hop : operatorAt? level ⟨kind, text, q⟩ = operatorAt? level ⟨kind, text, p⟩ := rfl
    rw [hop]
    split
    · exact agrees_pure he
    · exact agrees_bind agrees_advance fun _ _ _ => agrees_bind ho fun _ _ hr => ih (by
        rw [Expr.atLine, Expr.atLine, he, hr])

theorem agrees_suffixes {args : Parser (List Expr)} (ha : Steady (List.map (Expr.atLine 0)) args)
    (n : Nat) : ∀ {e e' : Expr}, e.atLine 0 = e'.atLine 0 →
      Agrees (Expr.atLine 0) (suffixes args n e) (suffixes args n e') := by
  induction n with
  | zero => exact fun he => agrees_pure he
  | succ n ih =>
    intro e e' he
    have hnode : e.isNode = e'.isNode := by
      rw [← Expr.isNode_atLine 0 e, he, Expr.isNode_atLine]
    simp only [suffixes, hnode]
    refine agrees_token agrees_peek fun _ _ _ _ => agrees_ite ?_ <| agrees_ite ?_ <| agrees_pure he
    · exact agrees_bind agrees_advance fun _ _ _ => agrees_token agrees_expectName fun _ _ _ _ =>
        ih (by rw [Expr.atLine, Expr.atLine, he])
    · exact agrees_bind ha fun _ _ hxs => agrees_bind agrees_peek fun _ _ _ => ih (by
        rw [Expr.atLine, Expr.atLine, he, Expr.allAtLine_eq, hxs])

theorem agrees_statementsToEnd {statement : Parser Stmt} (hs : Steady (Stmt.atLine 0) statement)
    (n : Nat) : Steady (List.map (Stmt.atLine 0)) (statementsToEnd statement n) := by
  induction n with
  | zero => exact agrees_pure rfl
  | succ n ih =>
    refine agrees_token agrees_peek fun _ _ _ _ => agrees_ite (agrees_pure rfl) <|
      agrees_bind hs fun s s' hss => agrees_same agrees_skip fun _ =>
        agrees_bind ih fun ss ss' hrest => agrees_pure ?_
    rw [List.map_cons, List.map_cons, hss, hrest]

/-! ## Rules -/

theorem agrees_tooDeep : Steady f tooDeep := agrees_throw (.source rfl rfl)

theorem agrees_typeName (d : Nat) : Steady id (typeName d) := by
  induction d with
  | zero => exact agrees_tooDeep
  | succ d ih =>
    refine agrees_token agrees_peek fun _ _ _ _ => agrees_ite ?_ ?_
    · exact agrees_bind agrees_advance fun _ _ _ => agrees_bind (agrees_expectOp _) fun _ _ _ =>
        agrees_same ih fun _ => agrees_pure rfl
    · exact agrees_token agrees_expectName fun _ _ _ _ => agrees_pure rfl

theorem agrees_optionalType (d : Nat) : Steady id (optionalType d) :=
  agrees_token agrees_peek fun _ _ _ _ => agrees_ite
    (agrees_same (agrees_typeName d) fun _ => agrees_pure rfl) (agrees_pure rfl)

theorem agrees_param (d : Nat) : Steady id (param d) :=
  agrees_token agrees_expectName fun _ _ _ _ => agrees_same (agrees_optionalType d)
    fun _ => agrees_pure rfl

theorem agrees_moreSpecs (n : Nat) : Steady id (moreSpecs n) := by
  induction n with
  | zero => exact agrees_pure rfl
  | succ n ih =>
    exact agrees_token agrees_peek fun _ _ _ _ => agrees_ite (agrees_bind agrees_advance
      fun _ _ _ => agrees_token agrees_expectName fun _ _ _ _ => agrees_same ih fun _ =>
        agrees_pure rfl) (agrees_pure rfl)

theorem agrees_specs : Steady id specs :=
  agrees_token agrees_peek fun _ _ _ _ => agrees_ite (agrees_bind agrees_advance fun _ _ _ =>
    agrees_token agrees_expectName fun _ _ _ _ => agrees_same agrees_rounds fun n =>
      agrees_same (agrees_moreSpecs n) fun _ => agrees_pure rfl) (agrees_pure rfl)

theorem separate_map (items : List (α ⊕ γ)) :
    separate (items.map (Sum.map f g)) = ((separate items).1.map f, (separate items).2.map g) := by
  induction items with
  | nil => rfl
  | cons item rest ih => cases item <;> simp [separate, ih]

/-- What all rules of a depth make depends on the words only. -/
structure SteadyRules (d : Nat) : Prop where
  expression (b : Bool) : Steady (Expr.atLine 0) (expression d b)
  binary (level : Nat) (b : Bool) : Steady (Expr.atLine 0) (binary d level b)
  unary (b : Bool) : Steady (Expr.atLine 0) (unary d b)
  suffixed (b : Bool) : Steady (Expr.atLine 0) (suffixed d b)
  arguments : Steady (List.map (Expr.atLine 0)) (arguments d)
  primary (b : Bool) : Steady (Expr.atLine 0) (primary d b)
  /-- the rule for names is only used where a name stands -/
  named (b : Bool) (s s' : Stream) : s.Alike s' → s.next.kind = .ident →
    Ends (Expr.atLine 0) (named d b s) (named d b s')
  nodeBody (kind : String) :
    Steady (Prod.map (List.map (Property.atLine 0)) (List.map (Stmt.atLine 0))) (nodeBody d kind)
  statement : Steady (Stmt.atLine 0) (statement d)
  block : Steady (List.map (Stmt.atLine 0)) (block d)
  binding : Steady (Stmt.atLine 0) (binding d)
  choice : Steady (Stmt.atLine 0) (choice d)
  arm : Steady (Arm.atLine 0) (arm d)
  iteration : Steady (Stmt.atLine 0) (iteration d)
  fnDecl : Steady (FnDecl.atLine 0) (fnDecl d)
  fieldDecl : Steady (FieldDecl.atLine 0) (fieldDecl d)
  typeDecl : Steady (Stmt.atLine 0) (typeDecl d)

theorem steadyRules_zero : SteadyRules 0 where
  expression _ := agrees_tooDeep
  binary _ _ := agrees_tooDeep
  unary _ := agrees_tooDeep
  suffixed _ := agrees_tooDeep
  arguments := agrees_tooDeep
  primary _ := agrees_tooDeep
  named _ _ _ hs _ := agrees_tooDeep _ _ hs
  nodeBody _ := agrees_tooDeep
  statement := agrees_tooDeep
  block := agrees_tooDeep
  binding := agrees_tooDeep
  choice := agrees_tooDeep
  arm := agrees_tooDeep
  iteration := agrees_tooDeep
  fnDecl := agrees_tooDeep
  fieldDecl := agrees_tooDeep
  typeDecl := agrees_tooDeep

section Step

variable {d : Nat} (ih : SteadyRules d)

include ih

theorem binary_steady (level : Nat) (b : Bool) :
    Steady (Expr.atLine 0) (binary (d + 1) level b) :=
  agrees_ite (ih.unary b) <| agrees_bind (ih.binary _ b) fun _ _ hl =>
    agrees_same agrees_rounds fun n => agrees_chain level (ih.binary _ b) n hl

theorem unary_steady (b : Bool) : Steady (Expr.atLine 0) (unary (d + 1) b) := by
  refine agrees_token agrees_peek fun kind text p q => ?_
  have hop : prefixOp? ⟨kind, text, q⟩ = prefixOp? ⟨kind, text, p⟩ := rfl
  rw [hop]
  split
  · exact agrees_bind agrees_advance fun _ _ _ => agrees_bind (ih.unary b) fun _ _ ho =>
      agrees_pure (by rw [Expr.atLine, Expr.atLine, ho])
  · exact ih.suffixed b

theorem suffixed_steady (b : Bool) : Steady (Expr.atLine 0) (suffixed (d + 1) b) :=
  agrees_bind (ih.primary b) fun _ _ he => agrees_same agrees_rounds fun n =>
    agrees_suffixes ih.arguments n he

theorem primary_steady (b : Bool) : Steady (Expr.atLine 0) (primary (d + 1) b) := by
  -- a name is read where the next token is one, so the token is looked at in its place
  intro s s' hs
  refine ends_peek hs fun kind text p q ht => ?_
  have hliteral : ∀ v : Scalar, Agrees (Expr.atLine 0) (do
      let _ ← advance
      return .literal v p.line) (do
      let _ ← advance
      return .literal v q.line) := fun v =>
    agrees_bind agrees_advance fun _ _ _ => agrees_pure (by rw [Expr.atLine, Expr.atLine])
  have hnumber : ∀ {β : Type} (r : Except NumberFault β) (v : β → Scalar),
      Agrees (Expr.atLine 0) (do
        let _ ← advance
        let n ← number r
        return .literal (v n) p.line) (do
        let _ ← advance
        let n ← number r
        return .literal (v n) q.line) := fun r v =>
    agrees_bind agrees_advance fun _ _ _ => agrees_same (agrees_number r) fun _ =>
      agrees_pure (by rw [Expr.atLine, Expr.atLine])
  cases kind with
  | ident => exact ih.named b s s' hs (by rw [ht])
  | int => exact hnumber (Decimal.readWhole text) (.int ·) s s' hs
  | float => exact hnumber (Decimal.readFraction text) .float s s' hs
  | str => exact hliteral (.str text) s s' hs
  | keyword =>
    exact agrees_ite (hliteral _) (agrees_ite (hliteral _) (agrees_failAt (by rfl) _ _)) s s' hs
  | op =>
    refine agrees_ite ?_ (agrees_ite ?_ (agrees_failAt (by rfl) _ _)) s s' hs
    · exact agrees_bind agrees_advance fun _ _ _ => agrees_bind (ih.expression true) fun _ _ he =>
        agrees_bind (agrees_expectOp _) fun _ _ _ => agrees_pure he
    · exact agrees_bind (agrees_bracketed _ _ (ih.expression b)) fun _ _ hes =>
        agrees_pure (by rw [Expr.atLine, Expr.atLine, Expr.allAtLine_eq, hes])
  | eof => exact agrees_failAt (by rfl) _ _ s s' hs

/-- A node with the body that follows, if one does. -/
theorem nodeTail_steady (kind : String) {args args' : List Expr}
    (ha : args.map (Expr.atLine 0) = args'.map (Expr.atLine 0)) (n n' : Nat) :
    Agrees (Expr.atLine 0) (do
      let (props, body) ← nodeBody d kind
      return .node kind args props body n) (do
      let (props, body) ← nodeBody d kind
      return .node kind args' props body n') := by
  refine agrees_bind (ih.nodeBody kind) fun r r' hr => agrees_pure ?_
  have hr : (r.1.map (Property.atLine 0), r.2.map (Stmt.atLine 0))
    = (r'.1.map (Property.atLine 0), r'.2.map (Stmt.atLine 0)) := hr
  rw [Expr.atLine, Expr.atLine, Expr.allAtLine_eq, Property.allAtLine_eq, Stmt.allAtLine_eq, ha,
    (Prod.mk.inj hr).1, (Prod.mk.inj hr).2]

theorem named_steady (b : Bool) (s s' : Stream) (hs : s.Alike s') (hk : s.next.kind = .ident) :
    Ends (Expr.atLine 0) (named (d + 1) b s) (named (d + 1) b s') := by
  refine ends_name hs hk fun name p q kind text p' q' hline => ?_
  have hcond : (kind = .str ∧ p'.line = p.line) = (kind = .str ∧ q'.line = q.line) :=
    propext (and_congr_right hline)
  have hnode : ∀ (props : List Property) (body : List Stmt) {args args' : List Expr},
      args.map (Expr.atLine 0) = args'.map (Expr.atLine 0) →
      (Expr.node name args props body p.line).atLine 0
        = (Expr.node name args' props body q.line).atLine 0 := fun props body args args' ha => by
    rw [Expr.atLine, Expr.atLine, Expr.allAtLine_eq, ha]
  show Agrees _ (if kind = .str ∧ p'.line = p.line then _ else _)
    (if kind = .str ∧ q'.line = q.line then _ else _)
  simp only [hcond]
  refine agrees_ite ?_ <| agrees_ite ?_ <| agrees_ite ?_ ?_
  · refine agrees_bind agrees_advance fun _ _ _ => agrees_token agrees_peek fun _ _ _ _ =>
      agrees_ite (nodeTail_steady ih name ?_ _ _) <| agrees_pure (hnode [] [] ?_)
    all_goals simp
  · refine agrees_bind ih.arguments fun args args' ha => agrees_token agrees_peek fun _ _ _ _ =>
      agrees_ite (nodeTail_steady ih name ha _ _) <| agrees_pure ?_
    simp [Expr.allAtLine_eq, ha]
  · exact nodeTail_steady ih name rfl _ _
  · exact agrees_pure (by simp)

theorem nodeBody_steady (kind : String) :
    Steady (Prod.map (List.map (Property.atLine 0)) (List.map (Stmt.atLine 0)))
      (nodeBody (d + 1) kind) := by
  refine agrees_bind (agrees_braced (f := Sum.map (Property.atLine 0) (Stmt.atLine 0))
    (agrees_token agrees_peek fun kind text p q => agrees_token agrees_peekSecond fun _ _ _ _ =>
      agrees_ite ?_ ?_)) fun items items' hi => agrees_pure ?_
  · exact agrees_bind agrees_advance fun _ _ _ => agrees_bind agrees_advance fun _ _ _ =>
      agrees_bind (ih.expression true) fun e e' he => agrees_pure (by
        simp [Property.atLine, he])
  · exact agrees_bind ih.statement fun _ _ hs => agrees_pure (by simp [hs])
  · have := separate_map (f := Property.atLine 0) (g := Stmt.atLine 0) items
    rw [hi, separate_map] at this
    exact this.symm

theorem statement_steady : Steady (Stmt.atLine 0) (statement (d + 1)) := by
  refine agrees_token agrees_peek fun kind text p q => agrees_ite ih.typeDecl <| agrees_ite ?_ <|
    agrees_ite ih.binding <| agrees_ite ih.choice <| agrees_ite ih.iteration ?_
  · exact agrees_bind ih.fnDecl fun _ _ hfn => agrees_pure (by rw [Stmt.atLine, Stmt.atLine, hfn])
  · refine agrees_bind (ih.expression true) fun e e' he =>
      agrees_token agrees_peek fun kind' text' p' q' => ?_
    have hop : assignOp? ⟨kind', text', q'⟩ = assignOp? ⟨kind', text', p'⟩ := rfl
    rw [hop]
    split
    · exact agrees_pure (by rw [Stmt.atLine, Stmt.atLine, he])
    · refine agrees_bind agrees_advance fun _ _ _ => ?_
      have ht : (Target.ofExpr? e).map (Target.atLine 0)
          = (Target.ofExpr? e').map (Target.atLine 0) := by
        rw [← Target.ofExpr?_atLine, he, Target.ofExpr?_atLine]
      cases h : Target.ofExpr? e with
      | none =>
        rw [h] at ht
        rw [Option.map_eq_none_iff.mp ht.symm]
        exact agrees_failAt (by rfl) _ _
      | some t =>
        rw [h] at ht
        obtain ⟨t', h', ht'⟩ := Option.map_eq_some_iff.mp ht.symm
        rw [h']
        exact agrees_bind (ih.expression true) fun v v' hv => agrees_pure (by
          rw [Stmt.atLine, Stmt.atLine, ht', hv])

theorem binding_steady : Steady (Stmt.atLine 0) (binding (d + 1)) := by
  refine agrees_token agrees_advance fun _ word p q => agrees_token agrees_peek
    fun kind text p' q' => ?_
  -- whether it is marked or not, a name, a type and a value follow
  have hvalue : ∀ name : String, ∀ type : Option String, Agrees (Stmt.atLine 0) (do
      let _ ← expectOp "="
      let value ← expression d true
      return .bind name value type
        (word == "var" || (⟨kind, text, p'⟩ : Token).isKeyword "mut") p.line) (do
      let _ ← expectOp "="
      let value ← expression d true
      return .bind name value type
        (word == "var" || (⟨kind, text, q'⟩ : Token).isKeyword "mut") q.line) := fun _ _ =>
    agrees_bind (agrees_expectOp _) fun _ _ _ => agrees_bind (ih.expression true) fun _ _ hv =>
      agrees_pure (by rw [Stmt.atLine, Stmt.atLine, hv]; rfl)
  refine agrees_ite (agrees_bind agrees_advance fun _ _ _ => ?_) ?_
  all_goals
    exact agrees_token agrees_expectName fun _ name _ _ => agrees_token agrees_peek fun _ _ _ _ =>
      agrees_ite (agrees_same (agrees_pure rfl) fun type => hvalue name type) <|
        agrees_same (agrees_map (agrees_typeName d) fun _ _ h => congrArg some h)
          fun type => hvalue name type

theorem choice_steady : Steady (Stmt.atLine 0) (choice (d + 1)) :=
  agrees_bind (agrees_expectKeyword _) fun _ _ _ => agrees_bind (ih.expression false) fun _ _ hs =>
    agrees_bind (agrees_braced ih.arm) fun _ _ harms => agrees_pure (by
      rw [Stmt.atLine, Stmt.atLine, Arm.allAtLine_eq, hs, harms])

theorem arm_steady : Steady (Arm.atLine 0) (arm (d + 1)) := by
  refine agrees_token agrees_peek fun kind text p q => ?_
  have hbody : ∀ {pattern pattern' : Option Expr},
      pattern.map (Expr.atLine 0) = pattern'.map (Expr.atLine 0) → Agrees (Arm.atLine 0) (do
        let _ ← expectOp "=>"
        let body ← if (← peek).isOp "\x7b" then block d else List.singleton <$> statement d
        return ⟨pattern, body, p.line⟩) (do
        let _ ← expectOp "=>"
        let body ← if (← peek).isOp "\x7b" then block d else List.singleton <$> statement d
        return ⟨pattern', body, q.line⟩) := by
    intro pattern pattern' hp
    have hmake : ∀ body body' : List Stmt,
        body.map (Stmt.atLine 0) = body'.map (Stmt.atLine 0) →
        Arm.atLine 0 ⟨pattern, body, p.line⟩ = Arm.atLine 0 ⟨pattern', body', q.line⟩ :=
      fun body body' hb => by rw [Arm.atLine, Arm.atLine, hp, hb]
    exact agrees_bind (agrees_expectOp _) fun _ _ _ => agrees_token agrees_peek fun _ _ _ _ =>
      agrees_ite (agrees_bind ih.block fun _ _ hb => agrees_pure (hmake _ _ hb)) <|
        agrees_bind (f := List.map (Stmt.atLine 0))
          (agrees_map ih.statement fun _ _ hs => congrArg List.singleton hs)
          fun _ _ hb => agrees_pure (hmake _ _ hb)
  refine agrees_ite (agrees_bind agrees_advance fun _ _ _ => ?_) ?_
  · exact agrees_same (agrees_pure rfl) fun pattern => hbody rfl
  · exact agrees_bind (f := Option.map (Expr.atLine 0))
      (agrees_map (ih.expression false) fun _ _ he => congrArg some he) fun _ _ hp => hbody hp

theorem iteration_steady : Steady (Stmt.atLine 0) (iteration (d + 1)) :=
  agrees_bind (agrees_expectKeyword _) fun _ _ _ => agrees_token agrees_expectName fun _ _ _ _ =>
    agrees_bind (agrees_expectKeyword _) fun _ _ _ => agrees_bind (ih.expression false)
      fun _ _ hi => agrees_bind ih.block fun _ _ hb => agrees_pure (by
        rw [Stmt.atLine, Stmt.atLine, Stmt.allAtLine_eq, hi, hb])

theorem fnDecl_steady : Steady (FnDecl.atLine 0) (fnDecl (d + 1)) :=
  agrees_bind (agrees_expectKeyword _) fun _ _ _ => agrees_token agrees_expectName fun _ _ _ _ =>
    agrees_same (List.map_id_fun ▸ agrees_bracketed _ _ (agrees_param d)) fun _ =>
      agrees_same (agrees_optionalType d) fun _ => agrees_bind ih.block fun _ _ hb =>
        agrees_pure (by rw [FnDecl.atLine, FnDecl.atLine, Stmt.allAtLine_eq, hb])

theorem fieldDecl_steady : Steady (FieldDecl.atLine 0) (fieldDecl (d + 1)) :=
  agrees_token agrees_expectName fun _ _ _ _ => agrees_same (agrees_typeName d) fun _ =>
    agrees_token agrees_peek fun _ _ _ _ => agrees_ite (agrees_bind agrees_advance fun _ _ _ =>
      agrees_bind (ih.expression true) fun _ _ hv => agrees_pure (by
        simp [FieldDecl.atLine, hv])) <| agrees_pure rfl

theorem typeDecl_steady : Steady (Stmt.atLine 0) (typeDecl (d + 1)) := by
  refine agrees_bind (agrees_expectKeyword _) fun _ _ _ => agrees_token agrees_expectName
    fun _ _ _ _ => agrees_same agrees_specs fun _ => agrees_bind
      (agrees_braced (f := Sum.map (FieldDecl.atLine 0) (FnDecl.atLine 0))
        (agrees_token agrees_peek fun _ _ _ _ => agrees_ite ?_ ?_))
      fun items items' hi => agrees_pure ?_
  · exact agrees_bind ih.fnDecl fun _ _ hfn => agrees_pure (by simp [hfn])
  · exact agrees_bind ih.fieldDecl fun _ _ hm => agrees_pure (by simp [hm])
  · have := separate_map (f := FieldDecl.atLine 0) (g := FnDecl.atLine 0) items
    rw [hi, separate_map] at this
    rw [Stmt.atLine, Stmt.atLine, TypeDecl.atLine, TypeDecl.atLine, FieldDecl.allAtLine_eq,
      FnDecl.allAtLine_eq, (Prod.mk.inj this).1, (Prod.mk.inj this).2]

theorem steadyRules_succ : SteadyRules (d + 1) where
  expression b := ih.binary 0 b
  binary := binary_steady ih
  unary := unary_steady ih
  suffixed := suffixed_steady ih
  arguments := agrees_bracketed _ _ (ih.expression true)
  primary := primary_steady ih
  named := named_steady ih
  nodeBody := nodeBody_steady ih
  statement := statement_steady ih
  block := agrees_braced ih.statement
  binding := binding_steady ih
  choice := choice_steady ih
  arm := arm_steady ih
  iteration := iteration_steady ih
  fnDecl := fnDecl_steady ih
  fieldDecl := fieldDecl_steady ih
  typeDecl := typeDecl_steady ih

end Step

/-- What the rules of any depth make depends on the words only. -/
theorem steadyRules (d : Nat) : SteadyRules d := by
  induction d with
  | zero => exact steadyRules_zero
  | succ d ih => exact steadyRules_succ ih

theorem agrees_code (d : Nat) : Steady (List.map (Stmt.atLine 0)) (code d) :=
  agrees_same agrees_skip fun _ => agrees_same agrees_rounds fun n =>
    agrees_statementsToEnd (steadyRules d).statement n

end Parser

/-! ## Whole texts -/

/-- Texts with the same words give the parser the same words. -/
theorem Stream.ofTokens_alike {ts us : List Token} {p q : Position}
    (h : SameWords (ts ++ [⟨.eof, "", p⟩]) (us ++ [⟨.eof, "", q⟩])) :
    (Stream.ofTokens (ts ++ [⟨.eof, "", p⟩])).Alike
      (Stream.ofTokens (us ++ [⟨.eof, "", q⟩])) := by
  have hend : ∀ r : Position, (⟨.eof, "", r⟩ : Token).kind ≠ .str := fun _ => nofun
  have hlexemes := h.lexemes
  have hjoints := h.joints
  rw [List.map_append, List.map_append] at hlexemes
  rw [joints_concat (hend p), joints_concat (hend q)] at hjoints
  refine ⟨?_, ?_, ?_⟩
  · rw [Stream.ofTokens, Stream.ofTokens, List.dropLast_concat, List.dropLast_concat]
    exact ⟨List.append_cancel_right hlexemes, hjoints⟩
  all_goals simp [Stream.ofTokens, Token.lexeme]

/-- **Layout does not matter**: two texts with the same words, in which the same quoted texts stand
on the line of the name before them, are both parsed, to trees that differ in lines only, or are
both refused, with faults that say the same. -/
theorem parse_layout {source source' : String} {file file' : Option String} {ts us : List Token}
    (hts : tokenize source file = .ok ts) (hus : tokenize source' file' = .ok us)
    (hsame : SameWords ts us) :
    (∃ c c', parse source file = .ok c ∧ parse source' file' = .ok c' ∧
      (c.atLine 0).stmts = (c'.atLine 0).stmts) ∨
    ∃ e e', parse source file = .error e ∧ parse source' file' = .error e' ∧ e.Alike e' := by
  obtain ⟨_, _, rfl⟩ := tokenize_end hts
  obtain ⟨_, _, rfl⟩ := tokenize_end hus
  have hends := Parser.agrees_code nestingLimit _ _ (Stream.ofTokens_alike hsame)
  simp only [parse, Parser.run, hts, hus, StateT.run]
  revert hends
  generalize Parser.code nestingLimit _ = r
  generalize Parser.code nestingLimit _ = r'
  rintro (⟨hstmts, -⟩ | he)
  · refine .inl ⟨_, _, rfl, rfl, ?_⟩
    rw [Code.atLine, Code.atLine, Stmt.allAtLine_eq]
    exact hstmts
  · exact .inr ⟨_, _, rfl, rfl, he.inFile file file'⟩

/-- A widget on three lines. -/
def threeLines : String :=
  "type W is Widget \x7b n int = 1\n fn view() \x7b text \"a\" \x7d\n\x7d"

/-- The same words on other lines; the text is still on the line of the name before it. -/
def manyLines : String :=
  "type W is Widget // a widget\n\x7b\n n\n int = 1 fn view(\n) \x7b\n text   \"a\"\n \x7d \x7d"

/-- They are parsed to one tree. -/
theorem manyLines_layout : ∃ ts us c c', tokenize threeLines none = .ok ts ∧
    tokenize manyLines none = .ok us ∧ SameWords ts us ∧ ts ≠ us ∧
    parse threeLines none = .ok c ∧ parse manyLines none = .ok c' ∧
    (c.atLine 0).stmts = (c'.atLine 0).stmts := by
  have hok : (parse threeLines none).isOk = true := by decide +kernel
  have hwords : (match tokenize threeLines none, tokenize manyLines none with
      | .ok ts, .ok us => decide (SameWords ts us ∧ ts ≠ us)
      | _, _ => false) = true := by decide +kernel
  split at hwords
  · next ts us hts hus =>
    obtain ⟨hsame, hne⟩ := of_decide_eq_true hwords
    rcases parse_layout hts hus hsame with ⟨c, c', hc, hc', hstmts⟩ | ⟨e, _, he, -⟩
    · exact ⟨ts, us, c, c', hts, hus, hsame, hne, hc, hc', hstmts⟩
    · rw [he] at hok
      cases hok
  · cases hwords

/-- Behind a name on the line before, a text is a statement of its own. -/
example : (parse "text \"a\"" none).toOption.map (·.stmts.length) = some 1 ∧
    (parse "text\n\"a\"" none).toOption.map (·.stmts.length) = some 2 := by decide +kernel

end Widgetry
