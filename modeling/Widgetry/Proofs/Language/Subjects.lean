import Widgetry.Proofs.Language.Restriction

/-!
# Brackets where braces are restricted

Behind `is` and `for` and in patterns, a brace opens the body of a statement, and a node expression
must not have one, unless it stands in brackets. The parser takes round brackets for this, but not
square ones:

> `bracketed_restricted`: tokens that stand in brackets and are a statement of their own are the
> same expression where braces are restricted, up to its lines, if each brace among them is opened
> in round brackets. Otherwise they are refused there.

> `col_refused`: a list of a node expression with a body is a statement, but no subject of an `is`.

Tokens in brackets are all that an operand takes (`expression_enclosed`). It takes them in front of
other tokens as well (`primary_elsewhere`), takes the same words (`primary_sameWords`), and takes
them where braces are restricted exactly if they are shielded (`restricted_of_shielded`,
`shielded_of_restricted`). In front of a token that no expression goes on with, the operand is the
whole expression (`expression_stops`), and that is what each restricted rule asks for.
-/

namespace Widgetry

/-- The same words end where the others do. -/
theorem SameWords.isEnd {ts us : List Token} (h : SameWords ts us)
    (hts : ∀ t ∈ ts, t.isEnd = false) : ∀ u ∈ us, u.isEnd = false := by
  intro u hu
  have hmem : u.lexeme ∈ ts.map Token.lexeme := h.lexemes ▸ List.mem_map_of_mem hu
  obtain ⟨t, ht, hsame⟩ := List.mem_map.mp hmem
  rw [Token.isEnd, ← Token.kind_eq hsame]
  exact hts t ht

namespace Parser

variable {s₀ s : Stream} {a e : Expr} {ts us : List Token} {t u : Token} {b : Bool}
  {d k level j : Nat}

/-! ## Operands -/

/-- How much less deep the operand of an expression is than the expression. -/
def operandReach : Nat := BinaryOp.levels + 4

/-- The brackets that an operand can begin with. -/
inductive Bracket : String → String → Prop where
  | round : Bracket "(" ")"
  | square : Bracket "[" "]"

theorem Bracket.mem {opening close : String} (h : Bracket opening close) :
    (opening, close) ∈ brackets := by
  cases h <;> decide

theorem Bracket.prefixOp? {opening close : String} (h : Bracket opening close)
    (ht : t.isOp opening = true) : prefixOp? t = none := by
  obtain ⟨hk, rfl⟩ := Token.isOp_iff.mp ht
  rw [Parser.prefixOp?, if_pos hk]
  cases hop : UnaryOp.ofSymbol? t.text with
  | none => rfl
  | some op =>
    generalize t.text = opening at h hop
    cases h <;> cases hop

section Operand

variable {opening close : String} (hpair : Bracket opening close)
  (hopen : s₀.next.isOp opening = true) (hend : s₀.last.isEnd = true)

include hpair hopen hend

theorem unary_operand (h : StateT.run (unary d b) s₀ = .ok (e, s)) :
    ∃ k a s₁ own, d = k + 2 ∧ StateT.run (primary k b) s₀ = .ok (a, s₁) ∧
      s₁ = s.after own ∧ (own = [] → e = a) := by
  obtain _ | _ | d := d
  · cases h
  · rw [unary, Reads.run_peek, hpair.prefixOp? hopen] at h
    cases h
  · rw [unary, Reads.run_peek, hpair.prefixOp? hopen] at h
    obtain ⟨a, s₁, hp, hgrow⟩ := run_bind_ok.mp h
    have hclosed := ((recurringRules (Nat.le_refl d)).primary b).closed hend trivial hp
    replace hgrow : StateT.run (suffixes (arguments d) s₁.ahead.length a) s₁ = .ok (e, s) := hgrow
    rw [suffixes_eq_grow] at hgrow
    obtain ⟨own, hs₁, hsame⟩ := run_grow_own
      (recurs_suffixStep (recurs_free (recurringRules (Nat.le_refl d)).arguments)) hclosed hgrow
    exact ⟨d, a, s₁, own, rfl, hp, hs₁, hsame⟩

/-- An expression that begins with a bracket has an operand in front; it is that operand if that
takes all its tokens. -/
theorem binary_operand :
    ∀ {j level d : Nat} {e : Expr} {s : Stream}, level + j = BinaryOp.levels →
      StateT.run (binary d level b) s₀ = .ok (e, s) →
      ∃ k a s₁ own, d = k + 3 + j ∧ StateT.run (primary k b) s₀ = .ok (a, s₁) ∧
        s₁ = s.after own ∧ (own = [] → e = a) := by
  intro j
  induction j with
  | zero =>
    intro level d e s hlevel h
    obtain _ | d := d
    · cases h
    · rw [binary, if_pos (show level = BinaryOp.levels from hlevel)] at h
      obtain ⟨k, a, s₁, own, rfl, hown⟩ := unary_operand hpair hopen hend h
      exact ⟨k, a, s₁, own, rfl, hown⟩
  | succ j ih =>
    intro level d e s hlevel h
    obtain _ | d := d
    · cases h
    · rw [binary, if_neg (by omega)] at h
      obtain ⟨left, s₂, hleft, hgrow⟩ := run_bind_ok.mp h
      have hclosed := ((recurringRules (Nat.le_refl d)).binary _ b).closed hend trivial hleft
      replace hgrow : StateT.run (chain level (binary d (level + 1) b) s₂.ahead.length left) s₂ =
        .ok (e, s) := hgrow
      rw [chain_eq_grow] at hgrow
      obtain ⟨own', rfl, hsame'⟩ := run_grow_own (recurs_operatorStep level
        ((recurringRules (Nat.le_refl d)).binary (level + 1) b)) hclosed hgrow
      obtain ⟨k, a, s₁, own, rfl, hp, rfl, hsame⟩ := ih (by omega) hleft
      refine ⟨k, a, _, own ++ own', rfl, hp, (Stream.after_append ..).symm, fun hnil => ?_⟩
      obtain ⟨rfl, rfl⟩ := List.append_eq_nil_iff.mp hnil
      exact (hsame' rfl).trans (hsame rfl)

theorem expression_operand (h : StateT.run (expression d b) s₀ = .ok (e, s)) :
    ∃ k a s₁ own, d = k + operandReach ∧ StateT.run (primary k b) s₀ = .ok (a, s₁) ∧
      s₁ = s.after own ∧ (own = [] → e = a) := by
  obtain _ | d := d
  · cases h
  · obtain ⟨k, a, s₁, own, rfl, hown⟩ := binary_operand hpair hopen hend (Nat.zero_add _) h
    exact ⟨k, a, s₁, own, rfl, hown⟩

end Operand

/-- A token that no expression goes on with. -/
def Stops (t : Token) : Prop := t.isOp "\x7b" = true ∨ t.isOp "=>" = true

theorem Stops.operatorAt? (ht : Stops t) (level : Nat) : operatorAt? level t = none := by
  obtain ht | ht := ht <;>
  · obtain ⟨hk, htext⟩ := Token.isOp_iff.mp ht
    rw [Parser.operatorAt?, if_pos hk, htext]
    rfl

theorem Stops.suffixStep (ht : Stops t) (args : Parser (List Expr)) (e : Expr) :
    suffixStep args e t = none := by
  have hne : t.isOp "." = false ∧ t.isOp "(" = false := by
    obtain ht | ht := ht <;>
    exact ⟨Token.isOp_ne ht (by decide), Token.isOp_ne ht (by decide)⟩
  rw [Parser.suffixStep, hne.1, hne.2]
  rfl

/-- In front of such a token, an operand is a whole expression. -/
theorem binary_stops {opening close : String} (hpair : Bracket opening close)
    (hopen : s₀.next.isOp opening = true) (hstop : Stops s.next)
    (h : StateT.run (primary k b) s₀ = .ok (a, s)) :
    ∀ {j level : Nat}, level + j = BinaryOp.levels →
      StateT.run (binary (k + 3 + j) level b) s₀ = .ok (a, s) := by
  intro j
  induction j with
  | zero =>
    intro level hlevel
    rw [binary, if_pos (show level = BinaryOp.levels from hlevel), unary, Reads.run_peek,
      hpair.prefixOp? hopen]
    refine run_bind_ok.mpr ⟨a, s, h, ?_⟩
    show StateT.run (suffixes (arguments k) s.ahead.length a) s = .ok (a, s)
    rw [suffixes_eq_grow]
    exact run_grow_none (hstop.suffixStep _ a)
  | succ j ih =>
    intro level hlevel
    rw [← Nat.add_assoc, binary, if_neg (by omega)]
    refine run_bind_ok.mpr ⟨a, s, ih (by omega), ?_⟩
    show StateT.run (chain level (binary (k + 3 + j) (level + 1) b) s.ahead.length a) s =
      .ok (a, s)
    rw [chain_eq_grow]
    exact run_grow_none (by rw [operatorStep, hstop.operatorAt? level]; rfl)

theorem expression_stops {opening close : String} (hpair : Bracket opening close)
    (hopen : s₀.next.isOp opening = true) (hstop : Stops s.next)
    (h : StateT.run (primary k b) s₀ = .ok (a, s)) :
    StateT.run (expression (k + operandReach) b) s₀ = .ok (a, s) :=
  binary_stops (j := BinaryOp.levels) hpair hopen hstop h (Nat.zero_add _)

/-! ## Tokens in brackets -/

theorem leads_primary_bracket {opening close : String} (hpair : Bracket opening close)
    (ht : t.isOp opening = true) (d : Nat) (b : Bool) (rest : List Token) :
    Leads (t :: rest) (t :: rest) (primary (d + 1) b) fun _ stop =>
      ∃ own u, rest = own ++ u :: stop ∧ u.isOp close = true ∧ Matched own := by
  have hrules := derivedRules (anyLine_allows (t :: rest)) d
  obtain ⟨hk, htext⟩ := Token.isOp_iff.mp ht
  refine leads_peek ?_
  rintro t' rest' ⟨rfl, rfl⟩
  rw [hk]
  cases hpair with
  | round =>
    rw [htext]
    refine leads_take (Token.isEnd_of_isOp ht) <|
      leads_bind (hrules.expression true rest) fun e mid _ he => leads_op ?_
    rintro u stop rfl hu
    obtain ⟨own, rfl, hmatch⟩ := he.1.accounts conserves_matched
    exact leads_pure ⟨own, u, rfl, hu, hmatch⟩
  | square =>
    rw [htext]
    refine leads_bind (leads_bracketed "[" "]" (fun start =>
      leads_mono (hrules.expression b start) fun _ _ _ he => he.1) _) ?_
    rintro es stop - ⟨t', u, mid, ⟨rfl, rfl⟩, -, hes, hu, -⟩
    obtain ⟨own, rfl, hmatch⟩ := exprs_account conserves_matched hes
    exact leads_pure ⟨own, u, rfl, hu, hmatch⟩

/-- An operand that begins with a bracket ends with the one that closes it. -/
theorem primary_own {opening close : String} (hpair : Bracket opening close)
    (hopen : s₀.next.isOp opening = true) (hend : s₀.Ended)
    (h : StateT.run (primary k b) s₀ = .ok (a, s)) :
    ∃ own u, s₀ = s.after (s₀.next :: own ++ [u]) ∧ u.isOp close = true ∧ Matched own := by
  obtain _ | d := k
  · cases h
  · obtain ⟨rest, hrest⟩ := s₀.tokens_eq_cons
    obtain ⟨stop, hs, -, own, u, rfl, hu, hmatch⟩ := leads_primary_bracket hpair hopen d b rest s₀
      ⟨hrest, List.suffix_refl _, hrest ▸ hend⟩ a s h
    refine ⟨own, u, Stream.eq_after_of_tokens ?_, hu, hmatch⟩
    rw [hrest, ← hs.ahead]
    simp [Stream.tokens]

theorem exists_bracket (hts : enclosed ts = true) (s : Stream) :
    ∃ opening close, Bracket opening close ∧ (s.after ts).next.isOp opening = true := by
  cases ts with
  | nil => cases hts
  | cons t rest =>
    rw [enclosed, Bool.and_eq_true, Bool.or_eq_true] at hts
    exact hts.1.elim (fun ht => ⟨_, _, .round, ht⟩) fun ht => ⟨_, _, .square, ht⟩

/-- Tokens that stand in brackets are all that an operand takes. -/
theorem enclosed_own {s' : Stream} {own : List Token} {opening close : String}
    (hpair : Bracket opening close) (hts : enclosed ts = true)
    (h : s'.after ts = s.after (t :: own ++ [u])) (hu : u.isOp close = true)
    (hmatch : Matched own) : s' = s ∧ ts = t :: own ++ [u] := by
  cases ts with
  | nil => cases hts
  | cons t' rest =>
    rw [enclosed, Bool.and_eq_true, beq_iff_eq] at hts
    obtain ⟨ahead', last'⟩ := s'
    obtain ⟨ahead, last⟩ := s
    obtain ⟨hahead, rfl⟩ := Stream.mk.inj h
    obtain ⟨rfl, htail⟩ := List.cons.inj hahead
    have hrest : rest ++ ahead' = own ++ (u :: ahead) := by simpa using htail
    -- both brackets close where the operand ends
    have hclose : some ahead' = some ahead := by
      have hcloses : u.closes = true :=
        Token.closes_of_isOp (List.mem_map_of_mem (f := (·.2)) hpair.mem) hu
      have hstop : behindClosing 0 (u :: ahead) = some ahead :=
        (behindClosing_closes (k := 0) hcloses).1
      rw [← hstop, ← hmatch.behind, ← hrest, behindClosing_append hts.2]
      rfl
    cases hclose
    refine ⟨rfl, ?_⟩
    have : rest ++ ahead' = (own ++ [u]) ++ ahead' := by simpa using htail
    rw [List.append_cancel_right this]
    rfl

section Enclosed

variable (hts : enclosed ts = true) (hend : (s.after ts).Ended)

include hts hend

theorem primary_enclosed {s' : Stream} (h : StateT.run (primary k b) (s.after ts) = .ok (a, s')) :
    s' = s ∧ ∃ opening close t own u, Bracket opening close ∧ t.isOp opening = true ∧
      u.isOp close = true ∧ Matched own ∧ ts = t :: own ++ [u] := by
  obtain ⟨opening, close, hpair, hopen⟩ := exists_bracket hts s
  obtain ⟨own, u, hown, hu, hmatch⟩ := primary_own hpair hopen hend h
  obtain ⟨rfl, hts⟩ := enclosed_own hpair hts hown hu hmatch
  exact ⟨rfl, opening, close, _, own, u, hpair, hopen, hu, hmatch, hts⟩

/-- An expression that begins with tokens in brackets has them as its operand. -/
theorem expression_enclosed {s' : Stream}
    (h : StateT.run (expression d b) (s.after ts) = .ok (e, s')) :
    ∃ k a, d = k + operandReach ∧ StateT.run (primary k b) (s.after ts) = .ok (a, s) ∧
      (s' = s → e = a) := by
  obtain ⟨opening, close, hpair, hopen⟩ := exists_bracket hts s
  obtain ⟨k, a, s₁, own, rfl, hp, hown, hsame⟩ :=
    expression_operand hpair hopen hend.isEnd_last h
  obtain ⟨rfl, -⟩ := primary_enclosed hts hend hp
  refine ⟨k, a, rfl, hp, fun hs' => hsame ?_⟩
  subst hs'
  have hnil : s'.after own = s'.after [] := hown.symm
  exact Stream.after_injective hnil

/-- In round brackets, all is shielded. -/
theorem shielded_of_round (h : StateT.run (primary k b) (s.after ts) = .ok (a, s))
    (hround : (s.after ts).next.isOp "(" = true) : shielded 0 ts = true := by
  obtain ⟨-, opening, close, t, own, u, hpair, ht, hu, hmatch, rfl⟩ := primary_enclosed hts hend h
  cases hpair with
  | round =>
    have hnone := Matched.shielded_round ht hu hmatch 0 []
    rwa [List.append_nil] at hnone
  | square => cases hround.symm.trans (Token.isOp_ne ht (by decide))

end Enclosed

/-- What a restricted operand takes is shielded. -/
theorem shielded_of_restricted (hend : (s.after ts).Ended)
    (h : StateT.run (primary k false) (s.after ts) = .ok (a, s)) : shielded 0 ts = true := by
  obtain ⟨own, hown, -, hsh⟩ := (restrictedRules k).primary.shields hend trivial h
  rwa [Stream.after_injective hown]

/-- An operand that is shielded is the same one where braces are restricted. -/
theorem restricted_of_shielded (hend : (s.after ts).Ended) (hnext : s.next.isEnd = true)
    (hsh : shielded 0 ts = true) (h : StateT.run (primary k true) (s.after ts) = .ok (a, s)) :
    StateT.run (primary k false) (s.after ts) = .ok (a, s) := by
  obtain ⟨own, hown, hmatch, hrun⟩ := (restrictedRules k).primary.narrows hend trivial h
  rw [← Stream.after_injective hown] at hmatch hrun
  have hplain : s.next.Plain := .of_kind (beq_iff_eq.mp hnext ▸ nofun)
  refine hrun ?_
  rw [hmatch.outside, hsh, shielded_plain hplain]
  rfl

/-- An operand in brackets is the same one in front of other tokens, and if it may nest deeper. -/
theorem primary_elsewhere {k' : Nat} {s' : Stream} (hk : k ≤ k')
    (hkind : (s.after ts).next.kind ≠ .ident) (hend : s.last.isEnd = true)
    (hend' : s'.last.isEnd = true) (h : StateT.run (primary k b) (s.after ts) = .ok (e, s)) :
    StateT.run (primary k' b) (s'.after ts) = .ok (e, s') := by
  obtain _ | k := k
  · cases h
  · obtain ⟨k', rfl⟩ := Nat.exists_eq_add_of_le' hk
    have hrecurs := recurs_primary_at (c := true) (recurringRules (Nat.le_add_left k k')) b
      (s.after ts).next fun hident => absurd hident hkind
    obtain ⟨own, -, hown, hrun⟩ := hrecurs (s.after ts) e s hend rfl h
    rw [Stream.after_injective hown]
    exact hrun _ s' (Nat.lt_succ_self _) ⟨nofun, hend, hend'⟩

/-- And the same tree if the same words stand elsewhere. -/
theorem primary_sameWords {last : Token} (hwords : SameWords ts us) (hend : last.isEnd = true)
    (h : StateT.run (primary k b) (Stream.after ⟨[], last⟩ ts) = .ok (e, ⟨[], last⟩)) :
    ∃ e', e'.atLine 0 = e.atLine 0 ∧
      StateT.run (primary k b) (Stream.after ⟨[], last⟩ us) = .ok (e', ⟨[], last⟩) := by
  have hkind : last.kind = .eof := beq_iff_eq.mp hend
  have halike : (Stream.after ⟨[], last⟩ ts).Alike (Stream.after ⟨[], last⟩ us) := by
    refine ⟨?_, rfl, hkind ▸ nofun⟩
    rw [Stream.after, Stream.after, List.append_nil, List.append_nil]
    exact hwords
  have hends := (steadyRules k).primary b _ _ halike
  rw [show primary k b (Stream.after ⟨[], last⟩ ts) = _ from h] at hends
  generalize hr : primary k b (Stream.after ⟨[], last⟩ us) = r at hends
  obtain ⟨he, hsame⟩ := hends
  next e' s' =>
    obtain ⟨own, -, hs', -⟩ :=
      (recurringRules (Nat.le_refl k)).primary b _ e' s' hend trivial hr
    obtain ⟨ahead, last'⟩ := s'
    obtain rfl : ahead = [] := List.length_eq_zero_iff.mp hsame.ahead.length.symm
    cases (Stream.mk.inj hs').2
    exact ⟨e', he.symm, hr⟩

/-! ## Expressions in brackets -/

/-- Whether tokens are read as an expression in each place where braces are restricted, at some
depth of an expression or at a greater one. -/
structure ReadWhereRestricted (d : Nat) (ts : List Token) (e : Expr) : Prop where
  /-- as a part of an expression, whatever follows -/
  operand {k : Nat} {b : Bool} {s : Stream} : d ≤ k + operandReach → s.Ended →
    StateT.run (primary k b) (s.after ts) = .ok (e, s)
  /-- as what an `is` decides on -/
  subject {k : Nat} {t : Token} {s : Stream} : d ≤ k → t.isKeyword "is" = true → s.Ended →
    s.next.isOp "\x7b" = true →
    StateT.run (choice (k + 1)) (s.after (t :: ts)) = StateT.run (do
      let arms ← braced .openIs (arm k)
      return .choose e arms t.line) s
  /-- as what a `for` goes through -/
  iterable {k : Nat} {t name u : Token} {s : Stream} : d ≤ k → t.isKeyword "for" = true →
    name.kind = .ident → u.isKeyword "in" = true → s.Ended → s.next.isOp "\x7b" = true →
    StateT.run (iteration (k + 1)) (s.after (t :: name :: u :: ts)) = StateT.run (do
      let body ← block k
      return .each name.text e body t.line) s
  /-- as the pattern of an arm -/
  pattern {k : Nat} {u : Token} {s : Stream} : d ≤ k → u.isOp "=>" = true → s.Ended →
    StateT.run (arm (k + 1)) (s.after (ts ++ [u])) = StateT.run (do
      let body ← if (← peek).isOp "\x7b" then block k else List.singleton <$> statement k
      return (⟨some e, body, (s.after ts).next.line⟩ : Arm)) s

theorem run_bind_of_ok {α β : Type} {x : Parser α} {s s' : Stream} {a : α}
    (h : StateT.run x s = .ok (a, s')) (f : α → Parser β) :
    StateT.run (x >>= f) s = StateT.run (f a) s' := by
  rw [StateT.run_bind, h]
  rfl

/-- Tokens that are always one operand are what is restricted, in each place. -/
theorem readWhereRestricted_of_operand {opening close : String} (hpair : Bracket opening close)
    (hopen : t.isOp opening = true) (hd : operandReach ≤ d)
    (h : ∀ (k : Nat) (b : Bool) (s : Stream), d ≤ k + operandReach → s.Ended →
      StateT.run (primary k b) (s.after (t :: ts)) = .ok (e, s)) :
    ReadWhereRestricted d (t :: ts) e := by
  have hexpr : ∀ {k : Nat} {s : Stream}, d ≤ k → s.Ended → Stops s.next →
      StateT.run (expression k false) (s.after (t :: ts)) = .ok (e, s) := by
    intro k s hk hs hstop
    obtain ⟨k, rfl⟩ := Nat.exists_eq_add_of_le' (hd.trans hk)
    exact expression_stops hpair hopen hstop (h k false s hk hs)
  refine ⟨fun hk hs => h _ _ _ hk hs, ?_, ?_, ?_⟩
  · intro k word s hk hword hs hbrace
    rw [choice]
    exact (run_bind_of_ok (run_expect (s.after (t :: ts)) hword) _).trans
      (run_bind_of_ok (hexpr hk hs (.inl hbrace)) _)
  · intro k word name word' s hk hword hname hword' hs hbrace
    rw [iteration]
    exact (run_bind_of_ok (run_expect (s.after (name :: word' :: t :: ts)) hword) _).trans <|
      (run_bind_of_ok (run_expect (p := fun u => u.kind = .ident)
        (s.after (word' :: t :: ts)) hname) _).trans <|
      (run_bind_of_ok (run_expect (s.after (t :: ts)) hword') _).trans
        (run_bind_of_ok (hexpr hk hs (.inl hbrace)) _)
  · intro k arrow s hk harrow hs
    have hs' : (s.after [arrow]).Ended :=
      hs.after fun u hu => List.mem_singleton.mp hu ▸ Token.isEnd_of_isOp harrow
    have hwild : ¬ (t.isKeyword "else" || t.kind == .ident && t.text == "_") = true := by
      obtain ⟨hk, -⟩ := Token.isOp_iff.mp hopen
      rw [Token.isKeyword, hk]
      exact Bool.false_ne_true
    have hpattern : StateT.run (some <$> expression k false) (s.after (t :: ts ++ [arrow])) =
        .ok (some e, s.after [arrow]) := by
      rw [StateT.run_map, Stream.after_append, hexpr hk hs' (.inr harrow)]
      rfl
    rw [arm, Reads.run_peek, show (s.after (t :: ts ++ [arrow])).next = t from rfl, if_neg hwild]
    exact (run_bind_of_ok hpattern _).trans (run_bind_of_ok (run_expectOp s harrow) _)

/-- A statement that begins with an operator and is an expression is just that. -/
theorem expression_of_statement {line : Nat} (hkind : s₀.next.kind = .op)
    (h : StateT.run (statement (d + 1)) s₀ = .ok (.expr e line, s)) :
    StateT.run (expression d true) s₀ = .ok (e, s) := by
  have hword : ∀ word, s₀.next.isKeyword word = false := fun word => by
    rw [Token.isKeyword, hkind]
    rfl
  rw [statement, Reads.run_peek] at h
  simp only [hword, Bool.or_self, Bool.false_eq_true, if_false] at h
  obtain ⟨e', s₁, he, h⟩ := run_bind_ok.mp h
  rw [Reads.run_peek] at h
  cases hassign : assignOp? s₁.next with
  | none =>
    rw [hassign] at h
    cases h
    exact he
  | some op =>
    rw [hassign] at h
    obtain ⟨u, s₂, -, h⟩ := run_bind_ok.mp h
    cases htarget : Target.ofExpr? e' with
    | none =>
      rw [htarget] at h
      cases h
    | some target =>
      rw [htarget] at h
      obtain ⟨value, s₃, -, h⟩ := run_bind_ok.mp h
      cases h

/-- **Brackets lift the restriction of braces, and square ones only as far as round ones do.**
Tokens that stand in brackets and are a statement of their own are the same expression where braces
are restricted, if each brace among them is opened in round brackets, and are refused there
otherwise. If the brackets around them are round, all is well. -/
theorem bracketed_restricted {line : Nat} (hs : (s.after ts).Ended) (hts : enclosed ts = true)
    (h : StateT.run (statement (d + 1)) (s.after ts) = .ok (.expr e line, s))
    (hwords : SameWords ts us) :
    (shielded 0 ts = true → ∃ e', e'.atLine 0 = e.atLine 0 ∧ ReadWhereRestricted d us e') ∧
    (shielded 0 ts = false → ∀ (k : Nat) (s' : Stream), s'.Ended →
      ∀ r, StateT.run (expression k false) (s'.after us) ≠ .ok r) ∧
    ((s.after ts).next.isOp "(" = true → shielded 0 ts = true) := by
  obtain ⟨opening, close, hpair, hopen⟩ := exists_bracket hts s
  have hkind : (s.after ts).next.kind = .op := (Token.isOp_iff.mp hopen).1
  obtain ⟨k, a, rfl, hp, hsame⟩ :=
    expression_enclosed hts hs (expression_of_statement hkind h)
  obtain rfl := hsame rfl
  -- the same words in front of nothing but the end
  let rest : Stream := ⟨[], s.last⟩
  have hlast : s.last.isEnd = true := hs.isEnd_last
  have hrest : rest.Ended := .last hlast
  have hrest_last : rest.last.isEnd = true := hlast
  obtain ⟨e', he', hus⟩ := primary_sameWords hwords hlast
    (primary_elsewhere (Nat.le_refl k) (hkind ▸ nofun) hlast hrest_last hp)
  have hus_enclosed : enclosed us = true := enclosed_congr hwords.lexemes hts
  have hus_ended : ∀ {s' : Stream}, s'.Ended → (s'.after us).Ended := fun hs' =>
    hs'.after (hwords.isEnd hs.isEnd_own)
  refine ⟨fun hsh => ⟨e', he', ?_⟩, fun hsh k' s' hs' r hr => ?_, shielded_of_round hts hs hp⟩
  · obtain ⟨opening', close', hpair', hopen'⟩ := exists_bracket hus_enclosed rest
    have hkind' : (rest.after us).next.kind = .op := (Token.isOp_iff.mp hopen').1
    have hus' : ∀ b, StateT.run (primary k b) (rest.after us) = .ok (e', rest) := fun b =>
      match b with
      | true => hus
      | false => restricted_of_shielded (hus_ended hrest) hlast
          (shielded_congr hwords.lexemes ▸ hsh) hus
    obtain _ | ⟨u, us⟩ := us
    · cases hus_enclosed
    · exact readWhereRestricted_of_operand hpair' hopen' (Nat.le_add_left _ _) fun k' b s' hk hs' =>
        primary_elsewhere (s := rest) (Nat.le_of_add_le_add_right hk) (hkind' ▸ nofun) hlast
          hs'.isEnd_last (hus' b)
  · obtain ⟨k'', a, rfl, hp', -⟩ := expression_enclosed hus_enclosed (hus_ended hs') hr
    have := shielded_of_restricted (hus_ended hs') hp'
    rw [← shielded_congr hwords.lexemes, hsh] at this
    cases this

end Parser

/-- A stream where nothing is ahead but the end. -/
def atEnd : Stream := ⟨[], ⟨.eof, "", ⟨9, 1⟩⟩⟩

theorem atEnd_ended : atEnd.Ended := .last rfl

/-- A list of a node expression that has a body, in the brackets of a call: `[row(col)]`, with
empty braces behind `col`. -/
def rowTokens (line : Nat) : List Token :=
  [⟨.op, "[", ⟨line, 1⟩⟩, ⟨.ident, "row", ⟨line, 2⟩⟩, ⟨.op, "(", ⟨line, 5⟩⟩,
    ⟨.ident, "col", ⟨line, 6⟩⟩, ⟨.op, "\x7b", ⟨line, 10⟩⟩, ⟨.op, "\x7d", ⟨line, 11⟩⟩,
    ⟨.op, ")", ⟨line, 12⟩⟩, ⟨.op, "]", ⟨line, 13⟩⟩]

/-- It is the same list on another line, where braces are restricted. -/
theorem row_restricted : shielded 0 (rowTokens 1) = true ∧
    StateT.run (Parser.statement 40) (atEnd.after (rowTokens 1)) = .ok (.expr
      (.array [.call (.ident "row" 1) [.node "col" [] [] [] 1] 1] 1) 1, atEnd) ∧
    ∃ e', e'.atLine 0 = .array [.call (.ident "row" 0) [.node "col" [] [] [] 0] 0] 0 ∧
      Parser.ReadWhereRestricted 39 (rowTokens 2) e' := by
  have hshielded : shielded 0 (rowTokens 1) = true := by decide
  have hended : (atEnd.after (rowTokens 1)).Ended := atEnd_ended.after (by decide)
  have hparsed : StateT.run (Parser.statement (39 + 1)) (atEnd.after (rowTokens 1)) = .ok (.expr
    (.array [.call (.ident "row" 1) [.node "col" [] [] [] 1] 1] 1) 1, atEnd) := rfl
  have hwords : SameWords (rowTokens 1) (rowTokens 2) := by decide
  obtain ⟨hread, -⟩ := Parser.bracketed_restricted hended (by decide) hparsed hwords
  exact ⟨hshielded, hparsed, hread hshielded⟩

/-- A list of a node expression that has a body: `[col]`, with empty braces behind `col`. -/
def colTokens : List Token :=
  [⟨.op, "[", ⟨1, 4⟩⟩, ⟨.ident, "col", ⟨1, 5⟩⟩, ⟨.op, "\x7b", ⟨1, 9⟩⟩, ⟨.op, "\x7d", ⟨1, 10⟩⟩,
    ⟨.op, "]", ⟨1, 11⟩⟩]

/-- What an `is` without arms has behind its subject. -/
def noArms : Stream :=
  atEnd.after [⟨.op, "\x7b", ⟨1, 13⟩⟩, ⟨.op, "\x7d", ⟨1, 15⟩⟩]

/-- It cannot stand behind an `is`, though it is a statement of its own. -/
theorem col_refused : ¬ ∀ (d : Nat) (ts us : List Token) (s : Stream) (e : Expr) (line : Nat),
    (s.after ts).Ended → enclosed ts = true →
    StateT.run (Parser.statement (d + 1)) (s.after ts) = .ok (.expr e line, s) →
    SameWords ts us → ∃ e', e'.atLine 0 = e.atLine 0 ∧ Parser.ReadWhereRestricted d us e' := by
  intro h
  obtain ⟨e', -, hread⟩ := h 39 colTokens colTokens atEnd (.array [.node "col" [] [] [] 1] 1) 1
    (atEnd_ended.after (by decide)) (by decide) rfl (by decide)
  have hsubject := hread.subject (k := 39) (t := ⟨.keyword, "is", ⟨1, 1⟩⟩) (s := noArms)
    (Nat.le_refl 39) rfl (atEnd_ended.after (by decide)) rfl
  cases hsubject

end Widgetry
