import Widgetry.Proofs.Language.Enclosure

/-!
# Rules without braces

A rule for expressions is told whether node expressions may have bodies. The rule that is told they
may not (`Restricts`)

- does what the other one does, in front of the same tokens, as long as that does not come to a
  brace outside of round brackets, and
- never takes such a brace.

> `restrictedRules`: all rules for expressions are restricted in this way.

What stands in round brackets is parsed by the same rule in both cases, and what stands in square
ones by the one rule or the other.
-/

namespace Widgetry

/-! ## Streams -/

namespace Stream

variable {s s' : Stream} {t : Token} {own : List Token}

/-- The tokens ahead, with the one of the end. -/
def tokens (s : Stream) : List Token := s.ahead ++ [s.last]

/-- Whether just the last token of a stream is the end. -/
def Ended (s : Stream) : Prop := Widgetry.Ended s.tokens

theorem tokens_after (s : Stream) (own : List Token) : (s.after own).tokens = own ++ s.tokens :=
  List.append_assoc ..

theorem after_injective {own own' : List Token} (h : s.after own = s.after own') : own = own' :=
  List.append_cancel_right (Stream.mk.inj h).1

theorem after_within (s : Stream) (t u : Token) (own : List Token) :
    ((s.after [u]).after own).after [t] = s.after (t :: own ++ [u]) := by
  rw [← after_append, ← after_append]
  rfl

theorem tokens_eq_cons (s : Stream) : ∃ rest, s.tokens = s.next :: rest := by
  obtain ⟨ahead, last⟩ := s
  cases ahead with
  | nil => exact ⟨[], rfl⟩
  | cons t rest => exact ⟨rest ++ [last], rfl⟩

theorem eq_after_of_tokens (h : s'.tokens = own ++ s.tokens) : s' = s.after own := by
  rw [tokens, tokens, ← List.append_assoc] at h
  obtain ⟨hahead, hlast⟩ := List.append_inj' h rfl
  obtain ⟨ahead, last⟩ := s'
  obtain rfl : ahead = own ++ s.ahead := hahead
  cases hlast
  rfl

namespace Ended

theorem of_after (h : (s.after own).Ended) : s.Ended :=
  Widgetry.Ended.of_suffix h ⟨own, (tokens_after s own).symm⟩ (by simp [tokens])

theorem isEnd_last (h : s.Ended) : s.last.isEnd = true := by
  have hlast : Widgetry.Ended [s.last] :=
    Widgetry.Ended.of_suffix h (List.suffix_append _ _) (List.cons_ne_nil _ _)
  cases hlast with
  | last he => exact he
  | cons _ hnil => cases hnil

theorem after (h : s.Ended) (hown : ∀ t ∈ own, t.isEnd = false) : (s.after own).Ended := by
  rw [Stream.Ended, tokens_after]
  exact Widgetry.Ended.append hown h

theorem isEnd_own (h : (s.after own).Ended) : ∀ t ∈ own, t.isEnd = false := by
  induction own with
  | nil => exact nofun
  | cons t own ih =>
    have ht : t.isEnd = false := Bool.eq_false_iff.mpr fun ht => by
      have hnil : (s.after own).tokens = [] := Widgetry.Ended.eq_nil h ht
      simp [tokens] at hnil
    have htail : ((s.after own).after [t]).Ended := h
    exact List.forall_mem_cons.mpr ⟨ht, ih htail.of_after⟩

end Ended

end Stream

namespace Parser

variable {α β : Type} {P : Stream → Prop} {t u : Token} {d : Nat}

/-! ## One rule restricted to another -/

/-- Whether, of two rules, the second does what the first does as long as it does not come to a
brace outside of round brackets, and never takes such a brace. -/
structure Restricts (P : Stream → Prop) (x y : Parser α) : Prop where
  narrows {s₀ s : Stream} {a : α} : s₀.Ended → P s₀ → StateT.run x s₀ = .ok (a, s) →
    ∃ own, s₀ = s.after own ∧ Matched own ∧
      (shielded 0 (own ++ [s.next]) = true → StateT.run y s₀ = .ok (a, s))
  shields {s₀ s : Stream} {a : α} : s₀.Ended → P s₀ → StateT.run y s₀ = .ok (a, s) →
    ∃ own, s₀ = s.after own ∧ Matched own ∧ shielded 0 own = true

/-- Whether the tokens between two places are matched and shielded. -/
def Passed (start stop : List Token) : Prop :=
  ∃ own, start = own ++ stop ∧ Matched own ∧ shielded 0 own = true

theorem restricts_mono {Q : Stream → Prop} {x y : Parser α} (h : Restricts P x y)
    (hQ : ∀ s, Q s → P s) : Restricts Q x y :=
  ⟨fun hend hs => h.narrows hend (hQ _ hs), fun hend hs => h.shields hend (hQ _ hs)⟩

theorem restricts_everywhere {x y : Parser α} (h : Restricts Any x y) : Restricts P x y :=
  restricts_mono h fun _ _ => trivial

theorem restricts_at {x y : Parser α} (h : ∀ t, Restricts (At t) x y) : Restricts P x y :=
  ⟨fun {s₀} _ _ hend _ => (h s₀.next).narrows hend rfl,
    fun {s₀} _ _ hend _ => (h s₀.next).shields hend rfl⟩

theorem restricts_pure (a : α) : Restricts P (pure a) (pure a) := by
  refine ⟨fun _ _ h => ?_, fun _ _ h => ?_⟩
  · cases h
    exact ⟨[], rfl, .nil, fun _ => rfl⟩
  · cases h
    exact ⟨[], rfl, .nil, rfl⟩

theorem restricts_throw (e e' : Fault) : Restricts P (throw e : Parser α) (throw e') :=
  ⟨fun _ _ h => (nomatch h), fun _ _ h => (nomatch h)⟩

theorem restricts_failAt (cause : Cause) (t : Token) :
    Restricts P (failAt cause t : Parser α) (failAt cause t) := restricts_throw _ _

theorem restricts_number (r : Except NumberFault α) : Restricts P (number r) (number r) := by
  cases r with
  | ok a => exact restricts_pure a
  | error e => exact restricts_throw _ _

theorem restricts_bind {x y : Parser α} {f g : α → Parser β} (hx : Restricts P x y)
    (hf : ∀ a, Restricts Any (f a) (g a)) : Restricts P (x >>= f) (y >>= g) := by
  constructor
  · intro s₀ s r hend hs h
    obtain ⟨a, s₁, hx₁, hf₁⟩ := run_bind_ok.mp h
    obtain ⟨own, rfl, hmatch, hown⟩ := hx.narrows hend hs hx₁
    obtain ⟨own', rfl, hmatch', hown'⟩ := (hf a).narrows hend.of_after trivial hf₁
    refine ⟨own ++ own', (Stream.after_append s own own').symm, hmatch.append hmatch',
      fun hsh => ?_⟩
    rw [List.append_assoc, hmatch.outside, Bool.and_eq_true] at hsh
    -- the first rule sees no more of the second one's tokens than the first
    have hnext : shielded 0 [(s.after own').next] = true := by
      cases own' with
      | nil => exact hsh.2
      | cons t own' => exact shielded_head hsh.2
    refine run_bind_ok.mpr ⟨a, s.after own', hown ?_, hown' hsh.2⟩
    rw [hmatch.outside, hsh.1, hnext]
    rfl
  · intro s₀ s r hend hs h
    obtain ⟨a, s₁, hy₁, hg₁⟩ := run_bind_ok.mp h
    obtain ⟨own, rfl, hmatch, hown⟩ := hx.shields hend hs hy₁
    obtain ⟨own', rfl, hmatch', hown'⟩ := (hf a).shields hend.of_after trivial hg₁
    refine ⟨own ++ own', (Stream.after_append s own own').symm, hmatch.append hmatch', ?_⟩
    rw [hmatch.outside, hown, hown']
    rfl

theorem restricts_ite {p : Prop} [Decidable p] {x y x' y' : Parser α}
    (hx : p → Restricts P x y) (hx' : ¬ p → Restricts P x' y') :
    Restricts P (if p then x else x') (if p then y else y') := by
  split
  · exact hx ‹p›
  · exact hx' ‹¬ p›

theorem restricts_peek {f g : Token → Parser β}
    (h : ∀ t, Restricts (fun s => P s ∧ s.next = t) (f t) (g t)) :
    Restricts P (peek >>= f) (peek >>= g) :=
  ⟨fun hend hs h' => (h _).narrows hend ⟨hs, rfl⟩ h',
    fun hend hs h' => (h _).shields hend ⟨hs, rfl⟩ h'⟩

theorem restricts_rounds {f g : Nat → Parser β} (h : ∀ n, Restricts P (f n) (g n)) :
    Restricts P (rounds >>= f) (rounds >>= g) :=
  ⟨fun {s₀} _ _ hend hs h' => (h s₀.ahead.length).narrows hend hs h',
    fun {s₀} _ _ hend hs h' => (h s₀.ahead.length).shields hend hs h'⟩

/-- A rule that takes shielded tokens only is its own restriction. -/
theorem restricts_passed {x : Parser α}
    (h : ∀ rest, Leads (t :: rest) (t :: rest) x fun _ => Passed (t :: rest)) :
    Restricts (At t) x x := by
  have htaken : ∀ {s₀ s : Stream} {a : α}, s₀.Ended → At t s₀ → StateT.run x s₀ = .ok (a, s) →
      ∃ own, s₀ = s.after own ∧ Matched own ∧ shielded 0 own = true := by
    rintro s₀ s a hend rfl hrun
    obtain ⟨rest, hrest⟩ := s₀.tokens_eq_cons
    obtain ⟨stop, hs, -, own, hown, hpassed⟩ :=
      h rest s₀ ⟨hrest, List.suffix_refl _, hrest ▸ hend⟩ a s hrun
    refine ⟨own, Stream.eq_after_of_tokens ?_, hpassed⟩
    rw [hrest, hown, ← hs.ahead]
    rfl
  refine ⟨fun hend hs hrun => ?_, htaken⟩
  obtain ⟨own, hown, hmatch, -⟩ := htaken hend hs hrun
  exact ⟨own, hown, hmatch, fun _ => hrun⟩

theorem restricts_advance (ht : t.Plain) (hend : t.isEnd = false) :
    Restricts (At t) advance advance := by
  refine restricts_passed fun rest => leads_mono (leads_advance hend) ?_
  rintro u stop - ⟨rfl, rfl⟩
  exact ⟨[u], rfl, .plain ht, by rw [shielded_plain ht, shielded]⟩

/-- A token that was looked at is taken. -/
theorem restricts_take {f g : Token → Parser β} (ht : t.Plain) (hend : t.isEnd = false)
    (hf : ∀ a, Restricts Any (f a) (g a)) :
    Restricts (fun s => P s ∧ s.next = t) (advance >>= f) (advance >>= g) :=
  restricts_bind (restricts_mono (restricts_advance ht hend) fun _ hs => hs.2) hf

theorem restricts_name : Restricts P expectName expectName :=
  restricts_peek fun _ => restricts_ite
    (fun hk => restricts_mono (restricts_advance (.of_kind (hk ▸ nofun))
      (Token.isEnd_of_kind (hk ▸ nofun))) fun _ hs => hs.2)
    fun _ => restricts_failAt _ _

theorem restricts_comma : Restricts P (expectOp ",") (expectOp ",") :=
  restricts_peek fun _ => restricts_ite
    (fun ht => restricts_mono (restricts_advance (.of_isOp ht (by decide) (by decide))
      (Token.isEnd_of_isOp ht)) fun _ hs => hs.2)
    fun _ => restricts_failAt _ _

/-! ## Brackets -/

/-- Round brackets shield all that stands in them. -/
theorem passed_round {a : Tally} {mid stop : List Token} (ht : t.isOp "(" = true)
    (h : Accounts (fun own _ => Matched own) a mid (u :: stop)) (hu : u.isOp ")" = true) :
    Passed (t :: mid) stop := by
  obtain ⟨own, rfl, hmatch⟩ := h
  refine ⟨t :: own ++ [u], by simp, .round ht hu hmatch, ?_⟩
  have hnone := Matched.shielded_round ht hu hmatch 0 []
  rwa [List.append_nil] at hnone

theorem restricts_arguments (d : Nat) : Restricts P (arguments d) (arguments d) := by
  refine restricts_at fun t => restricts_passed fun rest => leads_mono
    ((derivedRules (anyLine_allows _) d).arguments _) ?_
  rintro es stop - ⟨t', u, mid, ⟨rfl, rfl⟩, ht, hes, hu, -⟩
  exact passed_round ht (exprs_account conserves_matched hes) hu

theorem restricts_parens (d : Nat) (ht : t.isOp "(" = true) : Restricts (At t) (do
      let _ ← advance
      let e ← expression d true
      let _ ← expectOp ")"
      return e) (do
      let _ ← advance
      let e ← expression d true
      let _ ← expectOp ")"
      return e) := by
  refine restricts_passed fun rest => leads_take (Token.isEnd_of_isOp ht) <|
    leads_bind ((derivedRules (anyLine_allows _) d).expression true rest) fun e mid _ he =>
      leads_op ?_
  rintro u stop rfl hu
  exact leads_pure (passed_round ht (he.1.accounts conserves_matched) hu)

theorem restricts_listedUpTo (close : String) {item item' : Parser α}
    (hi : Restricts Any item item') (n : Nat) :
    Restricts Any (listedUpTo close item n) (listedUpTo close item' n) := by
  induction n with
  | zero => exact restricts_peek fun _ => restricts_failAt _ _
  | succ n ih =>
    have hrest : ∀ a, Restricts Any (do
          let as ← listedUpTo close item n
          return a :: as) (do
          let as ← listedUpTo close item' n
          return a :: as) := fun a => restricts_bind ih fun _ => restricts_pure _
    exact restricts_peek fun _ => restricts_ite (fun _ => restricts_pure _) fun _ =>
      restricts_bind (restricts_everywhere hi) fun a => restricts_peek fun _ =>
        restricts_ite (fun _ => restricts_everywhere (hrest a)) fun _ =>
          restricts_bind restricts_comma fun _ => hrest a

theorem run_expectOp_ok {symbol : String} {s₀ s : Stream} {t : Token} (hend : s₀.Ended)
    (h : StateT.run (expectOp symbol) s₀ = .ok (t, s)) :
    t.isOp symbol = true ∧ s₀ = s.after [t] := by
  rw [expectOp, Reads.run_peek] at h
  split at h
  · next ht =>
    have htake := Stream.eq_after_next hend.isEnd_last rfl (Token.isEnd_of_isOp ht)
    cases h
    exact ⟨ht, htake⟩
  · cases h

/-- A rule that takes the next token takes one that is what it is to be. -/
theorem run_expect {p : Token → Prop} [DecidablePred p] {fault : Token → Parser Token} (s : Stream)
    (ht : p t) : StateT.run (peek >>= fun t => if p t then advance else fault t) (s.after [t]) =
      .ok (t, s) := by
  rw [Reads.run_peek, Stream.next_after_cons, if_pos ht]
  rfl

theorem run_expectOp {symbol : String} (s : Stream) (ht : t.isOp symbol = true) :
    StateT.run (expectOp symbol) (s.after [t]) = .ok (t, s) := run_expect s ht

/-- What a rule in brackets takes. -/
theorem run_within_ok {opening close : String} {x : Parser α} {s₀ s : Stream} {r : α}
    (hend : s₀.Ended)
    (hx : ∀ {s₁ s₂ : Stream} {a : α}, s₁.Ended → StateT.run x s₁ = .ok (a, s₂) → s₂.Ended)
    (h : StateT.run (do
      let _ ← expectOp opening
      let a ← x
      let _ ← expectOp close
      return a) s₀ = .ok (r, s)) :
    ∃ t u s₁, t.isOp opening = true ∧ u.isOp close = true ∧ s₀ = s₁.after [t] ∧
      StateT.run x s₁ = .ok (r, s.after [u]) := by
  obtain ⟨t, s₁, ht, hrest⟩ := run_bind_ok.mp h
  obtain ⟨hopen, rfl⟩ := run_expectOp_ok hend ht
  obtain ⟨a, s₂, ha, hclose⟩ := run_bind_ok.mp hrest
  obtain ⟨u, s₃, hu, hpure⟩ := run_bind_ok.mp hclose
  obtain ⟨hshut, rfl⟩ := run_expectOp_ok (hx hend.of_after ha) hu
  cases hpure
  exact ⟨t, u, s₁, hopen, hshut, rfl, ha⟩

/-- Square brackets are passed on to what stands in them. -/
theorem restricts_square {x y : Parser α} (h : Restricts Any x y) : Restricts P (do
      let _ ← expectOp "["
      let a ← x
      let _ ← expectOp "]"
      return a) (do
      let _ ← expectOp "["
      let a ← y
      let _ ← expectOp "]"
      return a) := by
  constructor
  · intro s₀ s r hend _ hrun
    obtain ⟨t, u, s₁, ht, hu, rfl, hx⟩ := run_within_ok hend (fun hend hx => by
      obtain ⟨own, rfl, -⟩ := h.narrows hend trivial hx
      exact hend.of_after) hrun
    obtain ⟨own, rfl, hmatch, hown⟩ := h.narrows hend.of_after trivial hx
    refine ⟨t :: own ++ [u], Stream.after_within .., .squared ht hu hmatch, fun hsh => ?_⟩
    rw [hmatch.shielded_squared ht hu, hmatch.outside, Bool.and_eq_true] at hsh
    have hy : StateT.run y ((s.after [u]).after own) = .ok (r, s.after [u]) := hown (by
      rw [hmatch.outside, hsh.1, Stream.next_after_cons, shielded_square hu (.inr (.inl rfl))]
      rfl)
    exact run_bind_ok.mpr ⟨t, _, run_expectOp _ ht, run_bind_ok.mpr ⟨r, _, hy,
      run_bind_ok.mpr ⟨u, s, run_expectOp _ hu, rfl⟩⟩⟩
  · intro s₀ s r hend _ hrun
    obtain ⟨t, u, s₁, ht, hu, rfl, hy⟩ := run_within_ok hend (fun hend hy => by
      obtain ⟨own, rfl, -⟩ := h.shields hend trivial hy
      exact hend.of_after) hrun
    obtain ⟨own, rfl, hmatch, hown⟩ := h.shields hend.of_after trivial hy
    refine ⟨t :: own ++ [u], Stream.after_within .., .squared ht hu hmatch, ?_⟩
    have hnone := hmatch.shielded_squared ht hu 0 []
    rw [List.append_nil, List.append_nil] at hnone
    rw [hnone, hown]

theorem restricts_array {item item' : Parser α} (h : Restricts Any item item') :
    Restricts P (bracketed "[" "]" item) (bracketed "[" "]" item') := by
  have heq : ∀ item : Parser α, bracketed "[" "]" item = do
      let _ ← expectOp "["
      let as ← rounds >>= fun n => listedUpTo "]" item (n + 1)
      let _ ← expectOp "]"
      return as := fun item => by simp only [bracketed, bind_assoc]
  rw [heq, heq]
  exact restricts_square (restricts_rounds fun n => restricts_listedUpTo "]" h (n + 1))

/-- The body of a node expression is taken or not; it begins with a brace. -/
theorem restricts_body {body body' : Parser α} {a : α}
    (hbody : ∀ {s₀ s : Stream} {r : α}, s₀.Ended → StateT.run body s₀ = .ok (r, s) →
      ∃ own, s₀ = s.after own ∧ Matched own ∧ own ≠ []) :
    Restricts (fun s => P s ∧ s.next = t) (if (true && t.isOp "\x7b") = true then body else pure a)
      (if (false && t.isOp "\x7b") = true then body' else pure a) := by
  rw [Bool.true_and, Bool.false_and, if_neg Bool.false_ne_true]
  split
  · next ht =>
    refine ⟨fun hend hs h => ?_,
      fun hend _ h => (restricts_pure (P := Any) a).shields hend trivial h⟩
    obtain ⟨own, rfl, hmatch, hne⟩ := hbody hend h
    refine ⟨own, rfl, hmatch, fun hsh => ?_⟩
    cases own with
    | nil => exact absurd rfl hne
    | cons u own =>
      obtain rfl : u = t := hs.2
      cases hsh.symm.trans (shielded_brace (k := 0) ht).1
  · exact restricts_pure a

/-! ## Growing expressions -/

theorem restricts_grow {step step' : Expr → Token → Option (Parser Expr)}
    (hstep : ∀ e t, (step e t = none ∧ step' e t = none) ∨
      ∃ more more', step e t = some more ∧ step' e t = some more' ∧
        Restricts (At t) more more') (n : Nat) :
    ∀ e, Restricts Any (grow step n e) (grow step' n e) := by
  induction n with
  | zero => exact fun e => restricts_pure e
  | succ n ih =>
    refine fun e => restricts_peek fun t => ?_
    obtain ⟨hnone, hnone'⟩ | ⟨more, more', hsome, hsome', hmore⟩ := hstep e t
    · rw [hnone, hnone']
      exact restricts_pure e
    · rw [hsome, hsome']
      exact restricts_bind (restricts_mono hmore fun _ hs => hs.2) ih

theorem restricts_chain (level : Nat) {operand operand' : Parser Expr}
    (ho : Restricts Any operand operand') (n : Nat) (left : Expr) :
    Restricts Any (chain level operand n left) (chain level operand' n left) := by
  rw [chain_eq_grow, chain_eq_grow]
  refine restricts_grow (fun left t => ?_) n left
  obtain hnone | ⟨op, hop, hsome⟩ := operatorStep_cases level left t
  · exact .inl ⟨hnone _, hnone _⟩
  · exact .inr ⟨_, _, hsome _, hsome _,
      restricts_bind (restricts_advance (.of_operatorAt hop) (Token.isEnd_of_symbol hop))
        fun _ => restricts_bind ho fun _ => restricts_pure _⟩

theorem restricts_suffixes (d n : Nat) (e : Expr) :
    Restricts Any (suffixes (arguments d) n e) (suffixes (arguments d) n e) := by
  rw [suffixes_eq_grow]
  refine restricts_grow (fun e t => ?_) n e
  obtain hnone | ⟨ht, hsome⟩ | ⟨-, hsome⟩ := suffixStep_cases e t
  · exact .inl ⟨hnone _, hnone _⟩
  · exact .inr ⟨_, _, hsome _, hsome _, restricts_bind
      (restricts_advance (.of_isOp ht (by decide) (by decide)) (Token.isEnd_of_isOp ht))
      fun _ => restricts_bind restricts_name fun _ => restricts_pure _⟩
  · exact .inr ⟨_, _, hsome _, hsome _, restricts_bind (restricts_arguments d)
      fun _ => restricts_peek fun _ => restricts_pure _⟩

/-! ## Rules for expressions -/

/-- Whether the rules of a depth for expressions are restricted. -/
structure RestrictedRules (d : Nat) : Prop where
  expression : Restricts Any (expression d true) (expression d false)
  binary (level : Nat) : Restricts Any (binary d level true) (binary d level false)
  unary : Restricts Any (unary d true) (unary d false)
  suffixed : Restricts Any (suffixed d true) (suffixed d false)
  primary : Restricts Any (primary d true) (primary d false)
  /-- the rule for names is only used where a name stands -/
  named {t : Token} : t.kind = .ident → Restricts (At t) (named d true) (named d false)

theorem restrictedRules_zero : RestrictedRules 0 where
  expression := restricts_throw _ _
  binary _ := restricts_throw _ _
  unary := restricts_throw _ _
  suffixed := restricts_throw _ _
  primary := restricts_throw _ _
  named _ := restricts_throw _ _

section Step

variable (ih : RestrictedRules d)

include ih

theorem restricts_binary (level : Nat) :
    Restricts Any (binary (d + 1) level true) (binary (d + 1) level false) :=
  restricts_ite (fun _ => ih.unary) fun _ => restricts_bind (ih.binary _) fun left =>
    restricts_rounds fun n => restricts_chain level (ih.binary _) n left

theorem restricts_unary : Restricts Any (unary (d + 1) true) (unary (d + 1) false) := by
  refine restricts_peek fun t => ?_
  cases hop : prefixOp? t with
  | none => exact restricts_everywhere ih.suffixed
  | some op =>
    exact restricts_take (.of_prefixOp hop) (Token.isEnd_of_symbol hop) fun _ =>
      restricts_bind ih.unary fun _ => restricts_pure _

theorem restricts_suffixed : Restricts Any (suffixed (d + 1) true) (suffixed (d + 1) false) :=
  restricts_bind ih.primary fun e => restricts_rounds fun n => restricts_suffixes d n e

theorem restricts_primary : Restricts Any (primary (d + 1) true) (primary (d + 1) false) := by
  refine restricts_peek fun t => ?_
  have hliteral : ∀ v : Scalar, t.kind ≠ .eof → t.kind ≠ .op →
      Restricts (fun s => Any s ∧ s.next = t) (do
        let _ ← advance
        return Expr.literal v t.line) (do
        let _ ← advance
        return Expr.literal v t.line) := fun v hend hop =>
    restricts_take (.of_kind hop) (Token.isEnd_of_kind hend) fun _ => restricts_pure _
  split
  · next hk =>
    exact restricts_take (.of_kind (hk ▸ nofun)) (Token.isEnd_of_kind (hk ▸ nofun)) fun _ =>
      restricts_bind (restricts_number _) fun _ => restricts_pure _
  · next hk =>
    exact restricts_take (.of_kind (hk ▸ nofun)) (Token.isEnd_of_kind (hk ▸ nofun)) fun _ =>
      restricts_bind (restricts_number _) fun _ => restricts_pure _
  · next hk => exact hliteral _ (hk ▸ nofun) (hk ▸ nofun)
  · next hk =>
    exact restricts_ite (fun _ => hliteral _ (hk ▸ nofun) (hk ▸ nofun)) fun _ =>
      restricts_ite (fun _ => hliteral _ (hk ▸ nofun) (hk ▸ nofun)) fun _ => restricts_failAt _ _
  · next hk => exact restricts_mono (ih.named hk) fun _ hs => hs.2
  · next hk =>
    refine restricts_ite (fun ht => ?_) fun _ => restricts_ite (fun _ => ?_) fun _ =>
      restricts_failAt _ _
    · exact restricts_mono (restricts_parens d (Token.isOp_iff.mpr ⟨hk, ht⟩)) fun _ hs => hs.2
    · exact restricts_bind (restricts_array ih.expression) fun _ => restricts_pure _
  · exact restricts_failAt _ _

omit ih in
/-- The body of a node expression stands in braces. -/
theorem nodeBody_taken {kind : String} {s₀ s : Stream} {r : List Property × List Stmt}
    (hend : s₀.Ended) (h : StateT.run (nodeBody d kind) s₀ = .ok (r, s)) :
    ∃ own, s₀ = s.after own ∧ Matched own ∧ own ≠ [] := by
  obtain ⟨stop, hs, -, items, -, hitems⟩ := (derivedRules (anyLine_allows _) d).nodeBody kind
    s₀.tokens s₀ ⟨rfl, List.suffix_refl _, hend⟩ r s h
  revert hs
  generalize htokens : s₀.tokens = start at hitems
  rintro ⟨rfl, -, -⟩
  obtain ⟨ht, hitems, hu⟩ := hitems
  obtain ⟨own, rfl, hmatch⟩ := items_account conserves_matched hitems
  refine ⟨_ :: own ++ [_], Stream.eq_after_of_tokens ?_, .group (by decide) ht hu hmatch, nofun⟩
  rw [htokens, List.append_assoc]
  rfl

omit ih in
theorem restricts_named (d : Nat) (ht : t.kind = .ident) :
    Restricts (At t) (named (d + 1) true) (named (d + 1) false) := by
  refine restricts_bind (restricts_advance (.of_kind (ht ▸ nofun))
    (Token.isEnd_of_kind (ht ▸ nofun))) fun name => restricts_peek fun next => ?_
  have hbody : ∀ (args : List Expr) {s₀ s : Stream} {e : Expr}, s₀.Ended →
      StateT.run (do
        let parts ← nodeBody d name.text
        return Expr.node name.text args parts.1 parts.2 name.line) s₀ = .ok (e, s) →
      ∃ own, s₀ = s.after own ∧ Matched own ∧ own ≠ [] := by
    intro args s₀ s e hend h
    obtain ⟨r, s₁, hr, h⟩ := run_bind_ok.mp h
    cases h
    exact nodeBody_taken hend hr
  refine restricts_ite (fun hstr => ?_) fun _ => restricts_ite (fun _ => ?_) fun _ => ?_
  · exact restricts_take (.of_kind (hstr.1 ▸ nofun)) (Token.isEnd_of_kind (hstr.1 ▸ nofun))
      fun _ => restricts_peek fun _ => restricts_body (hbody _)
  · exact restricts_bind (restricts_arguments d) fun args =>
      restricts_peek fun _ => restricts_body (hbody args)
  · exact restricts_body (hbody [])

theorem restrictedRules_succ : RestrictedRules (d + 1) where
  expression := ih.binary 0
  binary := restricts_binary ih
  unary := restricts_unary ih
  suffixed := restricts_suffixed ih
  primary := restricts_primary ih
  named := restricts_named d

end Step

/-- The rules for expressions are restricted at each depth. -/
theorem restrictedRules (d : Nat) : RestrictedRules d := by
  induction d with
  | zero => exact restrictedRules_zero
  | succ d ih => exact restrictedRules_succ ih

end Parser

end Widgetry
