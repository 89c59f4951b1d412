import Widgetry.Proofs.Language.Grammar
import Widgetry.Proofs.Language.Lexemes

/-!
# From some tokens to others

A rule of the parser is followed from the tokens that lie ahead where it begins to those that lie
ahead behind it (`Parser.Leads`). The lemmas follow the way rules are put together: one thing after
another, a look at the next token, a loop over a rule.

Where a rule can be at all, the tokens ahead are the last ones of the text, and they go up to its
end (`Ended`). The end is never taken, so a token that a rule takes is always the next one.
-/

namespace Widgetry

/-! ## Tokens up to the end -/

/-- Tokens of which the last one, and no other, is the end. -/
inductive Ended : List Token → Prop where
  | last {t : Token} : t.isEnd = true → Ended [t]
  | cons {t : Token} {ts : List Token} : t.isEnd = false → Ended ts → Ended (t :: ts)

namespace Ended

variable {t : Token} {ts us : List Token}

theorem append (hts : ∀ t ∈ ts, t.isEnd = false) (hus : Ended us) : Ended (ts ++ us) := by
  induction ts with
  | nil => exact hus
  | cons t ts ih =>
    obtain ⟨ht, hts⟩ := List.forall_mem_cons.mp hts
    exact .cons ht (ih hts)

theorem tail (h : Ended (t :: ts)) (ht : t.isEnd = false) : Ended ts := by
  cases h with
  | last he =>
    rw [he] at ht
    cases ht
  | cons _ hts => exact hts

theorem eq_nil (h : Ended (t :: ts)) (ht : t.isEnd = true) : ts = [] := by
  cases h with
  | last => rfl
  | cons he _ =>
    rw [he] at ht
    cases ht

theorem of_suffix (h : Ended ts) (hus : us <:+ ts) (hne : us ≠ []) : Ended us := by
  induction h with
  | last he =>
    obtain rfl | hnil := List.suffix_cons_iff.mp hus
    · exact .last he
    · exact absurd (List.suffix_nil.mp hnil) hne
  | cons ht hts ih =>
    obtain rfl | hus := List.suffix_cons_iff.mp hus
    · exact .cons ht hts
    · exact ih hus

end Ended

namespace Token

variable {t : Token}

theorem isEnd_of_kind (h : t.kind ≠ .eof) : t.isEnd = false := beq_eq_false_iff_ne.mpr h

theorem isEnd_of_isOp {symbol : String} (h : t.isOp symbol = true) : t.isEnd = false := by
  rw [isOp, Bool.and_eq_true, beq_iff_eq] at h
  exact isEnd_of_kind (h.1 ▸ nofun)

theorem isEnd_of_isKeyword {word : String} (h : t.isKeyword word = true) : t.isEnd = false := by
  rw [isKeyword, Bool.and_eq_true, beq_iff_eq] at h
  exact isEnd_of_kind (h.1 ▸ nofun)

/-- Only operators are looked up in the tables of operators. -/
theorem isEnd_of_symbol {α : Type} {r : Option α} {a : α}
    (h : (if t.kind = .op then r else none) = some a) : t.isEnd = false := by
  split at h
  · next hk => exact isEnd_of_kind (hk ▸ nofun)
  · cases h

end Token

namespace Lexer

theorem Denotes.kind_ne {kind : TokenKind} {text lexeme rest : List Char}
    (h : Denotes kind text lexeme rest) : kind ≠ .eof := by
  cases h <;> exact nofun

theorem Laid.isEnd_eq_false {before rest : List Char} {ts : List Token} (h : Laid before ts rest) :
    ∀ t ∈ ts, t.isEnd = false := by
  induction h with
  | nil => exact nofun
  | snoc _ _ _ hd ih =>
    intro t ht
    rcases List.mem_append.mp ht with ht | ht
    · exact ih t ht
    · cases List.mem_singleton.mp ht
      exact Token.isEnd_of_kind hd.kind_ne

theorem Lexed.ended {text : List Char} {ts : List Token} (h : Lexed text ts) : Ended ts := by
  obtain ⟨before, trivia, us, rfl, hlaid, -, rfl⟩ := h
  exact .append hlaid.isEnd_eq_false (.last rfl)

end Lexer

namespace Parser

/-! ## From some tokens to others -/

/-- Whether a stream stands where some of the tokens lie ahead. -/
structure Stands (tokens start : List Token) (s : Stream) : Prop where
  ahead : s.ahead ++ [s.last] = start
  suffix : start <:+ tokens
  ended : Ended start

/-- Whether a rule that begins where some tokens lie ahead answers what a relation says, which may
depend on the tokens that lie ahead behind it. -/
def Leads {α : Type} (tokens start : List Token) (x : Parser α) (Q : α → List Token → Prop) :
    Prop :=
  ∀ s, Stands tokens start s → ∀ a s', StateT.run x s = .ok (a, s') →
    ∃ stop, Stands tokens stop s' ∧ stop <:+ start ∧ Q a stop

section Leads

variable {α β : Type} {tokens start rest : List Token} {t : Token}
  {P Q : α → List Token → Prop} {R : β → List Token → Prop}

theorem leads_mono {x : Parser α} (h : Leads tokens start x P)
    (hQ : ∀ a stop, stop <:+ start → P a stop → Q a stop) : Leads tokens start x Q := by
  intro s hs a s' h'
  obtain ⟨stop, hs', hstop, ha⟩ := h s hs a s' h'
  exact ⟨stop, hs', hstop, hQ a stop hstop ha⟩

theorem leads_pure {a : α} (ha : Q a start) : Leads tokens start (pure a) Q := by
  intro s hs b s' h
  cases h
  exact ⟨start, hs, List.suffix_refl start, ha⟩

theorem leads_bind {x : Parser α} {f : α → Parser β} (hx : Leads tokens start x P)
    (hf : ∀ a mid, mid <:+ start → P a mid → Leads tokens mid (f a) R) :
    Leads tokens start (x >>= f) R := by
  intro s hs b s'' h
  rw [StateT.run_bind] at h
  cases hr : StateT.run x s with
  | error e =>
    rw [hr] at h
    cases h
  | ok r =>
    obtain ⟨a, s'⟩ := r
    rw [hr] at h
    obtain ⟨mid, hs', hmid, ha⟩ := hx s hs a s' hr
    obtain ⟨stop, hs'', hstop, hb⟩ := hf a mid hmid ha s' hs' b s'' h
    exact ⟨stop, hs'', hstop.trans hmid, hb⟩

theorem leads_map {x : Parser α} {f : α → β} (hx : Leads tokens start x P)
    (hf : ∀ a stop, stop <:+ start → P a stop → R (f a) stop) :
    Leads tokens start (f <$> x) R := by
  rw [map_eq_pure_bind]
  exact leads_bind hx fun a mid hmid ha => leads_pure (hf a mid hmid ha)

theorem leads_ite {c : Prop} [Decidable c] {x y : Parser α} (hx : c → Leads tokens start x Q)
    (hy : ¬ c → Leads tokens start y Q) : Leads tokens start (if c then x else y) Q := by
  split
  · exact hx ‹c›
  · exact hy ‹¬ c›

theorem leads_throw (e : Fault) : Leads tokens start (throw e : Parser α) Q :=
  fun _ _ _ _ h => nomatch h

theorem leads_failAt (cause : Cause) (t : Token) :
    Leads tokens start (failAt cause t : Parser α) Q := leads_throw _

theorem leads_tooDeep : Leads tokens start (tooDeep : Parser α) Q := leads_throw _

theorem leads_number {r : Except NumberFault α} (h : ∀ a, r = .ok a → Q a start) :
    Leads tokens start (number r) Q := by
  cases r with
  | ok a => exact leads_pure (h a rfl)
  | error e => exact leads_throw _

/-- Where a rule begins, the tokens end with the end and are some of all tokens. -/
theorem leads_within {x : Parser α}
    (h : start <:+ tokens → Ended start → Leads tokens start x Q) : Leads tokens start x Q :=
  fun s hs => h hs.suffix hs.ended s hs

/-! ### Single tokens -/

theorem leads_peek {f : Token → Parser β}
    (h : ∀ t rest, start = t :: rest → Leads tokens start (f t) R) :
    Leads tokens start (peek >>= f) R := by
  intro s hs
  refine h (s.ahead.head?.getD s.last) start.tail ?_ s hs
  rw [← hs.ahead]
  cases s.ahead <;> rfl

theorem leads_peekSecond {f : Token → Parser β}
    (h : ∀ u, ((∃ t rest, start = t :: u :: rest) ∨ start = [u]) → Leads tokens start (f u) R) :
    Leads tokens start (peekSecond >>= f) R := by
  intro s hs
  refine h (s.ahead[1]?.getD s.last) ?_ s hs
  rw [← hs.ahead]
  match s.ahead with
  | [] => exact .inr rfl
  | [t] => exact .inl ⟨t, [], rfl⟩
  | t :: u :: more => exact .inl ⟨t, more ++ [s.last], rfl⟩

/-- The next token is taken, unless it is the end. -/
theorem leads_advance (ht : t.isEnd = false) :
    Leads tokens (t :: rest) advance fun u stop => u = t ∧ stop = rest := by
  intro s hs a s' h
  have hrest : Ended rest := hs.ended.tail ht
  have hsuffix : rest <:+ t :: rest := List.suffix_cons t rest
  obtain ⟨ahead, last⟩ := s
  cases ahead with
  | nil =>
    cases List.cons_eq_cons.mp hs.ahead |>.2
    cases hrest
  | cons u more =>
    obtain ⟨rfl, he⟩ := List.cons_eq_cons.mp hs.ahead
    cases h
    exact ⟨rest, ⟨he, hsuffix.trans hs.suffix, hrest⟩, hsuffix, rfl, rfl⟩

theorem leads_take {f : Token → Parser β} (ht : t.isEnd = false)
    (h : Leads tokens rest (f t) R) : Leads tokens (t :: rest) (advance >>= f) R := by
  refine leads_bind (leads_advance ht) ?_
  rintro u mid - ⟨rfl, rfl⟩
  exact h

/-- A rule that takes the next token if there is something that it is to be. -/
theorem leads_expect {p : Token → Prop} [DecidablePred p] {fault : Token → Parser Token}
    (hp : ∀ t, p t → t.isEnd = false)
    (hfault : ∀ t, Leads tokens start (fault t) fun _ _ => False) :
    Leads tokens start (peek >>= fun t => if p t then advance else fault t)
      fun t rest => start = t :: rest ∧ p t := by
  refine leads_peek ?_
  rintro t rest rfl
  refine leads_ite (fun ht => ?_) fun _ => leads_mono (hfault t) fun _ _ _ h => h.elim
  refine leads_mono (leads_advance (hp t ht)) ?_
  rintro u stop - ⟨rfl, rfl⟩
  exact ⟨rfl, ht⟩

theorem leads_op {symbol : String} {f : Token → Parser β}
    (h : ∀ t rest, start = t :: rest → t.isOp symbol = true → Leads tokens rest (f t) R) :
    Leads tokens start (expectOp symbol >>= f) R :=
  leads_bind (leads_expect (fun _ => Token.isEnd_of_isOp) fun _ => leads_failAt _ _)
    fun t rest _ ht => h t rest ht.1 ht.2

theorem leads_keyword {word : String} {f : Token → Parser β}
    (h : ∀ t rest, start = t :: rest → t.isKeyword word = true → Leads tokens rest (f t) R) :
    Leads tokens start (expectKeyword word >>= f) R :=
  leads_bind (leads_expect (fun _ => Token.isEnd_of_isKeyword) fun _ => leads_failAt _ _)
    fun t rest _ ht => h t rest ht.1 ht.2

theorem leads_name {f : Token → Parser β}
    (h : ∀ t rest, start = t :: rest → t.kind = .ident → Leads tokens rest (f t) R) :
    Leads tokens start (expectName >>= f) R :=
  leads_bind
    (leads_expect (fun _ hk => Token.isEnd_of_kind (hk ▸ nofun)) fun _ => leads_failAt _ _)
    fun t rest _ ht => h t rest ht.1 ht.2

theorem leads_skip {f : Unit → Parser β}
    (h : ∀ seps rest, start = seps ++ rest → (∀ t ∈ seps, isSeparator t = true) →
      Leads tokens rest (f ()) R) : Leads tokens start (skipSeparators >>= f) R := by
  intro s hs b s'' h'
  let rest := s.ahead.dropWhile isSeparator ++ [s.last]
  have he : start = s.ahead.takeWhile isSeparator ++ rest := by
    rw [← List.append_assoc, List.takeWhile_append_dropWhile, hs.ahead]
  have hrest : rest <:+ start := ⟨_, he.symm⟩
  have hstands : Stands tokens rest { s with ahead := s.ahead.dropWhile isSeparator } :=
    ⟨rfl, hrest.trans hs.suffix, hs.ended.of_suffix hrest (by simp [rest])⟩
  obtain ⟨stop, hs', hstop, hb⟩ :=
    h _ rest he (fun _ ht => List.mem_takeWhile_imp ht) _ hstands b s'' h'
  exact ⟨stop, hs', hstop.trans hrest, hb⟩

theorem leads_rounds {f : Nat → Parser β}
    (h : ∀ n, start.length = n + 1 → Leads tokens start (f n) R) :
    Leads tokens start (rounds >>= f) R := by
  intro s hs
  refine h s.ahead.length ?_ s hs
  rw [← hs.ahead, List.length_append, List.length_singleton]

end Leads

/-! ## Loops -/

/-- What stands between two brackets. -/
def Within {α : Type} (opening close : String) (R : α → List Token → List Token → Prop)
    (start : List Token) (a : α) (stop : List Token) : Prop :=
  ∃ t u s, start = t :: s ∧ t.isOp opening = true ∧ R a s (u :: stop) ∧ u.isOp close = true ∧
    u :: stop <:+ s

section Loops

variable {α : Type} {tokens : List Token} {R : α → List Token → List Token → Prop}

theorem leads_itemsWithin (cause : Cause) {item : Parser α}
    (hi : ∀ start, Leads tokens start item fun a stop => R a start stop) (n : Nat) :
    ∀ start, Leads tokens start (itemsWithin cause item n)
      fun as stop => Spaced R as start stop := by
  induction n with
  | zero => exact fun _ => leads_peek fun _ _ _ => leads_failAt _ _
  | succ n ih =>
    refine fun start => leads_peek fun _ _ _ => leads_ite (fun _ => leads_pure .nil) fun _ =>
      leads_ite (fun _ => leads_failAt _ _) fun _ => leads_bind (hi start) fun a mid _ ha =>
        leads_skip ?_
    rintro seps mid rfl hseps
    exact leads_bind (ih mid) fun as stop _ has => leads_pure (.cons ha (.skips hseps has))

theorem leads_braced (cause : Cause) {item : Parser α}
    (hi : ∀ start, Leads tokens start item fun a stop => R a start stop) (start : List Token) :
    Leads tokens start (braced cause item) (Within "\x7b" "\x7d" (Spaced R) start) := by
  refine leads_op ?_
  rintro t s rfl ht
  refine leads_skip ?_
  rintro seps s rfl hseps
  refine leads_rounds fun n _ => leads_bind (leads_itemsWithin cause hi (n + 1) s)
    fun as mid hmid has => leads_op ?_
  rintro u stop rfl hu
  exact leads_pure ⟨t, u, seps ++ s, rfl, ht, .skips hseps has, hu,
    hmid.trans (List.suffix_append seps s)⟩

/-- Before the closing bracket, there are no items. -/
theorem leads_listedUpTo_closed {close : String} {item : Parser α} (n : Nat) {t : Token}
    {rest : List Token} (ht : t.isOp close = true) :
    Leads tokens (t :: rest) (listedUpTo close item n)
      fun as stop => as = [] ∧ stop = t :: rest := by
  cases n with
  | zero => exact leads_peek fun _ _ _ => leads_failAt _ _
  | succ n =>
    refine leads_peek ?_
    rintro t' rest' ⟨rfl, rfl⟩
    rw [if_pos ht]
    exact leads_pure ⟨rfl, rfl⟩

theorem leads_listedUpTo (close : String) {item : Parser α}
    (hi : ∀ start, Leads tokens start item fun a stop => R a start stop) (n : Nat) :
    ∀ start, Leads tokens start (listedUpTo close item n)
      fun as stop => Listed R as start stop := by
  induction n with
  | zero => exact fun _ => leads_peek fun _ _ _ => leads_failAt _ _
  | succ n ih =>
    refine fun start => leads_peek fun _ _ _ => leads_ite (fun _ => leads_pure .nil) fun _ =>
      leads_bind (hi start) fun a mid _ ha => leads_peek ?_
    rintro u mid rfl
    refine leads_ite (fun hu => ?_) fun _ => leads_op ?_
    · refine leads_bind (leads_listedUpTo_closed n hu) ?_
      rintro as stop - ⟨rfl, rfl⟩
      exact leads_pure (.last ha)
    · rintro u mid ⟨rfl, rfl⟩ hu
      exact leads_bind (ih mid) fun as stop _ has => leads_pure (.cons ha hu has)

theorem leads_bracketed (opening close : String) {item : Parser α}
    (hi : ∀ start, Leads tokens start item fun a stop => R a start stop) (start : List Token) :
    Leads tokens start (bracketed opening close item) (Within opening close (Listed R) start) := by
  refine leads_op ?_
  rintro t s rfl ht
  refine leads_rounds fun n _ => leads_bind (leads_listedUpTo close hi (n + 1) s)
    fun as mid hmid has => leads_op ?_
  rintro u stop rfl hu
  exact leads_pure ⟨t, u, s, rfl, ht, has, hu, hmid⟩

end Loops

/-! ## Rules without expressions -/

section Names

variable {tokens : List Token}

theorem leads_typeName (d : Nat) :
    ∀ start, Leads tokens start (typeName d) fun n stop => TypeFrom n start stop := by
  induction d with
  | zero => exact fun _ => leads_tooDeep
  | succ d ih =>
    refine fun start => leads_peek ?_
    rintro t rest rfl
    refine leads_ite (fun ht => leads_take (Token.isEnd_of_isOp ht) (leads_op ?_)) fun _ =>
      leads_name ?_
    · rintro u s rfl hu
      exact leads_bind (ih s) fun n stop _ hn => leads_pure (.array ht hu hn)
    · rintro t s ⟨rfl, rfl⟩ ht
      exact leads_pure (.name (.intro ht))

theorem leads_optionalType (d : Nat) (start : List Token) : Leads tokens start (optionalType d)
    fun type stop => Optionally TypeFrom type start stop :=
  leads_peek fun _ _ _ => leads_ite
    (fun _ => leads_bind (leads_typeName d start) fun _ _ _ hn => leads_pure (.some hn))
    fun _ => leads_pure .none

theorem leads_param (d : Nat) (start : List Token) :
    Leads tokens start (param d) fun p stop => ParamFrom p start stop := by
  refine leads_name ?_
  rintro t s rfl ht
  exact leads_bind (leads_optionalType d s) fun _ _ _ htype =>
    leads_pure (.intro (.intro ht) htype)

theorem leads_moreSpecs (n : Nat) :
    ∀ start, Leads tokens start (moreSpecs n) fun ns stop => MoreSpecsFrom ns start stop := by
  induction n with
  | zero => exact fun _ => leads_pure .nil
  | succ n ih =>
    refine fun start => leads_peek ?_
    rintro t rest rfl
    refine leads_ite (fun ht => leads_take (Token.isEnd_of_isOp ht) (leads_name ?_)) fun _ =>
      leads_pure .nil
    rintro u s rfl hu
    exact leads_bind (ih s) fun _ _ _ hns => leads_pure (.cons ht (.intro hu) hns)

theorem leads_specs (start : List Token) :
    Leads tokens start specs fun ns stop => SpecsFrom ns start stop := by
  refine leads_peek ?_
  rintro t rest rfl
  refine leads_ite (fun ht => leads_take (Token.isEnd_of_isKeyword ht) (leads_name ?_)) fun _ =>
    leads_pure .none
  rintro u s rfl hu
  exact leads_rounds fun n _ => leads_bind (leads_moreSpecs n s) fun _ _ _ hns =>
    leads_pure (.some ht (.intro hu) hns)

end Names

end Parser

end Widgetry
