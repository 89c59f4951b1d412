import Widgetry.Proofs.Language.Recurrence

/-!
# The front end comes to an end

A step over trivia and a lexeme take a character at least, and a rule of the grammar that succeeds
takes a token at least. So a text has no more tokens than characters, but for the end, and a loop
over a rule has no more rounds than there are tokens ahead.

> `front_end_ends`: on a text of any kind, no loop uses up its rounds, and no rule nests deeper than
> a fixed multiple of the number of tokens.

Not every call takes a token: an expression descends through the levels of operators to what is in
an operand, and only there is a token taken. From one token to the next there are thirteen nested
calls at most, and each rule has its place among them (`SufficientRules`): what is left to nest must
be thirteen calls for each token ahead, less those that are behind on the way to the next one.
-/

namespace Widgetry

/-! ## Characters -/

namespace Lexer

variable {t rest before lexeme text : List Char} {kind : TokenKind} {us ts : List Token}

theorem IsTrivium.ne_nil (h : IsTrivium t rest) : t ≠ [] := by cases h <;> exact nofun

/-- Passing over trivia goes on behind a first one, or stops where there is none. -/
theorem skip_cases (cs : List Char) (p : Position) :
    (∃ t rest, t ≠ [] ∧ cs = t ++ rest ∧ skip cs p = skip rest (p.after t)) ∨
      skip cs p = .ok (cs, p) ∨ skip cs p = .error (.parsing .openComment p) := by
  obtain ⟨t, rest, rfl, ht, hrest⟩ := exists_trivia cs
  cases ht with
  | nil =>
    obtain hsolid | ⟨opened, rfl, hopened⟩ := hrest
    · exact .inr (.inl (skip_solid hsolid p))
    · exact .inr (.inr (skip_open hopened p))
  | @cons t ts _ ht hts =>
    rw [List.append_assoc]
    exact .inl ⟨t, ts ++ rest, ht.ne_nil, rfl, skip_trivium ht p⟩

/-- A lexeme is what it takes off the text, and takes a character at least. -/
theorem scan_takes {c : Char} {p : Position} {s : Scan} (h : scan c rest p = .ok s) :
    s.lexeme ≠ [] ∧ c :: rest = s.lexeme ++ s.rest := by
  obtain ⟨s', hscan, he, hdenotes⟩ | ⟨seen, cause, -, hscan⟩ := scan_cases c rest p
  · cases h.symm.trans hscan
    exact ⟨hdenotes.ne_nil, he⟩
  · cases h.symm.trans hscan

theorem Laid.length_le (h : Laid before us rest) : us.length ≤ before.length := by
  induction h with
  | nil => exact Nat.le_refl 0
  | snoc _ _ _ hd ih =>
    have hpos := List.length_pos_iff.mpr hd.ne_nil
    simp only [List.length_append, List.length_singleton]
    omega

theorem Lexed.length_le (h : Lexed text ts) : ts.length ≤ text.length + 1 := by
  obtain ⟨before, trivia, us, rfl, hlaid, -, rfl⟩ := h
  have hle := hlaid.length_le
  rw [List.length_append, List.length_append, List.length_singleton]
  omega

theorem Lexed.isEnd_last (h : Lexed text ts) : (Stream.ofTokens ts).last.isEnd = true := by
  obtain ⟨before, trivia, us, -, -, -, rfl⟩ := h
  rw [Stream.ofTokens, List.getLast?_concat]
  rfl

theorem Lexed.length_ahead (h : Lexed text ts) :
    (Stream.ofTokens ts).ahead.length + 1 = ts.length := by
  obtain ⟨before, trivia, us, -, -, -, rfl⟩ := h
  rw [Stream.ofTokens, List.dropLast_concat, List.length_append, List.length_singleton]

end Lexer

namespace Parser

/-! ## Rules that take tokens -/

/-- Whether a rule that succeeds on some streams takes tokens off those ahead, and one at least if
it is eager. -/
def Advances {α : Type} (P : Stream → Prop) (eager : Bool) (x : Parser α) : Prop :=
  ∀ s a s', s.last.isEnd = true → P s → StateT.run x s = .ok (a, s') →
    ∃ own, (eager = true → own ≠ []) ∧ s = s'.after own

section Advances

variable {α β : Type} {P : Stream → Prop} {b c : Bool} {t : Token}

theorem Recurs.advances {x : Parser α} {y : Nat → Parser α} (h : Recurs P b c x y) :
    Advances P b x := by
  intro s a s' hend hs hrun
  obtain ⟨own, hne, heq, -⟩ := h s a s' hend hs hrun
  exact ⟨own, hne, heq⟩

theorem advances_mono {Q : Stream → Prop} {x : Parser α} (h : Advances P b x)
    (hQ : ∀ s, Q s → P s) : Advances Q b x :=
  fun s a s' hend hs => h s a s' hend (hQ s hs)

theorem advances_everywhere {x : Parser α} (h : Advances Any b x) : Advances P b x :=
  advances_mono h fun _ _ => trivial

theorem advances_pure (a : α) : Advances P false (pure a) :=
  (recurs_pure (P := P) (c := true) a).advances

/-- The end is not passed. -/
theorem advances_advance : Advances P false advance := by
  rintro ⟨ahead, last⟩ a s' - - hrun
  cases hrun
  refine ⟨ahead.take 1, nofun, ?_⟩
  cases ahead <;> rfl

/-- There are no steps for the end, and each of them takes a token. -/
theorem StepsRecur.advances {step step' : Expr → Token → Option (Parser Expr)}
    (h : StepsRecur step step') {e : Expr} {more : Parser Expr} (hsome : step e t = some more) :
    t.isEnd = false ∧ Advances (At t) true more := by
  obtain ⟨hnone, -⟩ | ⟨more', _, hsome', -, ht, hr⟩ := h e t
  · cases hnone.symm.trans hsome
  · cases hsome.symm.trans hsome'
    exact ⟨ht, hr.advances⟩

end Advances

/-! ## Rules that nest no deeper than they may -/

/-- The faults that the grammar tells: of a token, at its place, and of a number. A rule that nests
too deep tells of no place. -/
inductive Told : Fault → Prop where
  | token (cause : Cause) (t : Token) : Told (.source (.parsing cause t.position))
  | number (e : NumberFault) : Told (.number e)

theorem Told.of_ok {ρ : Type} {told : Bool} {r : ρ} :
    told = true → ∀ e : Fault, (.ok r : Except Fault ρ) = .error e → Told e :=
  fun _ _ h => nomatch h

/-- Whether two rules do the same on some streams, and fail with nothing but what the grammar
tells, if that is asked. -/
def Suffices {α : Type} (told : Bool) (P : Stream → Prop) (x y : Parser α) : Prop :=
  ∀ s, s.last.isEnd = true → P s → StateT.run x s = StateT.run y s ∧
    (told = true → ∀ e, StateT.run x s = .error e → Told e)

section Suffices

variable {α β : Type} {told b c : Bool} {k : Nat} {t : Token} {P Q : Stream → Prop}

theorem suffices_refl (x : Parser α) : Suffices false P x x := fun _ _ _ => ⟨rfl, nofun⟩

theorem suffices_mono {x y : Parser α} (h : Suffices told P x y) (hQ : ∀ s, Q s → P s) :
    Suffices told Q x y := fun s hend hs => h s hend (hQ s hs)

theorem suffices_short {m : Nat} {x y : Parser α} (h : Suffices told (Short k) x y) (hm : m ≤ k) :
    Suffices told (Short m) x y := suffices_mono h fun _ hs => Nat.lt_of_lt_of_le hs hm

/-- No stream has less than no tokens ahead. -/
theorem suffices_none (x y : Parser α) : Suffices told (Short 0) x y := fun _ _ hs => nomatch hs

theorem suffices_pure (a : α) : Suffices told P (pure a) (pure a) := fun _ _ _ => ⟨rfl, Told.of_ok⟩

theorem suffices_failAt (cause : Cause) (t : Token) :
    Suffices told P (failAt cause t : Parser α) (failAt cause t) := by
  refine fun s _ _ => ⟨rfl, fun _ e he => ?_⟩
  cases he
  exact .token cause t

theorem suffices_number (r : Except NumberFault α) : Suffices told P (number r) (number r) := by
  cases r with
  | ok a => exact suffices_pure a
  | error n =>
    refine fun s _ _ => ⟨rfl, fun _ e he => ?_⟩
    cases he
    exact .number n

/-- One thing after another, on what the first one has left. -/
theorem suffices_bind {x y : Parser α} {f g : α → Parser β} (hx : Suffices told P x y)
    (ha : Advances P b x) (hf : ∀ a, Suffices told Q (f a) (g a))
    (hQ : ∀ s own, P (s.after own) → (b = true → own ≠ []) → Q s) :
    Suffices told P (x >>= f) (y >>= g) := by
  intro s hend hs
  obtain ⟨heq, htold⟩ := hx s hend hs
  rw [StateT.run_bind, StateT.run_bind, ← heq]
  cases hrun : StateT.run x s with
  | error e =>
    refine ⟨rfl, fun h e' he' => ?_⟩
    cases he'
    exact htold h e hrun
  | ok r =>
    -- the second thing only has to do the same on what the first one can leave
    obtain ⟨own, hne, rfl⟩ := ha s r.1 r.2 hend hs hrun
    exact hf r.1 r.2 hend (hQ r.2 own hs hne)

/-- No more tokens are ahead than before. -/
theorem suffices_then {x y : Parser α} {f g : α → Parser β} (hx : Suffices told (Short k) x y)
    (ha : Advances (Short k) b x) (hf : ∀ a, Suffices told (Short k) (f a) (g a)) :
    Suffices told (Short k) (x >>= f) (y >>= g) := by
  refine suffices_bind hx ha hf fun s own hs _ => ?_
  rw [Short, Stream.after, List.length_append] at hs
  exact Nat.lt_of_le_of_lt (Nat.le_add_left _ _) hs

/-- What takes a token leaves a shorter stream. -/
theorem suffices_taking {x y : Parser α} {f g : α → Parser β} (hx : Suffices told P x y)
    (ha : Advances P true x) (hf : ∀ a, Suffices told (Short (k - 1)) (f a) (g a))
    (hP : ∀ s, P s → Short k s) : Suffices told P (x >>= f) (y >>= g) := by
  refine suffices_bind hx ha hf fun s own hs hne => ?_
  have hpos : 0 < own.length := List.length_pos_iff.mpr (hne rfl)
  have hlen := hP _ hs
  rw [Short, Stream.after, List.length_append] at hlen
  exact Nat.lt_sub_of_add_lt (by omega)

/-- What is answered is put together from what the first thing answers. -/
theorem suffices_return {x y : Parser α} (f : α → β) (hx : Suffices told P x y) :
    Suffices told P (x >>= fun a => pure (f a)) (y >>= fun a => pure (f a)) := by
  intro s hend hs
  obtain ⟨heq, htold⟩ := hx s hend hs
  rw [StateT.run_bind, StateT.run_bind, ← heq]
  cases hrun : StateT.run x s with
  | error e =>
    refine ⟨rfl, fun h e' he' => ?_⟩
    cases he'
    exact htold h e hrun
  | ok r => exact ⟨rfl, Told.of_ok⟩

theorem suffices_map {x y : Parser α} (f : α → β) (hx : Suffices told P x y) :
    Suffices told P (f <$> x) (f <$> y) := by
  simp only [map_eq_pure_bind]
  exact suffices_return f hx

theorem suffices_ite {p : Prop} [Decidable p] {x y x' y' : Parser α}
    (hx : p → Suffices told P x y) (hx' : ¬ p → Suffices told P x' y') :
    Suffices told P (if p then x else x') (if p then y else y') := by
  split
  · exact hx ‹p›
  · exact hx' ‹¬ p›

/-! ### Single tokens -/

theorem suffices_look {f g : Token → Parser β}
    (h : ∀ t, Suffices told (fun s => P s ∧ s.next = t) (f t) (g t)) :
    Suffices told P (peek >>= f) (peek >>= g) :=
  fun s hend hs => h s.next s hend ⟨hs, rfl⟩

theorem suffices_peek {f g : Token → Parser β} (h : ∀ t, Suffices told P (f t) (g t)) :
    Suffices told P (peek >>= f) (peek >>= g) :=
  suffices_look fun t => suffices_mono (h t) fun _ hs => hs.1

theorem suffices_peekSecond {f g : Token → Parser β} (h : ∀ t, Suffices told P (f t) (g t)) :
    Suffices told P (peekSecond >>= f) (peekSecond >>= g) :=
  fun s hend hs => h s.second s hend hs

theorem suffices_advance : Suffices told P advance advance := fun _ _ _ => ⟨rfl, Told.of_ok⟩

theorem suffices_skip : Suffices told P skipSeparators skipSeparators := fun _ _ _ => ⟨rfl, Told.of_ok⟩

/-- The token that was looked at is taken. -/
theorem suffices_take {f g : Token → Parser β} (ht : t.isEnd = false)
    (hf : ∀ a, Suffices told (Short (k - 1)) (f a) (g a)) :
    Suffices told (fun s => Short k s ∧ s.next = t) (advance >>= f) (advance >>= g) :=
  suffices_taking suffices_advance
    (advances_mono (recurs_advance (c := true) ht).advances fun _ hs => hs.2) hf fun _ hs => hs.1

theorem suffices_op (symbol : String) {f g : Token → Parser β}
    (hf : ∀ a, Suffices told (Short (k - 1)) (f a) (g a)) :
    Suffices told (Short k) (expectOp symbol >>= f) (expectOp symbol >>= g) :=
  suffices_taking (suffices_peek fun _ => suffices_ite (fun _ => suffices_advance)
      fun _ => suffices_failAt _ _)
    (recurs_everywhere (c := true) (recurs_op symbol)).advances hf fun _ hs => hs

theorem suffices_keyword (word : String) {f g : Token → Parser β}
    (hf : ∀ a, Suffices told (Short (k - 1)) (f a) (g a)) :
    Suffices told (Short k) (expectKeyword word >>= f) (expectKeyword word >>= g) :=
  suffices_taking (suffices_peek fun _ => suffices_ite (fun _ => suffices_advance)
      fun _ => suffices_failAt _ _)
    (recurs_everywhere (c := true) (recurs_keyword word)).advances hf fun _ hs => hs

theorem suffices_name {f g : Token → Parser β}
    (hf : ∀ a, Suffices told (Short (k - 1)) (f a) (g a)) :
    Suffices told (Short k) (expectName >>= f) (expectName >>= g) :=
  suffices_taking (suffices_peek fun _ => suffices_ite (fun _ => suffices_advance)
      fun _ => suffices_failAt _ _)
    (recurs_everywhere (c := true) recurs_name).advances hf fun _ hs => hs

/-! ### Loops

A loop is given at least as many rounds as tokens can lie ahead. The induction is on that number: a
round takes one of the tokens, or it is the last one. -/

theorem suffices_rounds {f g : Nat → Parser β}
    (h : ∀ n, n < k → Suffices told (Short (n + 1)) (f n) (g n)) :
    Suffices told (Short k) (rounds >>= f) (rounds >>= g) :=
  fun s hend hs => h s.ahead.length hs s hend (Nat.lt_succ_self _)

theorem suffices_itemsWithin {cause : Cause} {item item' : Parser α} (ha : Advances Any true item) :
    ∀ {k n n' : Nat}, Suffices told (Short k) item item' → k ≤ n → k ≤ n' →
      Suffices told (Short k) (itemsWithin cause item n) (itemsWithin cause item' n') := by
  intro k
  induction k with
  | zero => exact fun _ _ _ => suffices_none _ _
  | succ k ih =>
    intro n n' hi hn hn'
    obtain ⟨n, rfl⟩ := Nat.exists_eq_add_of_le' (Nat.le_trans (Nat.le_add_left 1 k) hn)
    obtain ⟨n', rfl⟩ := Nat.exists_eq_add_of_le' (Nat.le_trans (Nat.le_add_left 1 k) hn')
    refine suffices_peek fun t => suffices_ite (fun _ => suffices_pure _) fun _ =>
      suffices_ite (fun _ => suffices_failAt _ _) fun _ => ?_
    refine suffices_taking hi (advances_everywhere ha) (fun a => ?_) fun _ hs => hs
    exact suffices_then suffices_skip (advances_everywhere recurs_skip.advances) fun _ =>
      suffices_return _ (ih (suffices_short hi (Nat.le_succ k)) (Nat.le_of_succ_le_succ hn)
        (Nat.le_of_succ_le_succ hn'))

theorem suffices_braced {cause : Cause} {item item' : Parser α}
    (hr : Recurs Any true false item fun _ => item)
    (hi : Suffices told (Short (k - 1)) item item') :
    Suffices told (Short k) (braced cause item) (braced cause item') := by
  refine suffices_op _ fun _ => suffices_then suffices_skip
    (advances_everywhere recurs_skip.advances) fun _ => suffices_rounds fun n hn => ?_
  refine suffices_then (suffices_itemsWithin hr.advances (suffices_short hi hn) (Nat.le_refl _)
    (Nat.le_refl _)) (recurs_itemsWithin hr (n + 1)).advances fun _ => ?_
  exact suffices_op _ fun _ => suffices_pure _

theorem suffices_listedUpTo {close : String} {item item' : Parser α}
    (ha : Advances Any true item) :
    ∀ {k n n' : Nat}, Suffices told (Short k) item item' → k ≤ n → k ≤ n' →
      Suffices told (Short k) (listedUpTo close item n) (listedUpTo close item' n') := by
  intro k
  induction k with
  | zero => exact fun _ _ _ => suffices_none _ _
  | succ k ih =>
    intro n n' hi hn hn'
    obtain ⟨n, rfl⟩ := Nat.exists_eq_add_of_le' (Nat.le_trans (Nat.le_add_left 1 k) hn)
    obtain ⟨n', rfl⟩ := Nat.exists_eq_add_of_le' (Nat.le_trans (Nat.le_add_left 1 k) hn')
    refine suffices_peek fun t => suffices_ite (fun _ => suffices_pure _) fun _ => ?_
    refine suffices_taking hi (advances_everywhere ha) (fun a => ?_) fun _ hs => hs
    have hrest := suffices_return (a :: ·) (ih (suffices_short hi (Nat.le_succ k))
      (Nat.le_of_succ_le_succ hn) (Nat.le_of_succ_le_succ hn'))
    exact suffices_peek fun _ => suffices_ite (fun _ => hrest) fun _ =>
      suffices_op _ fun _ => suffices_short hrest (Nat.sub_le k 1)

theorem suffices_bracketed {opening close : String} {item item' : Parser α}
    (hr : Recurs Any true false item fun _ => item)
    (hi : Suffices told (Short (k - 1)) item item') :
    Suffices told (Short k) (bracketed opening close item) (bracketed opening close item') := by
  refine suffices_op _ fun _ => suffices_rounds fun n hn => ?_
  refine suffices_then (suffices_listedUpTo hr.advances (suffices_short hi hn) (Nat.le_refl _)
    (Nat.le_refl _)) (recurs_listedUpTo close hr (n + 1)).advances fun _ => ?_
  exact suffices_op _ fun _ => suffices_pure _

/-- Whether there are steps for the same tokens, which do the same. -/
def StepsSuffice (told : Bool) (k : Nat) (step step' : Expr → Token → Option (Parser Expr)) :
    Prop :=
  ∀ e t, (step e t = none ∧ step' e t = none) ∨
    ∃ more more', step e t = some more ∧ step' e t = some more' ∧
      Suffices told (fun s => Short k s ∧ s.next = t) more more'

/-- Behind the last token there is no step, so that no round is needed to see that. -/
theorem suffices_grow {step step' : Expr → Token → Option (Parser Expr)}
    (hr : StepsRecur step step) {m : Nat} :
    ∀ {n n' : Nat} (e : Expr), StepsSuffice told (m + 1) step step' → m ≤ n → m ≤ n' →
      Suffices told (Short (m + 1)) (grow step n e) (grow step' n' e) := by
  induction m with
  | zero =>
    intro n n' e hstep _ _ s hend hs
    obtain ⟨hnone, hnone'⟩ | ⟨_, _, hsome, -⟩ := hstep e s.next
    · rw [run_grow_none hnone, run_grow_none hnone']
      exact ⟨rfl, Told.of_ok⟩
    · -- with no token ahead the end is next, and there is no step for it
      cases (hr.advances hsome).1.symm.trans (Stream.next_isEnd hend hs)
  | succ m ih =>
    intro n n' e hstep hn hn' s hend hs
    obtain ⟨n, rfl⟩ := Nat.exists_eq_add_of_le' (Nat.le_trans (Nat.le_add_left 1 m) hn)
    obtain ⟨n', rfl⟩ := Nat.exists_eq_add_of_le' (Nat.le_trans (Nat.le_add_left 1 m) hn')
    obtain ⟨hnone, hnone'⟩ | ⟨more, more', hsome, hsome', hmore⟩ := hstep e s.next
    · rw [run_grow_none hnone, run_grow_none hnone']
      exact ⟨rfl, Told.of_ok⟩
    · rw [run_grow_some hsome, run_grow_some hsome']
      have hshorter : StepsSuffice told (m + 1) step step' := fun e t =>
        (hstep e t).imp_right fun ⟨more, more', hsome, hsome', hmore⟩ =>
          ⟨more, more', hsome, hsome',
            suffices_mono hmore fun _ hs => ⟨Nat.lt_succ_of_lt hs.1, hs.2⟩⟩
      exact suffices_taking hmore (advances_mono (hr.advances hsome).2 fun _ hs => hs.2)
        (fun e => ih e hshorter (Nat.le_of_succ_le_succ hn) (Nat.le_of_succ_le_succ hn'))
        (fun _ hs => hs.1) s hend ⟨hs, rfl⟩

theorem suffices_chain (level : Nat) {operand operand' : Parser Expr}
    (hr : Recurs Any true false operand fun _ => operand) {m n n' : Nat} (left : Expr)
    (ho : Suffices told (Short m) operand operand') (hn : m ≤ n) (hn' : m ≤ n') :
    Suffices told (Short (m + 1)) (chain level operand n left)
      (chain level operand' n' left) := by
  simp only [chain_eq_grow]
  refine suffices_grow (recurs_operatorStep level hr) left (fun e t => ?_) hn hn'
  obtain hnone | ⟨op, hop, hsome⟩ := operatorStep_cases level e t
  · exact .inl ⟨hnone _, hnone _⟩
  · exact .inr ⟨_, _, hsome _, hsome _,
      suffices_take (Token.isEnd_of_symbol hop) fun _ => suffices_return _ ho⟩

theorem suffices_suffixes {args args' : Parser (List Expr)}
    (hr : Recurs Any true false args fun _ => args) {m n n' : Nat} (e : Expr)
    (hargs : Suffices told (Short (m + 1)) args args') (hn : m ≤ n) (hn' : m ≤ n') :
    Suffices told (Short (m + 1)) (suffixes args n e) (suffixes args' n' e) := by
  simp only [suffixes_eq_grow]
  refine suffices_grow (recurs_suffixStep hr) e (fun e t => ?_) hn hn'
  obtain hnone | ⟨hdot, hsome⟩ | ⟨-, hsome⟩ := suffixStep_cases e t
  · exact .inl ⟨hnone _, hnone _⟩
  · exact .inr ⟨_, _, hsome _, hsome _, suffices_take (Token.isEnd_of_isOp hdot) fun _ =>
      suffices_name fun _ => suffices_pure _⟩
  · refine .inr ⟨_, _, hsome _, hsome _, suffices_mono (suffices_then hargs
      (advances_everywhere hr.advances) fun _ => ?_) fun _ hs => hs.1⟩
    exact suffices_peek fun _ => suffices_pure _

theorem suffices_moreSpecs {m : Nat} : ∀ {n n' : Nat}, m ≤ n → m ≤ n' →
    Suffices told (Short (m + 1)) (moreSpecs n) (moreSpecs n') := by
  have hnone : ∀ {n n' : Nat} {s : Stream}, s.next.isOp "," = false →
      StateT.run (moreSpecs n) s = StateT.run (moreSpecs n') s ∧
        (told = true → ∀ e, StateT.run (moreSpecs n) s = .error e → Told e) := fun hcomma => by
    rw [run_moreSpecs_none hcomma, run_moreSpecs_none hcomma]
    exact ⟨rfl, Told.of_ok⟩
  induction m with
  | zero =>
    exact fun _ _ s hend hs => hnone (Bool.eq_false_iff.mpr fun hcomma =>
      nomatch (Stream.next_isEnd hend hs).symm.trans (Token.isEnd_of_isOp hcomma))
  | succ m ih =>
    intro n n' hn hn' s hend hs
    obtain ⟨n, rfl⟩ := Nat.exists_eq_add_of_le' (Nat.le_trans (Nat.le_add_left 1 m) hn)
    obtain ⟨n', rfl⟩ := Nat.exists_eq_add_of_le' (Nat.le_trans (Nat.le_add_left 1 m) hn')
    refine suffices_look (P := Short (m + 2)) (fun t => suffices_ite (fun ht => ?_)
      fun _ => suffices_pure _) s hend hs
    refine suffices_take (Token.isEnd_of_isOp ht) fun _ => suffices_name fun _ => ?_
    exact suffices_return _ (suffices_short (ih (Nat.le_of_succ_le_succ hn)
      (Nat.le_of_succ_le_succ hn')) (Nat.sub_le (m + 1) 1))

theorem suffices_statementsToEnd {statement statement' : Parser Stmt}
    (ha : Advances Any true statement) {m : Nat} :
    ∀ {n n' : Nat}, Suffices told (Short (m + 1)) statement statement' → m ≤ n → m ≤ n' →
      Suffices told (Short (m + 1)) (statementsToEnd statement n)
        (statementsToEnd statement' n') := by
  have hnone : ∀ {x : Parser Stmt} {n : Nat} {s : Stream}, s.next.isEnd = true →
      StateT.run (statementsToEnd x n) s = .ok ([], s) := fun {x n s} hend => by
    cases n with
    | zero => rfl
    | succ n =>
      rw [statementsToEnd, Reads.run_peek, if_pos hend]
      rfl
  induction m with
  | zero =>
    intro n n' _ _ _ s hend hs
    have hlast := Stream.next_isEnd hend hs
    rw [hnone hlast, hnone hlast]
    exact ⟨rfl, Told.of_ok⟩
  | succ m ih =>
    intro n n' hi hn hn'
    obtain ⟨n, rfl⟩ := Nat.exists_eq_add_of_le' (Nat.le_trans (Nat.le_add_left 1 m) hn)
    obtain ⟨n', rfl⟩ := Nat.exists_eq_add_of_le' (Nat.le_trans (Nat.le_add_left 1 m) hn')
    refine suffices_peek fun t => suffices_ite (fun _ => suffices_pure _) fun _ => ?_
    refine suffices_taking hi (advances_everywhere ha) (fun a => ?_) fun _ hs => hs
    exact suffices_then suffices_skip (advances_everywhere recurs_skip.advances) fun _ =>
      suffices_return _ (ih (suffices_short hi (Nat.le_succ _)) (Nat.le_of_succ_le_succ hn)
        (Nat.le_of_succ_le_succ hn'))

/-! ### Rules without expressions -/

theorem suffices_typeName {d d' : Nat} (hd : d ≤ d') (hk : 13 * k ≤ d + 12) :
    Suffices told (Short k) (typeName d) (typeName d') := by
  induction d generalizing d' k with
  | zero =>
    obtain rfl : k = 0 := by omega
    exact suffices_none _ _
  | succ d ih =>
    obtain ⟨d', rfl⟩ := Nat.exists_eq_add_of_le' (Nat.le_trans (Nat.le_add_left 1 d) hd)
    refine suffices_look fun t => suffices_ite (fun ht => ?_) fun _ => ?_
    · exact suffices_take (Token.isEnd_of_isOp ht) fun _ => suffices_op _ fun _ =>
        suffices_return _ (ih (Nat.le_of_succ_le_succ hd) (by omega))
    · exact suffices_mono (suffices_name fun _ => suffices_pure _) fun _ hs => hs.1

theorem suffices_optionalType {d d' : Nat} (hd : d ≤ d') (hk : 13 * k ≤ d + 12) :
    Suffices told (Short k) (optionalType d) (optionalType d') :=
  suffices_peek fun _ => suffices_ite (fun _ => suffices_return _ (suffices_typeName hd hk))
    fun _ => suffices_pure _

theorem suffices_param {d d' : Nat} (hd : d ≤ d') (hk : 13 * k ≤ d + 12) :
    Suffices told (Short k) (param d) (param d') :=
  suffices_name fun _ => suffices_return _ (suffices_optionalType hd (by omega))

theorem suffices_specs : Suffices told (Short k) specs specs := by
  refine suffices_look fun t => suffices_ite (fun ht => ?_) fun _ => suffices_pure _
  exact suffices_take (Token.isEnd_of_isKeyword ht) fun _ => suffices_name fun _ =>
    suffices_rounds fun n _ => suffices_return _ (suffices_moreSpecs (Nat.le_refl n) (Nat.le_refl n))

end Suffices

/-! ### All rules -/

/-- Whether the rules of a depth do the same at another one on streams with few enough tokens
ahead. A rule needs thirteen calls for each of the tokens, less those behind it on the way to a
token that is taken: the way is from a statement to an expression, down through the levels of
operators, and through an operand to a name. -/
structure SufficientRules (d d' : Nat) : Prop where
  expression {k : Nat} (b : Bool) : 13 * k ≤ d + 1 →
    Suffices true (Short k) (expression d b) (expression d' b)
  binary {k level : Nat} (b : Bool) : level ≤ BinaryOp.levels → 13 * k ≤ d + 2 + level →
    Suffices true (Short k) (binary d level b) (binary d' level b)
  unary {k : Nat} (b : Bool) : 13 * k ≤ d + 9 → Suffices true (Short k) (unary d b) (unary d' b)
  suffixed {k : Nat} (b : Bool) : 13 * k ≤ d + 10 →
    Suffices true (Short k) (suffixed d b) (suffixed d' b)
  primary {k : Nat} (b : Bool) : 13 * k ≤ d + 11 →
    Suffices true (Short k) (primary d b) (primary d' b)
  /-- the rules that take their first token themselves come last -/
  named {k : Nat} {t : Token} (b : Bool) : t.kind = .ident → 13 * k ≤ d + 12 →
    Suffices true (fun s => Short k s ∧ s.next = t) (named d b) (named d' b)
  arguments {k : Nat} : 13 * k ≤ d + 12 → Suffices true (Short k) (arguments d) (arguments d')
  nodeBody {k : Nat} (kind : String) : 13 * k ≤ d + 12 →
    Suffices true (Short k) (nodeBody d kind) (nodeBody d' kind)
  block {k : Nat} : 13 * k ≤ d + 12 → Suffices true (Short k) (block d) (block d')
  binding {k : Nat} {t : Token} : (t.isKeyword "let" || t.isKeyword "var") = true →
    13 * k ≤ d + 12 → Suffices true (fun s => Short k s ∧ s.next = t) (binding d) (binding d')
  choice {k : Nat} : 13 * k ≤ d + 12 → Suffices true (Short k) (choice d) (choice d')
  iteration {k : Nat} : 13 * k ≤ d + 12 → Suffices true (Short k) (iteration d) (iteration d')
  fnDecl {k : Nat} : 13 * k ≤ d + 12 → Suffices true (Short k) (fnDecl d) (fnDecl d')
  fieldDecl {k : Nat} : 13 * k ≤ d + 12 → Suffices true (Short k) (fieldDecl d) (fieldDecl d')
  typeDecl {k : Nat} : 13 * k ≤ d + 12 → Suffices true (Short k) (typeDecl d) (typeDecl d')
  /-- and those that go on with an expression come first -/
  statement {k : Nat} : 13 * k ≤ d → Suffices true (Short k) (statement d) (statement d')
  arm {k : Nat} : 13 * k ≤ d → Suffices true (Short k) (arm d) (arm d')

/-- There are at most twelve calls on the way to a token. -/
theorem suffices_few {α : Type} {told : Bool} {k n : Nat} {x y : Parser α} (hk : 13 * k ≤ n)
    (hn : n < 13) : Suffices told (Short k) x y := by
  obtain rfl : k = 0 := by omega
  exact suffices_none x y

theorem sufficientRules_zero (d' : Nat) : SufficientRules 0 d' where
  expression _ hk := suffices_few hk (by decide)
  binary _ hlevel hk := suffices_few hk (by rw [BinaryOp.levels] at hlevel; omega)
  unary _ hk := suffices_few hk (by decide)
  suffixed _ hk := suffices_few hk (by decide)
  primary _ hk := suffices_few hk (by decide)
  named _ _ hk := suffices_mono (suffices_few hk (by decide)) fun _ hs => hs.1
  arguments hk := suffices_few hk (by decide)
  nodeBody _ hk := suffices_few hk (by decide)
  block hk := suffices_few hk (by decide)
  binding _ hk := suffices_mono (suffices_few hk (by decide)) fun _ hs => hs.1
  choice hk := suffices_few hk (by decide)
  iteration hk := suffices_few hk (by decide)
  fnDecl hk := suffices_few hk (by decide)
  fieldDecl hk := suffices_few hk (by decide)
  typeDecl hk := suffices_few hk (by decide)
  statement hk := suffices_few hk (by decide)
  arm hk := suffices_few hk (by decide)

section Step

variable {d d' k : Nat} (ih : SufficientRules d d') (hr : RecurringRules d d)

include ih

theorem suffices_unary (b : Bool) (hk : 13 * k ≤ d + 1 + 9) :
    Suffices true (Short k) (unary (d + 1) b) (unary (d' + 1) b) := by
  refine suffices_look fun t => ?_
  cases hop : prefixOp? t with
  | none => exact suffices_mono (ih.suffixed b hk) fun _ hs => hs.1
  | some op =>
    exact suffices_take (Token.isEnd_of_symbol hop) fun _ =>
      suffices_return _ (ih.unary b (by omega))

theorem suffices_nodeItem (hk : 13 * k ≤ d) :
    Suffices true (Short k) (nodeItem d) (nodeItem d') := by
  refine suffices_peek fun t => suffices_peekSecond fun u => suffices_ite (fun _ => ?_) fun _ =>
    suffices_return _ (ih.statement hk)
  refine suffices_then suffices_advance (advances_everywhere advances_advance) fun _ => ?_
  exact suffices_then suffices_advance (advances_everywhere advances_advance) fun _ =>
    suffices_return _ (ih.expression true (by omega))

theorem suffices_binding (hd : d ≤ d') {t : Token}
    (ht : (t.isKeyword "let" || t.isKeyword "var") = true) (hk : 13 * k ≤ d + 1 + 12) :
    Suffices true (fun s => Short k s ∧ s.next = t) (binding (d + 1)) (binding (d' + 1)) := by
  have hend : t.isEnd = false :=
    (Bool.or_eq_true _ _ ▸ ht).elim Token.isEnd_of_isKeyword Token.isEnd_of_isKeyword
  have hvalue : ∀ (start : Token) (name : String) (type : Option String) (marked : Bool) {m : Nat},
      m ≤ k - 1 → Suffices true (Short m) (do
        let _ ← expectOp "="
        let value ← expression d true
        return Stmt.bind name value type (start.text == "var" || marked) start.line) (do
        let _ ← expectOp "="
        let value ← expression d' true
        return Stmt.bind name value type (start.text == "var" || marked) start.line) :=
    fun _ _ _ _ _ hm => suffices_op _ fun _ => suffices_return _ (ih.expression true (by omega))
  have hname : ∀ (start : Token) (marked : Bool), Suffices true (Short (k - 1)) (do
      let name ← expectName
      let type ← if (← peek).isOp "=" then pure none else some <$> typeName d
      let _ ← expectOp "="
      let value ← expression d true
      return Stmt.bind name.text value type (start.text == "var" || marked) start.line) (do
      let name ← expectName
      let type ← if (← peek).isOp "=" then pure none else some <$> typeName d'
      let _ ← expectOp "="
      let value ← expression d' true
      return Stmt.bind name.text value type (start.text == "var" || marked) start.line) := by
    refine fun start marked => suffices_name fun name => suffices_peek fun _ =>
      suffices_ite (fun _ => ?_) fun _ => ?_
    · exact suffices_then (suffices_pure none) (advances_pure none) fun type =>
        hvalue start name.text type marked (Nat.sub_le _ _)
    · exact suffices_then (suffices_map some (suffices_typeName hd (by omega)))
        (advances_everywhere (recurs_map some (recurs_typeName hd)).advances) fun type =>
          hvalue start name.text type marked (Nat.sub_le _ _)
  refine suffices_take hend fun start => suffices_peek fun m => suffices_ite (fun _ => ?_)
    fun _ => hname start _
  exact suffices_then suffices_advance (advances_everywhere advances_advance) fun _ =>
    hname start _

theorem suffices_fnDecl (hd : d ≤ d') (hk : 13 * k ≤ d + 1 + 12) :
    Suffices true (Short k) (fnDecl (d + 1)) (fnDecl (d' + 1)) :=
  suffices_keyword _ fun _ => suffices_name fun _ =>
    suffices_then (suffices_bracketed (recurs_param (Nat.le_refl d))
        (suffices_param hd (by omega)))
      (advances_everywhere (recurs_bracketed (c := true) _ _ (recurs_param hd)).advances) fun _ =>
    suffices_then (suffices_optionalType hd (by omega))
      (advances_everywhere (recurs_optionalType hd).advances) fun _ =>
    suffices_return _ (ih.block (by omega))

theorem suffices_fieldDecl (hd : d ≤ d') (hk : 13 * k ≤ d + 1 + 12) :
    Suffices true (Short k) (fieldDecl (d + 1)) (fieldDecl (d' + 1)) :=
  suffices_name fun _ => suffices_then (suffices_typeName hd (by omega))
    (advances_everywhere (recurs_typeName hd).advances) fun _ =>
      suffices_peek fun _ => suffices_ite (fun _ => suffices_then suffices_advance
          (advances_everywhere advances_advance) fun _ =>
            suffices_return _ (ih.expression true (by omega))) fun _ => suffices_pure _

theorem suffices_typeItem (hk : 13 * k ≤ d + 12) :
    Suffices true (Short k) (typeItem d) (typeItem d') :=
  suffices_peek fun _ => suffices_ite (fun _ => suffices_return _ (ih.fnDecl hk))
    fun _ => suffices_return _ (ih.fieldDecl hk)

include hr

theorem suffices_binary {level : Nat} (b : Bool) (hlevel : level ≤ BinaryOp.levels)
    (hk : 13 * k ≤ d + 1 + 2 + level) :
    Suffices true (Short k) (binary (d + 1) level b) (binary (d' + 1) level b) := by
  refine suffices_ite (fun hlast => ih.unary b ?_) fun hlast => ?_
  · rw [hlast, BinaryOp.levels] at hk
    exact hk
  · -- an operand takes no token before its own first one, but is one call nearer to it
    have ho : Suffices true (Short k) (binary d (level + 1) b) (binary d' (level + 1) b) :=
      ih.binary b (by omega) (by omega)
    exact suffices_then ho (advances_everywhere (hr.binary _ b).advances) fun left =>
      suffices_rounds fun n hn => suffices_chain level (hr.binary _ b) left
        (suffices_short ho (Nat.le_of_lt hn)) (Nat.le_refl n) (Nat.le_refl n)

theorem suffices_suffixed (b : Bool) (hk : 13 * k ≤ d + 1 + 10) :
    Suffices true (Short k) (suffixed (d + 1) b) (suffixed (d' + 1) b) := by
  refine suffices_then (ih.primary b hk) (advances_everywhere (hr.primary b).advances) fun e => ?_
  exact suffices_rounds fun n hn => suffices_suffixes (recurs_free hr.arguments) e
    (suffices_short (ih.arguments (by omega)) hn) (Nat.le_refl n) (Nat.le_refl n)

theorem suffices_primary (b : Bool) (hk : 13 * k ≤ d + 1 + 11) :
    Suffices true (Short k) (primary (d + 1) b) (primary (d' + 1) b) := by
  refine suffices_look fun t => ?_
  have hliteral : ∀ v : Scalar, t.kind ≠ .eof → Suffices true (fun s => Short k s ∧ s.next = t) (do
      let _ ← advance
      return Expr.literal v t.line) (do
      let _ ← advance
      return Expr.literal v t.line) := fun v ht =>
    suffices_take (Token.isEnd_of_kind ht) fun _ => suffices_pure _
  split
  · next hkind =>
    exact suffices_take (Token.isEnd_of_kind (hkind ▸ nofun)) fun _ =>
      suffices_return _ (suffices_number _)
  · next hkind =>
    exact suffices_take (Token.isEnd_of_kind (hkind ▸ nofun)) fun _ =>
      suffices_return _ (suffices_number _)
  · next hkind => exact hliteral _ (hkind ▸ nofun)
  · next hkind =>
    exact suffices_ite (fun _ => hliteral _ (hkind ▸ nofun)) fun _ =>
      suffices_ite (fun _ => hliteral _ (hkind ▸ nofun)) fun _ => suffices_failAt _ _
  · next hkind => exact ih.named b hkind hk
  · next hkind =>
    refine suffices_ite (fun _ => ?_) fun _ => suffices_ite (fun _ => ?_) fun _ =>
      suffices_failAt _ _
    · -- behind the bracket the way begins anew, with a token less
      exact suffices_take (Token.isEnd_of_kind (hkind ▸ nofun)) fun _ =>
        suffices_then (ih.expression true (by omega))
          (advances_everywhere (hr.expression true).advances) fun _ =>
            suffices_op _ fun _ => suffices_pure _
    · exact suffices_mono (suffices_return _ (suffices_bracketed (hr.expression b)
        (ih.expression b (by omega)))) fun _ hs => hs.1
  · exact suffices_failAt _ _

theorem suffices_named (b : Bool) {t : Token} (ht : t.kind = .ident) (hk : 13 * k ≤ d + 1 + 12) :
    Suffices true (fun s => Short k s ∧ s.next = t) (named (d + 1) b) (named (d' + 1) b) := by
  have hbody : ∀ (name : Token) (args : List Expr), Suffices true (Short (k - 1)) (do
      let parts ← nodeBody d name.text
      return Expr.node name.text args parts.1 parts.2 name.line) (do
      let parts ← nodeBody d' name.text
      return Expr.node name.text args parts.1 parts.2 name.line) := fun name _ =>
    suffices_return _ (ih.nodeBody name.text (by omega))
  refine suffices_take (Token.isEnd_of_kind (ht ▸ nofun)) fun name => suffices_peek fun next =>
    suffices_ite (fun _ => ?_) fun _ => suffices_ite (fun _ => ?_) fun _ =>
      suffices_ite (fun _ => hbody name []) fun _ => suffices_pure _
  · refine suffices_then suffices_advance (advances_everywhere advances_advance) fun _ => ?_
    exact suffices_peek fun _ => suffices_ite (fun _ => hbody name _) fun _ => suffices_pure _
  · refine suffices_then (ih.arguments (by omega)) (advances_everywhere hr.arguments.advances)
      fun args => ?_
    exact suffices_peek fun _ => suffices_ite (fun _ => hbody name args) fun _ => suffices_pure _

theorem suffices_nodeBody (kind : String) (hk : 13 * k ≤ d + 1 + 12) :
    Suffices true (Short k) (nodeBody (d + 1) kind) (nodeBody (d' + 1) kind) :=
  suffices_return _ (suffices_braced (recurs_nodeItem hr) (suffices_nodeItem ih (by omega)))

theorem suffices_statement (hk : 13 * k ≤ d + 1) :
    Suffices true (Short k) (statement (d + 1)) (statement (d' + 1)) := by
  -- what begins with a word of its own takes it at once, and needs no more than is left
  have hk' : 13 * k ≤ d + 12 := by omega
  refine suffices_look fun t => suffices_ite (fun _ => suffices_mono (ih.typeDecl hk') fun _ hs =>
    hs.1) fun _ => suffices_ite (fun _ => suffices_mono (suffices_return _ (ih.fnDecl hk'))
      fun _ hs => hs.1) fun _ => suffices_ite (fun ht => ih.binding ht hk') fun _ =>
    suffices_ite (fun _ => suffices_mono (ih.choice hk') fun _ hs => hs.1) fun _ =>
    suffices_ite (fun _ => suffices_mono (ih.iteration hk') fun _ hs => hs.1) fun _ =>
    suffices_mono (suffices_then (ih.expression true hk)
      (advances_everywhere (hr.expression true).advances) fun e => ?_) fun _ hs => hs.1
  refine suffices_look fun u => ?_
  cases hop : assignOp? u with
  | none => exact suffices_pure _
  | some op =>
    refine suffices_take (Token.isEnd_of_symbol hop) fun _ => ?_
    cases Target.ofExpr? e with
    | none => exact suffices_failAt _ _
    | some target => exact suffices_return _ (ih.expression true (by omega))

theorem suffices_choice (hk : 13 * k ≤ d + 1 + 12) :
    Suffices true (Short k) (choice (d + 1)) (choice (d' + 1)) :=
  suffices_keyword _ fun _ => suffices_then (ih.expression false (by omega))
    (advances_everywhere (hr.expression false).advances) fun _ =>
      suffices_return _ (suffices_braced hr.arm (ih.arm (by omega)))

theorem suffices_arm (hk : 13 * k ≤ d + 1) :
    Suffices true (Short k) (arm (d + 1)) (arm (d' + 1)) := by
  refine suffices_peek fun t => ?_
  have hbody : ∀ pattern : Option Expr, Suffices true (Short k) (do
        let _ ← expectOp "=>"
        let body ← if (← peek).isOp "\x7b" then block d else List.singleton <$> statement d
        return (⟨pattern, body, t.line⟩ : Arm)) (do
        let _ ← expectOp "=>"
        let body ← if (← peek).isOp "\x7b" then block d' else List.singleton <$> statement d'
        return (⟨pattern, body, t.line⟩ : Arm)) := fun _ =>
    suffices_op _ fun _ => suffices_peek fun _ => suffices_ite
      (fun _ => suffices_return _ (ih.block (by omega)))
      fun _ => suffices_return _ (suffices_map _ (ih.statement (by omega)))
  refine suffices_ite (fun ht => suffices_then suffices_advance
    (advances_everywhere advances_advance) fun _ => ?_) fun _ => ?_
  · exact suffices_then (suffices_pure none) (advances_pure none) hbody
  · exact suffices_then (suffices_map some (ih.expression false (by omega)))
      (advances_everywhere (recurs_map some (hr.expression false)).advances) hbody

theorem suffices_iteration (hk : 13 * k ≤ d + 1 + 12) :
    Suffices true (Short k) (iteration (d + 1)) (iteration (d' + 1)) :=
  suffices_keyword _ fun _ => suffices_name fun _ => suffices_keyword _ fun _ =>
    suffices_then (ih.expression false (by omega))
      (advances_everywhere (hr.expression false).advances) fun _ =>
        suffices_return _ (ih.block (by omega))

theorem suffices_typeDecl (hk : 13 * k ≤ d + 1 + 12) :
    Suffices true (Short k) (typeDecl (d + 1)) (typeDecl (d' + 1)) :=
  suffices_keyword _ fun _ => suffices_name fun _ =>
    suffices_then suffices_specs (advances_everywhere recurs_specs.advances) fun _ =>
      suffices_return _ (suffices_braced (recurs_typeItem hr) (suffices_typeItem ih (by omega)))

theorem sufficientRules_succ (hd : d ≤ d') : SufficientRules (d + 1) (d' + 1) where
  expression b hk := ih.binary b (Nat.zero_le _) (by omega)
  binary b hlevel hk := suffices_binary ih hr b hlevel hk
  unary b hk := suffices_unary ih b hk
  suffixed b hk := suffices_suffixed ih hr b hk
  primary b hk := suffices_primary ih hr b hk
  named b ht hk := suffices_named ih hr b ht hk
  arguments hk := suffices_bracketed (hr.expression true) (ih.expression true (by omega))
  nodeBody kind hk := suffices_nodeBody ih hr kind hk
  block hk := suffices_braced hr.statement (ih.statement (by omega))
  binding ht hk := suffices_binding ih hd ht hk
  choice hk := suffices_choice ih hr hk
  iteration hk := suffices_iteration ih hr hk
  fnDecl hk := suffices_fnDecl ih hd hk
  fieldDecl hk := suffices_fieldDecl ih hd hk
  typeDecl hk := suffices_typeDecl ih hr hk
  statement hk := suffices_statement ih hr hk
  arm hk := suffices_arm ih hr hk

end Step

theorem sufficientRules {d : Nat} : ∀ {d' : Nat}, d ≤ d' → SufficientRules d d' := by
  induction d with
  | zero => exact fun _ => sufficientRules_zero _
  | succ d ih =>
    intro d' hd
    obtain ⟨d', rfl⟩ := Nat.exists_eq_add_of_le' (Nat.le_trans (Nat.le_add_left 1 d) hd)
    exact sufficientRules_succ (ih (Nat.le_of_succ_le_succ hd)) (recurringRules (Nat.le_refl d))
      (Nat.le_of_succ_le_succ hd)

/-! ## All rules and loops take tokens -/

/-- Whether the rules of a depth take a token at least where they succeed, and with them whatever a
loop of the grammar runs in a round. -/
structure AdvancingRules (d : Nat) : Prop where
  expression (b : Bool) : Advances Any true (expression d b)
  binary (level : Nat) (b : Bool) : Advances Any true (binary d level b)
  unary (b : Bool) : Advances Any true (unary d b)
  suffixed (b : Bool) : Advances Any true (suffixed d b)
  arguments : Advances Any true (arguments d)
  primary (b : Bool) : Advances Any true (primary d b)
  named {t : Token} (b : Bool) : t.kind = .ident → Advances (At t) true (named d b)
  nodeBody (kind : String) : Advances Any true (nodeBody d kind)
  nodeItem : Advances Any true (nodeItem d)
  statement : Advances Any true (statement d)
  block : Advances Any true (block d)
  binding {t : Token} : (t.isKeyword "let" || t.isKeyword "var") = true →
    Advances (At t) true (binding d)
  choice : Advances Any true (choice d)
  arm : Advances Any true (arm d)
  iteration : Advances Any true (iteration d)
  fnDecl : Advances Any true (fnDecl d)
  fieldDecl : Advances Any true (fieldDecl d)
  typeDecl : Advances Any true (typeDecl d)
  typeItem : Advances Any true (typeItem d)
  typeName : Advances Any true (typeName d)
  param : Advances Any true (param d)
  /-- an operator with its right operand -/
  operator {level : Nat} {b : Bool} {left : Expr} {t : Token} {more : Parser Expr} :
    operatorStep level (Parser.binary d (level + 1) b) left t = some more → Advances (At t) true more
  /-- a member access, or the arguments of a call -/
  suffix {e : Expr} {t : Token} {more : Parser Expr} :
    suffixStep (Parser.arguments d) e t = some more → Advances (At t) true more
  /-- a comma and a name -/
  spec {t : Token} : t.isOp "," = true → Advances (At t) true (do
    let _ ← advance
    expectName)

theorem advancingRules (d : Nat) : AdvancingRules d :=
  have hr := recurringRules (Nat.le_refl d)
  { expression := fun b => (hr.expression b).advances
    binary := fun level b => (hr.binary level b).advances
    unary := fun b => (hr.unary b).advances
    suffixed := fun b => (hr.suffixed b).advances
    arguments := hr.arguments.advances
    primary := fun b => (hr.primary b).advances
    named := fun b ht => (hr.named b ht).advances
    nodeBody := fun kind => (hr.nodeBody kind).advances
    nodeItem := (recurs_nodeItem hr).advances
    statement := hr.statement.advances
    block := hr.block.advances
    binding := fun ht => (hr.binding ht).advances
    choice := hr.choice.advances
    arm := hr.arm.advances
    iteration := hr.iteration.advances
    fnDecl := hr.fnDecl.advances
    fieldDecl := hr.fieldDecl.advances
    typeDecl := hr.typeDecl.advances
    typeItem := (recurs_typeItem hr).advances
    typeName := (recurs_typeName (Nat.le_refl d)).advances
    param := (recurs_param (Nat.le_refl d)).advances
    operator := fun h => ((recurs_operatorStep _ (hr.binary _ _)).advances h).2
    suffix := fun h => ((recurs_suffixStep (recurs_free hr.arguments)).advances h).2
    spec := fun ht => (recurs_bind (c := false) (recurs_advance (Token.isEnd_of_isOp ht))
      fun _ => recurs_any recurs_name).advances }

/-- Whether a loop comes to the same with any number of rounds that is no less than the number of
tokens ahead, and a few more. -/
def RoundsSuffice {α : Type} (more : Nat) (loop : Nat → Parser α) : Prop :=
  ∀ s n, s.last.isEnd = true → s.ahead.length + more ≤ n →
    StateT.run (loop n) s = StateT.run (loop (s.ahead.length + more)) s

/-- Whether the loops of the grammar never use up the rounds that they are given. Those up to a
closing bracket need one more to see it. -/
structure LoopsEnd (d : Nat) : Prop where
  items {α : Type} (cause : Cause) {item : Parser α} : Advances Any true item →
    RoundsSuffice 1 (itemsWithin cause item)
  listed {α : Type} (close : String) {item : Parser α} : Advances Any true item →
    RoundsSuffice 1 (listedUpTo close item)
  operators (level : Nat) (b : Bool) (left : Expr) :
    RoundsSuffice 0 fun n => chain level (binary d (level + 1) b) n left
  suffixes (e : Expr) : RoundsSuffice 0 fun n => suffixes (arguments d) n e
  specs : RoundsSuffice 0 moreSpecs
  statements : RoundsSuffice 0 (statementsToEnd (statement d))

theorem loopsEnd (d : Nat) : LoopsEnd d where
  items _ _ ha s _ hend hn :=
    (suffices_itemsWithin ha (suffices_refl _) hn (Nat.le_refl _) s hend (Nat.lt_succ_self _)).1
  listed _ _ ha s _ hend hn :=
    (suffices_listedUpTo ha (suffices_refl _) hn (Nat.le_refl _) s hend (Nat.lt_succ_self _)).1
  operators level b left s _ hend hn :=
    (suffices_chain level ((recurringRules (Nat.le_refl d)).binary _ b) left (suffices_refl _) hn
      (Nat.le_refl _) s hend (Nat.lt_succ_self _)).1
  suffixes e s _ hend hn :=
    (suffices_suffixes (recurs_free (recurringRules (Nat.le_refl d)).arguments) e (suffices_refl _)
      hn (Nat.le_refl _) s hend (Nat.lt_succ_self _)).1
  specs s n hend hn :=
    have h : Suffices false _ (moreSpecs n) (moreSpecs (s.ahead.length + 0)) :=
      suffices_moreSpecs hn (Nat.le_refl _)
    (h s hend (Nat.lt_succ_self _)).1
  statements s _ hend hn :=
    (suffices_statementsToEnd (advancingRules d).statement (suffices_refl _) hn (Nat.le_refl _) s
      hend (Nat.lt_succ_self _)).1

/-! ## Texts -/

theorem suffices_code {d d' k : Nat} (hd : d ≤ d') (hk : 13 * k ≤ d) :
    Suffices true (Short k) (code d) (code d') := by
  refine suffices_then suffices_skip (advances_everywhere recurs_skip.advances) fun _ =>
    suffices_rounds fun n hn => ?_
  exact suffices_statementsToEnd (advancingRules d).statement
    (suffices_short ((sufficientRules hd).statement hk) hn) (Nat.le_refl n) (Nat.le_refl n)

/-- Whether a rule that may nest to a depth does what it does wherever it may nest deeper, and does
not nest too deep. -/
def DepthSuffices {α : Type} (depth : Nat) (rule : Nat → Parser α) (s : Stream) : Prop :=
  ∀ d, depth ≤ d → StateT.run (rule d) s = StateT.run (rule depth) s ∧
    ∀ e, StateT.run (rule d) s = .error e → Told e

theorem DepthSuffices.of_suffices {α : Type} {depth k : Nat} {rule : Nat → Parser α} {s : Stream}
    (h : ∀ d, depth ≤ d → Suffices true (Short k) (rule depth) (rule d))
    (hend : s.last.isEnd = true) (hs : s.ahead.length < k) : DepthSuffices depth rule s := by
  intro d hd
  obtain ⟨heq, htold⟩ := h d hd s hend hs
  exact ⟨heq.symm, fun e he => htold rfl e (heq.trans he)⟩

/-- With thirteen calls for each of the tokens and one for the end, nothing nests too deep. -/
theorem depthSuffices (s : Stream) (hend : s.last.isEnd = true) (b : Bool) :
    DepthSuffices (13 * (s.ahead.length + 1)) code s ∧
      DepthSuffices (13 * (s.ahead.length + 1)) (expression · b) s :=
  ⟨.of_suffices (fun _ hd => suffices_code hd (Nat.le_refl _)) hend (Nat.lt_succ_self _),
    .of_suffices (fun _ hd => (sufficientRules hd).expression b (Nat.le_succ _)) hend
      (Nat.lt_succ_self _)⟩

theorem Told.inFile_ne {e : Fault} (h : Told e) (file : Option String) :
    e.inFile file ≠ deepFault.inFile file := by
  cases h <;> exact nofun

/-- What does on the tokens of a text does on the text. -/
theorem DepthSuffices.run {α : Type} {depth d : Nat} {rule : Nat → Parser α} {source : String}
    {file : Option String} {ts : List Token} (h : DepthSuffices depth rule (.ofTokens ts))
    (hts : tokenize source file = .ok ts) (hd : depth ≤ d) :
    Parser.run (rule d) source file = Parser.run (rule depth) source file ∧
      Parser.run (rule d) source file ≠ .error (deepFault.inFile file) := by
  obtain ⟨heq, htold⟩ := h d hd
  have hrun : ∀ x : Parser α, Parser.run x source file =
      (StateT.run x (.ofTokens ts)).mapError (·.inFile file) := fun x => by rw [Parser.run, hts]
  refine ⟨by rw [hrun, hrun, heq], ?_⟩
  rw [hrun]
  cases hr : StateT.run (rule d) (.ofTokens ts) with
  | ok r => exact nofun
  | error e => exact fun he => (htold e hr).inFile_ne file (Except.error.inj he)

end Parser

open Widgetry.Parser in
/-- **The front end comes to an end on every text.** In reading a text, a step over trivia and a
lexeme take a character at least. The rules of the grammar, and whatever its loops run in a round,
take a token at least or fail, so that a loop never uses up as many rounds as there are tokens
ahead, and one. And with thirteen calls for each of the tokens, the end among them, no rule nests
too deep: it does what it does wherever it may nest deeper. -/
theorem front_end_ends :
    (∀ cs p, (∃ t rest, t ≠ [] ∧ cs = t ++ rest ∧ Lexer.skip cs p = Lexer.skip rest (p.after t)) ∨
      Lexer.skip cs p = .ok (cs, p) ∨ Lexer.skip cs p = .error (.parsing .openComment p)) ∧
    (∀ c rest p s, Lexer.scan c rest p = .ok s → s.lexeme ≠ [] ∧ c :: rest = s.lexeme ++ s.rest) ∧
    (∀ d, AdvancingRules d ∧ LoopsEnd d) ∧
    (∀ s b, s.last.isEnd = true → DepthSuffices (13 * (s.ahead.length + 1)) code s ∧
      DepthSuffices (13 * (s.ahead.length + 1)) (expression · b) s) ∧
    ∀ source file ts, tokenize source file = .ok ts → ts.length ≤ source.length + 1 ∧
      ∀ d, 13 * ts.length ≤ d →
        (Parser.run (code d) source file = Parser.run (code (13 * ts.length)) source file ∧
          Parser.run (code d) source file ≠ .error (deepFault.inFile file)) ∧
        ∀ b, Parser.run (expression d b) source file =
            Parser.run (expression (13 * ts.length) b) source file ∧
          Parser.run (expression d b) source file ≠ .error (deepFault.inFile file) := by
  refine ⟨Lexer.skip_cases, fun _ _ _ _ => Lexer.scan_takes,
    fun d => ⟨advancingRules d, loopsEnd d⟩, fun s b hend => depthSuffices s hend b,
    fun source file ts hts => ?_⟩
  have hlexed := lexed_of_tokenize hts
  have hdepth := fun b => depthSuffices (.ofTokens ts) hlexed.isEnd_last b
  rw [hlexed.length_ahead] at hdepth
  refine ⟨?_, fun d hd => ⟨(hdepth true).1.run hts hd, fun b => (hdepth b).2.run hts hd⟩⟩
  have hle := hlexed.length_le
  rwa [String.length_toList] at hle

open Widgetry.Parser in
/-- A name is read thirteen calls deep, and a body that is left open is refused at the end. -/
example :
    let name : Token := ⟨.ident, "col", ⟨1, 1⟩⟩
    let stop : Token := ⟨.eof, "", ⟨1, 6⟩⟩
    StateT.run (code 12) ⟨[name], stop⟩ = .error deepFault ∧
    StateT.run (code 13) ⟨[name], stop⟩ = .ok ([.expr (.ident "col" 1) 1], ⟨[], stop⟩) ∧
    StateT.run (code 39) ⟨[name, ⟨.op, "\x7b", ⟨1, 5⟩⟩], stop⟩ =
      .error (.source (.parsing (.openBody "col") stop.position)) := ⟨rfl, rfl, rfl⟩

end Widgetry
