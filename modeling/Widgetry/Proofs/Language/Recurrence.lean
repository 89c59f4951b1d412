import Widgetry.Proofs.Language.Leads
import Widgetry.Proofs.Language.Reads

/-!
# A rule does the same again in front of other tokens

> `recurringRules`: what a rule answers is decided by the tokens that it takes and by the next one.
> It answers the same where these stand in front of other tokens, and if it may nest deeper.

A rule that ran is run again (`Recurs`): the tokens that it took are put in front of another stream,
of which only the next token is that of the stream that was left. A rule that ends with a closing
bracket does not even look at that one. Loops are given another number of rounds then, which is
enough if it is greater than the number of tokens that are taken.
-/

namespace Widgetry

/-- Whether two streams go up to an end and, unless they are free of each other, have the same token
next. -/
structure Stream.Meets (free : Bool) (s s' : Stream) : Prop where
  next : free = false → s'.next = s.next
  closed : s.last.isEnd = true
  closed' : s'.last.isEnd = true

namespace Stream

variable {s s' : Stream} {own : List Token} {free : Bool}

theorem Meets.after (h : s.Meets free s') (own : List Token) :
    (s.after own).Meets free (s'.after own) := by
  refine ⟨fun hfree => ?_, h.closed, h.closed'⟩
  cases own with
  | nil => exact h.next hfree
  | cons t own => rfl

/-- Behind tokens, it does not matter what is next. -/
theorem Meets.after_ne (h : s.Meets free s') (hown : own ≠ []) (free' : Bool) :
    (s.after own).Meets free' (s'.after own) := by
  refine ⟨fun _ => ?_, h.closed, h.closed'⟩
  cases own with
  | nil => exact absurd rfl hown
  | cons t own => rfl

theorem Meets.freed (h : s.Meets free s') : s.Meets true s' := ⟨nofun, h.closed, h.closed'⟩

/-- A token that is not the end is the first of those ahead. -/
theorem eq_after_next {t : Token} (hs : s.last.isEnd = true) (ht : s.next = t)
    (hend : t.isEnd = false) : s = Stream.after ⟨s.ahead.tail, s.last⟩ [t] := by
  obtain ⟨ahead, last⟩ := s
  cases ahead with
  | nil =>
    cases ht
    cases hs.symm.trans hend
  | cons u rest =>
    cases ht
    rfl

/-- The token after the next. -/
def second (s : Stream) : Token := s.ahead[1]?.getD s.last

theorem second_after_singleton (s : Stream) (t : Token) : (s.after [t]).second = s.next := by
  obtain ⟨ahead, last⟩ := s
  cases ahead <;> rfl

theorem next_isEnd (hs : s.last.isEnd = true) (hshort : s.ahead.length < 1) :
    s.next.isEnd = true := by
  obtain ⟨ahead, last⟩ := s
  cases ahead with
  | nil => exact hs
  | cons t rest => exact absurd (Nat.lt_one_iff.mp hshort) nofun

end Stream

namespace Parser

/-- Whether a rule that ran from some streams does the same again, by another rule that is given a
number of rounds, in front of each stream that meets the one that was left. An eager rule takes a
token at least, and a free one does not look behind what it takes. -/
def Recurs {α : Type} (P : Stream → Prop) (eager free : Bool) (x : Parser α)
    (y : Nat → Parser α) : Prop :=
  ∀ s₀ a s, s₀.last.isEnd = true → P s₀ → StateT.run x s₀ = .ok (a, s) →
    ∃ own, (eager = true → own ≠ []) ∧ s₀ = s.after own ∧
      ∀ n s', own.length < n → s.Meets free s' → StateT.run (y n) (s'.after own) = .ok (a, s')

/-- Any stream. -/
abbrev Any : Stream → Prop := fun _ => True

/-- Streams where a token is next. -/
abbrev At (t : Token) : Stream → Prop := fun s => s.next = t

/-- Streams with less than so many tokens ahead. -/
abbrev Short (n : Nat) : Stream → Prop := fun s => s.ahead.length < n

section Recurs

variable {α β : Type} {P Q : Stream → Prop} {b c : Bool} {t : Token}

theorem run_bind_ok {x : Parser α} {f : α → Parser β} {s s'' : Stream} {r : β} :
    StateT.run (x >>= f) s = .ok (r, s'') ↔
      ∃ a s', StateT.run x s = .ok (a, s') ∧ StateT.run (f a) s' = .ok (r, s'') := by
  rw [StateT.run_bind]
  cases StateT.run x s with
  | error e => exact iff_of_false nofun nofun
  | ok p =>
    refine ⟨fun h => ⟨p.1, p.2, rfl, h⟩, ?_⟩
    rintro ⟨a, s', ⟨⟩, h⟩
    exact h

theorem recurs_mono {x : Parser α} {y : Nat → Parser α} (h : Recurs P b c x y)
    (hQ : ∀ s, Q s → P s) : Recurs Q b c x y :=
  fun s₀ a s hend hs => h s₀ a s hend (hQ s₀ hs)

/-- The end stays where it is. -/
theorem Recurs.closed {x : Parser α} {y : Nat → Parser α} (h : Recurs P b c x y) {s₀ s : Stream}
    {a : α} (hend : s₀.last.isEnd = true) (hs : P s₀) (hrun : StateT.run x s₀ = .ok (a, s)) :
    s.last.isEnd = true := by
  obtain ⟨own, -, rfl, -⟩ := h s₀ a s hend hs hrun
  exact hend

theorem recurs_everywhere {x : Parser α} {y : Nat → Parser α} (h : Recurs Any b c x y) :
    Recurs P b c x y := recurs_mono h fun _ _ => trivial

theorem recurs_lenient {x : Parser α} {y : Nat → Parser α} {e : Bool} (h : Recurs P e c x y)
    (he : b = true → e = true) : Recurs P b c x y := by
  intro s₀ a s hend hs hrun
  obtain ⟨own, hne, rest⟩ := h s₀ a s hend hs hrun
  exact ⟨own, fun hb => hne (he hb), rest⟩

theorem recurs_any {x : Parser α} {y : Nat → Parser α} (h : Recurs P b c x y) :
    Recurs P false c x y := recurs_lenient h nofun

theorem recurs_free {x : Parser α} {y : Nat → Parser α} (h : Recurs P b true x y) :
    Recurs P b c x y := by
  intro s₀ a s hend hs hrun
  obtain ⟨own, hne, heq, hown⟩ := h s₀ a s hend hs hrun
  exact ⟨own, hne, heq, fun n s' hn hm => hown n s' hn hm.freed⟩

theorem recurs_pure (a : α) : Recurs P false c (pure a) fun _ => pure a := by
  intro s₀ r s _ _ h
  cases h
  exact ⟨[], nofun, rfl, fun _ _ _ _ => rfl⟩

theorem recurs_throw (e : Fault) (y : Nat → Parser α) : Recurs P b c (throw e) y :=
  fun _ _ _ _ _ h => nomatch h

theorem recurs_failAt (cause : Cause) (t : Token) (y : Nat → Parser α) :
    Recurs P b c (failAt cause t) y := recurs_throw _ y

theorem recurs_tooDeep (y : Nat → Parser α) : Recurs P b c tooDeep y := recurs_throw _ y

/-- One thing after another, the second of which is given some rounds less. -/
theorem recurs_join {x : Parser α} {f : α → Parser β} {y : Nat → Parser α}
    {g : α → Nat → Parser β} {b' c' : Bool} {m : Nat} (hx : Recurs P b c' x y)
    (hf : ∀ a, Recurs Q b' c (f a) (g a))
    (hQ : ∀ s own, P (s.after own) → (b = true → own ≠ []) → Q s ∧ m ≤ own.length)
    (hmeets : ∀ (s s' : Stream) own', (b' = true → own' ≠ []) → s.Meets c s' →
      (s.after own').Meets c' (s'.after own')) :
    Recurs P (b || b') c (x >>= f) fun n => y n >>= fun a => g a (n - m) := by
  intro s₀ r s hend hs h
  obtain ⟨a, s₁, hx', hf'⟩ := run_bind_ok.mp h
  obtain ⟨own, hne, rfl, hown⟩ := hx s₀ a s₁ hend hs hx'
  obtain ⟨hq, hm⟩ := hQ s₁ own hs hne
  obtain ⟨own', hne', rfl, hown'⟩ := hf a s₁ r s hend hq hf'
  refine ⟨own ++ own', fun hb hnil => ?_, (Stream.after_append s own own').symm,
    fun n s' hn hmeet => ?_⟩
  · obtain ⟨hnil, hnil'⟩ := List.append_eq_nil_iff.mp hnil
    exact (Bool.or_eq_true _ _ ▸ hb).elim (fun hb => hne hb hnil) fun hb' => hne' hb' hnil'
  · rw [List.length_append] at hn
    rw [Stream.after_append, run_bind_ok]
    exact ⟨a, s'.after own', hown n _ (by omega) (hmeets s s' own' hne' hmeet),
      hown' (n - m) s' (by omega) hmeet⟩

/-- One thing after another. -/
theorem recurs_bind {x : Parser α} {y : Nat → Parser α} {f g : α → Parser β}
    {e : Bool} (hx : Recurs P b c x y) (hf : ∀ a, Recurs Any e c (f a) fun _ => g a) :
    Recurs P b c (x >>= f) fun n => y n >>= g :=
  recurs_lenient (recurs_join hx hf (fun _ _ _ _ => ⟨trivial, Nat.zero_le _⟩)
    fun _ _ own' _ hm => hm.after own') fun hb => by rw [hb, Bool.true_or]

theorem recurs_map {x : Parser α} {y : Nat → Parser α} (f : α → β) (hx : Recurs P b c x y) :
    Recurs P b c (f <$> x) fun n => f <$> y n := by
  simp only [map_eq_pure_bind]
  exact recurs_bind hx fun _ => recurs_pure _

/-- The second thing decides whether a token is taken. -/
theorem recurs_late {x : Parser α} {y : Nat → Parser α} {f g : α → Parser β}
    (hx : Recurs P false c x y) (hf : ∀ a, Recurs Any b c (f a) fun _ => g a) :
    Recurs P b c (x >>= f) fun n => y n >>= g :=
  recurs_join hx hf (fun _ _ _ _ => ⟨trivial, Nat.zero_le _⟩) fun _ _ own' _ hm => hm.after own'

/-- The second thing takes a token, so that the first one does not see behind it. -/
theorem recurs_close {x : Parser α} {y : Nat → Parser α} {f g : α → Parser β}
    (hx : Recurs P b false x y) (hf : ∀ a, Recurs Any true c (f a) fun _ => g a) :
    Recurs P true c (x >>= f) fun n => y n >>= g :=
  recurs_lenient (recurs_join hx hf (fun _ _ _ _ => ⟨trivial, Nat.zero_le _⟩)
    fun _ _ _ hne hm => hm.after_ne (hne rfl) false) fun _ => Bool.or_true b

/-- What is left for the second thing is no longer than before. -/
theorem recurs_within {m : Nat} {x y : Parser α} {f : α → Parser β} {g : α → Nat → Parser β}
    (hx : Recurs Any false c x fun _ => y) (hf : ∀ a, Recurs (Short m) b c (f a) (g a)) :
    Recurs (Short m) b c (x >>= f) fun n => y >>= fun a => g a n := by
  refine recurs_join (m := 0) (recurs_everywhere hx) hf (fun s own hs _ => ⟨?_, Nat.zero_le _⟩)
    fun _ _ own' _ hm => hm.after own'
  rw [Short, Stream.after, List.length_append] at hs
  exact Nat.lt_of_le_of_lt (Nat.le_add_left _ _) hs

/-- A round of a loop takes a token, so that it leaves a shorter stream and needs a round less. -/
theorem recurs_round {m : Nat} {x y : Parser α} {f : α → Parser β} {g : α → Nat → Parser β}
    (hx : Recurs P true c x fun _ => y) (hf : ∀ a, Recurs (Short m) false c (f a) (g a))
    (hP : ∀ s, P s → s.ahead.length < m + 1) :
    Recurs P true c (x >>= f) fun n => y >>= fun a => g a (n - 1) := by
  refine recurs_join hx hf (fun s own hs hne => ?_) fun _ _ own' _ hm => hm.after own'
  have hpos : 0 < own.length := List.length_pos_iff.mpr (hne rfl)
  have hlen := hP _ hs
  rw [Stream.after, List.length_append] at hlen
  exact ⟨by omega, hpos⟩

theorem recurs_ite {p : Prop} [Decidable p] {x x' : Parser α} {y y' : Nat → Parser α}
    (hx : p → Recurs P b c x y) (hx' : ¬ p → Recurs P b c x' y') :
    Recurs P b c (if p then x else x') fun n => if p then y n else y' n := by
  split
  · exact hx ‹p›
  · exact hx' ‹¬ p›

theorem recurs_number (r : Except NumberFault α) :
    Recurs P false c (number r) fun _ => number r := by
  cases r with
  | ok a => exact recurs_pure a
  | error e => exact recurs_throw _ _

/-! ## Single tokens -/

theorem recurs_peek {f : Token → Parser β} {g : Token → Nat → Parser β}
    (h : ∀ t, Recurs (fun s => P s ∧ s.next = t) b false (f t) (g t)) :
    Recurs P b false (peek >>= f) fun n => peek >>= fun t => g t n := by
  intro s₀ r s hend hs hrun
  obtain ⟨own, hne, rfl, hown⟩ := h _ s₀ r s hend ⟨hs, rfl⟩ hrun
  refine ⟨own, hne, rfl, fun n s' hn hm => ?_⟩
  rw [Reads.run_peek, (hm.after own).next rfl]
  exact hown n s' hn hm

/-- The next token is looked at to be taken. -/
theorem recurs_seen {f g : Token → Parser β} (h : Recurs (At t) true c (f t) fun _ => g t) :
    Recurs (At t) true c (peek >>= f) fun _ => peek >>= g := by
  rintro s₀ r s hend rfl hrun
  obtain ⟨own, hne, heq, hown⟩ := h s₀ r s hend rfl hrun
  refine ⟨own, hne, heq, fun n s' hn hm => ?_⟩
  rw [Reads.run_peek, (hm.after_ne (hne rfl) false).next rfl, ← heq]
  exact hown n s' hn hm

theorem recurs_at {x : Parser α} {y : Nat → Parser α} (h : ∀ t, Recurs (At t) b c x y) :
    Recurs Any b c x y := fun s₀ a s hend _ => h s₀.next s₀ a s hend rfl

theorem recurs_look {f g : Token → Parser β} (h : ∀ t, Recurs (At t) true c (f t) fun _ => g t) :
    Recurs Any true c (peek >>= f) fun _ => peek >>= g := recurs_at fun t => recurs_seen (h t)

/-- The token after the next is taken too, or it is the one behind what is taken. -/
theorem recurs_peekSecond {f g : Token → Parser β}
    (h : ∀ u, Recurs (fun s => P s ∧ s.second = u) true false (f u) fun _ => g u) :
    Recurs P true false (peekSecond >>= f) fun _ => peekSecond >>= g := by
  intro s₀ r s hend hs hrun
  obtain ⟨own, hne, rfl, hown⟩ := h _ s₀ r s hend ⟨hs, rfl⟩ hrun
  refine ⟨own, hne, rfl, fun n s' hn hm => ?_⟩
  have hsecond : (s'.after own).second = (s.after own).second := by
    match own, hne rfl with
    | [t], _ => rw [Stream.second_after_singleton, Stream.second_after_singleton, hm.next rfl]
    | t :: u :: rest, _ => rfl
  show StateT.run (g (s'.after own).second) _ = _
  rw [hsecond]
  exact hown n s' hn hm

theorem recurs_advance (ht : t.isEnd = false) :
    Recurs (At t) true c advance fun _ => advance := by
  intro s₀ a s hend hs h
  obtain ⟨rest, rfl⟩ : ∃ rest, s₀ = Stream.after rest [t] := ⟨_, Stream.eq_after_next hend hs ht⟩
  cases h
  exact ⟨[t], nofun, rfl, fun _ _ _ _ => rfl⟩

/-- The token that was looked at in the middle of a rule is taken. -/
theorem recurs_take {f g : Token → Parser β} {e : Bool} (ht : t.isEnd = false)
    (hf : ∀ a, Recurs Any e c (f a) fun _ => g a) :
    Recurs (fun s => P s ∧ s.next = t) false c (advance >>= f) fun _ => advance >>= g :=
  recurs_any (b := true) (recurs_bind (recurs_mono (recurs_advance ht) fun _ hs => hs.2) hf)

theorem recurs_advance_second {u : Token} {f g : Token → Parser β} (ht : t.isEnd = false)
    (hf : ∀ a, Recurs (At u) b c (f a) fun _ => g a) :
    Recurs (fun s => s.next = t ∧ s.second = u) true c (advance >>= f) fun _ => advance >>= g := by
  rintro s₀ r s hend ⟨hnext, hsecond⟩ h
  obtain ⟨rest, rfl⟩ : ∃ rest, s₀ = Stream.after rest [t] :=
    ⟨_, Stream.eq_after_next hend hnext ht⟩
  rw [Stream.second_after_singleton] at hsecond
  obtain ⟨own, -, rfl, hown⟩ := hf t rest r s hend hsecond h
  exact ⟨t :: own, nofun, rfl, fun n s' hn hm =>
    hown n s' (Nat.lt_of_succ_lt hn) hm⟩

/-- A rule that takes the next token if it is what it is to be. -/
theorem recurs_expect {p : Token → Prop} [DecidablePred p] (hp : ∀ t, p t → t.isEnd = false)
    (cause : Token → Cause) :
    Recurs Any true c (peek >>= fun t => if p t then advance else failAt (cause t) t)
      fun _ => peek >>= fun t => if p t then advance else failAt (cause t) t :=
  recurs_look fun t => recurs_ite (fun ht => recurs_advance (hp t ht)) fun _ =>
    recurs_failAt _ _ _

theorem recurs_op (symbol : String) :
    Recurs Any true c (expectOp symbol) fun _ => expectOp symbol :=
  recurs_expect (fun _ => Token.isEnd_of_isOp) _

theorem recurs_keyword (word : String) :
    Recurs Any true c (expectKeyword word) fun _ => expectKeyword word :=
  recurs_expect (fun _ => Token.isEnd_of_isKeyword) _

theorem recurs_name : Recurs Any true c expectName fun _ => expectName :=
  recurs_expect (p := fun t => t.kind = .ident) (fun _ hk => Token.isEnd_of_kind (hk ▸ nofun)) _

theorem recurs_skip : Recurs Any false false skipSeparators fun _ => skipSeparators := by
  rintro ⟨ahead, last⟩ a s hend - h
  cases h
  refine ⟨ahead.takeWhile isSeparator, nofun, ?_, fun n s' _ hm => ?_⟩
  · rw [Stream.after, List.takeWhile_append_dropWhile]
  · -- what the separators end before is none, nor is the end
    have hstop : isSeparator s'.next = false := by
      rw [hm.next rfl]
      show isSeparator ((ahead.dropWhile isSeparator).head?.getD last) = false
      cases hd : ahead.dropWhile isSeparator with
      | nil =>
        have hkind : last.kind = .eof := beq_iff_eq.mp hend
        rw [List.head?_nil, Option.getD_none, isSeparator, Token.isOp, Token.isOp, hkind]
        rfl
      | cons t rest =>
        have := List.head?_dropWhile_not isSeparator ahead
        rw [hd] at this
        exact this
    have hdrop : (ahead.takeWhile isSeparator ++ s'.ahead).dropWhile isSeparator = s'.ahead := by
      rw [List.dropWhile_append_of_pos fun t ht => List.mem_takeWhile_imp ht]
      obtain ⟨ahead', last'⟩ := s'
      cases ahead' with
      | nil => rfl
      | cons t rest => rw [List.dropWhile_cons, show isSeparator t = false from hstop]; rfl
    show Except.ok ((), (⟨(ahead.takeWhile isSeparator ++ s'.ahead).dropWhile isSeparator,
      s'.last⟩ : Stream)) = _
    rw [hdrop]

/-! ## Loops -/

/-- A loop that is given as many rounds as tokens lie ahead, and one more to see that it ends. -/
theorem recurs_rounds {f g : Nat → Parser β} (h : ∀ m, Recurs (Short (m + 1)) b c (f m) g) :
    Recurs P b c (rounds >>= f) fun _ => rounds >>= fun n => g (n + 1) := by
  intro s₀ r s hend _ hrun
  obtain ⟨own, hne, rfl, hown⟩ := h _ s₀ r s hend (Nat.lt_succ_self _) hrun
  refine ⟨own, hne, rfl, fun n s' _ hm => ?_⟩
  have hlen : own.length < (s'.after own).ahead.length + 1 := by
    rw [Stream.after, List.length_append]
    omega
  exact hown _ s' hlen hm

theorem recurs_succ {x : Parser α} {y : Nat → Parser α}
    (h : Recurs P b c x fun n => y (n - 1 + 1)) : Recurs P b c x y := by
  intro s₀ a s hend hs hrun
  obtain ⟨own, hne, rfl, hown⟩ := h s₀ a s hend hs hrun
  refine ⟨own, hne, rfl, fun n s' hn hm => ?_⟩
  have hrun' : StateT.run (y (n - 1 + 1)) (s'.after own) = .ok (a, s') := hown n s' hn hm
  rwa [Nat.sub_add_cancel (by omega)] at hrun'

theorem recurs_itemsWithin {cause : Cause} {item item' : Parser α}
    (hi : Recurs Any true false item fun _ => item') (m : Nat) :
    Recurs (Short m) false false (itemsWithin cause item m) (itemsWithin cause item') := by
  induction m with
  | zero => exact fun _ _ _ _ hs _ => nomatch hs
  | succ m ih =>
    refine recurs_succ (recurs_peek fun t => recurs_ite (fun _ => recurs_pure _) fun _ =>
      recurs_ite (fun _ => recurs_failAt _ _ _) fun _ => recurs_any (b := true) ?_)
    exact recurs_round (recurs_everywhere hi)
      (fun a => recurs_within recurs_skip fun _ => recurs_bind ih fun as => recurs_pure _)
      fun _ hs => hs.1

theorem recurs_braced {cause : Cause} {item item' : Parser α}
    (hi : Recurs Any true false item fun _ => item') :
    Recurs Any true c (braced cause item) fun _ => braced cause item' := by
  refine recurs_bind (recurs_op _) fun _ => recurs_any (recurs_close recurs_skip fun _ =>
    recurs_rounds (g := fun n => do
      let as ← itemsWithin cause item' n
      let _ ← expectOp "\x7d"
      return as) fun m => ?_)
  exact recurs_close (recurs_itemsWithin hi (m + 1)) fun _ =>
    recurs_bind (recurs_op _) fun _ => recurs_pure _

theorem recurs_listedUpTo (close : String) {item item' : Parser α}
    (hi : Recurs Any true false item fun _ => item') (m : Nat) :
    Recurs (Short m) false false (listedUpTo close item m) (listedUpTo close item') := by
  induction m with
  | zero => exact fun _ _ _ _ hs _ => nomatch hs
  | succ m ih =>
    refine recurs_succ (recurs_peek fun t => recurs_ite (fun _ => recurs_pure _) fun _ =>
      recurs_any (b := true) ?_)
    have hrest : ∀ a, Recurs (Short m) false false (do
          let as ← listedUpTo close item m
          return a :: as) fun n => do
          let as ← listedUpTo close item' n
          return a :: as := fun a => recurs_bind ih fun _ => recurs_pure _
    exact recurs_round (recurs_everywhere hi)
      (fun a => recurs_peek fun u => recurs_ite (fun _ => recurs_mono (hrest a) fun _ hs => hs.1)
        fun _ => recurs_mono (recurs_within (recurs_any (recurs_op _)) fun _ => hrest a)
          fun _ hs => hs.1)
      fun _ hs => hs.1

theorem recurs_bracketed (opening close : String) {item item' : Parser α}
    (hi : Recurs Any true false item fun _ => item') :
    Recurs Any true c (bracketed opening close item) fun _ => bracketed opening close item' := by
  refine recurs_bind (recurs_op _) fun _ => recurs_any (b := true) (recurs_rounds
    (g := fun n => do
      let as ← listedUpTo close item' n
      let _ ← expectOp close
      return as) fun m => ?_)
  exact recurs_close (recurs_listedUpTo close hi (m + 1)) fun _ =>
    recurs_bind (recurs_op _) fun _ => recurs_pure _

/-! ### Expressions that grow

Operators and suffixes are put behind an expression one after another, for as long as the next token
is one that does so. These loops end of themselves, and are given no round more than they need. -/

/-- An expression that grows by a step for each token that there is a step for. -/
def grow (step : Expr → Token → Option (Parser Expr)) : Nat → Expr → Parser Expr
  | 0, e => return e
  | n + 1, e => do
    let token ← peek
    match step e token with
    | none => return e
    | some more => do
      let e ← more
      grow step n e

/-- An operator and its right operand. -/
def operatorStep (level : Nat) (operand : Parser Expr) (left : Expr) (token : Token) :
    Option (Parser Expr) :=
  (operatorAt? level token).map fun op => do
    let _ ← advance
    let right ← operand
    return .binary op left right token.line

/-- A member access, or the arguments of a call. -/
def suffixStep (args : Parser (List Expr)) (e : Expr) (token : Token) : Option (Parser Expr) :=
  if token.isOp "." then some do
    let _ ← advance
    let name ← expectName
    return .member e name.text name.line
  else if token.isOp "(" && !e.isNode then some do
    let xs ← args
    let next ← peek
    return .call e xs next.line
  else none

/-- There is a step for the operators of a level, with any operand. -/
theorem operatorStep_cases (level : Nat) (left : Expr) (t : Token) :
    (∀ operand, operatorStep level operand left t = none) ∨
      ∃ op, operatorAt? level t = some op ∧
        ∀ operand, operatorStep level operand left t = some do
          let _ ← advance
          let right ← operand
          return .binary op left right t.line := by
  cases hop : operatorAt? level t with
  | none => exact .inl fun _ => by rw [operatorStep, hop, Option.map_none]
  | some op => exact .inr ⟨op, rfl, fun _ => by rw [operatorStep, hop, Option.map_some]⟩

/-- There is a step for points, and for round brackets unless they would belong to a node. -/
theorem suffixStep_cases (e : Expr) (t : Token) :
    (∀ args, suffixStep args e t = none) ∨
      (t.isOp "." = true ∧ ∀ args, suffixStep args e t = some do
        let _ ← advance
        let name ← expectName
        return .member e name.text name.line) ∨
      t.isOp "(" = true ∧ ∀ args, suffixStep args e t = some do
        let xs ← args
        let next ← peek
        return .call e xs next.line := by
  by_cases hdot : t.isOp "." = true
  · exact .inr (.inl ⟨hdot, fun _ => if_pos hdot⟩)
  · by_cases hcall : (t.isOp "(" && !e.isNode) = true
    · exact .inr (.inr ⟨(Bool.and_eq_true _ _ |>.mp hcall).1,
        fun _ => (if_neg hdot).trans (if_pos hcall)⟩)
    · exact .inl fun _ => (if_neg hdot).trans (if_neg hcall)

theorem chain_eq_grow (level : Nat) (operand : Parser Expr) (n : Nat) :
    ∀ left, chain level operand n left = grow (operatorStep level operand) n left := by
  induction n with
  | zero => exact fun _ => rfl
  | succ n ih =>
    intro left
    rw [chain, grow]
    refine bind_congr fun token => ?_
    cases hop : operatorAt? level token with
    | none => simp only [operatorStep, hop, Option.map_none]
    | some op => simp only [operatorStep, hop, Option.map_some, bind_assoc, pure_bind, ih]

theorem suffixes_eq_grow (args : Parser (List Expr)) (n : Nat) :
    ∀ e, suffixes args n e = grow (suffixStep args) n e := by
  induction n with
  | zero => exact fun _ => rfl
  | succ n ih =>
    intro e
    rw [suffixes, grow]
    refine bind_congr fun token => ?_
    rw [suffixStep]
    split
    · simp only [bind_assoc, pure_bind, ih]
    · split
      · simp only [bind_assoc, pure_bind, ih]
      · rfl

section Grow

variable {step step' : Expr → Token → Option (Parser Expr)} {n : Nat} {e : Expr} {s : Stream}

theorem run_grow_none (h : step e s.next = none) :
    StateT.run (grow step n e) s = .ok (e, s) := by
  cases n with
  | zero => rfl
  | succ n =>
    rw [grow, Reads.run_peek, h]
    rfl

theorem run_grow_some {more : Parser Expr} (h : step e s.next = some more) :
    StateT.run (grow step (n + 1) e) s = StateT.run (more >>= grow step n) s := by
  rw [grow, Reads.run_peek, h]

/-- Whether there are steps for the same tokens, and each of them recurs. -/
def StepsRecur (step step' : Expr → Token → Option (Parser Expr)) : Prop :=
  ∀ e t, (step e t = none ∧ step' e t = none) ∨
    ∃ more more', step e t = some more ∧ step' e t = some more' ∧ t.isEnd = false ∧
      Recurs (At t) true false more fun _ => more'

theorem recurs_grow (hstep : StepsRecur step step') (m : Nat) :
    ∀ e, Recurs (Short (m + 1)) false false (grow step m e) fun n => grow step' (n - 1) e := by
  induction m with
  | zero =>
    intro e s₀ a s hend hs h
    cases h
    refine ⟨[], nofun, rfl, fun n s' _ hm => run_grow_none (s := s') ?_⟩
    rw [hm.next rfl]
    obtain ⟨-, hnone⟩ | ⟨_, _, -, -, ht, -⟩ := hstep e s₀.next
    · exact hnone
    · cases ht.symm.trans (Stream.next_isEnd hend hs)
  | succ m ih =>
    intro e s₀ a s hend hs h
    obtain ⟨hnone, hnone'⟩ | ⟨more, more', hsome, hsome', -, hmore⟩ := hstep e s₀.next
    · rw [run_grow_none hnone] at h
      cases h
      exact ⟨[], nofun, rfl, fun n s' _ hm => run_grow_none (hm.next rfl ▸ hnone')⟩
    · rw [run_grow_some hsome] at h
      have hround := recurs_round (P := fun s => Short (m + 2) s ∧ s.next = s₀.next)
        (recurs_mono hmore fun _ hs => hs.2) ih fun _ hs => hs.1
      obtain ⟨own, hne, rfl, hown⟩ := hround s₀ a s hend ⟨hs, rfl⟩ h
      refine ⟨own, nofun, rfl, fun n s' hn hm => ?_⟩
      have hpos : 0 < own.length := List.length_pos_iff.mpr (hne rfl)
      obtain ⟨n, rfl⟩ : ∃ k, n = k + 2 := ⟨n - 2, by omega⟩
      show StateT.run (grow step' (n + 1) e) (s'.after own) = _
      rw [run_grow_some ((hm.after own).next rfl ▸ hsome')]
      exact hown (n + 2) s' hn hm

/-- An expression does not grow without taking a token. -/
theorem run_grow_own (hstep : StepsRecur step step') {e' : Expr} {s' : Stream}
    (hend : s.last.isEnd = true) (h : StateT.run (grow step n e) s = .ok (e', s')) :
    ∃ own, s = s'.after own ∧ (own = [] → e' = e) := by
  induction n generalizing e s with
  | zero =>
    cases h
    exact ⟨[], rfl, fun _ => rfl⟩
  | succ n ih =>
    obtain ⟨hnone, -⟩ | ⟨more, more', hsome, -, -, hmore⟩ := hstep e s.next
    · rw [run_grow_none hnone] at h
      cases h
      exact ⟨[], rfl, fun _ => rfl⟩
    · rw [run_grow_some hsome] at h
      obtain ⟨a, s₁, hmore', hrest⟩ := run_bind_ok.mp h
      obtain ⟨own, hne, rfl, -⟩ := hmore s a s₁ hend rfl hmore'
      obtain ⟨own', rfl, -⟩ := ih (s := s₁) hend hrest
      refine ⟨own ++ own', (Stream.after_append ..).symm, fun hnil => ?_⟩
      exact absurd (List.append_eq_nil_iff.mp hnil).1 (hne rfl)

theorem recurs_operatorStep (level : Nat) {operand operand' : Parser Expr}
    (ho : Recurs Any true false operand fun _ => operand') :
    StepsRecur (operatorStep level operand) (operatorStep level operand') := by
  intro left t
  obtain hnone | ⟨op, hop, hsome⟩ := operatorStep_cases level left t
  · exact .inl ⟨hnone _, hnone _⟩
  · have ht : t.isEnd = false := Token.isEnd_of_symbol hop
    exact .inr ⟨_, _, hsome _, hsome _, ht, recurs_bind (recurs_advance ht) fun _ =>
      recurs_bind ho fun _ => recurs_pure _⟩

theorem recurs_suffixStep {args args' : Parser (List Expr)}
    (ha : Recurs Any true false args fun _ => args') :
    StepsRecur (suffixStep args) (suffixStep args') := by
  intro e t
  obtain hnone | ⟨ht, hsome⟩ | ⟨ht, hsome⟩ := suffixStep_cases e t
  · exact .inl ⟨hnone _, hnone _⟩
  · have ht := Token.isEnd_of_isOp ht
    exact .inr ⟨_, _, hsome _, hsome _, ht, recurs_bind (recurs_advance ht) fun _ =>
      recurs_bind recurs_name fun _ => recurs_pure _⟩
  · refine .inr ⟨_, _, hsome _, hsome _, Token.isEnd_of_isOp ht,
      recurs_bind (e := false) (recurs_everywhere ha) fun _ => ?_⟩
    exact recurs_peek fun _ => recurs_pure _

theorem recurs_chain (level : Nat) {operand operand' : Parser Expr}
    (ho : Recurs Any true false operand fun _ => operand') (m : Nat) (left : Expr) :
    Recurs (Short (m + 1)) false false (chain level operand m left)
      fun n => chain level operand' (n - 1) left := by
  simp only [chain_eq_grow]
  exact recurs_grow (recurs_operatorStep level ho) m left

theorem recurs_suffixes {args args' : Parser (List Expr)}
    (ha : Recurs Any true false args fun _ => args') (m : Nat) (e : Expr) :
    Recurs (Short (m + 1)) false false (suffixes args m e)
      fun n => suffixes args' (n - 1) e := by
  simp only [suffixes_eq_grow]
  exact recurs_grow (recurs_suffixStep ha) m e

end Grow

/-! ## Rules without expressions -/

theorem recurs_typeName {d : Nat} : ∀ {d' : Nat}, d ≤ d' →
    Recurs Any true false (typeName d) fun _ => typeName d' := by
  induction d with
  | zero => exact fun _ => recurs_tooDeep _
  | succ d ih =>
    intro d' hd
    obtain ⟨d', rfl⟩ := Nat.exists_eq_add_of_le' hd
    refine recurs_look fun t => recurs_ite (fun ht => ?_) fun _ => ?_
    · exact recurs_bind (recurs_advance (Token.isEnd_of_isOp ht)) fun _ =>
        recurs_bind (recurs_op _) fun _ =>
          recurs_bind (ih (Nat.le_add_left d d')) fun _ => recurs_pure _
    · exact recurs_bind (recurs_everywhere recurs_name) fun _ => recurs_pure _

theorem recurs_optionalType {d d' : Nat} (hd : d ≤ d') :
    Recurs Any false false (optionalType d) fun _ => optionalType d' :=
  recurs_peek fun _ => recurs_ite
    (fun _ => recurs_any (recurs_bind (recurs_everywhere (recurs_typeName hd))
      fun _ => recurs_pure _))
    fun _ => recurs_pure _

theorem recurs_param {d d' : Nat} (hd : d ≤ d') :
    Recurs Any true false (param d) fun _ => param d' :=
  recurs_bind recurs_name fun _ => recurs_bind (recurs_optionalType hd) fun _ => recurs_pure _

theorem run_moreSpecs_none {n : Nat} {s : Stream} (h : s.next.isOp "," = false) :
    StateT.run (moreSpecs n) s = .ok ([], s) := by
  cases n with
  | zero => rfl
  | succ n =>
    rw [moreSpecs, Reads.run_peek, h]
    rfl

theorem recurs_moreSpecs (m : Nat) :
    Recurs (Short (m + 1)) false false (moreSpecs m) fun n => moreSpecs (n - 1) := by
  induction m with
  | zero =>
    intro s₀ a s hend hs h
    cases h
    refine ⟨[], nofun, rfl, fun n s' _ hm => run_moreSpecs_none (s := s') ?_⟩
    rw [hm.next rfl]
    exact Bool.eq_false_iff.mpr fun hcomma =>
      nomatch (Stream.next_isEnd hend hs).symm.trans (Token.isEnd_of_isOp hcomma)
  | succ m ih =>
    intro s₀ a s hend hs h
    cases hcomma : s₀.next.isOp "," with
    | false =>
      rw [run_moreSpecs_none hcomma] at h
      cases h
      exact ⟨[], nofun, rfl, fun n s' _ hm => run_moreSpecs_none (hm.next rfl ▸ hcomma)⟩
    | true =>
      rw [moreSpecs, Reads.run_peek, if_pos hcomma] at h
      have hround := recurs_round (P := fun s => Short (m + 2) s ∧ s.next = s₀.next)
        (recurs_mono (recurs_advance (Token.isEnd_of_isOp hcomma)) fun _ hs => hs.2)
        (fun _ => recurs_within (recurs_any recurs_name) fun name =>
          recurs_bind ih fun rest => recurs_pure (name.text :: rest)) fun _ hs => hs.1
      obtain ⟨own, hne, rfl, hown⟩ := hround s₀ a s hend ⟨hs, rfl⟩ h
      refine ⟨own, nofun, rfl, fun n s' hn hm => ?_⟩
      have hpos : 0 < own.length := List.length_pos_iff.mpr (hne rfl)
      obtain ⟨n, rfl⟩ : ∃ k, n = k + 2 := ⟨n - 2, by omega⟩
      show StateT.run (moreSpecs (n + 1)) (s'.after own) = _
      rw [moreSpecs, Reads.run_peek, (hm.after own).next rfl, if_pos hcomma]
      exact hown (n + 2) s' hn hm

theorem recurs_specs : Recurs Any false false specs fun _ => specs := by
  refine recurs_peek fun _ => recurs_ite (fun ht => ?_) fun _ => recurs_pure _
  refine recurs_take (Token.isEnd_of_isKeyword ht) fun _ =>
    recurs_bind (e := false) recurs_name fun first => recurs_rounds (g := fun n => do
      let rest ← moreSpecs (n - 1)
      return first.text :: rest) fun m => ?_
  exact recurs_bind (recurs_moreSpecs m) fun _ => recurs_pure _

end Recurs

/-! ## All rules -/

/-- Whether all rules of a depth recur at another one. -/
structure RecurringRules (d d' : Nat) : Prop where
  expression (b : Bool) : Recurs Any true false (expression d b) fun _ => expression d' b
  binary (level : Nat) (b : Bool) :
    Recurs Any true false (binary d level b) fun _ => binary d' level b
  unary (b : Bool) : Recurs Any true false (unary d b) fun _ => unary d' b
  suffixed (b : Bool) : Recurs Any true false (suffixed d b) fun _ => suffixed d' b
  arguments : Recurs Any true true (arguments d) fun _ => arguments d'
  primary (b : Bool) : Recurs Any true false (primary d b) fun _ => primary d' b
  /-- the rule for names is only used where a name stands -/
  named (b : Bool) {t : Token} : t.kind = .ident →
    Recurs (At t) true false (named d b) fun _ => named d' b
  nodeBody (kind : String) : Recurs Any true true (nodeBody d kind) fun _ => nodeBody d' kind
  statement : Recurs Any true false (statement d) fun _ => statement d'
  block : Recurs Any true true (block d) fun _ => block d'
  /-- and the one for bindings only behind its word -/
  binding {t : Token} : (t.isKeyword "let" || t.isKeyword "var") = true →
    Recurs (At t) true false (binding d) fun _ => binding d'
  choice : Recurs Any true false (choice d) fun _ => choice d'
  arm : Recurs Any true false (arm d) fun _ => arm d'
  iteration : Recurs Any true false (iteration d) fun _ => iteration d'
  fnDecl : Recurs Any true false (fnDecl d) fun _ => fnDecl d'
  fieldDecl : Recurs Any true false (fieldDecl d) fun _ => fieldDecl d'
  typeDecl : Recurs Any true false (typeDecl d) fun _ => typeDecl d'

theorem recurringRules_zero (d' : Nat) : RecurringRules 0 d' where
  expression _ := recurs_tooDeep _
  binary _ _ := recurs_tooDeep _
  unary _ := recurs_tooDeep _
  suffixed _ := recurs_tooDeep _
  arguments := recurs_tooDeep _
  primary _ := recurs_tooDeep _
  named _ _ _ := recurs_tooDeep _
  nodeBody _ := recurs_tooDeep _
  statement := recurs_tooDeep _
  block := recurs_tooDeep _
  binding _ := recurs_tooDeep _
  choice := recurs_tooDeep _
  arm := recurs_tooDeep _
  iteration := recurs_tooDeep _
  fnDecl := recurs_tooDeep _
  fieldDecl := recurs_tooDeep _
  typeDecl := recurs_tooDeep _

section Step

variable {d d' : Nat} (ih : RecurringRules d d')

include ih

theorem recurs_binary (level : Nat) (b : Bool) :
    Recurs Any true false (binary (d + 1) level b) fun _ => binary (d' + 1) level b := by
  refine recurs_ite (fun _ => ih.unary b) fun _ => recurs_bind (e := false) (ih.binary _ b)
    fun left => recurs_rounds (g := fun n => chain level (binary d' (level + 1) b) (n - 1) left)
      fun m => ?_
  exact recurs_chain level (ih.binary _ b) m left

theorem recurs_unary (b : Bool) :
    Recurs Any true false (unary (d + 1) b) fun _ => unary (d' + 1) b := by
  refine recurs_look fun t => ?_
  cases hop : prefixOp? t with
  | none => exact recurs_everywhere (ih.suffixed b)
  | some op =>
    exact recurs_bind (recurs_advance (Token.isEnd_of_symbol hop)) fun _ =>
      recurs_bind (ih.unary b) fun _ => recurs_pure _

theorem recurs_suffixed (b : Bool) :
    Recurs Any true false (suffixed (d + 1) b) fun _ => suffixed (d' + 1) b := by
  refine recurs_bind (e := false) (ih.primary b) fun e =>
    recurs_rounds (g := fun n => suffixes (arguments d') (n - 1) e) fun m => ?_
  exact recurs_suffixes (recurs_free ih.arguments) m e

/-- Only behind a name it matters what follows an operand. -/
theorem recurs_primary_at (b : Bool) {c : Bool} (t : Token) (hc : t.kind = .ident → c = false) :
    Recurs (At t) true c (primary (d + 1) b) fun _ => primary (d' + 1) b := by
  refine recurs_seen ?_
  have hliteral : ∀ v : Scalar, t.kind ≠ .eof → Recurs (At t) true c (do
      let _ ← advance
      return Expr.literal v t.line) fun _ => do
      let _ ← advance
      return Expr.literal v t.line := fun v ht =>
    recurs_bind (recurs_advance (Token.isEnd_of_kind ht)) fun _ => recurs_pure _
  split
  · next hk =>
    exact recurs_bind (recurs_advance (Token.isEnd_of_kind (hk ▸ nofun))) fun _ =>
      recurs_bind (recurs_number _) fun _ => recurs_pure _
  · next hk =>
    exact recurs_bind (recurs_advance (Token.isEnd_of_kind (hk ▸ nofun))) fun _ =>
      recurs_bind (recurs_number _) fun _ => recurs_pure _
  · next hk => exact hliteral _ (hk ▸ nofun)
  · next hk =>
    exact recurs_ite (fun _ => hliteral _ (hk ▸ nofun)) fun _ =>
      recurs_ite (fun _ => hliteral _ (hk ▸ nofun)) fun _ => recurs_failAt _ _ _
  · next hk =>
    obtain rfl := hc hk
    exact ih.named b hk
  · next hk =>
    refine recurs_ite (fun _ => ?_) fun _ => recurs_ite (fun _ => ?_) fun _ => recurs_failAt _ _ _
    · exact recurs_bind (recurs_advance (Token.isEnd_of_kind (hk ▸ nofun))) fun _ =>
        recurs_any (recurs_close (ih.expression true) fun _ =>
          recurs_bind (recurs_op _) fun _ => recurs_pure _)
    · exact recurs_bind (recurs_everywhere (recurs_bracketed _ _ (ih.expression b)))
        fun _ => recurs_pure _
  · exact recurs_failAt _ _ _

theorem recurs_named (b : Bool) {t : Token} (ht : t.kind = .ident) :
    Recurs (At t) true false (named (d + 1) b) fun _ => named (d' + 1) b := by
  refine recurs_bind (e := false) (recurs_advance (Token.isEnd_of_kind (ht ▸ nofun))) fun name =>
    recurs_peek fun next => ?_
  have hbody : ∀ args : List Expr, Recurs Any false false (do
      let parts ← nodeBody d name.text
      return Expr.node name.text args parts.1 parts.2 name.line) fun _ => do
      let parts ← nodeBody d' name.text
      return Expr.node name.text args parts.1 parts.2 name.line := fun args =>
    recurs_bind (recurs_free (recurs_any (ih.nodeBody name.text))) fun _ => recurs_pure _
  refine recurs_ite (fun hstr => ?_) fun _ => recurs_ite (fun _ => ?_) fun _ =>
    recurs_ite (fun _ => recurs_everywhere (hbody [])) fun _ => recurs_pure _
  · refine recurs_take (e := false) (Token.isEnd_of_kind (hstr.1 ▸ nofun)) fun _ => ?_
    exact recurs_peek fun _ => recurs_ite
      (fun _ => recurs_everywhere (hbody _)) fun _ => recurs_pure _
  · refine recurs_any (b := true) (recurs_bind (e := false)
      (recurs_everywhere (recurs_free ih.arguments)) fun args => ?_)
    exact recurs_peek fun _ => recurs_ite
      (fun _ => recurs_everywhere (hbody _)) fun _ => recurs_pure _

theorem recurs_nodeItem : Recurs Any true false (nodeItem d) fun _ => nodeItem d' := by
  refine recurs_look fun t => recurs_peekSecond fun u => recurs_ite (fun hcond => ?_) fun _ => ?_
  · obtain ⟨hk, hcolon⟩ : t.kind = .ident ∧ u.isOp ":" = true := by simpa using hcond
    exact recurs_advance_second (Token.isEnd_of_kind (hk ▸ nofun)) fun _ =>
      recurs_bind (recurs_advance (Token.isEnd_of_isOp hcolon)) fun _ =>
        recurs_bind (ih.expression true) fun _ => recurs_pure _
  · exact recurs_bind (recurs_everywhere ih.statement) fun _ => recurs_pure _

theorem recurs_nodeBody (kind : String) :
    Recurs Any true true (nodeBody (d + 1) kind) fun _ => nodeBody (d' + 1) kind :=
  recurs_bind (recurs_braced (recurs_nodeItem ih)) fun _ => recurs_pure _

theorem recurs_statement :
    Recurs Any true false (statement (d + 1)) fun _ => statement (d' + 1) := by
  refine recurs_look fun t => recurs_ite (fun _ => recurs_everywhere ih.typeDecl)
    fun _ => recurs_ite (fun _ => recurs_bind (recurs_everywhere ih.fnDecl)
      fun _ => recurs_pure _) fun _ => recurs_ite (fun ht => ih.binding ht) fun _ =>
    recurs_ite (fun _ => recurs_everywhere ih.choice) fun _ =>
    recurs_ite (fun _ => recurs_everywhere ih.iteration) fun _ =>
    recurs_bind (e := false) (recurs_everywhere (ih.expression true)) fun e =>
      recurs_peek fun u => ?_
  cases hop : assignOp? u with
  | none => exact recurs_pure _
  | some op =>
    refine recurs_take (e := true) (Token.isEnd_of_symbol hop) fun _ => ?_
    cases Target.ofExpr? e with
    | none => exact recurs_failAt _ _ _
    | some target => exact recurs_bind (ih.expression true) fun _ => recurs_pure _

theorem recurs_binding (hd : d ≤ d') {t : Token}
    (ht : (t.isKeyword "let" || t.isKeyword "var") = true) :
    Recurs (At t) true false (binding (d + 1)) fun _ => binding (d' + 1) := by
  have hend : t.isEnd = false :=
    (Bool.or_eq_true _ _ ▸ ht).elim Token.isEnd_of_isKeyword Token.isEnd_of_isKeyword
  refine recurs_bind (e := false) (recurs_advance hend) fun start =>
    recurs_peek fun m => ?_
  have hvalue : ∀ (name : String) (type : Option String) (marked : Bool),
      Recurs Any true false (do
        let _ ← expectOp "="
        let value ← expression d true
        return Stmt.bind name value type (start.text == "var" || marked) start.line) fun _ => do
        let _ ← expectOp "="
        let value ← expression d' true
        return Stmt.bind name value type (start.text == "var" || marked) start.line :=
    fun _ _ _ => recurs_bind (recurs_op _) fun _ =>
      recurs_bind (ih.expression true) fun _ => recurs_pure _
  refine recurs_ite (fun hm => recurs_take (e := true) (Token.isEnd_of_isKeyword hm) fun _ => ?_)
    fun _ => recurs_any (b := true) ?_
  all_goals
    refine recurs_bind (e := true) (recurs_everywhere recurs_name) fun name => recurs_peek fun _ =>
      recurs_ite (fun _ => ?_) fun _ => ?_
    · exact recurs_late (recurs_pure none) fun type => hvalue _ type _
    · exact recurs_bind (recurs_everywhere (recurs_map some (recurs_typeName hd)))
        fun type => hvalue _ type _

theorem recurs_choice : Recurs Any true false (choice (d + 1)) fun _ => choice (d' + 1) :=
  recurs_bind (recurs_keyword _) fun _ => recurs_bind (ih.expression false) fun _ =>
    recurs_bind (recurs_braced ih.arm) fun _ => recurs_pure _

theorem recurs_arm : Recurs Any true false (arm (d + 1)) fun _ => arm (d' + 1) := by
  refine recurs_look fun t => ?_
  have hbody : ∀ pattern : Option Expr, Recurs Any true false (do
        let _ ← expectOp "=>"
        let body ← if (← peek).isOp "\x7b" then block d else List.singleton <$> statement d
        return (⟨pattern, body, t.line⟩ : Arm)) fun _ => do
        let _ ← expectOp "=>"
        let body ← if (← peek).isOp "\x7b" then block d' else List.singleton <$> statement d'
        return (⟨pattern, body, t.line⟩ : Arm) := fun _ =>
    recurs_bind (recurs_op _) fun _ => recurs_peek fun _ => recurs_ite
      (fun _ => recurs_bind (recurs_everywhere (recurs_free (recurs_any ih.block))) fun _ =>
        recurs_pure _)
      fun _ => recurs_bind (recurs_everywhere (recurs_any (recurs_map _ ih.statement))) fun _ =>
        recurs_pure _
  refine recurs_ite (fun ht => recurs_bind (e := true) (recurs_advance ?_) fun _ => ?_) fun _ => ?_
  · rw [Bool.or_eq_true, Bool.and_eq_true, beq_iff_eq] at ht
    exact ht.elim Token.isEnd_of_isKeyword fun h => Token.isEnd_of_kind (h.1 ▸ nofun)
  · exact recurs_late (recurs_pure none) hbody
  · exact recurs_bind (recurs_everywhere (recurs_map some (ih.expression false))) hbody

theorem recurs_iteration :
    Recurs Any true false (iteration (d + 1)) fun _ => iteration (d' + 1) :=
  recurs_bind (recurs_keyword _) fun _ => recurs_bind recurs_name fun _ =>
    recurs_bind (recurs_keyword _) fun _ =>
      recurs_bind (ih.expression false) fun _ =>
        recurs_bind (recurs_free ih.block) fun _ => recurs_pure _

theorem recurs_fnDecl (hd : d ≤ d') :
    Recurs Any true false (fnDecl (d + 1)) fun _ => fnDecl (d' + 1) :=
  recurs_bind (recurs_keyword _) fun _ => recurs_bind recurs_name fun _ =>
    recurs_bind (recurs_bracketed _ _ (recurs_param hd)) fun _ =>
      recurs_bind (recurs_optionalType hd) fun _ =>
        recurs_bind (recurs_free ih.block) fun _ => recurs_pure _

theorem recurs_fieldDecl (hd : d ≤ d') :
    Recurs Any true false (fieldDecl (d + 1)) fun _ => fieldDecl (d' + 1) :=
  recurs_bind recurs_name fun _ => recurs_bind (recurs_typeName hd) fun _ =>
    recurs_peek fun _ => recurs_ite (fun ht => (recurs_take (Token.isEnd_of_isOp ht) fun _ =>
        recurs_bind (ih.expression true) fun _ => recurs_pure _)) fun _ => recurs_pure _

theorem recurs_typeItem : Recurs Any true false (typeItem d) fun _ => typeItem d' :=
  recurs_look fun _ => recurs_ite
    (fun _ => recurs_bind (recurs_everywhere ih.fnDecl) fun _ => recurs_pure _)
    fun _ => recurs_bind (recurs_everywhere ih.fieldDecl) fun _ => recurs_pure _

theorem recurs_typeDecl :
    Recurs Any true false (typeDecl (d + 1)) fun _ => typeDecl (d' + 1) :=
  recurs_bind (recurs_keyword _) fun _ => recurs_bind recurs_name fun _ =>
    recurs_bind recurs_specs fun _ => recurs_bind (recurs_braced (recurs_typeItem ih)) fun _ =>
      recurs_pure _

theorem recurringRules_succ (hd : d ≤ d') : RecurringRules (d + 1) (d' + 1) where
  expression b := ih.binary 0 b
  binary := recurs_binary ih
  unary := recurs_unary ih
  suffixed := recurs_suffixed ih
  arguments := recurs_bracketed _ _ (ih.expression true)
  primary b := recurs_at fun t => recurs_primary_at ih b t fun _ => rfl
  named := recurs_named ih
  nodeBody := recurs_nodeBody ih
  statement := recurs_statement ih
  block := recurs_braced ih.statement
  binding := recurs_binding ih hd
  choice := recurs_choice ih
  arm := recurs_arm ih
  iteration := recurs_iteration ih
  fnDecl := recurs_fnDecl ih hd
  fieldDecl := recurs_fieldDecl ih hd
  typeDecl := recurs_typeDecl ih

end Step

/-- **A rule does the same again in front of other tokens, and if it may nest deeper.** -/
theorem recurringRules {d : Nat} : ∀ {d' : Nat}, d ≤ d' → RecurringRules d d' := by
  induction d with
  | zero => exact fun _ => recurringRules_zero _
  | succ d ih =>
    intro d' hd
    obtain ⟨d', rfl⟩ := Nat.exists_eq_add_of_le' hd
    exact recurringRules_succ (ih (Nat.le_add_left d d')) (Nat.le_add_left d d')

end Parser

end Widgetry
