import Widgetry.Proofs.Generation.Formulas

/-!
# Where a formula is taken apart

The tokens of a formula show its operands. Without the brackets they are always the same, and the
brackets are balanced in every operand; so an operator, a comma or the bracket of a call can stand
in one place only.

> `split_at_mark`: two ways to take some tokens apart at a mark are one if what stands before the
> mark is the same but for the brackets;
> `Written.bare`: a formula whose tokens begin with a balanced part is not in brackets as a whole.
-/

namespace Widgetry.Formula

variable {k n : Nat} {ts us ls rs ls' rs' : List Token} {x : Formula} {t : Token}

/-! ## Tokens without brackets -/

def Token.isBracket : Token → Bool
  | .opening | .closing => true
  | _ => false

/-- Some tokens without the brackets. -/
def flat (ts : List Token) : List Token := ts.filter (!·.isBracket)

theorem flat_append (ts us : List Token) : flat (ts ++ us) = flat ts ++ flat us :=
  List.filter_append ts us

theorem flat_cons (ht : t.isBracket = false) (ts : List Token) : flat (t :: ts) = t :: flat ts :=
  List.filter_cons_of_pos (by simp [ht])

theorem flat_group (ts : List Token) : flat (.opening :: ts ++ [.closing]) = flat ts := by
  show flat (ts ++ [.closing]) = _
  rw [flat_append]
  exact List.append_nil _

theorem isBracket_token (op : UnaryOp) : op.token.isBracket = false := by
  cases op <;> rfl

mutual

/-- The tokens of a formula but for the brackets. -/
def plain : Formula → List Token
  | .atom a => [.atom a]
  | .unary op x => op.token :: plain x
  | .binary op l r => plain l ++ .operator op :: plain r
  | .member x name => plain x ++ [.point, .atom (.name name)]
  | .call f args => plain f ++ plainAll args

def plainAll : List Formula → List Token
  | [] => []
  | [x] => plain x
  | x :: y :: rest => plain x ++ .comma :: plainAll (y :: rest)

end

theorem flat_listed : ∀ args : List (List Token × Formula), (∀ a ∈ args, flat a.1 = plain a.2) →
    flat (listed (args.map (·.1))) = plainAll (args.map (·.2))
  | [], _ => rfl
  | [a], h => h a List.mem_cons_self
  | a :: b :: rest, h => by
    have hrest := flat_listed (b :: rest) fun c hc => h c (List.mem_cons_of_mem _ hc)
    show flat (a.1 ++ .comma :: listed ((b :: rest).map (·.1))) = _
    rw [flat_append, flat_cons rfl, hrest, h a List.mem_cons_self]
    rfl

theorem Written.flat_eq (h : Written k ts x) : flat ts = plain x := by
  induction h with
  | atom a => rfl
  | group _ ih =>
    rw [flat_group]
    exact ih
  | member name _ ih =>
    rw [flat_append, ih]
    rfl
  | @call ts f args _ _ ih ihs =>
    rw [List.append_assoc, flat_append, ih, List.cons_append, ← List.cons_append, flat_group,
      flat_listed args ihs]
    rfl
  | unary _ ih =>
    rw [flat_cons (isBracket_token _), ih]
    rfl
  | binary _ _ ihl ihr =>
    rw [flat_append, flat_cons rfl, ihl, ihr]
    rfl
  | looser _ _ ih => exact ih

/-- Two ways to take some tokens apart at a token are one if neither has the longer front. -/
theorem split_unique (h : ls ++ t :: rs = ls' ++ t :: rs') (hlonger : ∀ e es, ls ≠ ls' ++ e :: es)
    (hlonger' : ∀ e es, ls' ≠ ls ++ e :: es) : ls = ls' ∧ rs = rs' := by
  have hfronts : ls = ls' := by
    rcases List.append_eq_append_iff.mp h with ⟨as, hls, -⟩ | ⟨as, hls, -⟩
    · cases as with
      | nil => rw [hls, List.append_nil]
      | cons e es => exact absurd hls (hlonger' e es)
    · cases as with
      | nil => rw [hls, List.append_nil]
      | cons e es => exact absurd hls (hlonger e es)
  rw [hfronts, List.append_cancel_left_eq] at h
  exact ⟨hfronts, List.tail_eq_of_cons_eq h⟩

/-- A mark that is no bracket stands in one place. -/
theorem split_at_mark (ht : t.isBracket = false) (hflat : flat ls = flat ls')
    (h : ls ++ t :: rs = ls' ++ t :: rs') : ls = ls' ∧ rs = rs' := by
  -- a longer front would have one mark more than the other
  have hlonger : ∀ {as bs cs ds : List Token}, flat as = flat bs → as ++ t :: cs = bs ++ t :: ds →
      ∀ e es, as ≠ bs ++ e :: es := by
    rintro as bs cs ds hflat h e es rfl
    rw [List.append_assoc, List.append_cancel_left_eq] at h
    cases h
    rw [flat_append, flat_cons ht] at hflat
    simp at hflat
  exact split_unique h (hlonger hflat h) (hlonger hflat.symm h.symm)

theorem listed_injective : ∀ ps qs : List (List Token), ps.map flat = qs.map flat →
    listed ps = listed qs → ps = qs
  | [], [], _, _ => rfl
  | [], _ :: _, hmap, _ => by cases hmap
  | _ :: _, [], hmap, _ => by cases hmap
  | [p], [q], _, h => congrArg (fun r => [r]) h
  | [_], _ :: _ :: _, hmap, _ => nomatch List.cons.inj hmap
  | _ :: _ :: _, [_], hmap, _ => nomatch List.cons.inj hmap
  | p :: p' :: ps, q :: q' :: qs, hmap, h => by
    obtain ⟨hpq, hrest⟩ := List.cons.inj hmap
    obtain ⟨rfl, hlisted⟩ := split_at_mark (t := .comma) rfl hpq h
    rw [listed_injective (p' :: ps) (q' :: qs) hrest hlisted]

/-! ## Brackets -/

/-- How many brackets stay open behind some tokens. -/
def depth : List Token → Int
  | [] => 0
  | .opening :: ts => depth ts + 1
  | .closing :: ts => depth ts - 1
  | _ :: ts => depth ts

theorem depth_append (ts us : List Token) : depth (ts ++ us) = depth ts + depth us := by
  induction ts with
  | nil => simp [depth]
  | cons t ts ih =>
    cases t <;> simp only [List.cons_append, depth, ih] <;> omega

theorem depth_cons (ht : t.isBracket = false) (ts : List Token) : depth (t :: ts) = depth ts := by
  cases t with
  | opening => cases ht
  | closing => cases ht
  | _ => rfl

/-- Every bracket is closed, and none before it is opened. -/
structure Balanced (ts : List Token) : Prop where
  total : depth ts = 0
  front : ∀ us vs, ts = us ++ vs → 0 ≤ depth us

namespace Balanced

theorem nil : Balanced [] where
  total := rfl
  front us vs h := by
    rw [(List.append_eq_nil_iff.mp h.symm).1]
    exact Int.le_refl 0

theorem append (h : Balanced ts) (h' : Balanced us) : Balanced (ts ++ us) where
  total := by rw [depth_append, h.total, h'.total]; rfl
  front as bs he := by
    rcases List.append_eq_append_iff.mp he with ⟨cs, rfl, hus⟩ | ⟨cs, hts, -⟩
    · rw [depth_append, h.total, Int.zero_add]
      exact h'.front cs bs hus
    · exact h.front as cs hts

theorem cons (ht : t.isBracket = false) (h : Balanced ts) : Balanced (t :: ts) where
  total := (depth_cons ht ts).trans h.total
  front as bs he := by
    cases as with
    | nil => exact Int.le_refl 0
    | cons a as =>
      cases he
      rw [depth_cons ht]
      exact h.front as bs rfl

theorem mark (ht : t.isBracket = false) : Balanced [t] := cons ht nil

/-- Inside of brackets something is open. -/
theorem front_group (h : Balanced ts) (he : .opening :: ts ++ [.closing] = us ++ rs)
    (hus : us ≠ []) (hrs : rs ≠ []) : 0 < depth us := by
  cases us with
  | nil => exact absurd rfl hus
  | cons u us =>
    obtain ⟨rfl, htail⟩ := List.cons.inj he
    have hfront : ∃ vs, ts = us ++ vs := by
      rcases List.append_eq_append_iff.mp htail with ⟨cs, hus, hcs⟩ | ⟨cs, hts, -⟩
      · -- the last bracket is none of these, since something follows
        cases cs with
        | nil =>
          rw [List.append_nil] at hus
          exact ⟨[], by rw [hus, List.append_nil]⟩
        | cons c cs =>
          obtain ⟨-, hnil⟩ := List.cons.inj hcs
          exact absurd (List.append_eq_nil_iff.mp hnil.symm).2 hrs
      · exact ⟨cs, hts⟩
    obtain ⟨vs, hvs⟩ := hfront
    have hdepth := h.front us vs hvs
    rw [depth]
    omega

theorem group (h : Balanced ts) : Balanced (.opening :: ts ++ [.closing]) where
  total := by
    rw [depth_append, depth, h.total]
    rfl
  front as bs he := by
    by_cases has : as = []
    · rw [has]
      exact Int.le_refl 0
    · by_cases hbs : bs = []
      · rw [hbs, List.append_nil] at he
        rw [← he, depth_append, depth, h.total]
        exact Int.le_refl 0
      · exact Int.le_of_lt (h.front_group he has hbs)

end Balanced

theorem balanced_listed : ∀ args : List (List Token), (∀ a ∈ args, Balanced a) →
    Balanced (listed args)
  | [], _ => .nil
  | [a], h => h a List.mem_cons_self
  | a :: b :: rest, h => by
    have hrest := balanced_listed (b :: rest) fun c hc => h c (List.mem_cons_of_mem _ hc)
    exact (h a List.mem_cons_self).append (.cons rfl hrest)

theorem Written.balanced (h : Written k ts x) : Balanced ts := by
  induction h with
  | atom a => exact .mark rfl
  | group _ ih => exact ih.group
  | member name _ ih => exact ih.append (.cons rfl (.mark rfl))
  | @call ts f args _ _ ih ihs =>
    rw [List.append_assoc]
    refine ih.append (Balanced.group (balanced_listed _ fun a ha => ?_))
    obtain ⟨b, hb, rfl⟩ := List.mem_map.mp ha
    exact ihs b hb
  | unary _ ih => exact .cons (isBracket_token _) ih
  | binary _ _ ihl ihr => exact ihl.append (.cons rfl ihr)
  | looser _ _ ih => exact ih

/-- The brackets of a call stand in one place. -/
theorem split_at_call (hls : Balanced ls) (hls' : Balanced ls') (hrs : Balanced rs)
    (hrs' : Balanced rs')
    (h : ls ++ .opening :: rs ++ [.closing] = ls' ++ .opening :: rs' ++ [.closing]) :
    ls = ls' ∧ rs = rs' := by
  -- a longer front would close the bracket behind the shorter one, but what is longer of it stands
  -- between the brackets of a call and closes none but its own
  have hlonger : ∀ {as bs cs ds : List Token}, Balanced as → Balanced bs → Balanced ds →
      as ++ .opening :: cs = bs ++ .opening :: ds → ∀ e es, as ≠ bs ++ e :: es := by
    rintro as bs cs ds has hbs hds h e es rfl
    rw [List.append_assoc, List.append_cancel_left_eq] at h
    cases h
    have htotal := has.total
    rw [depth_append, hbs.total, depth] at htotal
    have hfront := hds.front es _ rfl
    omega
  have h := List.append_cancel_right h
  exact split_unique h (hlonger hls hls' hrs' h) (hlonger hls' hls hrs h.symm)

/-! ## Formulas that are not in brackets as a whole -/

/-- A formula is written with its own operator, point or call outermost. -/
inductive Bare : Nat → List Token → Formula → Prop where
  | atom (a : Atom) : Bare 7 [.atom a] (.atom a)
  | member {ts : List Token} {x : Formula} (name : String) : Written 7 ts x →
      Bare 7 (ts ++ [.point, .atom (.name name)]) (.member x name)
  | call {ts : List Token} {f : Formula} {args : List (List Token × Formula)} : Written 7 ts f →
      (∀ a ∈ args, Written 0 a.1 a.2) →
      Bare 7 (ts ++ .opening :: listed (args.map (·.1)) ++ [.closing]) (.call f (args.map (·.2)))
  | unary {op : UnaryOp} {ts : List Token} {x : Formula} : Written op.rank ts x →
      Bare op.rank (op.token :: ts) (.unary op x)
  | binary {op : BinaryOp} {ts us : List Token} {l r : Formula} : Written op.leftRank ts l →
      Written op.rightRank us r → Bare op.rank (ts ++ .operator op :: us) (.binary op l r)

theorem Written.bare_or_group (h : Written k ts x) : (∃ n, k ≤ n ∧ Bare n ts x) ∨
    ∃ us, ts = .opening :: us ++ [.closing] ∧ Written 0 us x := by
  induction h with
  | atom a => exact .inl ⟨7, Nat.le_refl _, .atom a⟩
  | group hx _ => exact .inr ⟨_, rfl, hx⟩
  | member name hx _ => exact .inl ⟨7, Nat.le_refl _, .member name hx⟩
  | call hf hargs _ _ => exact .inl ⟨7, Nat.le_refl _, .call hf hargs⟩
  | unary hx _ => exact .inl ⟨_, Nat.le_refl _, .unary hx⟩
  | binary hl hr _ _ => exact .inl ⟨_, Nat.le_refl _, .binary hl hr⟩
  | looser _ hle ih =>
    rcases ih with ⟨n, hn, hb⟩ | hg
    · exact .inl ⟨n, Nat.le_trans hle hn, hb⟩
    · exact .inr hg

namespace Bare

variable {op : UnaryOp} {op' : BinaryOp} {l r f : Formula} {args : List Formula} {name : String}

theorem of_unary (h : Bare n ts (.unary op x)) :
    n = op.rank ∧ ∃ us, ts = op.token :: us ∧ Written op.rank us x := by
  cases h with
  | unary hx => exact ⟨rfl, _, rfl, hx⟩

theorem of_binary (h : Bare n ts (.binary op' l r)) : n = op'.rank ∧ ∃ ls rs,
    ts = ls ++ .operator op' :: rs ∧ Written op'.leftRank ls l ∧ Written op'.rightRank rs r := by
  cases h with
  | binary hl hr => exact ⟨rfl, _, _, rfl, hl, hr⟩

theorem of_member (h : Bare n ts (.member x name)) :
    ∃ us, ts = us ++ [.point, .atom (.name name)] ∧ Written 7 us x := by
  cases h with
  | member _ hx => exact ⟨_, rfl, hx⟩

theorem of_call (h : Bare n ts (.call f args)) :
    ∃ (us : List Token) (pairs : List (List Token × Formula)),
      ts = us ++ .opening :: listed (pairs.map (·.1)) ++ [.closing] ∧ args = pairs.map (·.2) ∧
        Written 7 us f ∧ ∀ a ∈ pairs, Written 0 a.1 a.2 := by
  cases h with
  | call hf hargs => exact ⟨_, _, rfl, rfl, hf, hargs⟩

end Bare

theorem Written.ne_nil (h : Written k ts x) : ts ≠ [] := by
  induction h with
  | looser _ _ ih => exact ih
  | _ => simp

/-- Brackets around the whole would be open behind a balanced part. -/
theorem Written.bare (h : Written k (us ++ rs) x) (hus : Balanced us) (hne : us ≠ [])
    (hrs : rs ≠ []) : ∃ n, k ≤ n ∧ Bare n (us ++ rs) x := by
  refine h.bare_or_group.resolve_right ?_
  rintro ⟨ts, he, hts⟩
  have hdepth := hts.balanced.front_group he.symm hne hrs
  rw [hus.total] at hdepth
  exact absurd hdepth (Int.lt_irrefl 0)

end Widgetry.Formula
