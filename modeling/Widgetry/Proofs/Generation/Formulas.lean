import Widgetry.Language.Operator
import Mathlib.Data.List.Basic

/-!
# Formulas

An expression of generated source, as whoever runs that source takes it. From the loosest to the
tightest, it has

    or,  and,  not,  comparisons,  + and -,  *, / and %,  the sign -,  points and calls

with ranks from zero to seven. Operators of one rank group from the left, but comparisons do not
group: a chain of them is no formula.

`Written` is this grammar. `Formula.ofTokens` reads a formula from left to right, with a stack of
what is still open. The two agree:

> `ofTokens_eq_some_iff`: reading some tokens gives the one formula that they are written for.

`Written.reaches` takes a written formula through the reader, and `State.Held` says of each state which
tokens led to it.
-/

namespace Widgetry

/-- The smallest parts of a formula. A fraction is known by its digits. -/
inductive Atom where
  | name (x : String)
  | nothing
  | truth (b : Bool)
  | whole (n : Nat)
  | fraction (digits : String)
  | text (s : String)
deriving DecidableEq, Repr

inductive Formula where
  | atom (a : Atom)
  | unary (op : UnaryOp) (x : Formula)
  | binary (op : BinaryOp) (l r : Formula)
  | member (x : Formula) (name : String)
  | call (f : Formula) (args : List Formula)
deriving Repr

/-! ## Ranks -/

/-- How tightly a prefix operator binds. -/
def UnaryOp.rank : UnaryOp → Nat
  | bang => 2
  | minus => 6

/-- How tightly an operator binds. -/
def BinaryOp.rank : BinaryOp → Nat
  | or => 0
  | and => 1
  | eq | ne | lt | le | gt | ge => 3
  | add | sub => 4
  | mul | div | mod => 5

namespace BinaryOp

/-- How tightly the left operand binds at least. That of a comparison is no comparison. -/
def leftRank (op : BinaryOp) : Nat := if op.rank = 3 then 4 else op.rank

/-- How tightly the right operand binds at least. -/
def rightRank (op : BinaryOp) : Nat := op.rank + 1

theorem rank_le_leftRank (op : BinaryOp) : op.rank ≤ op.leftRank := by
  cases op <;> decide

theorem leftRank_lt (op : BinaryOp) : op.leftRank < 7 := by
  cases op <;> decide

theorem rank_lt_rightRank (op : BinaryOp) : op.rank < op.rightRank := Nat.lt_succ_self _

theorem rightRank_lt (op : BinaryOp) : op.rightRank < 7 := by
  cases op <;> decide

/-- No operator has the rank of a prefix operator. -/
theorem unary_lt_leftRank {op : BinaryOp} {op' : UnaryOp} (h : op'.rank ≤ op.rank) :
    op'.rank < op.leftRank := by
  revert h
  cases op <;> cases op' <;> decide

end BinaryOp

namespace Formula

inductive Token where
  | atom (a : Atom)
  | operator (op : BinaryOp)
  | negation
  | point
  | comma
  | opening
  | closing
  /-- a word that is no name and has no place in a formula -/
  | word (w : String)
deriving DecidableEq, Repr

end Formula

/-- What a prefix operator is written as. The sign is the minus between operands. -/
def UnaryOp.token : UnaryOp → Formula.Token
  | bang => .negation
  | minus => .operator .sub

namespace Formula

/-! ## The grammar -/

/-- Arguments with commas between them. -/
def listed : List (List Token) → List Token
  | [] => []
  | [ts] => ts
  | ts :: us :: rest => ts ++ .comma :: listed (us :: rest)

/-- Some tokens write a formula that binds at least as tightly as a rank. -/
inductive Written : Nat → List Token → Formula → Prop where
  | atom (a : Atom) : Written 7 [.atom a] (.atom a)
  | group {ts : List Token} {x : Formula} : Written 0 ts x →
      Written 7 (.opening :: ts ++ [.closing]) x
  | member {ts : List Token} {x : Formula} (name : String) : Written 7 ts x →
      Written 7 (ts ++ [.point, .atom (.name name)]) (.member x name)
  | call {ts : List Token} {f : Formula} {args : List (List Token × Formula)} : Written 7 ts f →
      (∀ a ∈ args, Written 0 a.1 a.2) →
      Written 7 (ts ++ .opening :: listed (args.map (·.1)) ++ [.closing])
        (.call f (args.map (·.2)))
  | unary {op : UnaryOp} {ts : List Token} {x : Formula} : Written op.rank ts x →
      Written op.rank (op.token :: ts) (.unary op x)
  | binary {op : BinaryOp} {ts us : List Token} {l r : Formula} : Written op.leftRank ts l →
      Written op.rightRank us r → Written op.rank (ts ++ .operator op :: us) (.binary op l r)
  | looser {k j : Nat} {ts : List Token} {x : Formula} : Written k ts x → j ≤ k → Written j ts x

/-! ## The reader -/

/-- What is open in front of an operand. -/
inductive Frame where
  | group
  | args (f : Formula) (done : List Formula)
  | unary (op : UnaryOp)
  | left (op : BinaryOp) (l : Formula)

/-- How tightly the operand behind a frame binds at least. -/
def Frame.need : Frame → Nat
  | group | args .. => 0
  | unary op => op.rank
  | left op _ => op.rightRank

/-- How tightly the next operand binds at least. -/
def need : List Frame → Nat
  | [] => 0
  | f :: _ => f.need

/-- Hands an operand to the operators in front of it that bind at least as tightly as a rank. -/
def settle (k : Nat) : Formula → List Frame → Formula × List Frame
  | x, .unary op :: S => if k ≤ op.rank then settle k (.unary op x) S else (x, .unary op :: S)
  | x, .left op l :: S => if k ≤ op.rank then settle k (.binary op l x) S else (x, .left op l :: S)
  | x, S => (x, S)

inductive State where
  /-- an operand is to come -/
  | wanted (S : List Frame)
  | found (x : Formula) (S : List Frame)
  /-- the name behind a point is to come -/
  | named (x : Formula) (S : List Frame)

def step : State → Token → Option State
  | .wanted S, .atom a => some (.found (.atom a) S)
  | .wanted S, .opening => some (.wanted (.group :: S))
  | .wanted (.args f [] :: S), .closing => some (.found (.call f []) S)
  | .wanted S, .negation => if need S ≤ 2 then some (.wanted (.unary .bang :: S)) else none
  | .wanted S, .operator .sub => if need S ≤ 6 then some (.wanted (.unary .minus :: S)) else none
  | .found x S, .point => some (.named x S)
  | .named x S, .atom (.name f) => some (.found (.member x f) S)
  | .found x S, .opening => some (.wanted (.args x [] :: S))
  | .found x S, .comma => match settle 0 x S with
    | (y, .args f done :: S) => some (.wanted (.args f (done ++ [y]) :: S))
    | _ => none
  | .found x S, .closing => match settle 0 x S with
    | (y, .group :: S) => some (.found y S)
    | (y, .args f done :: S) => some (.found (.call f (done ++ [y])) S)
    | _ => none
  | .found x S, .operator op =>
    let (y, S) := settle op.leftRank x S
    if need S ≤ op.rank then some (.wanted (.left op y :: S)) else none
  | _, _ => none

def finish : State → Option Formula
  | .found x S => match settle 0 x S with
    | (y, []) => some y
    | _ => none
  | _ => none

/-- The formula that some tokens are read as. -/
def ofTokens (ts : List Token) : Option Formula := (ts.foldlM step (.wanted [])).bind finish

/-! ## What is written is read -/

variable {k : Nat} {ts us : List Token} {x y : Formula} {S : List Frame}

theorem settle_tightest (x : Formula) (S : List Frame) : settle 7 x S = (x, S) := by
  unfold settle
  split
  · next op _ => rw [if_neg (by cases op <;> decide)]
  · next op _ _ => exact if_neg (Nat.not_le.mpr (Nat.lt_trans op.rank_lt_rightRank op.rightRank_lt))
  · rfl

/-- Behind looser operators an operand stays as it is. -/
theorem settle_need {op : BinaryOp} (h : need S ≤ op.rank) : settle op.leftRank x S = (x, S) := by
  unfold settle
  split
  · -- no operator has the rank of a prefix operator, so this one is looser than its left operand
    next op' _ => exact if_neg (Nat.not_le.mpr (BinaryOp.unary_lt_leftRank h))
  · next op' _ _ =>
    have hlt : op'.rank < op.leftRank := Nat.lt_of_lt_of_le (Nat.lt_of_lt_of_le
      op'.rank_lt_rightRank h) op.rank_le_leftRank
    exact if_neg (Nat.not_le.mpr hlt)
  · rfl

theorem settle_unary {op : UnaryOp} (h : k ≤ op.rank) :
    settle k x (.unary op :: S) = settle k (.unary op x) S := by
  rw [settle, if_pos h]

theorem settle_left {op : BinaryOp} {l : Formula} (h : k ≤ op.rank) :
    settle k x (.left op l :: S) = settle k (.binary op l x) S := by
  rw [settle, if_pos h]

/-- The reader goes from one state to another along some tokens. -/
def Runs (s : State) (ts : List Token) (s' : State) : Prop := ts.foldlM step s = some s'

theorem Runs.trans {s s₁ s₂ : State} (h : Runs s ts s₁) (h' : Runs s₁ us s₂) :
    Runs s (ts ++ us) s₂ := by
  rw [Runs, List.foldlM_append, h]
  exact h'

theorem Runs.one {s s₁ : State} {t : Token} (h : step s t = some s₁) : Runs s [t] s₁ := by
  rw [Runs, List.foldlM_cons, h]
  rfl

theorem Runs.cons {s s₁ s₂ : State} {t : Token} (h : step s t = some s₁) (h' : Runs s₁ ts s₂) :
    Runs s (t :: ts) s₂ := (Runs.one h).trans h'

/-- Some tokens take the reader to a formula: from then on everything goes on as if it stood there
alone. -/
def Reaches (k : Nat) (ts : List Token) (x : Formula) : Prop :=
  ∀ S, need S ≤ k → ∃ y T, Runs (.wanted S) ts (.found y T) ∧
    ∀ j ≤ k, settle j y T = settle j x S

/-- Nothing is left open by a formula of the tightest rank. -/
theorem Reaches.found (h : Reaches 7 ts x) (hS : need S ≤ 7) :
    Runs (.wanted S) ts (.found x S) := by
  obtain ⟨y, T, hrun, hsettle⟩ := h S hS
  have he := hsettle 7 (Nat.le_refl _)
  rw [settle_tightest, settle_tightest] at he
  cases he
  exact hrun

theorem reaches_of_found (h : ∀ S, Runs (.wanted S) ts (.found x S)) : Reaches k ts x :=
  fun S _ => ⟨x, S, h S, fun _ _ => rfl⟩

theorem need_le (S : List Frame) : need S ≤ 7 := by
  unfold need
  split
  · decide
  · next f _ =>
    cases f with
    | group => decide
    | args f done => exact Nat.zero_le _
    | unary op => cases op <;> decide
    | left op l => exact Nat.le_of_lt op.rightRank_lt

theorem step_unary (op : UnaryOp) (h : need S ≤ op.rank) :
    step (.wanted S) op.token = some (.wanted (.unary op :: S)) := by
  cases op with
  | bang => exact if_pos h
  | minus => exact if_pos h

theorem step_operator {op : BinaryOp} {T : List Frame} {l : Formula} (h : need S ≤ op.rank)
    (hs : settle op.leftRank y T = (l, S)) :
    step (.found y T) (.operator op) = some (.wanted (.left op l :: S)) := by
  show (match settle op.leftRank y T with
    | (y, S) => if need S ≤ op.rank then some (State.wanted (.left op y :: S)) else none) = _
  rw [hs]
  exact if_pos h

theorem step_comma {f : Formula} {done : List Formula} {T : List Frame}
    (hs : settle 0 y T = (x, .args f done :: S)) :
    step (.found y T) .comma = some (.wanted (.args f (done ++ [x]) :: S)) := by
  rw [step, hs]

theorem step_closing_args {f : Formula} {done : List Formula} {T : List Frame}
    (hs : settle 0 y T = (x, .args f done :: S)) :
    step (.found y T) .closing = some (.found (.call f (done ++ [x])) S) := by
  rw [step, hs]

theorem step_closing_group {T : List Frame} (hs : settle 0 y T = (x, .group :: S)) :
    step (.found y T) .closing = some (.found x S) := by
  rw [step, hs]

/-- The arguments of a call, from the one that is to come on. -/
theorem runs_args (f : Formula) (S : List Frame) :
    ∀ (args : List (List Token × Formula)) (done : List Formula),
    args ≠ [] → (∀ a ∈ args, Reaches 0 a.1 a.2) →
    Runs (.wanted (.args f done :: S)) (listed (args.map (·.1)) ++ [.closing])
      (.found (.call f (done ++ args.map (·.2))) S)
  | [], _, hne, _ => absurd rfl hne
  | [a], done, _, h => by
    obtain ⟨y, T, hrun, hsettle⟩ := h a List.mem_cons_self (.args f done :: S) (Nat.le_refl 0)
    exact hrun.trans (.one (step_closing_args (hsettle 0 (Nat.le_refl 0))))
  | a :: b :: rest, done, _, h => by
    obtain ⟨y, T, hrun, hsettle⟩ := h a List.mem_cons_self (.args f done :: S) (Nat.le_refl 0)
    have hcomma := step_comma (hsettle 0 (Nat.le_refl 0))
    have hrest := runs_args f S (b :: rest) (done ++ [a.2]) (List.cons_ne_nil _ _)
      fun a' ha' => h a' (List.mem_cons_of_mem _ ha')
    have hall := hrun.trans (.cons hcomma hrest)
    rw [List.append_assoc] at hall
    simpa [listed] using hall

/-- **The reader takes a written formula as that formula.** -/
theorem Written.reaches (h : Written k ts x) : Reaches k ts x := by
  induction h with
  | atom a => exact reaches_of_found fun S => .one rfl
  | @group ts x _ ih =>
    refine reaches_of_found fun S => .cons rfl ?_
    obtain ⟨y, T, hrun, hsettle⟩ := ih (.group :: S) (Nat.le_refl 0)
    exact hrun.trans (.one (step_closing_group (hsettle 0 (Nat.le_refl 0))))
  | member name _ ih =>
    exact reaches_of_found fun S => (ih.found (need_le S)).trans (.cons rfl (.one rfl))
  | @call ts f args _ _ ih ihs =>
    refine reaches_of_found fun S => ?_
    rw [List.append_assoc, List.cons_append]
    refine (ih.found (need_le S)).trans (.cons rfl ?_)
    cases args with
    | nil => exact .one rfl
    | cons a rest => exact runs_args f S (a :: rest) [] (List.cons_ne_nil _ _) ihs
  | @unary op ts x _ ih =>
    intro S hS
    obtain ⟨y, T, hrun, hsettle⟩ := ih (.unary op :: S) (Nat.le_refl _)
    refine ⟨y, T, .cons (step_unary op hS) hrun, fun j hj => ?_⟩
    rw [hsettle j hj, settle_unary hj]
  | @binary op ts us l r _ _ ihl ihr =>
    intro S hS
    obtain ⟨y, T, hrun, hsettle⟩ := ihl S (Nat.le_trans hS op.rank_le_leftRank)
    -- the left operand is whole before the operator, and nothing in front takes it
    have hstep := step_operator hS ((hsettle _ (Nat.le_refl _)).trans (settle_need hS))
    obtain ⟨y', T', hrun', hsettle'⟩ := ihr (.left op l :: S) (Nat.le_refl _)
    refine ⟨y', T', hrun.trans (.cons hstep hrun'), fun j hj => ?_⟩
    rw [hsettle' j (Nat.le_trans hj (Nat.le_of_lt op.rank_lt_rightRank)), settle_left hj]
  | looser _ hle ih =>
    intro S hS
    obtain ⟨y, T, hrun, hsettle⟩ := ih S (Nat.le_trans hS hle)
    exact ⟨y, T, hrun, fun j hj => hsettle j (Nat.le_trans hj hle)⟩

/-! ## What is read was written -/

/-- The tokens that some frames stand for. -/
inductive Stacked : List Frame → List Token → Prop where
  | nil : Stacked [] []
  | group {S : List Frame} {us : List Token} : Stacked S us →
      Stacked (.group :: S) (us ++ [.opening])
  | args {S : List Frame} {us ts : List Token} {f : Formula}
      {done : List (List Token × Formula)} : Stacked S us → Written 7 ts f →
      (∀ a ∈ done, Written 0 a.1 a.2) →
      Stacked (.args f (done.map (·.2)) :: S)
        (us ++ (ts ++ .opening :: done.flatMap fun a => a.1 ++ [.comma]))
  | unary {S : List Frame} {us : List Token} {op : UnaryOp} : Stacked S us → need S ≤ op.rank →
      Stacked (.unary op :: S) (us ++ [op.token])
  | left {S : List Frame} {us ts : List Token} {op : BinaryOp} {l : Formula} : Stacked S us →
      need S ≤ op.rank → Written op.leftRank ts l →
      Stacked (.left op l :: S) (us ++ (ts ++ [.operator op]))

/-- The tokens that led to a state. -/
inductive State.Held : State → List Token → Prop where
  | wanted {S : List Frame} {us : List Token} : Stacked S us → Held (.wanted S) us
  | found {S : List Frame} {us ts : List Token} {x : Formula} : Stacked S us → Written 7 ts x →
      Held (.found x S) (us ++ ts)
  | named {S : List Frame} {us ts : List Token} {x : Formula} : Stacked S us → Written 7 ts x →
      Held (.named x S) (us ++ (ts ++ [.point]))

/-- What an operand and the frames stand for stays when they are settled. -/
theorem settle_stacked {j : Nat} (hS : Stacked S us) (hx : Written k ts x) (hneed : need S ≤ k)
    (hj : j ≤ k) : ∃ us' ts' n, Stacked (settle j x S).2 us' ∧ Written n ts' (settle j x S).1 ∧
      j ≤ n ∧ us ++ ts = us' ++ ts' := by
  induction hS generalizing k ts x with
  | nil => exact ⟨[], ts, k, .nil, hx, hj, rfl⟩
  | group hS _ => exact ⟨_, ts, k, .group hS, hx, hj, rfl⟩
  | args hS hf hdone _ => exact ⟨_, ts, k, .args hS hf hdone, hx, hj, rfl⟩
  | @unary S us op hS hop ih =>
    by_cases hle : j ≤ op.rank
    · rw [settle_unary hle, List.append_assoc]
      exact ih (.unary (.looser hx hneed)) hop hle
    · rw [settle, if_neg hle]
      exact ⟨_, ts, k, .unary hS hop, hx, hj, rfl⟩
  | @left S us ls op l hS hop hl ih =>
    by_cases hle : j ≤ op.rank
    · rw [settle_left hle, List.append_assoc, List.append_assoc]
      exact ih (.binary hl (.looser hx hneed)) hop hle
    · rw [settle, if_neg hle]
      exact ⟨_, ts, k, .left hS hop hl, hx, hj, rfl⟩

theorem listed_concat (done : List (List Token)) (ts : List Token) :
    listed (done ++ [ts]) = done.flatMap (· ++ [.comma]) ++ ts := by
  induction done with
  | nil => rfl
  | cons us rest ih =>
    have hcons : listed (us :: (rest ++ [ts])) = us ++ .comma :: listed (rest ++ [ts]) := by
      cases rest <;> rfl
    rw [List.cons_append, hcons, ih, List.flatMap_cons, List.append_assoc, List.append_assoc]
    rfl

theorem flatMap_concat (done : List (List Token × Formula)) (ts : List Token) (x : Formula) :
    (done ++ [(ts, x)]).flatMap (fun a => a.1 ++ [.comma])
      = done.flatMap (fun a => a.1 ++ [Token.comma]) ++ (ts ++ [.comma]) := by
  rw [List.flatMap_append, List.flatMap_singleton]

theorem written_concat {done : List (List Token × Formula)}
    (hdone : ∀ a ∈ done, Written 0 a.1 a.2) (hx : Written 0 ts x) :
    ∀ a ∈ done ++ [(ts, x)], Written 0 a.1 a.2 := by
  intro a ha
  rcases List.mem_append.mp ha with ha | ha
  · exact hdone a ha
  · cases List.mem_singleton.mp ha
    exact hx

/-- Arguments of which the last is read, and then a comma. -/
theorem stacked_comma {fs : List Token} {f : Formula} {done : List (List Token × Formula)}
    (hS : Stacked S us) (hf : Written 7 fs f) (hdone : ∀ a ∈ done, Written 0 a.1 a.2)
    (hx : Written 0 ts x) : Stacked (.args f (done.map (·.2) ++ [x]) :: S)
      ((us ++ (fs ++ .opening :: done.flatMap fun a => a.1 ++ [.comma])) ++ ts ++ [.comma]) := by
  have h := Stacked.args hS hf (written_concat hdone hx)
  rw [List.map_append, flatMap_concat] at h
  simpa using h

/-- Arguments of which the last is read, and then the end of the call. -/
theorem written_call {fs : List Token} {f : Formula} {done : List (List Token × Formula)}
    (hf : Written 7 fs f) (hdone : ∀ a ∈ done, Written 0 a.1 a.2) (hx : Written 0 ts x) :
    Written 7 ((fs ++ .opening :: done.flatMap fun a => a.1 ++ [.comma]) ++ ts ++ [.closing])
      (.call f (done.map (·.2) ++ [x])) := by
  have h := Written.call hf (written_concat hdone hx)
  rw [List.map_append, List.map_append, List.map_singleton, listed_concat, List.flatMap_map] at h
  simpa using h

/-- An operand that is settled, as what it leaves open and what it has become. -/
theorem held_settled {j : Nat} {T : List Frame} (hS : Stacked S us) (hx : Written 7 ts x) (hj : j ≤ 7)
    (hsettle : settle j x S = (y, T)) :
    ∃ us' ts', Stacked T us' ∧ Written j ts' y ∧ us ++ ts = us' ++ ts' := by
  obtain ⟨us', ts', n, hT, hy, hn, he⟩ := settle_stacked hS hx (need_le S) hj
  rw [hsettle] at hT hy
  exact ⟨us', ts', hT, .looser hy hn, he⟩

theorem step_wanted {s' : State} {t : Token} (hS : Stacked S us)
    (hs : step (.wanted S) t = some s') : s'.Held (us ++ [t]) := by
  -- the sign and the negation are the two tokens that open an operand in the same way
  have hprefix : ∀ op : UnaryOp, t = op.token →
      (if need S ≤ op.rank then some (.wanted (.unary op :: S)) else none) = some s' →
      s'.Held (us ++ [t]) := by
    rintro op rfl hs
    split at hs
    · next hneed =>
      cases hs
      exact .wanted (.unary hS hneed)
    · cases hs
  cases t with
  | atom a =>
    cases hs
    exact .found hS (.atom a)
  | opening =>
    cases hs
    exact .wanted (.group hS)
  | closing =>
    cases hS with
    | @args S us ts f done hS hf hdone =>
      cases done with
      | nil =>
        cases hs
        rw [List.append_assoc]
        exact .found hS (.call hf hdone)
      | cons a rest => cases hs
    | _ => cases hs
  | negation => exact hprefix .bang rfl hs
  | operator op =>
    cases op with
    | sub => exact hprefix .minus rfl hs
    | _ => cases hs
  | _ => cases hs

theorem step_found {s' : State} {t : Token} (hS : Stacked S us) (hx : Written 7 ts x)
    (hs : step (.found x S) t = some s') : s'.Held ((us ++ ts) ++ [t]) := by
  cases t with
  | point =>
    cases hs
    rw [List.append_assoc]
    exact .named hS hx
  | opening =>
    cases hs
    have hnone : ∀ a ∈ ([] : List (List Token × Formula)), Written 0 a.1 a.2 := nofun
    rw [List.append_assoc]
    exact .wanted (.args hS hx hnone)
  | comma =>
    rcases hsettle : settle 0 x S with ⟨y, T⟩
    obtain ⟨us', ts', hT, hy, he⟩ := held_settled hS hx (Nat.zero_le 7) hsettle
    rw [step, hsettle] at hs
    rw [he]
    cases hT with
    | args hT hf hdone =>
      cases hs
      exact .wanted (stacked_comma hT hf hdone hy)
    | _ => cases hs
  | closing =>
    rcases hsettle : settle 0 x S with ⟨y, T⟩
    obtain ⟨us', ts', hT, hy, he⟩ := held_settled hS hx (Nat.zero_le 7) hsettle
    rw [step, hsettle] at hs
    rw [he]
    cases hT with
    | group hT =>
      cases hs
      rw [List.append_assoc, List.append_assoc]
      exact .found hT (.group hy)
    | args hT hf hdone =>
      cases hs
      rw [List.append_assoc, List.append_assoc, ← List.append_assoc _ _ [_]]
      exact .found hT (written_call hf hdone hy)
    | _ => cases hs
  | operator op =>
    rcases hsettle : settle op.leftRank x S with ⟨y, T⟩
    obtain ⟨us', ts', hT, hy, he⟩ := held_settled hS hx (Nat.le_of_lt op.leftRank_lt) hsettle
    have hs' : (match settle op.leftRank x S with
      | (y, S) => if need S ≤ op.rank then some (State.wanted (.left op y :: S)) else none)
        = some s' := hs
    rw [hsettle] at hs'
    dsimp only at hs'
    split at hs'
    · next hneed =>
      cases hs'
      rw [he, List.append_assoc]
      exact .wanted (.left hT hneed hy)
    · cases hs'
  | _ => cases hs

/-- **Each step adds its token to those that led to the state.** -/
theorem step_held {s s' : State} {t : Token} (h : s.Held us) (hs : step s t = some s') :
    s'.Held (us ++ [t]) := by
  cases h with
  | wanted hS => exact step_wanted hS hs
  | found hS hx => exact step_found hS hx hs
  | named hS hx =>
    cases t with
    | atom a =>
      cases a with
      | name f =>
        cases hs
        rw [List.append_assoc, List.append_assoc]
        exact .found hS (.member f hx)
      | _ => cases hs
    | _ => cases hs

theorem runs_held {s s' : State} (h : s.Held us) (hrun : Runs s ts s') : s'.Held (us ++ ts) := by
  induction ts generalizing s us with
  | nil =>
    cases hrun
    rw [List.append_nil]
    exact h
  | cons t rest ih =>
    rw [Runs, List.foldlM_cons] at hrun
    obtain ⟨s₁, hs, hrest⟩ := Option.bind_eq_some_iff.mp hrun
    have hall := ih (step_held h hs) hrest
    rw [List.append_assoc] at hall
    exact hall

theorem finish_held {s : State} (h : s.Held us) (hx : finish s = some x) : Written 0 us x := by
  cases h with
  | @found S us ts y hS hy =>
    rcases hsettle : settle 0 y S with ⟨z, T⟩
    obtain ⟨us', ts', hT, hz, he⟩ := held_settled hS hy (Nat.zero_le 7) hsettle
    rw [finish, hsettle] at hx
    cases hT with
    | nil =>
      cases hx
      rw [he]
      exact hz
    | _ => cases hx
  | _ => cases hx

/-- **Some tokens are read as a formula exactly if they are written for it.** -/
theorem ofTokens_eq_some_iff : ofTokens ts = some x ↔ Written 0 ts x := by
  constructor
  · intro h
    obtain ⟨s, hrun, hx⟩ := Option.bind_eq_some_iff.mp h
    exact finish_held (runs_held (.wanted .nil) hrun) hx
  · intro h
    obtain ⟨y, T, hrun, hsettle⟩ := h.reaches [] (Nat.le_refl 0)
    refine Option.bind_eq_some_iff.mpr ⟨_, hrun, ?_⟩
    rw [finish, hsettle 0 (Nat.le_refl 0)]
    rfl

end Formula

end Widgetry
