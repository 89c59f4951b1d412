import Widgetry.Proofs.Conversion.Contents

/-!
# Converting with more tolerance

A conversion may be told to go deeper, and to pass over nodes of unknown kinds. Neither shows
anywhere else: the same properties are read in the same order, and what was refused for another
reason still is.

> `convert_agrees`: a more tolerant conversion ends as the other does, with the same view or the same
> fault, unless the other was stopped by what this one tolerates (`Stops`).

So a deeper limit only matters where the limit was exceeded, and the policy only where a node is of an
unknown kind: `toView_tolerant`.
-/

namespace Widgetry

/-- Whether the second options tolerate all that the first do. -/
structure ConversionOptions.Within (o o' : ConversionOptions) : Prop where
  depth : o.maxDepth ≤ o'.maxDepth
  policy : o'.policy = .strict → o.policy = .strict

/-- What stops a conversion of nodes of some kinds, and not a more tolerant one. -/
inductive Stops (o o' : ConversionOptions) (K : Value → Prop) : ConversionFault → Prop
  | tooDeep {kind : Value} {depth : Nat} {f : ConversionFault} (hkind : K kind)
      (hdepth : o.maxDepth < depth) (hlimits : o.maxDepth ≠ o'.maxDepth)
      (h : tooDeepFor kind o.maxDepth depth = (.error f : Except ConversionFault (View String))) :
      Stops o o' K f
  | unknown {kind : Value} {f : ConversionFault} (hkind : K kind)
      (hnone : Element.ofKind? kind = none) (hpolicies : o.policy ≠ o'.policy)
      (h : refuse kind .unknownKind = (.error f : Except ConversionFault (View String))) :
      Stops o o' K f

theorem refuse_eq_error (α : Type) (kind : Value) (cause : ConversionCause) :
    ∃ f, (refuse kind cause : Except ConversionFault α) = .error f := by
  cases h : (refuse kind cause : Except ConversionFault α) with
  | ok a => exact absurd h refuse_ne_ok
  | error f => exact ⟨f, rfl⟩

/-! ## Results that agree -/

/-- Whether a second result is the first, or the first is a fault of some kind. -/
def Agrees {α : Type} (S : ConversionFault → Prop) (r r' : Except ConversionFault α) : Prop :=
  r' = r ∨ ∃ f, r = .error f ∧ S f

namespace Agrees

variable {α β : Type} {S : ConversionFault → Prop}

theorem refl (r : Except ConversionFault α) : Agrees S r r := .inl rfl

theorem bind {r r' : Except ConversionFault α} {g g' : α → Except ConversionFault β}
    (hr : Agrees S r r') (hg : ∀ a, Agrees S (g a) (g' a)) : Agrees S (r >>= g) (r' >>= g') := by
  rcases hr with rfl | ⟨f, rfl, hf⟩
  · cases r' with
    | ok a => exact hg a
    | error f => exact .refl _
  · exact .inr ⟨f, rfl, hf⟩

/-- A first step that is the same in both. -/
theorem step {r : Except ConversionFault α} {g g' : α → Except ConversionFault β}
    (hg : ∀ a, r = .ok a → Agrees S (g a) (g' a)) : Agrees S (r >>= g) (r >>= g') := by
  cases r with
  | ok a => exact hg a rfl
  | error f => exact .refl _

end Agrees

/-! ## Trees -/

mutual

/-- The kinds of all nodes in a tree. -/
def Node.kinds : Node → List Value
  | .mk kind _ _ children => kind :: kindsEach children

def kindsEach : List Node → List Value
  | [] => []
  | n :: rest => n.kinds ++ kindsEach rest

end

section

variable {o o' : ConversionOptions} {K : Value → Prop}

mutual

/-- **A more tolerant conversion ends as the other does, unless that one was stopped by what this one
tolerates.** -/
theorem convert_agrees (ho : o.Within o') : ∀ (n : Node) (depth : Nat), (∀ k ∈ n.kinds, K k) →
    Agrees (Stops o o' K) (convert o depth n) (convert o' depth n)
  | .mk kind args props children, depth, hkinds => by
    obtain ⟨hkind, hchildren⟩ := List.forall_mem_cons.mp hkinds
    have hfirst := convertFirst_agrees ho children depth hchildren
    have heach := convertEach_agrees ho children depth hchildren
    have hheaders := convertHeaders_agrees ho children depth hchildren
    have hrows := convertRows_agrees ho children depth hchildren
    rw [convert, convert]
    by_cases hdepth : o.maxDepth < depth
    · by_cases hlimits : o.maxDepth = o'.maxDepth
      · rw [← hlimits, if_pos hdepth, if_pos hdepth]
        exact .refl _
      · obtain ⟨f, hf⟩ := refuse_eq_error (View String) kind (.invalidType "children"
          ("depth <= " ++ toString o.maxDepth) ("depth " ++ depth.repr))
        rw [if_pos hdepth]
        exact .inr ⟨f, hf, .tooDeep hkind hdepth hlimits hf⟩
    · have hdepth' : ¬ o'.maxDepth < depth := fun h => hdepth (Int.lt_of_le_of_lt ho.depth h)
      rw [if_neg hdepth, if_neg hdepth']
      -- from here on both read the same of this node, and differ in its children at most
      refine .step fun e? he => ?_
      cases e? with
      | none =>
        dsimp only
        cases hp : o.policy with
        | permissive =>
          cases hp' : o'.policy with
          | permissive => exact .refl _
          | strict =>
            have hstrict := ho.policy hp'
            rw [hp] at hstrict
            cases hstrict
        | strict =>
          cases hp' : o'.policy with
          | permissive =>
            obtain ⟨f, hf⟩ := refuse_eq_error (View String) kind .unknownKind
            have hpolicies : o.policy ≠ o'.policy := by
              rw [hp, hp']
              decide
            exact .inr ⟨f, hf, .unknown hkind (elementOf_eq he).symm hpolicies hf⟩
          | strict => exact .refl _
      | some e =>
        cases e with
        | text | button | input | checkbox | radio | select => exact .refl _
        | center => exact .bind hfirst fun _ => .refl _
        | column | row =>
          exact .step fun _ _ => .step fun _ _ => .step fun _ _ => .bind heach fun _ => .refl _
        | container => exact .bind hfirst fun _ => .refl _
        | scrollable => exact .bind hfirst fun _ => .refl _
        | list => exact .bind heach fun _ => .refl _
        | table => exact .bind hheaders fun _ => .bind hrows fun _ => .refl _

theorem convertEach_agrees (ho : o.Within o') : ∀ (ns : List Node) (depth : Nat),
    (∀ k ∈ kindsEach ns, K k) →
      Agrees (Stops o o' K) (convertEach o depth ns) (convertEach o' depth ns)
  | [], depth, _ => .refl _
  | n :: rest, depth, hkinds => by
    obtain ⟨hn, hrest⟩ := List.forall_mem_append.mp hkinds
    exact .bind (convert_agrees ho n _ hn) fun _ =>
      .bind (convertEach_agrees ho rest depth hrest) fun _ => .refl _

theorem convertFirst_agrees (ho : o.Within o') : ∀ (ns : List Node) (depth : Nat),
    (∀ k ∈ kindsEach ns, K k) →
      Agrees (Stops o o' K) (convertFirst o depth ns) (convertFirst o' depth ns)
  | [], _, _ => .refl _
  | n :: _, _, hkinds => convert_agrees ho n _ (List.forall_mem_append.mp hkinds).1

theorem convertHeaders_agrees (ho : o.Within o') : ∀ (ns : List Node) (depth : Nat),
    (∀ k ∈ kindsEach ns, K k) →
      Agrees (Stops o o' K) (convertHeaders o depth ns) (convertHeaders o' depth ns)
  | [], depth, _ => .refl _
  | .mk kind args props children :: rest, depth, hkinds => by
    obtain ⟨hn, hrest⟩ := List.forall_mem_append.mp hkinds
    have hothers := convertHeaders_agrees ho rest depth hrest
    by_cases hkind : kind.same (.str "header")
    · cases children with
      | nil =>
        rw [convertHeaders, convertHeaders, if_pos hkind, if_pos hkind]
        exact .step fun _ _ => .bind hothers fun _ => .refl _
      | cons n others =>
        obtain ⟨-, hchildren⟩ := List.forall_mem_cons.mp hn
        have hfirst := convert_agrees ho n (depth + 2) (List.forall_mem_append.mp hchildren).1
        rw [convertHeaders, convertHeaders, if_pos hkind, if_pos hkind]
        exact .bind hfirst fun _ => .bind hothers fun _ => .refl _
    · rw [convertHeaders, convertHeaders, if_neg hkind, if_neg hkind]
      exact hothers

theorem convertRows_agrees (ho : o.Within o') : ∀ (ns : List Node) (depth : Nat),
    (∀ k ∈ kindsEach ns, K k) →
      Agrees (Stops o o' K) (convertRows o depth ns) (convertRows o' depth ns)
  | [], depth, _ => .refl _
  | .mk kind args props children :: rest, depth, hkinds => by
    obtain ⟨hn, hrest⟩ := List.forall_mem_append.mp hkinds
    obtain ⟨-, hchildren⟩ := List.forall_mem_cons.mp hn
    have hrow := convertEach_agrees ho children (depth + 1) hchildren
    have hothers := convertRows_agrees ho rest depth hrest
    rw [convertRows, convertRows]
    split
    · exact .bind hrow fun _ => .bind hothers fun _ => .refl _
    · exact hothers

end

end

/-- **A deeper limit only matters where the limit was exceeded, and the policy only where a node is of
an unknown kind.** The error about the depth, and that about the kind, are those of a node in the
tree. -/
theorem Node.toView_tolerant (n : Node) :
    (∀ (policy : Policy) (limit limit' : Int), limit ≤ limit' →
      n.toView ⟨policy, limit'⟩ = n.toView ⟨policy, limit⟩ ∨
        ∃ kind ∈ n.kinds, ∃ depth : Nat, limit < depth ∧
          n.toView ⟨policy, limit⟩ = tooDeepFor kind limit depth) ∧
    ∀ limit : Int,
      (∀ v, n.toView ⟨.strict, limit⟩ = .ok v → n.toView ⟨.permissive, limit⟩ = .ok v) ∧
      ∀ f, n.toView ⟨.permissive, limit⟩ = .error f →
        n.toView ⟨.strict, limit⟩ = .error f ∨
          ∃ kind ∈ n.kinds, Element.ofKind? kind = none ∧
            n.toView ⟨.strict, limit⟩ = refuse kind .unknownKind := by
  constructor
  · intro policy limit limit' hle
    have hwithin : ConversionOptions.Within ⟨policy, limit⟩ ⟨policy, limit'⟩ := ⟨hle, id⟩
    rcases convert_agrees hwithin n 1 (fun _ hk => hk) with h | ⟨f, hf, hstop⟩
    · exact .inl h
    · cases hstop with
      | tooDeep hkind hdepth _ h => exact .inr ⟨_, hkind, _, hdepth, hf.trans h.symm⟩
      | unknown _ _ hpolicies _ => exact absurd rfl hpolicies
  · intro limit
    have hwithin : ConversionOptions.Within ⟨.strict, limit⟩ ⟨.permissive, limit⟩ :=
      ⟨Int.le_refl _, nofun⟩
    rcases convert_agrees hwithin n 1 (fun _ hk => hk) with h | ⟨f, hf, hstop⟩
    · exact ⟨fun v hv => h.trans hv, fun f hf => .inl (h.symm.trans hf)⟩
    · refine ⟨fun v hv => absurd (hf.symm.trans hv) nofun, fun f' _ => ?_⟩
      cases hstop with
      | tooDeep _ _ hlimits _ => exact absurd rfl hlimits
      | unknown hkind hnone _ h => exact .inr ⟨_, hkind, hnone, hf.trans h.symm⟩

/-- A tree of three levels, whose lowest node is of an unknown kind. -/
def tower : Node :=
  .named "center" [] [] [.named "col" [] [] [.named "chart" [] [] []]]

/-- For it a limit of three levels is as good as one of 64. -/
theorem tower_tolerated : (3 : Int) ≤ 64 ∧ (tower.toView ⟨.permissive, 3⟩).isOk = true ∧
    tower.toView ⟨.permissive, 64⟩ = tower.toView ⟨.permissive, 3⟩ := by
  have hle : (3 : Int) ≤ 64 := by decide
  have hok : (tower.toView ⟨.permissive, 3⟩).isOk = true := by decide +kernel
  obtain ⟨v, hv⟩ := exists_of_isOk hok
  refine ⟨hle, hok, ?_⟩
  rcases tower.toView_tolerant.1 .permissive 3 64 hle with h | ⟨kind, -, depth, -, h⟩
  · exact h
  · exact absurd (h.symm.trans hv) refuse_ne_ok

end Widgetry
