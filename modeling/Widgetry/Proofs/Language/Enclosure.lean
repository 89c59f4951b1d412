import Widgetry.Proofs.Language.Layout
import Widgetry.Proofs.Language.Leaves
import Widgetry.Proofs.Language.Recurrence

/-!
# What stands in brackets

Tokens are `enclosed` if the first of them opens a round or a square bracket that the last closes,
and `shielded` if each brace among them is opened in round brackets. Both can be seen from the
tokens alone, by counting the brackets that are open.

What a rule of the parser takes is `Matched`: whoever counts brackets may pass over it. In front of
it and behind it, the same brackets are open.
-/

namespace Widgetry

/-- The tokens behind the bracket that closes the one that is open, when so many are open in it. -/
def behindClosing : Nat → List Token → Option (List Token)
  | _, [] => none
  | k, t :: rest =>
    if t.opens then behindClosing (k + 1) rest
    else if t.closes then (if k = 0 then some rest else behindClosing (k - 1) rest)
    else behindClosing k rest

/-- Whether tokens begin with a round or a square bracket that is closed at their end. -/
def enclosed : List Token → Bool
  | [] => false
  | t :: rest => (t.isOp "(" || t.isOp "[") && behindClosing 0 rest == some []

/-- Whether each brace is opened in round brackets, of which so many are open in front. -/
def shielded : Nat → List Token → Bool
  | _, [] => true
  | k, t :: rest =>
    if t.isOp "(" then shielded (k + 1) rest
    else if t.isOp ")" then shielded (k - 1) rest
    else (decide (0 < k) || !t.isOp "\x7b") && shielded k rest

namespace Token

variable {t : Token}

theorem opens_of_isOp {symbol : String} (hsymbol : symbol ∈ brackets.map (·.1))
    (ht : t.isOp symbol = true) : t.opens = true := by
  obtain ⟨hk, rfl⟩ := isOp_iff.mp ht
  rw [opens, hk, List.contains_eq_mem, decide_eq_true hsymbol]
  rfl

theorem closes_of_isOp {symbol : String} (hsymbol : symbol ∈ brackets.map (·.2))
    (ht : t.isOp symbol = true) : t.closes = true := by
  obtain ⟨hk, rfl⟩ := isOp_iff.mp ht
  rw [closes, hk, List.contains_eq_mem, decide_eq_true hsymbol]
  rfl

theorem opens_eq_false_of_closes (ht : t.closes = true) : t.opens = false := by
  rw [closes, Bool.and_eq_true, beq_iff_eq] at ht
  have hdisjoint : ∀ symbol ∈ brackets.map (·.2), symbol ∉ brackets.map (·.1) := by decide
  rw [opens, List.contains_eq_mem, decide_eq_false (hdisjoint _ (List.contains_iff_mem.mp ht.2)),
    Bool.and_false]

theorem Plain.isOp_opening {symbol : String} (ht : t.Plain)
    (hsymbol : symbol ∈ brackets.map (·.1)) : t.isOp symbol = false :=
  Bool.eq_false_iff.mpr fun h => nomatch ht.opens.symm.trans (opens_of_isOp hsymbol h)

theorem Plain.isOp_close {symbol : String} (ht : t.Plain)
    (hsymbol : symbol ∈ brackets.map (·.2)) : t.isOp symbol = false :=
  Bool.eq_false_iff.mpr fun h => nomatch ht.closes.symm.trans (closes_of_isOp hsymbol h)

/-- A token is one operator only. -/
theorem isOp_ne {symbol symbol' : String} (ht : t.isOp symbol = true) (hne : symbol ≠ symbol') :
    t.isOp symbol' = false :=
  Bool.eq_false_iff.mpr fun h => hne ((isOp_iff.mp ht).2.symm.trans (isOp_iff.mp h).2)

end Token

/-! ## Counting brackets -/

section Counting

variable {t u : Token} {k : Nat} {rest ts us : List Token}

theorem behindClosing_opens (ht : t.opens = true) :
    behindClosing k (t :: rest) = behindClosing (k + 1) rest := by
  rw [behindClosing, if_pos ht]

theorem behindClosing_closes (ht : t.closes = true) :
    behindClosing 0 (t :: rest) = some rest ∧
      behindClosing (k + 1) (t :: rest) = behindClosing k rest := by
  have hopen : ¬ t.opens = true := Bool.not_eq_true _ ▸ Token.opens_eq_false_of_closes ht
  rw [behindClosing, behindClosing, if_neg hopen, if_neg hopen, if_pos ht, if_pos ht]
  exact ⟨rfl, rfl⟩

theorem behindClosing_plain (ht : t.Plain) :
    behindClosing k (t :: rest) = behindClosing k rest := by
  rw [behindClosing, ht.opens, ht.closes]
  rfl

theorem shielded_open (ht : t.isOp "(" = true) :
    shielded k (t :: rest) = shielded (k + 1) rest := by
  rw [shielded, if_pos ht]

theorem shielded_close (ht : t.isOp ")" = true) :
    shielded k (t :: rest) = shielded (k - 1) rest := by
  rw [shielded, Token.isOp_ne ht (by decide), ht]
  rfl

theorem shielded_other (hopen : t.isOp "(" = false) (hclose : t.isOp ")" = false) :
    shielded k (t :: rest) = ((decide (0 < k) || !t.isOp "\x7b") && shielded k rest) := by
  rw [shielded, hopen, hclose]
  rfl

theorem shielded_plain (ht : t.Plain) : shielded k (t :: rest) = shielded k rest := by
  have hbrace : t.isOp "\x7b" = false := ht.isOp_opening (by decide)
  rw [shielded_other (ht.isOp_opening (by decide)) (ht.isOp_close (by decide)), hbrace,
    Bool.not_false, Bool.or_true, Bool.true_and]

theorem shielded_square {symbol : String} (ht : t.isOp symbol = true)
    (hsymbol : symbol = "[" ∨ symbol = "]" ∨ symbol = "\x7d") :
    shielded k (t :: rest) = shielded k rest := by
  have hne : symbol ≠ "(" ∧ symbol ≠ ")" ∧ symbol ≠ "\x7b" := by
    obtain rfl | rfl | rfl := hsymbol <;> decide
  rw [shielded_other (Token.isOp_ne ht hne.1) (Token.isOp_ne ht hne.2.1),
    Token.isOp_ne ht hne.2.2, Bool.not_false, Bool.or_true, Bool.true_and]

theorem shielded_brace (ht : t.isOp "\x7b" = true) :
    shielded 0 (t :: rest) = false ∧ shielded (k + 1) (t :: rest) = shielded (k + 1) rest := by
  rw [shielded_other (Token.isOp_ne ht (by decide)) (Token.isOp_ne ht (by decide)),
    shielded_other (Token.isOp_ne ht (by decide)) (Token.isOp_ne ht (by decide)), ht]
  exact ⟨rfl, by rw [decide_eq_true (Nat.succ_pos k)]; rfl⟩

/-- The first of shielded tokens is shielded. -/
theorem shielded_head (h : shielded k (t :: rest) = true) : shielded k [t] = true := by
  cases hopen : t.isOp "(" with
  | true => rw [shielded_open hopen, shielded]
  | false =>
    cases hclose : t.isOp ")" with
    | true => rw [shielded_close hclose, shielded]
    | false =>
      rw [shielded_other hopen hclose, Bool.and_eq_true] at h
      rw [shielded_other hopen hclose, h.1, shielded, Bool.and_true]

theorem behindClosing_append (h : behindClosing k ts = some us) :
    behindClosing k (ts ++ rest) = some (us ++ rest) := by
  induction ts generalizing k with
  | nil => cases h
  | cons t ts ih =>
    revert h
    rw [List.cons_append, behindClosing, behindClosing]
    split
    · exact ih
    · split
      · split
        · rintro ⟨⟩
          rfl
        · exact ih
      · exact ih

/-- Brackets are counted by what tokens say. -/
theorem shielded_congr (h : ts.map Token.lexeme = us.map Token.lexeme) :
    shielded k ts = shielded k us := by
  induction ts generalizing k us with
  | nil =>
    rw [List.map_eq_nil_iff.mp h.symm]
  | cons t ts ih =>
    obtain ⟨u, us, rfl, hhead, htail⟩ := List.map_eq_cons_iff.mp h.symm
    have hop : ∀ symbol, t.isOp symbol = u.isOp symbol := fun symbol =>
      Token.of_lexeme (P := fun t u => t.isOp symbol = u.isOp symbol) hhead.symm
        fun _ _ _ _ => rfl
    rw [shielded, shielded, hop, hop, hop, ih htail.symm, ih htail.symm, ih htail.symm]

theorem behindClosing_congr (h : ts.map Token.lexeme = us.map Token.lexeme) :
    (behindClosing k ts).map (List.map Token.lexeme) =
      (behindClosing k us).map (List.map Token.lexeme) := by
  induction ts generalizing k us with
  | nil =>
    rw [List.map_eq_nil_iff.mp h.symm]
  | cons t ts ih =>
    obtain ⟨u, us, rfl, hhead, htail⟩ := List.map_eq_cons_iff.mp h.symm
    have hopen : t.opens = u.opens := Token.of_lexeme (P := fun t u => t.opens = u.opens)
      hhead.symm fun _ _ _ _ => rfl
    have hclose : t.closes = u.closes := Token.of_lexeme (P := fun t u => t.closes = u.closes)
      hhead.symm fun _ _ _ _ => rfl
    rw [behindClosing, behindClosing, ← hopen, ← hclose]
    split
    · exact ih htail.symm
    · split
      · split
        · exact congrArg some htail.symm
        · exact ih htail.symm
      · exact ih htail.symm

theorem enclosed_congr (h : ts.map Token.lexeme = us.map Token.lexeme)
    (hts : enclosed ts = true) : enclosed us = true := by
  match ts, us, h with
  | t :: ts, u :: us, h =>
    obtain ⟨hhead, htail⟩ := List.cons.inj h
    rw [enclosed, Bool.and_eq_true, beq_iff_eq] at hts ⊢
    refine ⟨?_, ?_⟩
    · exact Token.of_lexeme (P := fun t u => (t.isOp "(" || t.isOp "[") = true →
        (u.isOp "(" || u.isOp "[") = true) hhead (fun _ _ _ _ => id) hts.1
    · have hmap := behindClosing_congr (k := 0) htail
      rw [hts.2] at hmap
      obtain ⟨rest, hrest, hnil⟩ := Option.map_eq_some_iff.mp hmap.symm
      rw [hrest, List.map_eq_nil_iff.mp hnil]

end Counting

/-! ## Matched tokens -/

/-- Whether brackets are counted past tokens as if they were not there; a brace among them is only
seen outside of round brackets. -/
structure Matched (own : List Token) : Prop where
  behind (k : Nat) (rest : List Token) : behindClosing k (own ++ rest) = behindClosing k rest
  inside (k : Nat) (rest : List Token) : shielded (k + 1) (own ++ rest) = shielded (k + 1) rest
  outside (rest : List Token) : shielded 0 (own ++ rest) = (shielded 0 own && shielded 0 rest)

namespace Matched

variable {t u : Token} {own own' : List Token}

theorem nil : Matched [] := ⟨fun _ _ => rfl, fun _ _ => rfl, fun _ => rfl⟩

theorem append (h : Matched own) (h' : Matched own') : Matched (own ++ own') where
  behind k rest := by rw [List.append_assoc, h.behind, h'.behind]
  inside k rest := by rw [List.append_assoc, h.inside, h'.inside]
  outside rest := by
    rw [List.append_assoc, h.outside, h'.outside, h.outside, Bool.and_assoc]

theorem plain (ht : t.Plain) : Matched [t] where
  behind _ _ := behindClosing_plain ht
  inside _ _ := shielded_plain ht
  outside rest := by
    rw [List.singleton_append, shielded_plain ht, shielded_plain ht, shielded, Bool.true_and]

theorem behind_group {opening close : String} (hpair : (opening, close) ∈ brackets)
    (ht : t.isOp opening = true) (hu : u.isOp close = true) (h : Matched own) (k : Nat)
    (rest : List Token) : behindClosing k (t :: own ++ [u] ++ rest) = behindClosing k rest := by
  have hopens : t.opens = true := Token.opens_of_isOp (List.mem_map_of_mem (f := (·.1)) hpair) ht
  have hcloses : u.closes = true := Token.closes_of_isOp (List.mem_map_of_mem (f := (·.2)) hpair) hu
  rw [List.append_assoc, List.cons_append, behindClosing_opens hopens, h.behind]
  exact (behindClosing_closes hcloses).2

/-- Round brackets shield what stands in them. -/
theorem shielded_round (ht : t.isOp "(" = true) (hu : u.isOp ")" = true) (h : Matched own)
    (k : Nat) (rest : List Token) : shielded k (t :: own ++ [u] ++ rest) = shielded k rest := by
  rw [List.append_assoc, List.cons_append, shielded_open ht, h.inside]
  exact shielded_close hu

theorem round (ht : t.isOp "(" = true) (hu : u.isOp ")" = true) (h : Matched own) :
    Matched (t :: own ++ [u]) where
  behind := behind_group (by decide) ht hu h
  inside k := shielded_round ht hu h (k + 1)
  outside rest := by
    have hnone := shielded_round ht hu h 0 []
    rw [List.append_nil] at hnone
    rw [shielded_round ht hu h, hnone]
    rfl

/-- Square brackets are not seen. -/
theorem shielded_squared (ht : t.isOp "[" = true) (hu : u.isOp "]" = true) (h : Matched own)
    (k : Nat) (rest : List Token) :
    shielded k (t :: own ++ [u] ++ rest) = shielded k (own ++ rest) := by
  have hclose : ∀ k, shielded k (u :: rest) = shielded k rest := fun k =>
    shielded_square hu (.inr (.inl rfl))
  rw [List.append_assoc, List.cons_append, shielded_square ht (.inl rfl), List.singleton_append]
  cases k with
  | zero => rw [h.outside, h.outside, hclose]
  | succ k => rw [h.inside, h.inside, hclose]

theorem squared (ht : t.isOp "[" = true) (hu : u.isOp "]" = true) (h : Matched own) :
    Matched (t :: own ++ [u]) where
  behind := behind_group (by decide) ht hu h
  inside k rest := by rw [shielded_squared ht hu h, h.inside]
  outside rest := by
    have hnone := shielded_squared ht hu h 0 []
    rw [List.append_nil, List.append_nil] at hnone
    rw [shielded_squared ht hu h, h.outside, hnone]

/-- A brace is seen itself. -/
theorem braced (ht : t.isOp "\x7b" = true) (hu : u.isOp "\x7d" = true) (h : Matched own) :
    Matched (t :: own ++ [u]) where
  behind := behind_group (by decide) ht hu h
  inside k rest := by
    rw [List.append_assoc, List.cons_append, (shielded_brace (k := k) ht).2, h.inside]
    exact shielded_square hu (.inr (.inr rfl))
  outside rest := by
    rw [List.cons_append, List.cons_append, (shielded_brace (k := 0) ht).1,
      (shielded_brace (k := 0) ht).1, Bool.false_and]

theorem group {opening close : String} (hpair : (opening, close) ∈ brackets)
    (ht : t.isOp opening = true) (hu : u.isOp close = true) (h : Matched own) :
    Matched (t :: own ++ [u]) := by
  have hcases : (opening, close) = ("(", ")") ∨ (opening, close) = ("[", "]") ∨
      (opening, close) = ("\x7b", "\x7d") := by simpa [brackets] using hpair
  obtain ⟨⟨⟩⟩ | ⟨⟨⟩⟩ | ⟨⟨⟩⟩ := hcases
  · exact round ht hu h
  · exact squared ht hu h
  · exact braced ht hu h

end Matched

/-- What a tree is parsed from is matched. -/
theorem conserves_matched : Conserves fun own _ => Matched own where
  nil := .nil
  append := .append
  silent _ ht _ := .plain ht
  leaf ht := .plain (.of_kind fun hk => by
    rw [Token.leaf?, hk] at ht
    cases ht)
  type ht := .plain (.of_kind (ht ▸ nofun))
  wildcard ht := .plain (.of_kind (by
    rw [Bool.or_eq_true, Bool.and_eq_true, beq_iff_eq] at ht
    exact ht.elim (fun h => (Token.isKeyword_iff.mp h).1 ▸ nofun) fun h => h.1 ▸ nofun))
  group := .group

end Widgetry
