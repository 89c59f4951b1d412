import Widgetry.Proofs.Generation.Expressions
import Widgetry.Proofs.Generation.Lexical
import Widgetry.Proofs.Language.Words

/-!
# Remarks in generated statements

A node expression is written as an empty view with a remark, wherever it stands. The remark reaches
to the end of the line, and so it swallows what else the line has.

> `source_moves`: the source of an expression can be read up to its end if no node expression is in
> it (`nodeFree`), and up to the end of its line if at most its last part is one (`nodeLast`);
> otherwise it cannot be read;
> `blockLines_blocks`: the same of the lines of statements (`Stmt.nodesLast`).

Literals, names and operators have no such effect, and brackets are closed by those that opened
them.
-/

namespace Widgetry

namespace Lexical

/-! ## Texts -/

/-- A character that stands for itself in a text. -/
def isTextPlain (c : Char) : Bool := !(['"', '\\', '\n', '\r'].contains c)

theorem scan_textPlain {cs : List Char} (h : ∀ c ∈ cs, isTextPlain c = true) (due k : List Char) :
    scan isRemark (.text '"') due (cs ++ k) = scan isRemark (.text '"') due k := by
  induction cs with
  | nil => rfl
  | cons c cs ih =>
    have hne : ∀ d ∈ ['"', '\\', '\n', '\r'], c ≠ d := by
      rintro d hd rfl
      have hc := h c List.mem_cons_self
      rw [isTextPlain, List.contains_iff_mem.mpr hd] at hc
      cases hc
    have hbreak : isBreak c = false := by
      rw [isBreak, beq_eq_false_iff_ne.mpr (hne '\n' (by decide)),
        beq_eq_false_iff_ne.mpr (hne '\r' (by decide))]
      rfl
    have hstep : step isRemark (.text '"') due c = some (.text '"', due) := by
      rw [step, textStep, if_neg (hne '\\' (by decide)), if_neg (hne '"' (by decide)),
        if_neg (by rw [hbreak]; decide)]
    rw [List.cons_append, scan, hstep]
    exact ih fun d hd => h d (List.mem_cons_of_mem _ hd)

/-- A character of a text is passed over as it is written. -/
theorem scan_escaped (c : Char) (due k : List Char) :
    scan isRemark (.text '"') due (Json.escapeChar c ++ k) = scan isRemark (.text '"') due k := by
  unfold Json.escapeChar
  split
  · rfl
  · next hnone =>
    split
    · next hlow =>
      -- written with its number: one of the 32 control characters, and each of them is tried
      have hall : ∀ n < 32, (Text.hexDigits 4 n).all isTextPlain = true := by decide
      exact scan_textPlain (List.all_eq_true.mp (hall c.toNat hlow)) due k
    · refine scan_textPlain (fun d hd => ?_) due k
      cases List.mem_singleton.mp hd
      rw [isTextPlain, Bool.not_eq_true', ← Bool.not_eq_true, List.contains_iff_mem]
      intro hmem
      have hall : ['"', '\\', '\n', '\r'].all (Json.shortEscape? · != none) = true := by decide
      exact bne_iff_ne.mp (List.all_eq_true.mp hall c hmem) hnone

theorem scan_escapedAll (cs due k : List Char) :
    scan isRemark (.text '"') due (cs.flatMap Json.escapeChar ++ k)
      = scan isRemark (.text '"') due k := by
  induction cs with
  | nil => rfl
  | cons c cs ih =>
    rw [List.flatMap_cons, List.append_assoc, scan_escaped, ih]

theorem escapeChar_head (c : Char) :
    ∃ d rest, Json.escapeChar c = d :: rest ∧ d ≠ '"' := by
  unfold Json.escapeChar
  split
  · exact ⟨_, _, rfl, by decide⟩
  · next hnone =>
    split
    · exact ⟨_, _, rfl, by decide⟩
    · refine ⟨c, [], rfl, ?_⟩
      rintro rfl
      cases hnone

/-- Two quotes and no third one are an empty text. -/
theorem scan_doubled {k : List Char} (hk : Unquoted k) (due : List Char) :
    scan isRemark (.doubled '"') due k = read due k := by
  cases k with
  | nil => rfl
  | cons c k =>
    have hc : c ≠ '"' := fun he => hk (congrArg some he)
    have hstep : step isRemark (.doubled '"') due c = step isRemark .code due c := if_neg hc
    rw [scan, read, scan, hstep]

/-- A text is passed over. -/
theorem moves_quoted {ds : List Char} (s : String) : Moves Unquoted true ds ds (Json.quoted s) := by
  intro due k hk
  rw [Json.quoted, String.toList_ofList, Bool.true_and]
  have hquote : ∀ cs, read (ds ++ due) ('"' :: cs) = scan isRemark (.opened '"') (ds ++ due) cs :=
    fun _ => rfl
  rw [List.cons_append, List.cons_append, hquote, List.append_assoc]
  cases hs : s.toList with
  | nil => exact scan_doubled hk (ds ++ due)
  | cons c cs =>
    obtain ⟨d, rest, he, hd⟩ := escapeChar_head c
    have hopened : ∀ k, scan isRemark (.opened '"') (ds ++ due) (Json.escapeChar c ++ k)
        = scan isRemark (.text '"') (ds ++ due) (Json.escapeChar c ++ k) := by
      intro k
      rw [he, List.cons_append, scan, scan, step, if_neg hd, step]
    rw [List.flatMap_cons, List.append_assoc, hopened, scan_escaped, scan_escapedAll]
    rfl

/-! ## Numbers -/

theorem nameChar_of_isDigit {c : Char} (h : c.isDigit = true) : nameChar c = true := by
  have hlow : c.toNat < 128 := by
    simp only [Char.isDigit, Bool.and_eq_true, decide_eq_true_eq] at h
    have hle := UInt32.le_iff_toNat_le.mp h.2
    show c.val.toNat < 128
    exact Nat.lt_of_le_of_lt hle (by decide)
  rw [nameChar, Text.continuesIdentifier, if_pos hlow, h, Bool.or_true, Bool.or_true]

theorem not_break_of_nameChar {c : Char} (h : nameChar c = true) : isBreak c = false := by
  rw [← Bool.not_eq_true, isBreak, Bool.or_eq_true, beq_iff_eq, beq_iff_eq]
  rintro (rfl | rfl)
  · exact absurd h (by decide +kernel)
  · exact absurd h (by decide +kernel)

/-- Whether a character may stand in the text of a number. -/
def isNumeral (c : Char) : Bool := nameChar c || ['.', '+', '-'].contains c

/-- It opens and closes nothing, and ends no line. -/
theorem plain_of_isNumeral {c : Char} (h : isNumeral c = true) :
    isPlain c = true ∧ isBreak c = false := by
  rcases Bool.or_eq_true_iff.mp h with hname | hsign
  · exact ⟨plain_of_nameChar hname, not_break_of_nameChar hname⟩
  · have hall : ['.', '+', '-'].all (fun c => isPlain c && !isBreak c) = true := by decide
    have hc := List.all_eq_true.mp hall c (List.contains_iff_mem.mp hsign)
    rwa [Bool.and_eq_true, Bool.not_eq_true'] at hc

theorem isNumeral_of_digits {cs : List Char} (h : Formula.Digits cs) :
    ∀ c ∈ cs, isNumeral c = true :=
  fun c hc => Bool.or_eq_true_iff.mpr (.inl (nameChar_of_isDigit (h c hc)))

theorem isNumeral_fraction {cs : List Char} (h : Formula.IsFraction cs) :
    ∀ c ∈ cs, isNumeral c = true := by
  obtain ⟨-, hwhole, hpointed, hpower, -⟩ := h
  refine List.forall_mem_append.mpr ⟨isNumeral_of_digits hwhole,
    List.forall_mem_append.mpr ⟨?_, ?_⟩⟩
  · rcases hpointed with rfl | ⟨ds, hds, rfl⟩
    · exact nofun
    · exact List.forall_mem_cons.mpr ⟨by decide, isNumeral_of_digits hds⟩
  · rcases hpower with rfl | ⟨s, ds, hs, -, hds, rfl⟩
    · exact nofun
    · have hsign : isNumeral s = true := by
        rcases hs with rfl | rfl
        · decide
        · decide
      exact List.forall_mem_cons.mpr ⟨by decide +kernel,
        List.forall_mem_cons.mpr ⟨hsign, isNumeral_of_digits hds⟩⟩

/-- The text of a number has digits, points and signs, or it is a name. -/
theorem isNumeral_render (x : Float) : ∀ c ∈ (numberLayout.render x).toList,
    isNumeral c = true := by
  rw [Decimal.Layout.render]
  cases hx : Binary64.Exact.ofFloat? x with
  | none =>
    dsimp only
    have hall : ["nan", "-inf", "inf"].all (fun s => s.toList.all isNumeral) = true := by
      decide +kernel
    have hmem : ∀ s ∈ ["nan", "-inf", "inf"], ∀ c ∈ s.toList, isNumeral c = true :=
      fun s hs => List.all_eq_true.mp (List.all_eq_true.mp hall s hs)
    split
    · exact hmem _ (by decide)
    · split
      · exact hmem _ (by decide)
      · exact hmem _ (by decide)
  | some e =>
    dsimp only
    rw [String.toList_ofList]
    have htext : ∀ c ∈ (if e.mantissa = 0 then "0.0".toList
        else numberLayout.magnitude (Decimal.shortest e)), isNumeral c = true := by
      split
      · have hzero : ("0.0".toList).all isNumeral = true := by decide +kernel
        exact List.all_eq_true.mp hzero
      · exact isNumeral_fraction (Formula.isFraction_magnitude _)
    split
    · exact List.forall_mem_cons.mpr ⟨by decide, htext⟩
    · exact htext

theorem isNumeral_whole (n : Int) : ∀ c ∈ (toString n).toList, isNumeral c = true := by
  cases n with
  | ofNat n => exact isNumeral_of_digits (Formula.digits_repr n)
  | negSucc n =>
    show ∀ c ∈ ("-" ++ Nat.repr (n + 1)).toList, isNumeral c = true
    have hsign : ("-".toList).all isNumeral = true := by decide +kernel
    rw [String.toList_append]
    exact List.forall_mem_append.mpr
      ⟨List.all_eq_true.mp hsign, isNumeral_of_digits (Formula.digits_repr _)⟩

theorem isNumeral_wholeText {n : Int} {t : String} (h : wholeText n = .ok t) :
    ∀ c ∈ t.toList, isNumeral c = true := by
  unfold wholeText at h
  split at h
  · next s hs =>
    cases h
    unfold Decimal.ofInt? at hs
    dsimp only at hs
    split at hs
    · cases hs
      have hdigits := isNumeral_of_digits (Formula.digits_repr n.natAbs)
      have hsign : ("-".toList).all isNumeral = true := by decide +kernel
      split
      · rw [String.toList_append]
        exact List.forall_mem_append.mpr ⟨List.all_eq_true.mp hsign, hdigits⟩
      · exact hdigits
    · cases hs
  · cases h

/-- The text of a number does nothing. -/
theorem moves_number {P : List Char → Prop} {ds : List Char} {s : String}
    (h : ∀ c ∈ s.toList, isNumeral c = true) : Moves P true ds ds s :=
  moves_plain fun c hc => (plain_of_isNumeral (h c hc)).1

/-! ## Literals -/

section

variable {ds : List Char} {b b' : Bool}

theorem moves_scalar (s : Scalar) : Moves Unquoted true ds ds s.source := by
  cases s with
  | nil => exact moves_fixed rfl
  | bool b =>
    cases b with
    | false => exact moves_fixed rfl
    | true => exact moves_fixed rfl
  | int n => exact moves_number (isNumeral_whole n)
  | float x => exact moves_number (isNumeral_render x)
  | str s => exact moves_quoted s

theorem moves_scalarLiteral {s : Scalar} {t : String} (h : s.literal = .ok t) :
    Moves Unquoted true ds ds t := by
  cases s with
  | int n =>
    rw [Scalar.literal] at h
    cases hn : wholeText n with
    | error f =>
      rw [hn] at h
      cases h
    | ok t =>
      rw [hn] at h
      cases h
      exact moves_number (isNumeral_wholeText hn)
  | _ =>
    cases h
    exact moves_scalar _

/-- A piece in front of others, all set off by commas. -/
theorem moves_comma {s t : String} {rest : List String} (hs : Moves Interrupted b [] [] s)
    (hrest : Moves Interrupted b' [] [] (commaSeparated (t :: rest))) :
    Moves Interrupted (b && b') [] [] (commaSeparated (s :: t :: rest)) := by
  have hlist : commaSeparated (s :: t :: rest) = s ++ (", " ++ commaSeparated (t :: rest)) := by
    apply String.toList_injective
    rw [Expr.commaSeparated_cons, String.toList_append, String.toList_append]
    rfl
  rw [hlist]
  exact hs.then ((interrupts_of rfl (by decide)).append _) ((moves_fixed rfl).after hrest)

/-- Pieces between brackets. -/
theorem moves_enclosed {P : List Char → Prop} {before s behind : String}
    (hbefore : Moves Any true [] ds before) (hs : Moves Interrupted b [] [] s)
    (hstart : Interrupts behind) (hbehind : Moves P true ds [] behind) :
    Moves P b [] [] (before ++ s ++ behind) :=
  (hbefore.after hs.frame).closed hstart hbehind

mutual

/-- The literal of a value is passed over. -/
theorem moves_literal : ∀ (v : Value) {t : String}, v.literal = .ok t →
    Moves Unquoted true [] [] t
  | .scalar s, t, h => moves_scalarLiteral h
  | .list items, t, h => by
    rw [Value.literal, bind_eq_ok] at h
    obtain ⟨parts, hparts, h⟩ := h
    cases h
    exact moves_enclosed (moves_fixed rfl) (moves_literalItems items hparts)
      (interrupts_of rfl (by decide)) (moves_fixed rfl)
  | .object entries, t, h => by
    rw [Value.literal, bind_eq_ok] at h
    obtain ⟨parts, hparts, h⟩ := h
    cases h
    exact moves_enclosed (moves_fixed rfl) (moves_literalEntries entries hparts)
      (interrupts_of rfl (by decide)) (moves_fixed rfl)
  | .node _, t, h => by cases h
  | .live _, t, h => by cases h

theorem moves_literalItems : ∀ (vs : List Value) {ts : List String}, literalItems vs = .ok ts →
    Moves Interrupted true [] [] (commaSeparated ts)
  | [], ts, h => by
    cases h
    exact .empty
  | v :: rest, ts, h => by
    rw [literalItems, bind_eq_ok] at h
    obtain ⟨part, hpart, h⟩ := h
    obtain ⟨parts, hparts, h⟩ := bind_eq_ok.mp h
    cases h
    have hv := (moves_literal v hpart).within
    have hrest := moves_literalItems rest hparts
    cases parts with
    | nil => exact hv
    | cons part' parts => exact moves_comma hv hrest

theorem moves_literalEntries : ∀ (es : List (Key × Value)) {ts : List String},
    literalEntries es = .ok ts → Moves Interrupted true [] [] (commaSeparated ts)
  | [], ts, h => by
    cases h
    exact .empty
  | (k, v) :: rest, ts, h => by
    rw [literalEntries, bind_eq_ok] at h
    obtain ⟨key, hkey, h⟩ := h
    obtain ⟨part, hpart, h⟩ := bind_eq_ok.mp h
    obtain ⟨parts, hparts, h⟩ := bind_eq_ok.mp h
    cases h
    have hv := (moves_literal v hpart).within
    have hk : Moves Interrupted true [] [] key :=
      (moves_scalarLiteral hkey).within
    have hcolon : Moves Any true [] [] (key ++ ": ") :=
      hk.closed (interrupts_of rfl (by decide)) (moves_fixed rfl)
    have hrest := moves_literalEntries rest hparts
    cases parts with
    | nil => exact hcolon.after hv
    | cons part' parts => exact moves_comma (hcolon.after hv) hrest

end

end

/-! ## Remarks -/

theorem remarks_lines {r : String × (Char → Bool)} (hr : r ∈ remarks) :
    ∀ c ∈ r.1.toList, isBreak c = false := by
  have hall : remarks.all (fun r => r.1.toList.all (!isBreak ·)) = true := by decide +kernel
  intro c hc
  have hchar := List.all_eq_true.mp (List.all_eq_true.mp hall r hr) c hc
  rwa [Bool.not_eq_true'] at hchar

/-- A remark at the end of its line does nothing. -/
theorem moves_remarkText {r : String × (Char → Bool)} (hr : r ∈ remarks) {s : String}
    (hs : ∀ c ∈ s.toList, r.2 c = true) (hbreak : ∀ c ∈ s.toList, isBreak c = false) :
    Moves LineEnd true [] [] ("#" ++ (r.1 ++ s)) := by
  intro due k hk
  have hall : ∀ c ∈ r.1.toList ++ s.toList, isBreak c = false := by
    intro c hc
    rcases List.mem_append.mp hc with hc | hc
    · exact remarks_lines hr c hc
    · exact hbreak c hc
  rw [String.toList_append, String.toList_append, Bool.true_and]
  exact moves_remark hall (isRemark_of hr hs) due hk

theorem moves_nameRemark {mark name : String} (hmark : (mark, nameChar) ∈ remarks)
    (h : Named name) : Moves LineEnd true [] [] ("#" ++ (mark ++ name)) :=
  moves_remarkText hmark h fun c hc => not_break_of_nameChar (h c hc)

/-- A remark about a nested node is none any more with a sign behind it. -/
theorem spoilt_nested (name : List Char) {c : Char} (hc : nameChar c = false) :
    Spoilt (" nested node: ".toList ++ (name ++ [c])) := by
  intro more
  have hfirst : ∀ cs : List Char, isRemark (" nested node: ".toList ++ cs) = cs.all nameChar := by
    intro cs
    have hothers : (remarks.drop 1).any (fun r => r.1.toList.isPrefixOf
        (" nested node: ".toList ++ cs) && ((" nested node: ".toList ++ cs).drop
          r.1.toList.length).all r.2) = false := rfl
    have hself : (" nested node: ".toList.isPrefixOf (" nested node: ".toList ++ cs)
        && ((" nested node: ".toList ++ cs).drop " nested node: ".toList.length).all nameChar)
        = cs.all nameChar := rfl
    show (_ || (remarks.drop 1).any _) = _
    rw [hothers, Bool.or_false]
    exact hself
  rw [List.append_assoc, hfirst, ← Bool.not_eq_true, List.all_eq_true]
  intro hall
  have hname := hall c (by simp)
  rw [hc] at hname
  cases hname

/-- **The remark about a nested node swallows what else its line has.** -/
theorem moves_node {kind : String} (h : Named kind) :
    Moves Interrupted false [] [] ("View.empty()  # nested node: " ++ kind) ∧
      Moves LineEnd true [] [] ("View.empty()  # nested node: " ++ kind) := by
  have hsplit : "View.empty()  # nested node: " ++ kind
      = "View.empty()  " ++ ("#" ++ (" nested node: " ++ kind)) := by
    apply String.toList_injective
    simp only [String.toList_append]
    rfl
  rw [hsplit]
  have hview : Moves Any true [] [] "View.empty()  " := moves_fixed rfl
  refine ⟨hview.after ?_, hview.after (moves_nameRemark (by simp [remarks]) h)⟩
  rintro due k ⟨c, rest, rfl, -, hname, hbreak⟩
  have hlines : ∀ d ∈ " nested node: ".toList ++ (kind.toList ++ [c]), isBreak d = false := by
    intro d hd
    rcases List.mem_append.mp hd with hd | hd
    · exact remarks_lines (r := (" nested node: ", nameChar)) (by simp [remarks]) d hd
    · rcases List.mem_append.mp hd with hd | hd
      · exact not_break_of_nameChar (h d hd)
      · cases List.mem_singleton.mp hd
        exact hbreak
  have hread := moves_spoilt hlines (spoilt_nested kind.toList hname) ([] ++ due) rest
  rw [Bool.false_and, ← hread]
  simp [String.toList_append]

end Lexical

/-! ## Expressions -/

namespace Expr

open Lexical

mutual

/-- Whether no node expression is written into the source of an expression. -/
def nodeFree : Expr → Bool
  | literal .. | ident .. => true
  | array items _ => allNodeFree items
  | unary _ operand _ => operand.nodeFree
  | binary _ left right _ => left.nodeFree && right.nodeFree
  | member obj _ _ => obj.nodeFree
  | call callee args _ => callee.nodeFree && allNodeFree args
  | node .. => false

def allNodeFree : List Expr → Bool
  | [] => true
  | e :: rest => e.nodeFree && allNodeFree rest

end

/-- Whether the source of an expression has nothing behind a node expression. -/
def nodeLast : Expr → Bool
  | unary _ operand _ => if operand.isBinary then operand.nodeFree else operand.nodeLast
  | binary op left right _ =>
    left.nodeFree &&
      if joinsRight op left right || right.isBinary then right.nodeFree else right.nodeLast
  | node .. => true
  | e => e.nodeFree

variable {g : Naming} {locals : List String}

theorem named_of_word {s : String} (h : IsWord s) : Named s := by
  intro c hc
  rw [nameChar, h.continues c hc, Bool.true_or]

theorem moves_nameSource {P : List Char → Prop} {ds : List Char} {x : String} (h : IsWord x) :
    Moves P true ds ds (nameSource g locals x) := by
  have hx : Moves P true ds ds x := (named_of_word h).moves
  unfold nameSource
  split
  · exact hx
  · split
    · exact (moves_fixed rfl).after hx
    · exact hx

/-- Reading the source of an expression, in the middle of a line and at its end. -/
structure Reads (e : Expr) (s : String) : Prop where
  within : Moves Interrupted e.nodeFree [] [] s
  last : Moves LineEnd e.nodeLast [] [] s

/-- The two are the same where the source ends with a name or a bracket. -/
theorem Reads.closed {e : Expr} {s : String} (hlast : e.nodeLast = e.nodeFree)
    (h : Moves Unquoted e.nodeFree [] [] s) : Reads e s where
  within := h.within
  last := hlast ▸ h.last

/-- In parentheses. -/
theorem moves_grouped {P : List Char → Prop} {b : Bool} {before s : String}
    (hbefore : pushes [] before.toList = some [')']) (h : Moves Interrupted b [] [] s) :
    Moves P b [] [] (before ++ s ++ ")") :=
  moves_enclosed (moves_fixed hbefore) h (interrupts_of rfl (by decide)) (moves_fixed rfl)

/-- An operand, which is in parentheses if it is an operation itself. -/
theorem Reads.operand {e : Expr} {s : String} (h : Reads e s) :
    Moves Interrupted e.nodeFree [] [] (e.asOperand s) ∧
      Moves LineEnd (if e.isBinary then e.nodeFree else e.nodeLast) [] [] (e.asOperand s) := by
  unfold asOperand
  cases he : e.isBinary with
  | true => exact ⟨moves_grouped rfl h.within, moves_grouped rfl h.within⟩
  | false => exact ⟨h.within, h.last⟩

/-- The left operand stands in the middle of the line in any case. -/
theorem Reads.left {e : Expr} {s : String} {j : Bool} (h : Reads e s) :
    Moves Interrupted e.nodeFree [] [] (if j then "str(" ++ s ++ ")" else e.asOperand s) := by
  cases j with
  | true => exact moves_grouped rfl h.within
  | false => exact h.operand.1

theorem Reads.right {e : Expr} {s : String} {j : Bool} (h : Reads e s) :
    Moves Interrupted e.nodeFree [] [] (if j then "str(" ++ s ++ ")" else e.asOperand s) ∧
      Moves LineEnd (if j || e.isBinary then e.nodeFree else e.nodeLast) [] []
        (if j then "str(" ++ s ++ ")" else e.asOperand s) := by
  cases j with
  | true => exact ⟨moves_grouped rfl h.within, moves_grouped rfl h.within⟩
  | false => exact h.operand

mutual

/-- **The source of an expression is read up to its end if no node expression is in it, and up to
the end of its line if there is nothing behind one.** -/
theorem source_moves (locals : List String) (hg : Named g.messages) :
    ∀ e : Expr, e.Worded → Reads e (e.source g locals)
  | literal s _, _ => .closed rfl (moves_scalar s)
  | ident x _, h => by
    cases h with
    | ident hx => exact .closed rfl (moves_nameSource hx)
  | array items _, h => by
    cases h with
    | array hitems =>
      exact .closed rfl (moves_enclosed (moves_fixed rfl)
        (sources_moves locals hg items hitems) (interrupts_of rfl (by decide)) (moves_fixed rfl))
  | unary op operand _, h => by
    cases h with
    | unary ho =>
      have hop : Moves Any true [] [] op.source := by
        cases op with
        | bang => exact moves_fixed rfl
        | minus => exact moves_fixed rfl
      have hoperand := (source_moves locals hg operand ho).operand
      exact ⟨hop.after hoperand.1, hop.after hoperand.2⟩
  | binary op left right _, h => by
    cases h with
    | binary hl hr =>
      have hleft := (source_moves locals hg left hl).left (j := joinsLeft op left right)
      have hright := (source_moves locals hg right hr).right (j := joinsRight op left right)
      have hop : Moves Any true [] [] op.source := by cases op <;> exact moves_fixed rfl
      have hblank : Moves Any true [] [] " " := moves_fixed rfl
      have hfront :=
        ((hleft.closed (interrupts_of rfl (by decide)) hblank).before hop).before hblank
      exact ⟨hfront.both hright.1, hfront.both hright.2⟩
  | member obj x line, h => by
    cases h with
    | member hobj hx =>
      have hpoint : Moves Any true [] [] "." := moves_fixed rfl
      rcases source_member_cases g locals obj x line with he | ⟨⟨l, rfl⟩, he⟩
      · rw [he]
        have hfront : Moves Any obj.nodeFree [] [] (obj.source g locals ++ ".") :=
          (source_moves locals hg obj hobj).within.closed (interrupts_of rfl (by decide)) hpoint
        have hall : Moves Unquoted obj.nodeFree [] [] (obj.source g locals ++ "." ++ x) :=
          hfront.before (named_of_word hx).moves
        exact .closed rfl hall
      · rw [he]
        have hfront : Moves Any true [] [] (g.messages ++ ".") := hg.moves.after hpoint
        have hall : Moves Unquoted true [] [] (g.messages ++ "." ++ x) :=
          hfront.after (named_of_word hx).moves
        exact .closed rfl hall
  | call callee args line, h => by
    cases h with
    | call hcallee hargs =>
      have harguments : Moves Unquoted (allNodeFree args) [] []
          ("(" ++ commaSeparated (sources g locals args) ++ ")") :=
        moves_grouped rfl (sources_moves locals hg args hargs)
      rcases ident_or_not callee with ⟨x, l, rfl⟩ | hne
      · cases hcallee with
        | ident hx =>
          have howner : Moves Any true [] [] (if g.isMethod locals x then "self." else "") := by
            split
            · exact moves_fixed rfl
            · exact .empty
          have hcall := (howner.after (named_of_word hx).moves).after harguments
          rw [source_call_ident]
          refine .closed rfl ?_
          simpa only [nodeFree, Bool.true_and, String.append_assoc] using hcall
      · have hopening : Interrupts "(" := interrupts_of rfl (by decide)
        have hstart := (hopening.append (commaSeparated (sources g locals args))).append ")"
        have hcall := (source_moves locals hg callee hcallee).within.then hstart harguments
        rw [source_call hne]
        refine .closed rfl ?_
        simpa only [nodeFree, String.append_assoc] using hcall
  | node kind _ _ _ _, h => by
    cases h with
    | node hkind =>
      obtain ⟨hwithin, hlast⟩ := moves_node (named_of_word hkind)
      exact ⟨hwithin, hlast⟩

theorem sources_moves (locals : List String) (hg : Named g.messages) :
    ∀ es : List Expr, WordedItems es →
      Moves Interrupted (allNodeFree es) [] [] (commaSeparated (sources g locals es))
  | [], _ => .empty
  | [e], h => by
    have he := (source_moves locals hg e (h e List.mem_cons_self)).within
    rw [sources, sources, commaSeparated, String.intercalate_singleton, allNodeFree, allNodeFree,
      Bool.and_true]
    exact he
  | e :: e' :: rest, h => by
    have he := (source_moves locals hg e (h e List.mem_cons_self)).within
    have hrest := sources_moves locals hg (e' :: rest) fun e he => h e (List.mem_cons_of_mem _ he)
    exact moves_comma he hrest

end

end Expr

/-! ## Statements -/

namespace Stmt

open Lexical Widgetry.Expr

mutual

/-- Whether no line of a statement has something behind a node expression. -/
def nodesLast : Stmt → Bool
  | expr e _ => e.nodeLast
  | bind _ value _ _ _ => value.nodeLast
  | assign target _ value _ => target.toExpr.nodeFree && value.nodeLast
  | choose subject arms _ => subject.nodeFree && armsNodesLast arms
  | each _ items body _ => items.nodeFree && bodyNodesLast body
  | fn _ | type _ => true

def bodyNodesLast : List Stmt → Bool
  | [] => true
  | s :: rest => s.nodesLast && bodyNodesLast rest

def armsNodesLast : List Arm → Bool
  | [] => true
  | ⟨pattern, body, _⟩ :: rest =>
    (match pattern with
      | none => true
      | some p => p.nodeFree) && bodyNodesLast body && armsNodesLast rest

end

/-- Whether all names in the arms of a statement are words. -/
abbrev WordedArms (arms : List Arm) : Prop :=
  (∀ a ∈ arms, ∀ p, a.pattern = some p → p.Worded) ∧ ∀ a ∈ arms, ∀ s ∈ a.body, s.Worded

/-- A line that begins with a keyword and ends with a colon. -/
theorem moves_header {b : Bool} {before s : String} (hbefore : Moves Any true [] [] before)
    (h : Moves Interrupted b [] [] s) : Moves LineEnd b [] [] (before ++ s ++ ":") :=
  moves_enclosed hbefore h (interrupts_of rfl (by decide)) (moves_fixed rfl)

theorem moves_unsupported {what : String} (h : Named what) :
    Moves LineEnd true [] [] (unsupported what).text := by
  have hsplit : (unsupported what).text
      = "pass  " ++ ("#" ++ (" unsupported statement: " ++ what)) := by
    apply String.toList_injective
    simp only [unsupported, Line.at0, String.toList_append]
    rfl
  rw [hsplit]
  exact (moves_fixed rfl).after (moves_nameRemark (by simp [remarks]) h)

variable {g : Naming}

mutual

/-- **The lines of a statement are read up to their end if none has something behind a node
expression.** -/
theorem lines_blocks (hg : Named g.messages) : ∀ (s : Stmt) (locals : List String), s.Worded →
    Blocks s.nodesLast [] [] (s.lines g locals)
  | expr e _, locals, h => by
    cases h with
    | expr he => exact .line (source_moves locals hg e he).last
  | bind name value _ _ _, locals, h => by
    cases h with
    | bind hname hvalue =>
      have hfront : Moves Any true [] [] (name ++ " = ") :=
        (named_of_word hname).moves.after (moves_fixed rfl)
      exact .line (hfront.after (source_moves locals hg value hvalue).last)
  | assign target op value _, locals, h => by
    cases h with
    | assign htarget hvalue =>
      have hop : Moves Any true [] [] op.symbol := by cases op <;> exact moves_fixed rfl
      have hblank : Moves Any true [] [] " " := moves_fixed rfl
      have hleft := (source_moves locals hg target.toExpr htarget).within.closed
        (interrupts_of rfl (by decide)) hblank
      have hfront := (hleft.before hop).before hblank
      exact .line (hfront.both (source_moves locals hg value hvalue).last)
  | choose subject arms _, locals, h => by
    cases h with
    | choose hsubject hpatterns hbodies =>
      have hmatch : Moves Any true [] [] "match " := moves_fixed rfl
      have hhead := moves_header hmatch (source_moves locals hg subject hsubject).within
      exact .below hhead (armLines_blocks hg arms locals ⟨hpatterns, hbodies⟩)
  | each name items body _, locals, h => by
    cases h with
    | each hname hitems hbody =>
      have hfor : Moves Any true [] [] "for " := moves_fixed rfl
      have hin : Moves Any true [] [] " in " := moves_fixed rfl
      have hfront := (hfor.after (named_of_word hname).moves).after hin
      have hhead := moves_header hfront (source_moves locals hg items hitems).within
      exact .below hhead (blockLines_blocks hg body _ hbody)
  | fn _, locals, h => .line (moves_unsupported (named_of_isIdentifier (by decide +kernel)))
  | type _, locals, h => .line (moves_unsupported (named_of_isIdentifier (by decide +kernel)))

theorem blockLines_blocks (hg : Named g.messages) : ∀ (ss : List Stmt) (locals : List String),
    WordedBody ss → Blocks (bodyNodesLast ss) [] [] (blockLines g locals ss)
  | [], _, _ => .line (moves_fixed rfl)
  | s :: rest, locals, h =>
    (lines_blocks hg s locals (h s List.mem_cons_self)).append
      (restLines_blocks hg rest _ fun s hs => h s (List.mem_cons_of_mem _ hs))

theorem restLines_blocks (hg : Named g.messages) : ∀ (ss : List Stmt) (locals : List String),
    WordedBody ss → Blocks (bodyNodesLast ss) [] [] (restLines g locals ss)
  | [], _, _ => .nil
  | s :: rest, locals, h =>
    (lines_blocks hg s locals (h s List.mem_cons_self)).append
      (restLines_blocks hg rest _ fun s hs => h s (List.mem_cons_of_mem _ hs))

theorem armLines_blocks (hg : Named g.messages) : ∀ (arms : List Arm) (locals : List String),
    WordedArms arms → Blocks (armsNodesLast arms) [] [] (armLines g locals arms)
  | [], _, _ => .nil
  | ⟨pattern, body, _⟩ :: rest, locals, h => by
    have hrest := armLines_blocks hg rest locals
      ⟨fun a ha => h.1 a (List.mem_cons_of_mem _ ha), fun a ha => h.2 a (List.mem_cons_of_mem _ ha)⟩
    have hbody := blockLines_blocks hg body locals (h.2 _ List.mem_cons_self)
    have hcase : Moves Any true [] [] "case " := moves_fixed rfl
    cases pattern with
    | none =>
      have hhead : Moves LineEnd true [] [] ("case " ++ "_" ++ ":") :=
        moves_header hcase (moves_fixed rfl)
      exact (Blocks.below hhead hbody).append hrest
    | some p =>
      have hp := h.1 _ List.mem_cons_self p rfl
      have hhead := moves_header hcase (source_moves locals hg p hp).within
      exact (Blocks.below hhead hbody).append hrest

end

end Stmt

end Widgetry
