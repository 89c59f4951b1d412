import Widgetry.Proofs.Language.Expressions

/-!
# Reading statements and declarations

The rules of the grammar for statements, declarations and the parts of both read what is printed for
them. As for expressions there is one lemma for each kind, which gets this from the parts: for
expressions by `Expr.Readable`, for the items of a body by `ReadsStmt` for each.
-/

namespace Widgetry

open Widgetry.Parser
open Parser.Reads (takes_advance takes_op takes_keyword takes_name)

/-! ## Items of a body -/

/-- Whether a lexeme ends a statement. -/
def Lexeme.Stops (l : Lexeme) : Prop := l = .op ";" ∨ l = .op "\x7d" ∨ l.kind = .eof

/-- Whether a lexeme may be the first one of an item. -/
structure Lexeme.Starts (l : Lexeme) : Prop where
  notEnd : l.kind ≠ .eof
  op : ∀ s ∈ ["\x7b", "\x7d", ",", ";"], l ≠ .op s

namespace Lexeme

variable {l : Lexeme} {tight braces : Bool} {level : Nat}

theorem Stops.ne_op (h : l.Stops) {s : String} (h₁ : s ≠ ";") (h₂ : s ≠ "\x7d") : l ≠ .op s := by
  rintro rfl
  obtain h | h | h := h
  · exact h₁ (op_inj.mp h)
  · exact h₂ (op_inj.mp h)
  · cases h

theorem Stops.closes (h : l.Stops) : l.Closes level braces := by
  obtain rfl | rfl | h := h
  · exact closes_op (by simp)
  · exact closes_op (by simp)
  · exact closes_end h

theorem Begins.starts (h : l.Begins tight) : l.Starts := by
  refine ⟨h.notEnd, ?_⟩
  rintro s hs rfl
  obtain hl | hl | ⟨-, op, hl⟩ := h.op rfl
  · simp [op_inj.mp hl] at hs
  · simp [op_inj.mp hl] at hs
  · cases op <;> simp [op_inj.mp hl, UnaryOp.symbol] at hs

theorem starts_of_kind (hop : l.kind ≠ .op) (hend : l.kind ≠ .eof) : l.Starts := by
  refine ⟨hend, ?_⟩
  rintro s - rfl
  exact hop rfl

theorem Starts.not_separates (h : l.Starts) : ¬ l.Separates := by
  rintro (hl | hl)
  · exact h.op _ (by simp) hl
  · exact h.op _ (by simp) hl

end Lexeme

variable {style : Style} {n : Nat} {e : Expr} {s : Stmt} {F : Lexeme → Prop}

/-- Whether lexemes are read as a statement, and do not begin like a property. -/
structure ReadsStmt (n : Nat) (ls : List Lexeme) (s : Stmt) : Prop where
  reads : ∃ D, Reads n D (fun d => statement d) ls s Lexeme.Stops
  opens : ∃ l rest, ls = l :: rest ∧ l.Starts ∧ (l.kind = .ident → rest.head? ≠ some (.op ":"))

/-- Whether the items that are printed for a body are read as its statements. -/
def ReadableBody (style : Style) (n : Nat) (body : List Stmt) : Prop :=
  List.Forall₂ (ReadsStmt n) (style.stmts body) (Stmt.allAtLine n body)

theorem ReadsStmt.item {ls : List Lexeme} (h : ReadsStmt n ls s) :
    Reads.Item n (fun d => statement d) Lexeme.Starts Lexeme.Stops ls s := by
  obtain ⟨l, rest, hls, hl, -⟩ := h.opens
  exact ⟨h.reads, l, rest, hls, hl⟩

/-- A sequence of items between braces. -/
theorem braced_items {α : Type} {item : Nat → Parser α} {items : List (List Lexeme)} {as : List α}
    (cause : Cause) (F : Lexeme → Prop)
    (h : List.Forall₂ (Reads.Item n item Lexeme.Starts Lexeme.Stops) items as) :
    ∃ D, Reads n D (fun d => braced cause (item d)) (Lexeme.block items) as F :=
  Reads.braced cause (fun l hl => ⟨hl.op _ (by simp), hl.notEnd⟩)
    (fun l hl => hl.not_separates) (Or.inl rfl) (Or.inr (Or.inl rfl)) h

theorem block_reads {body : List Stmt} (h : ReadableBody style n body) (F : Lexeme → Prop) :
    ∃ D, Reads n D (fun d => block d) (Lexeme.block (style.stmts body))
      (Stmt.allAtLine n body) F := by
  obtain ⟨D, hD⟩ := braced_items .openBlock F (h.imp fun _ _ hs => hs.item)
  exact ⟨_, .rule block.eq_1 hD⟩

theorem operand_bare (h : e.Readable style n) :
    ReadsOperand n true 0 (style.bare e true) (e.atLine n) := by
  have hbare : style.operand e 0 true = style.bare e true := by
    rw [Style.operand, Expr.bracketed]
    simp [Lexeme.wrapped]
  rw [← hbare]
  exact (h 0 true (Nat.zero_le _)).operand 0 (Nat.le_refl _) (Nat.zero_le _)

/-- An expression without brackets, where braces may follow names. -/
theorem expression_bare (h : e.Readable style n) : ∃ D, Reads n D (fun d => expression d true)
    (style.bare e true) (e.atLine n) (Lexeme.Closes 0 true) :=
  expression_of_operand (operand_bare h)

/-- An expression in brackets. -/
theorem expression_brackets (h : e.Readable style n) (braces : Bool) :
    ∃ D, Reads n D (fun d => expression d braces) (Lexeme.enclosed "(" ")" (style.bare e true))
      (e.atLine n) (Lexeme.Closes 0 braces) := by
  have hr : Reached n false braces (BinaryOp.levels + 1)
      (Lexeme.enclosed "(" ")" (style.bare e true)) (e.atLine n) :=
    .of_brackets (operand_bare h)
  exact expression_of_operand (hr.operand 0 (Nat.zero_le _) (Nat.zero_le _))

/-- What a choice or a loop is about, before the brace that opens its body. -/
theorem expression_subject (h : e.Readable style n) : ∃ D, Reads n D (fun d => expression d false)
    (style.operand e 0 false) (e.atLine n) (Lexeme.Closes 0 false) :=
  (Expr.item_of_readable h false).reads

/-! ## The bodies of node expressions -/

theorem nodeBody_succ (d : Nat) (kind : String) : nodeBody (d + 1) kind
    = braced (.openBody kind) (nodeItem d) >>= fun items => pure (separate items) := by
  rw [nodeBody]
  rfl

theorem separate_append {α β : Type} (as : List α) (bs : List β) :
    separate (as.map Sum.inl ++ bs.map Sum.inr) = (as, bs) := by
  induction as with
  | nil =>
    induction bs with
    | nil => rfl
    | cons b bs ih =>
      rw [List.map_nil, List.nil_append] at ih ⊢
      rw [List.map_cons, separate, ih]
  | cons a as ih => rw [List.map_cons, List.cons_append, separate, ih]

theorem ReadsStmt.nodeItem {ls : List Lexeme} (h : ReadsStmt n ls s) :
    Reads.Item n nodeItem Lexeme.Starts Lexeme.Stops ls (Sum.inr s) := by
  obtain ⟨l, rest, rfl, hl, hrest⟩ := h.opens
  obtain ⟨D, hD⟩ := h.reads
  refine ⟨⟨D, ?_⟩, l, rest, rfl, hl⟩
  unfold Parser.nodeItem
  -- a statement that is a name only has what follows it as its second lexeme
  refine .look fun _ => .lookSecond fun l' _ hl' => .neg ?_ (.map Sum.inr hD)
  simp only [Lexeme.at_kind, Lexeme.isOp_at, Bool.and_eq_true, decide_eq_true_eq, not_and]
  rintro hk rfl
  obtain ⟨-, hstop⟩ | hhead := hl'
  · exact hstop.ne_op (by decide) (by decide) rfl
  · exact hrest (of_decide_eq_true hk) hhead

/-- A property is told from a statement by the colon. -/
theorem property_item (h : e.Readable style n) (x : String) :
    Reads.Item n nodeItem Lexeme.Starts Lexeme.Stops (.name x :: .op ":" :: style.bare e true)
      (Sum.inl ⟨x, e.atLine n, n⟩) := by
  obtain ⟨D, hD⟩ := expression_bare h
  refine ⟨⟨D, ?_⟩, _, _, rfl, Lexeme.starts_of_kind nofun nofun⟩
  unfold Parser.nodeItem
  refine .look fun _ => .lookSecond fun l' _ hl' => .pos ?_ <| .take (takes_advance _) fun _ =>
    .take (takes_advance _) fun _ =>
      .map (fun v => Sum.inl (Property.mk x v n)) (hD.mono fun _ hl => hl.closes)
  obtain ⟨hnil, -⟩ | hhead := hl'
  · cases hnil
  · cases hhead
    simp

/-- Whether the items that are printed for properties are read as such. -/
def ReadableProperties (style : Style) (n : Nat) (props : List Property) : Prop :=
  List.Forall₂ (fun ls p => Reads.Item n nodeItem Lexeme.Starts Lexeme.Stops ls (Sum.inl p))
    (style.properties props) (Property.allAtLine n props)

theorem nodeBody_reads {props : List Property} {body : List Stmt}
    (hp : ReadableProperties style n props) (hs : ReadableBody style n body) (kind : String)
    (F : Lexeme → Prop) : ∃ D, Reads n D (fun d => nodeBody d kind)
      (Lexeme.block (style.properties props ++ style.stmts body))
      (Property.allAtLine n props, Stmt.allAtLine n body) F := by
  have hitems : List.Forall₂ (Reads.Item n nodeItem Lexeme.Starts Lexeme.Stops)
      (style.properties props ++ style.stmts body)
      ((Property.allAtLine n props).map Sum.inl ++ (Stmt.allAtLine n body).map Sum.inr) :=
    List.rel_append (List.forall₂_map_right_iff.mpr hp)
      (List.forall₂_map_right_iff.mpr (hs.imp fun _ _ h => h.nodeItem))
  obtain ⟨D, hD⟩ := braced_items (.openBody kind) F hitems
  refine Reads.ofRule (nodeBody.eq_1 kind) ?_
  simp only [nodeBody_succ]
  rw [← separate_append]
  exact ⟨D, hD.map separate⟩

/-! ## Types -/

theorem typeName_reads (cs : List Char) (F : Lexeme → Prop) :
    ∃ D, Reads n D (fun d => typeName d) (Lexeme.ofTypeName cs) (String.ofList cs) F := by
  induction cs using Lexeme.ofTypeName.induct with
  | case1 cs ih =>
    obtain ⟨D, hD⟩ := ih
    have hcs : String.ofList ('[' :: ']' :: cs) = "[]" ++ String.ofList cs := by
      rw [← String.ofList_append]
      rfl
    rw [Lexeme.ofTypeName, hcs]
    refine Reads.ofRule typeName.eq_1 ?_
    simp only [typeName]
    exact ⟨_, .look fun _ => .pos (by simp) <| .take (takes_advance _) fun _ =>
      .take (takes_op "]") fun _ => .map ("[]" ++ ·) hD⟩
  | case2 cs h =>
    rw [Lexeme.ofTypeName]
    · refine Reads.ofRule typeName.eq_1 ?_
      simp only [typeName]
      exact ⟨0, .look fun _ => .neg (by simp) <| .take (takes_name _) fun _ => .pure _⟩
    · exact h

theorem head_ofTypeName (cs : List Char) :
    ∃ l rest, Lexeme.ofTypeName cs = l :: rest ∧ (l = .op "[" ∨ l.kind = .ident) := by
  unfold Lexeme.ofTypeName
  split
  · exact ⟨_, _, rfl, Or.inl rfl⟩
  · exact ⟨_, _, rfl, Or.inr rfl⟩

/-- A type that may be missing, before something that no type begins with. -/
theorem optionalType_reads (type : Option String)
    (hF : ∀ l : Lexeme, F l → l.kind ≠ .ident ∧ l ≠ .op "[") :
    ∃ D, Reads n D (fun d => optionalType d) (Lexeme.ofType type) type F := by
  simp only [optionalType, startsType]
  cases type with
  | none =>
    refine ⟨0, .lookBehind fun l _ hl => .neg ?_ (.pure _)⟩
    obtain ⟨hk, hop⟩ := hF l hl
    simp [hk, hop]
  | some s =>
    obtain ⟨D, hD⟩ := typeName_reads (n := n) s.toList F
    obtain ⟨l, rest, hls, hl⟩ := head_ofTypeName s.toList
    rw [String.ofList_toList, hls] at hD
    rw [Lexeme.ofType, hls]
    refine ⟨D, .look fun _ => .pos ?_ (.map some hD)⟩
    obtain rfl | hk := hl
    · simp
    · simp [hk]

/-- What may stand behind a parameter. -/
def Lexeme.EndsParam (l : Lexeme) : Prop := l = .op "," ∨ l = .op ")"

theorem params_read (params : List (String × Option String)) :
    List.Forall₂ (Reads.Item n (fun d => param d) (·.kind = .ident) Lexeme.EndsParam)
      (params.map Lexeme.ofParam) params := by
  rw [List.forall₂_map_left_iff, List.forall₂_same]
  rintro ⟨name, type⟩ -
  have hF : ∀ l : Lexeme, l.EndsParam → l.kind ≠ .ident ∧ l ≠ .op "[" := by
    rintro l (rfl | rfl)
    · exact ⟨nofun, by simp⟩
    · exact ⟨nofun, by simp⟩
  obtain ⟨D, hD⟩ := optionalType_reads (n := n) type hF
  exact ⟨⟨D, .take (takes_name _) fun _ => .map (fun t => (name, t)) hD⟩, _, _, rfl, rfl⟩

theorem moreSpecs_reads (specs : List String) (m : Nat) (hm : specs.length ≤ m) :
    Reads n 0 (fun _ => moreSpecs m) (specs.flatMap fun s => [.op ",", .name s]) specs
      (· = .op "\x7b") := by
  induction specs generalizing m with
  | nil =>
    cases m with
    | zero => exact .pure []
    | succ m =>
      simp only [moreSpecs]
      exact .lookBehind fun l _ hl => .neg (by simp [hl]) (.pure _)
  | cons s rest ih =>
    obtain ⟨m, rfl⟩ := Nat.exists_eq_succ_of_ne_zero (Nat.ne_of_gt (Nat.zero_lt_of_lt hm))
    simp only [moreSpecs]
    exact .look fun _ => .pos (by simp) <| .take (takes_advance _) fun _ =>
      .take (takes_name _) fun _ => .map (s :: ·) (ih m (Nat.le_of_succ_le_succ hm))

theorem specs_read (names : List String) :
    Reads n 0 (fun _ => specs) (Lexeme.ofSpecs names) names (· = .op "\x7b") := by
  unfold specs
  cases names with
  | nil => exact .lookBehind fun l _ hl => .neg (by simp [hl]) (.pure _)
  | cons s rest =>
    refine .look fun _ => .pos (by simp) <| .take (takes_advance _) fun _ =>
      .take (takes_name _) fun _ => .rounds fun m hm => .map (s :: ·) (moreSpecs_reads rest m ?_)
    have hlen : (rest.flatMap fun s => [Lexeme.op ",", .name s]).length = 2 * rest.length := by
      simp [List.length_flatMap, Nat.mul_comm]
    omega

/-! ## One kind of statement after the other -/

/-- A statement that begins with no word of its own is an expression or an assignment. -/
theorem statement_plain {l : Lexeme} {rest : List Lexeme} {tight : Bool} (hl : l.Begins tight)
    (h : ∃ D, ∀ c, Reads n D (fun d => expression d true >>= fun e => peek >>= fun t =>
      match assignOp? t with
      | none => pure (Stmt.expr e (l.at n c).line)
      | some op => advance >>= fun _ => match Target.ofExpr? e with
        | none => failAt .invalidTarget (l.at n c)
        | some target => expression d true >>= fun value =>
          pure (Stmt.assign target op value (l.at n c).line)) (l :: rest) s Lexeme.Stops) :
    ∃ D, Reads n D (fun d => statement d) (l :: rest) s Lexeme.Stops := by
  refine Reads.ofRule statement.eq_1 ?_
  simp only [statement]
  obtain ⟨D, hD⟩ := h
  -- it begins with none of the words that the other statements begin with
  have hword : ∀ w ∈ ["type", "fn", "let", "var", "is", "for"], l ≠ .word w := by
    rintro w hw rfl
    have := hl.word rfl
    simp only [Lexeme.word_inj] at this
    obtain rfl | rfl | rfl := this <;> simp at hw
  refine ⟨D, .look fun c => .neg ?_ <| .neg ?_ <| .neg ?_ <| .neg ?_ <| .neg ?_ <| hD c⟩
  all_goals simp [hword]

theorem assignOp?_symbol (op : AssignOp) (c : Nat) :
    assignOp? ((Lexeme.op op.symbol).at n c) = some op := by
  cases op <;> rfl

theorem assignOp?_stops {l : Lexeme} (h : l.Stops) (c : Nat) : assignOp? (l.at n c) = none := by
  obtain rfl | rfl | h := h
  · rfl
  · rfl
  · rw [assignOp?, if_neg]
    rw [Lexeme.at_kind, h]
    nofun

theorem stmt_expr (h : e.Readable style n) :
    ReadsStmt n (style.bare e true) (.expr (e.atLine n) n) := by
  obtain ⟨D, hD⟩ := expression_bare h
  obtain ⟨l, rest, hls, hl, hrest⟩ := Expr.opens_bare style e true
  rw [hls] at hD ⊢
  refine ⟨statement_plain hl ⟨max D 0, fun c => .last hD (.lookBehind fun l' c' hl' => ?_)
    fun _ hl => hl.closes⟩, l, rest, rfl, hl.starts, hrest⟩
  rw [assignOp?_stops hl']
  exact .pure _

theorem closes_assign (op : AssignOp) : (Lexeme.op op.symbol).Closes 0 true := by
  cases op <;> exact Lexeme.closes_op (by simp [AssignOp.symbol])

theorem stmt_assign {t : Target} (ht : t.toExpr.Readable style n) (h : e.Readable style n)
    (op : AssignOp) : ReadsStmt n (style.target t ++ .op op.symbol :: style.bare e true)
      (.assign (t.atLine n) op (e.atLine n) n) := by
  have htext : style.target t = style.bare t.toExpr true := by
    cases t <;> rfl
  have hback : Target.ofExpr? (t.toExpr.atLine n) = some (t.atLine n) := by
    cases t <;> rfl
  obtain ⟨D, hD⟩ := expression_bare ht
  obtain ⟨E, hE⟩ := expression_bare h
  have hcolon : (Lexeme.op op.symbol :: style.bare e true).head? ≠ some (.op ":") := by
    cases op <;> simp [AssignOp.symbol]
  rw [htext]
  obtain ⟨l, rest, hls, hl, hrest⟩ := (Expr.opens_bare style t.toExpr true).append hcolon
  refine ⟨?_, l, rest, hls, hl.starts, hrest⟩
  rw [hls]
  refine statement_plain hl ⟨max D E, fun c => ?_⟩
  rw [← hls]
  refine .bind hD (.look fun c' => ?_) fun _ _ => closes_assign op
  simp only [assignOp?_symbol, hback]
  exact .take (takes_advance _) fun _ =>
    .map (fun v => Stmt.assign (t.atLine n) op v n) (hE.mono fun _ hl => hl.closes)

/-- What a statement is that begins with a word. -/
theorem opens_word (w : String) (rest : List Lexeme) :
    ∃ l rest', Lexeme.word w :: rest = l :: rest' ∧ l.Starts ∧
      (l.kind = .ident → rest'.head? ≠ some (.op ":")) :=
  ⟨_, _, rfl, Lexeme.starts_of_kind nofun nofun, nofun⟩

/-- The type of a variable, if it has one, before the sign before its value. -/
theorem bindingType_reads (type : Option String) {us : List Lexeme} {β : Type} {D : Nat} {b : β}
    {f : Nat → Option String → Parser β}
    (hf : Reads n D (fun d => f d type) (.op "=" :: us) b F) :
    ∃ D, Reads n D (fun d => peek >>= fun t =>
      if t.isOp "=" = true then pure none >>= f d else some <$> typeName d >>= f d)
      (Lexeme.ofType type ++ .op "=" :: us) b F := by
  cases type with
  | none =>
    exact ⟨_, .look fun _ => .pos (by simp) <| .bind (F := fun _ => True) (.pure none) hf
      fun _ _ => trivial⟩
  | some t =>
    obtain ⟨E, hE⟩ := typeName_reads (n := n) t.toList (fun _ => True)
    obtain ⟨l, rest, hls, hl⟩ := head_ofTypeName t.toList
    rw [String.ofList_toList, hls] at hE
    have hne : l ≠ .op "=" := by
      rintro rfl
      obtain hl | hl := hl
      · simp at hl
      · cases hl
    rw [Lexeme.ofType, hls]
    simp only [map_eq_pure_bind]
    exact ⟨_, .look fun _ => .neg (by simpa using hne) <| .bind (.map some hE) hf
      fun _ _ => trivial⟩

/-- What stands behind the words of a declaration of a variable. -/
theorem bindingRest_reads (h : e.Readable style n) (x : String) (type : Option String) (b : Bool) :
    ∃ D, Reads n D (fun d => peek >>= fun t =>
      if t.isOp "=" = true then
        pure none >>= fun type => expectOp "=" >>= fun _ => expression d true >>= fun value =>
          pure (Stmt.bind x value type b n)
      else some <$> typeName d >>= fun type => expectOp "=" >>= fun _ =>
        expression d true >>= fun value => pure (Stmt.bind x value type b n))
      (Lexeme.ofType type ++ .op "=" :: style.bare e true) (.bind x (e.atLine n) type b n)
      Lexeme.Stops := by
  obtain ⟨D, hD⟩ := expression_bare h
  exact bindingType_reads type (.take (takes_op _) fun _ =>
    .map (fun v => Stmt.bind x v type b n) (hD.mono fun _ hl => hl.closes))

theorem binding_reads (h : e.Readable style n) (x : String) (type : Option String)
    (mutable : Bool) : ∃ D, Reads n D (fun d => binding d)
      (style.binder mutable ++ .name x :: Lexeme.ofType type ++ .op "=" :: style.bare e true)
      (.bind x (e.atLine n) type mutable n) Lexeme.Stops := by
  obtain ⟨D, hD⟩ := bindingRest_reads h x type mutable
  refine Reads.ofRule binding.eq_1 ?_
  simp only [binding, Style.binder]
  cases mutable with
  | true =>
    cases style.letMut with
    | true =>
      exact ⟨_, .take (takes_advance _) fun _ => .look fun _ => .pos (by simp) <|
        .take (takes_advance _) fun _ => .take (takes_name x) fun _ => hD⟩
    | false =>
      exact ⟨_, .take (takes_advance _) fun _ => .look fun _ => .neg (by simp) <|
        .take (takes_name x) fun _ => hD⟩
  | false =>
    exact ⟨_, .take (takes_advance _) fun _ => .look fun _ => .neg (by simp) <|
      .take (takes_name x) fun _ => hD⟩

theorem stmt_bind (h : e.Readable style n) (x : String) (type : Option String) (mutable : Bool) :
    ReadsStmt n (style.binder mutable ++ .name x :: Lexeme.ofType type ++
      .op "=" :: style.bare e true) (.bind x (e.atLine n) type mutable n) := by
  obtain ⟨D, hD⟩ := binding_reads h x type mutable
  have hhead : ∃ w rest, (w = "let" ∨ w = "var") ∧ style.binder mutable ++ .name x ::
      Lexeme.ofType type ++ .op "=" :: style.bare e true = .word w :: rest := by
    unfold Style.binder
    split
    · split
      · exact ⟨_, _, Or.inl rfl, rfl⟩
      · exact ⟨_, _, Or.inr rfl, rfl⟩
    · exact ⟨_, _, Or.inl rfl, rfl⟩
  obtain ⟨w, rest, hw, hls⟩ := hhead
  rw [hls] at hD ⊢
  refine ⟨Reads.ofRule statement.eq_1 ?_, opens_word w rest⟩
  simp only [statement]
  refine ⟨D, .look fun _ => .neg ?_ <| .neg ?_ <| .pos ?_ hD⟩
  all_goals obtain rfl | rfl := hw <;> simp

/-! ## Choices and loops -/

/-- Whether an expression that may be missing is readable. -/
def ReadableOption (style : Style) (n : Nat) : Option Expr → Prop
  | none => True
  | some e => e.Readable style n

theorem armBody_cases (style : Style) (items : List (List Lexeme)) :
    style.armBody items = Lexeme.block items ∨ ∃ ls, items = [ls] ∧ style.armBody items = ls := by
  unfold Style.armBody
  split
  · split
    · exact Or.inr ⟨_, rfl, rfl⟩
    · exact Or.inl rfl
  · exact Or.inl rfl

/-- What stands behind the pattern of an arm. -/
theorem armRest_reads {body : List Stmt} (hb : ReadableBody style n body) (p : Option Expr) :
    ∃ D, Reads n D (fun d => expectOp "=>" >>= fun _ => peek >>= fun t =>
      if t.isOp "\x7b" = true then block d >>= fun body => pure (Arm.mk p body n)
      else List.singleton <$> statement d >>= fun body => pure (Arm.mk p body n))
      (.op "=>" :: style.armBody (style.stmts body)) ⟨p, Stmt.allAtLine n body, n⟩
      Lexeme.Stops := by
  obtain htext | ⟨ls, hls, htext⟩ := armBody_cases style (style.stmts body)
  · obtain ⟨D, hD⟩ := block_reads hb Lexeme.Stops
    rw [htext]
    exact ⟨D, .take (takes_op _) fun _ => .look fun _ => .pos (by simp) <|
      .map (fun body => Arm.mk p body n) hD⟩
  · -- the only statement begins with no brace
    rw [ReadableBody, hls] at hb
    rw [htext]
    generalize Stmt.allAtLine n body = stmts at hb ⊢
    cases hb with
    | cons hs hnil =>
      cases hnil
      obtain ⟨D, hD⟩ := hs.reads
      obtain ⟨l, rest, rfl, hl, -⟩ := hs.opens
      simp only [map_eq_pure_bind]
      exact ⟨D, .take (takes_op _) fun _ => .look fun _ =>
        .neg (by simpa using hl.op _ (by simp)) <|
          .map (fun body => Arm.mk p body n) (.map List.singleton hD)⟩

theorem arm_item {p : Option Expr} {body : List Stmt} (hp : ReadableOption style n p)
    (hb : ReadableBody style n body) : Reads.Item n (fun d => arm d) Lexeme.Starts Lexeme.Stops
      (style.pattern p ++ .op "=>" :: style.armBody (style.stmts body))
      ⟨Expr.optionAtLine n p, Stmt.allAtLine n body, n⟩ := by
  obtain ⟨E, hE⟩ := armRest_reads hb (Expr.optionAtLine n p)
  cases p with
  | none =>
    rw [Style.pattern]
    have hstart : style.anything.Starts := by
      unfold Style.anything
      split <;> exact Lexeme.starts_of_kind nofun nofun
    refine ⟨Reads.ofRule arm.eq_1 ?_, style.anything, _, rfl, hstart⟩
    simp only [arm]
    refine ⟨_, .look fun _ => .pos ?_ <| .take (takes_advance _) fun _ =>
      .bind (F := fun _ => True) (.pure none) hE fun _ _ => trivial⟩
    unfold Style.anything
    split <;> simp
  | some e =>
    rw [Style.pattern]
    obtain ⟨D, hD⟩ := expression_brackets hp false
    have hstart : (Lexeme.op "(").Starts := ⟨nofun, by simp⟩
    refine ⟨Reads.ofRule arm.eq_1 ?_, _, _, rfl, hstart⟩
    simp only [arm, map_eq_pure_bind]
    simp only [map_eq_pure_bind] at hE
    exact ⟨_, .look fun _ => .neg (by simp) <| .bind (.map some hD) hE fun _ _ =>
      Lexeme.closes_op (by simp)⟩

/-- Whether the items that are printed for arms are read as such. -/
def ReadableArms (style : Style) (n : Nat) (arms : List Arm) : Prop :=
  List.Forall₂ (Reads.Item n (fun d => arm d) Lexeme.Starts Lexeme.Stops) (style.arms arms)
    (Arm.allAtLine n arms)

theorem stmt_choose {arms : List Arm} (h : e.Readable style n) (ha : ReadableArms style n arms) :
    ReadsStmt n (.word "is" :: style.operand e 0 false ++ Lexeme.block (style.arms arms))
      (.choose (e.atLine n) (Arm.allAtLine n arms) n) := by
  obtain ⟨D, hD⟩ := expression_subject h
  obtain ⟨E, hE⟩ := braced_items .openIs Lexeme.Stops ha
  rw [List.cons_append]
  have hchoice : ∃ D, Reads n D (fun d => choice d)
      (.word "is" :: (style.operand e 0 false ++ Lexeme.block (style.arms arms)))
      (.choose (e.atLine n) (Arm.allAtLine n arms) n) Lexeme.Stops := by
    refine Reads.ofRule choice.eq_1 ?_
    simp only [choice]
    exact ⟨_, .take (takes_keyword _) fun _ =>
      .bind hD (.map (fun arms => Stmt.choose (e.atLine n) arms n) hE)
        fun _ _ => Lexeme.closes_brace⟩
  obtain ⟨D, hD⟩ := hchoice
  refine ⟨Reads.ofRule statement.eq_1 ?_, opens_word _ _⟩
  simp only [statement]
  exact ⟨D, .look fun _ => .neg (by simp) <| .neg (by simp) <| .neg (by simp) <|
    .pos (by simp) hD⟩

theorem stmt_each {body : List Stmt} (h : e.Readable style n) (hb : ReadableBody style n body)
    (x : String) : ReadsStmt n (.word "for" :: .name x :: .word "in" :: style.operand e 0 false ++
      Lexeme.block (style.stmts body)) (.each x (e.atLine n) (Stmt.allAtLine n body) n) := by
  obtain ⟨D, hD⟩ := expression_subject h
  obtain ⟨E, hE⟩ := block_reads hb Lexeme.Stops
  simp only [List.cons_append]
  have hloop : ∃ D, Reads n D (fun d => iteration d) (.word "for" :: .name x :: .word "in" ::
      (style.operand e 0 false ++ Lexeme.block (style.stmts body)))
      (.each x (e.atLine n) (Stmt.allAtLine n body) n) Lexeme.Stops := by
    refine Reads.ofRule iteration.eq_1 ?_
    simp only [iteration]
    exact ⟨_, .take (takes_keyword _) fun _ => .take (takes_name _) fun _ =>
      .take (takes_keyword _) fun _ =>
        .bind hD (.map (fun body => Stmt.each x (e.atLine n) body n) hE)
          fun _ _ => Lexeme.closes_brace⟩
  obtain ⟨D, hD⟩ := hloop
  refine ⟨Reads.ofRule statement.eq_1 ?_, opens_word _ _⟩
  simp only [statement]
  exact ⟨D, .look fun _ => .neg (by simp) <| .neg (by simp) <| .neg (by simp) <|
    .neg (by simp) <| .pos (by simp) hD⟩

/-! ## Declarations -/

/-- Whether what is printed for a function is read as the function. -/
def FnDecl.Readable (style : Style) (n : Nat) (d : FnDecl) : Prop :=
  ∃ D, Reads n D (fun k => fnDecl k) (style.fn d) (d.atLine n) fun _ => True

theorem fn_readable {body : List Stmt} (hb : ReadableBody style n body) (name : String)
    (params : List (String × Option String)) (result : Option String) (line : Nat) :
    FnDecl.Readable style n ⟨name, params, body, result, line⟩ := by
  have hclose : ∀ l : Lexeme, l.kind = .ident → l ≠ .op ")" := by
    rintro l hk rfl
    cases hk
  have hbrace : ∀ l : Lexeme, l = .op "\x7b" → l.kind ≠ .ident ∧ l ≠ .op "[" := by
    rintro l rfl
    exact ⟨nofun, by simp⟩
  obtain ⟨D, hD⟩ := Reads.bracketed "(" ")" (F := fun _ => True) hclose (by decide) (Or.inl rfl)
    (Or.inr rfl) (params_read (n := n) params)
  obtain ⟨E, hE⟩ := optionalType_reads (n := n) (F := (· = .op "\x7b")) result hbrace
  obtain ⟨K, hK⟩ := block_reads hb (fun _ => True)
  refine Reads.ofRule fnDecl.eq_1 ?_
  rw [Style.fn, FnDecl.atLine]
  simp only [fnDecl]
  simp only [List.cons_append, List.append_assoc]
  exact ⟨_, .take (takes_keyword _) fun _ => .take (takes_name _) fun _ =>
    .bind hD (.bind hE (.map (fun body => FnDecl.mk name params body result n) hK)
      fun _ _ => rfl) fun _ _ => trivial⟩

theorem stmt_fn {d : FnDecl} (h : d.Readable style n) :
    ReadsStmt n (style.fn d) (.fn (d.atLine n)) := by
  obtain ⟨D, hD⟩ := h
  obtain ⟨name, params, body, result, line⟩ := d
  rw [Style.fn] at hD ⊢
  refine ⟨Reads.ofRule statement.eq_1 ?_, opens_word _ _⟩
  simp only [statement]
  exact ⟨D, .look fun _ => .neg (by simp) <| .pos (by simp) <|
    .map Stmt.fn (hD.mono fun _ _ => trivial)⟩

theorem method_item {d : FnDecl} (h : d.Readable style n) :
    Reads.Item n typeItem Lexeme.Starts Lexeme.Stops (style.fn d) (Sum.inr (d.atLine n)) := by
  obtain ⟨D, hD⟩ := h
  obtain ⟨name, params, body, result, line⟩ := d
  rw [Style.fn] at hD ⊢
  refine ⟨⟨D, ?_⟩, _, _, rfl, Lexeme.starts_of_kind nofun nofun⟩
  unfold Parser.typeItem
  exact .look fun _ => .pos (by simp) (.map Sum.inr (hD.mono fun _ _ => trivial))

theorem field_item {default : Option Expr} (h : ReadableOption style n default)
    (name type : String) : Reads.Item n typeItem Lexeme.Starts Lexeme.Stops
      (.name name :: Lexeme.ofTypeName type.toList ++ style.initial default)
      (Sum.inl ⟨name, type, Expr.optionAtLine n default, n⟩) := by
  have hfield : ∃ D, Reads n D (fun d => fieldDecl d)
      (.name name :: (Lexeme.ofTypeName type.toList ++ style.initial default))
      ⟨name, type, Expr.optionAtLine n default, n⟩ Lexeme.Stops := by
    obtain ⟨D, hD⟩ := typeName_reads (n := n) type.toList (fun _ => True)
    rw [String.ofList_toList] at hD
    refine Reads.ofRule fieldDecl.eq_1 ?_
    simp only [fieldDecl]
    cases default with
    | none =>
      rw [Style.initial]
      exact ⟨_, .take (takes_name _) fun _ => .bind hD (.lookBehind fun l _ hl =>
        .neg (by simpa using hl.ne_op (by decide) (by decide)) (.pure _)) fun _ _ => trivial⟩
    | some e =>
      obtain ⟨E, hE⟩ := expression_bare h
      rw [Style.initial]
      exact ⟨_, .take (takes_name _) fun _ => .bind hD (.look fun _ => .pos (by simp) <|
        .take (takes_advance _) fun _ => .map (fun v => FieldDecl.mk name type (some v) n)
          (hE.mono fun _ hl => hl.closes)) fun _ _ => trivial⟩
  obtain ⟨D, hD⟩ := hfield
  refine ⟨⟨D, ?_⟩, _, _, rfl, Lexeme.starts_of_kind nofun nofun⟩
  unfold Parser.typeItem
  exact .look fun _ => .neg (by simp) (.map Sum.inl hD)

/-- Whether the items that are printed for fields are read as such. -/
def ReadableFields (style : Style) (n : Nat) (fields : List FieldDecl) : Prop :=
  List.Forall₂ (fun ls f => Reads.Item n typeItem Lexeme.Starts Lexeme.Stops ls (Sum.inl f))
    (style.fields fields) (FieldDecl.allAtLine n fields)

/-- Whether the items that are printed for methods are read as such. -/
def ReadableMethods (style : Style) (n : Nat) (methods : List FnDecl) : Prop :=
  List.Forall₂ (fun ls f => Reads.Item n typeItem Lexeme.Starts Lexeme.Stops ls (Sum.inr f))
    (style.fns methods) (FnDecl.allAtLine n methods)

theorem stmt_type {members : List FieldDecl} {methods : List FnDecl}
    (hf : ReadableFields style n members) (hm : ReadableMethods style n methods) (name : String)
    (names : List String) (line : Nat) :
    ReadsStmt n (style.type ⟨name, names, members, methods, line⟩)
      (.type (TypeDecl.atLine n ⟨name, names, members, methods, line⟩)) := by
  rw [Style.type, TypeDecl.atLine]
  have hitems : List.Forall₂ (Reads.Item n typeItem Lexeme.Starts Lexeme.Stops)
      (style.fields members ++ style.fns methods)
      ((FieldDecl.allAtLine n members).map Sum.inl ++ (FnDecl.allAtLine n methods).map Sum.inr) :=
    List.rel_append (List.forall₂_map_right_iff.mpr hf) (List.forall₂_map_right_iff.mpr hm)
  obtain ⟨D, hD⟩ := braced_items (.openType name) Lexeme.Stops hitems
  simp only [List.cons_append]
  have htype : ∃ D, Reads n D (fun d => typeDecl d) (.word "type" :: .name name ::
      (Lexeme.ofSpecs names ++ Lexeme.block (style.fields members ++ style.fns methods)))
      (.type ⟨name, names, FieldDecl.allAtLine n members, FnDecl.allAtLine n methods, n⟩)
      Lexeme.Stops := by
    refine Reads.ofRule typeDecl.eq_1 ?_
    simp only [typeDecl]
    have hmake := hD.map fun items =>
      Stmt.type ⟨name, names, (separate items).1, (separate items).2, n⟩
    rw [separate_append] at hmake
    exact ⟨_, .take (takes_keyword _) fun _ => .take (takes_name _) fun _ =>
      .bind (specs_read names) hmake fun _ _ => rfl⟩
  obtain ⟨D, hD⟩ := htype
  refine ⟨Reads.ofRule statement.eq_1 ?_, opens_word _ _⟩
  simp only [statement]
  exact ⟨D, .look fun _ => .pos (by simp) hD⟩

end Widgetry
