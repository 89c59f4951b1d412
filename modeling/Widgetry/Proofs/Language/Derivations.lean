import Widgetry.Proofs.Language.Leads

/-!
# Every parsed text is derived

> `parse_derived`: the tree that the parser answers is derived from all tokens of its text, under
> any rule for lines that allows what the parser does.

Each rule of the parser is taken through its steps to the constructor of the grammar for what it
answers. Rules call each other at one less depth, so `DerivedRules` has what is said of all rules of
a depth, and goes from one depth to the next.
-/

namespace Widgetry

namespace Parser

/-- An expression that takes a token at least. -/
def Begun (L : LineRule) (start : List Token) (e : Expr) (stop : List Token) : Prop :=
  ExprFrom L e start stop ∧ stop <:+ start.tail

/-- What the rules of a depth answer is derived from the tokens that they take. -/
structure DerivedRules (L : LineRule) (tokens : List Token) (d : Nat) : Prop where
  expression (b : Bool) (start : List Token) : Leads tokens start (expression d b) (Begun L start)
  binary (level : Nat) (b : Bool) (start : List Token) :
    Leads tokens start (binary d level b) (Begun L start)
  unary (b : Bool) (start : List Token) : Leads tokens start (unary d b) (Begun L start)
  suffixed (b : Bool) (start : List Token) : Leads tokens start (suffixed d b) (Begun L start)
  arguments (start : List Token) :
    Leads tokens start (arguments d) (Within "(" ")" (Listed (ExprFrom L)) start)
  primary (b : Bool) (start : List Token) : Leads tokens start (primary d b) (Begun L start)
  /-- the rule for names is only used where a name stands -/
  named (b : Bool) {t : Token} (rest : List Token) : t.kind = .ident →
    Leads tokens (t :: rest) (named d b) (Begun L (t :: rest))
  nodeBody (kind : String) (start : List Token) : Leads tokens start (nodeBody d kind)
    fun r stop => ∃ items, r = separate items ∧ BodyFrom L items start stop
  statement (start : List Token) :
    Leads tokens start (statement d) fun st stop => StmtFrom L st start stop
  block (start : List Token) :
    Leads tokens start (block d) fun body stop => BlockFrom L body start stop
  /-- and the one for bindings only behind its word -/
  binding {t : Token} (rest : List Token) : (t.isKeyword "let" || t.isKeyword "var") = true →
    Leads tokens (t :: rest) (binding d) fun st stop => StmtFrom L st (t :: rest) stop
  choice (start : List Token) :
    Leads tokens start (choice d) fun st stop => StmtFrom L st start stop
  arm (start : List Token) : Leads tokens start (arm d) fun a stop => ArmFrom L a start stop
  iteration (start : List Token) :
    Leads tokens start (iteration d) fun st stop => StmtFrom L st start stop
  fnDecl (start : List Token) :
    Leads tokens start (fnDecl d) fun decl stop => FnFrom L decl start stop
  fieldDecl (start : List Token) :
    Leads tokens start (fieldDecl d) fun decl stop => MemberFrom L (.inl decl) start stop
  typeDecl (start : List Token) :
    Leads tokens start (typeDecl d) fun st stop => StmtFrom L st start stop

variable {L : LineRule} {tokens : List Token}

theorem derivedRules_zero : DerivedRules L tokens 0 where
  expression _ _ := leads_tooDeep
  binary _ _ _ := leads_tooDeep
  unary _ _ := leads_tooDeep
  suffixed _ _ := leads_tooDeep
  arguments _ := leads_tooDeep
  primary _ _ := leads_tooDeep
  named _ _ _ _ := leads_tooDeep
  nodeBody _ _ := leads_tooDeep
  statement _ := leads_tooDeep
  block _ := leads_tooDeep
  binding _ _ := leads_tooDeep
  choice _ := leads_tooDeep
  arm _ := leads_tooDeep
  iteration _ := leads_tooDeep
  fnDecl _ := leads_tooDeep
  fieldDecl _ := leads_tooDeep
  typeDecl _ := leads_tooDeep

theorem level_of_operatorAt {level : Nat} {t : Token} {op : BinaryOp}
    (h : operatorAt? level t = some op) : operatorAt? op.level t = some op := by
  have hlevel : op.level = level := by
    unfold operatorAt? at h
    split at h
    · exact eq_of_beq (Option.mem_filter_iff.mp h).2
    · cases h
  rw [hlevel]
  exact h

/-- The word of a truth value says which one it is. -/
theorem isKeyword_bool {t : Token} (hk : t.kind = .keyword)
    (ht : (t.text = "true" || t.text = "false") = true) :
    t.isKeyword (if decide (t.text = "true") = true then "true" else "false") = true := by
  rw [Token.isKeyword, hk]
  by_cases htrue : t.text = "true" <;> simp_all

section Step

variable {d : Nat} (allow : L.Allows tokens) (ih : DerivedRules L tokens d)

include allow

theorem leads_chain (level : Nat) {operand : Parser Expr} {start : List Token}
    (ho : ∀ mid, Leads tokens mid operand (Begun L mid)) (hs : start <:+ tokens) (n : Nat) :
    ∀ (e : Expr) (mid : List Token), Begun L start e mid →
      Leads tokens mid (chain level operand n e) (Begun L start) := by
  induction n with
  | zero => exact fun _ _ he => leads_pure he
  | succ n ih =>
    rintro e mid ⟨he, hmid⟩
    refine leads_peek ?_
    rintro t s rfl
    split
    · exact leads_pure ⟨he, hmid⟩
    · next op hop =>
      refine leads_take (Token.isEnd_of_symbol hop) <| leads_bind (ho s)
        fun right stop hstop hright => ih _ stop ⟨?_, ?_⟩
      · exact .binary he (level_of_operatorAt hop) hright.1
          (allow.node hs (hmid.trans (List.tail_suffix start)) hstop)
      · exact hstop.trans ((List.suffix_cons t s).trans hmid)

theorem leads_suffixes {args : Parser (List Expr)} {start : List Token}
    (ha : ∀ mid, Leads tokens mid args (Within "(" ")" (Listed (ExprFrom L)) mid))
    (hs : start <:+ tokens) (n : Nat) :
    ∀ (e : Expr) (mid : List Token), Begun L start e mid →
      Leads tokens mid (suffixes args n e) (Begun L start) := by
  induction n with
  | zero => exact fun _ _ he => leads_pure he
  | succ n ih =>
    rintro e mid ⟨he, hmid⟩
    have hmid' : mid <:+ start := hmid.trans (List.tail_suffix start)
    refine leads_peek ?_
    rintro t s rfl
    refine leads_ite (fun ht => leads_take (Token.isEnd_of_isOp ht) (leads_name ?_)) fun _ =>
      leads_ite (fun _ => leads_bind (ha _) ?_) fun _ => leads_pure ⟨he, hmid⟩
    · rintro name s rfl hname
      have hname' : name :: s <:+ start := (List.suffix_cons t _).trans hmid'
      refine ih _ s ⟨.member he ht (.intro hname) ?_, ?_⟩
      · exact allow.node hs hname' (List.suffix_refl s)
      · exact (List.suffix_cons name s).trans ((List.suffix_cons t _).trans hmid)
    · rintro as stop hstop ⟨t', u, s', ⟨rfl, rfl⟩, ht', has, hu, hclose⟩
      refine leads_peek ?_
      rintro next rest rfl
      refine ih _ _ ⟨.call he (.intro ht' has hu) ?_, hstop.trans hmid⟩
      exact allow.call hs (hclose.trans ((List.suffix_cons t s).trans hmid')) hu

include ih

theorem leads_binary (level : Nat) (b : Bool) (start : List Token) :
    Leads tokens start (binary (d + 1) level b) (Begun L start) :=
  leads_within fun hs _ => leads_ite (fun _ => ih.unary b start) fun _ =>
    leads_bind (ih.binary _ b start) fun e mid _ he => leads_rounds fun n _ =>
      leads_chain allow level (ih.binary _ b) hs n e mid he

theorem leads_unary (b : Bool) (start : List Token) :
    Leads tokens start (unary (d + 1) b) (Begun L start) := by
  refine leads_within fun hs _ => leads_peek ?_
  rintro t s rfl
  split
  · next op hop =>
    exact leads_take (Token.isEnd_of_symbol hop) <| leads_bind (ih.unary b s)
      fun e stop hstop he => leads_pure ⟨.unary hop he.1 (allow.here hs hstop), hstop⟩
  · exact ih.suffixed b _

theorem leads_suffixed (b : Bool) (start : List Token) :
    Leads tokens start (suffixed (d + 1) b) (Begun L start) :=
  leads_within fun hs _ => leads_bind (ih.primary b start) fun e mid _ he =>
    leads_rounds fun n _ => leads_suffixes allow ih.arguments hs n e mid he

theorem leads_primary (b : Bool) (start : List Token) :
    Leads tokens start (primary (d + 1) b) (Begun L start) := by
  refine leads_within fun hs _ => leads_peek ?_
  rintro t s rfl
  have hline : L.node t.line (t :: s) s := allow.here hs (List.suffix_refl s)
  split
  · next hk =>
    refine leads_take (Token.isEnd_of_kind (hk ▸ nofun)) <|
      leads_bind (P := fun n stop => stop = s ∧ Decimal.readWhole t.text = .ok n)
        (leads_number fun n hn => ⟨rfl, hn⟩) ?_
    rintro n stop - ⟨rfl, hn⟩
    exact leads_pure ⟨.whole hk hn hline, List.suffix_refl stop⟩
  · next hk =>
    refine leads_take (Token.isEnd_of_kind (hk ▸ nofun)) <|
      leads_bind (P := fun x stop => stop = s ∧ Decimal.readFraction t.text = .ok x)
        (leads_number fun x hx => ⟨rfl, hx⟩) ?_
    rintro x stop - ⟨rfl, hx⟩
    exact leads_pure ⟨.fraction hk hx hline, List.suffix_refl stop⟩
  · next hk =>
    exact leads_take (Token.isEnd_of_kind (hk ▸ nofun)) <|
      leads_pure ⟨.text hk hline, List.suffix_refl s⟩
  · next hk =>
    have hend : t.isEnd = false := Token.isEnd_of_kind (hk ▸ nofun)
    refine leads_ite (fun ht => ?_) fun _ => leads_ite (fun ht => ?_) fun _ => leads_failAt _ _
    · refine leads_take hend <| leads_pure ⟨.bool (isKeyword_bool hk ht) hline, List.suffix_refl s⟩
    · have hnil : t.isKeyword "nil" = true := by rw [Token.isKeyword, hk, ht]; rfl
      exact leads_take hend <| leads_pure ⟨.nil hnil hline, List.suffix_refl s⟩
  · next hk => exact ih.named b s hk
  · next hk =>
    refine leads_ite (fun ht => ?_) fun _ => leads_ite (fun _ => ?_) fun _ => leads_failAt _ _
    · have hopen : t.isOp "(" = true := by rw [Token.isOp, hk, ht]; rfl
      refine leads_take (Token.isEnd_of_isOp hopen) <| leads_bind (ih.expression true s)
        fun e mid hmid he => leads_op ?_
      rintro u stop rfl hu
      exact leads_pure ⟨.group hopen he.1 hu, (List.suffix_cons u stop).trans hmid⟩
    · have hitem : ∀ start, Leads tokens start (expression d b)
          fun e stop => ExprFrom L e start stop :=
        fun start => leads_mono (ih.expression b start) fun _ _ _ he => he.1
      refine leads_bind (leads_bracketed _ _ hitem (t :: s)) ?_
      rintro items stop - ⟨t', u, s', ⟨rfl, rfl⟩, ht', hitems, hu, hclose⟩
      have hstop : stop <:+ s := (List.suffix_cons u stop).trans hclose
      exact leads_pure ⟨.array ht' hitems hu (allow.here hs hstop), hstop⟩
  · exact leads_failAt _ _

theorem leads_named (b : Bool) {t : Token} (s : List Token) (ht : t.kind = .ident) :
    Leads tokens (t :: s) (named (d + 1) b) (Begun L (t :: s)) := by
  refine leads_within fun hs _ => leads_take (Token.isEnd_of_kind (ht ▸ nofun)) <| leads_peek ?_
  have hname : NameFrom t.text (t :: s) s := .intro ht
  have hline : ∀ {stop}, stop <:+ s → L.node t.line (t :: s) stop := allow.here hs
  rintro next rest rfl
  refine leads_ite (fun hnext => ?_) fun _ => leads_ite (fun _ => ?_) fun _ =>
    leads_ite (fun _ => ?_) fun _ => leads_pure ⟨.ident hname (hline (List.suffix_refl _)), ?_⟩
  · obtain ⟨hk, hsame⟩ := hnext
    have hrest : rest <:+ next :: rest := List.suffix_cons next rest
    have harg : L.node next.line (next :: rest) rest :=
      allow.here ((List.suffix_cons t _).trans hs) (List.suffix_refl rest)
    refine leads_take (Token.isEnd_of_kind (hk ▸ nofun)) <| leads_peek fun _ _ _ =>
      leads_ite (fun _ => leads_bind (ih.nodeBody t.text rest) ?_) fun _ => ?_
    · rintro r stop hstop ⟨items, rfl, hbody⟩
      have hstop' : stop <:+ next :: rest := hstop.trans hrest
      exact leads_pure ⟨.captioned ht hk hsame harg hbody (hline hstop'), hstop'⟩
    · exact leads_pure ⟨.caption ht hk hsame harg (hline hrest), hrest⟩
  · refine leads_bind (ih.arguments (next :: rest)) ?_
    rintro args mid hmid ⟨t', u, s', ⟨rfl, rfl⟩, ht', hitems, hu, -⟩
    have hargs : ArgsFrom L args (next :: rest) mid := .intro ht' hitems hu
    refine leads_peek fun _ _ _ =>
      leads_ite (fun _ => leads_bind (ih.nodeBody t.text mid) ?_) fun _ => ?_
    · rintro r stop hstop ⟨items, rfl, hbody⟩
      have hstop' : stop <:+ next :: rest := hstop.trans hmid
      exact leads_pure ⟨.applied hname hargs hbody (hline hstop'), hstop'⟩
    · exact leads_pure ⟨.named hname (hline (List.suffix_refl _)) hargs (hline hmid), hmid⟩
  · refine leads_bind (ih.nodeBody t.text (next :: rest)) ?_
    rintro r stop hstop ⟨items, rfl, hbody⟩
    exact leads_pure ⟨.bare hname hbody (hline hstop), hstop⟩
  · exact List.suffix_refl _

theorem leads_nodeBody (kind : String) (start : List Token) :
    Leads tokens start (nodeBody (d + 1) kind)
      fun r stop => ∃ items, r = separate items ∧ BodyFrom L items start stop := by
  refine leads_bind (leads_braced (R := ItemFrom L) _ (fun s => ?_) start) ?_
  · refine leads_within fun hs _ => leads_peek ?_
    rintro t rest rfl
    refine leads_peekSecond fun u hu => leads_ite (fun hcond => ?_) fun _ => ?_
    · obtain ⟨hk, hcolon⟩ : t.kind = .ident ∧ u.isOp ":" = true := by simpa using hcond
      obtain ⟨_, mid, ⟨rfl, rfl⟩⟩ | ⟨rfl, -⟩ := hu
      · refine leads_take (Token.isEnd_of_kind (hk ▸ nofun)) <|
          leads_take (Token.isEnd_of_isOp hcolon) <|
            leads_bind (ih.expression true mid) fun value stop hstop hvalue => leads_pure ?_
        exact .property (.intro hk) hcolon hvalue.1
          (allow.here hs (hstop.trans (List.suffix_cons u mid)))
      · rw [Token.isOp, hk] at hcolon
        cases hcolon
    · exact leads_bind (ih.statement _) fun st stop _ hst => leads_pure (.stmt hst)
  · rintro items stop - ⟨t, u, s, rfl, ht, hitems, hu, -⟩
    exact leads_pure ⟨items, rfl, .intro ht hitems hu⟩

theorem leads_statement (start : List Token) :
    Leads tokens start (statement (d + 1)) fun st stop => StmtFrom L st start stop := by
  refine leads_within fun hs _ => leads_peek ?_
  rintro t s rfl
  refine leads_ite (fun _ => ih.typeDecl _) fun _ => leads_ite
    (fun _ => leads_bind (ih.fnDecl _) fun _ _ _ hfn => leads_pure (.fn hfn)) fun _ =>
    leads_ite (fun ht => ih.binding s ht) fun _ => leads_ite (fun _ => ih.choice _) fun _ =>
    leads_ite (fun _ => ih.iteration _) fun _ => leads_bind (ih.expression true _) ?_
  rintro e mid - ⟨he, hmid⟩
  refine leads_peek ?_
  rintro u rest rfl
  split
  · exact leads_pure (.expr he (allow.here hs hmid))
  · next op hop =>
    refine leads_take (Token.isEnd_of_symbol hop) ?_
    split
    · exact leads_failAt _ _
    · next target htarget =>
      refine leads_bind (ih.expression true rest) fun value stop hstop hvalue => leads_pure ?_
      have hstop' : stop <:+ s := hstop.trans ((List.suffix_cons u rest).trans hmid)
      exact .assign he htarget hop hvalue.1 (allow.here hs hstop')

/-- What a binding binds, behind its words: a name, a type and a value. -/
theorem leads_bound {t : Token} {s mid : List Token} {marked : Bool} (hs : t :: s <:+ tokens)
    (ht : (t.isKeyword "let" || t.isKeyword "var") = true) (hmid : mid <:+ s)
    (hmark : MarkFrom marked s mid) : Leads tokens mid (do
      let name ← expectName
      let type ← if (← peek).isOp "=" then pure none else some <$> typeName d
      let _ ← expectOp "="
      let value ← expression d true
      return Stmt.bind name.text value type (t.text == "var" || marked) t.line)
      fun st stop => StmtFrom L st (t :: s) stop := by
  refine leads_name ?_
  rintro n s₂ rfl hn
  have hvalue : ∀ (type : Option String) (s₃ : List Token), s₃ <:+ s₂ →
      Optionally TypeFrom type s₂ s₃ → Leads tokens s₃ (do
        let _ ← expectOp "="
        let value ← expression d true
        return Stmt.bind n.text value type (t.text == "var" || marked) t.line)
        fun st stop => StmtFrom L st (t :: s) stop := by
    intro type s₃ hs₃ htype
    refine leads_op ?_
    rintro u s₄ rfl hu
    refine leads_bind (ih.expression true s₄) fun value stop hstop hvalue => leads_pure ?_
    have hall : stop <:+ s := hstop.trans <| (List.suffix_cons u s₄).trans <| hs₃.trans <|
      (List.suffix_cons n s₂).trans hmid
    exact .bind ht hmark (.intro hn) htype hu hvalue.1 (allow.here hs hall)
  refine leads_peek fun _ _ _ => leads_ite (fun _ => ?_) fun _ => ?_
  · exact leads_bind (P := fun type s₃ => Optionally TypeFrom type s₂ s₃) (leads_pure .none) hvalue
  · exact leads_bind (P := fun type s₃ => Optionally TypeFrom type s₂ s₃)
      (leads_map (leads_typeName d s₂) fun _ _ _ htype => .some htype) hvalue

theorem leads_binding {t : Token} (s : List Token)
    (ht : (t.isKeyword "let" || t.isKeyword "var") = true) :
    Leads tokens (t :: s) (binding (d + 1)) fun st stop => StmtFrom L st (t :: s) stop := by
  have hend : t.isEnd = false :=
    (Bool.or_eq_true _ _ ▸ ht).elim Token.isEnd_of_isKeyword Token.isEnd_of_isKeyword
  refine leads_within fun hs _ => leads_take hend <| leads_peek ?_
  rintro m mid rfl
  cases hm : m.isKeyword "mut" with
  | true =>
    exact leads_take (Token.isEnd_of_isKeyword hm) <|
      leads_bound allow ih hs ht (List.suffix_cons m mid) (.some hm)
  | false => exact leads_bound allow ih hs ht (List.suffix_refl _) .none

theorem leads_choice (start : List Token) :
    Leads tokens start (choice (d + 1)) fun st stop => StmtFrom L st start stop := by
  refine leads_within fun hs _ => leads_keyword ?_
  rintro t s rfl ht
  refine leads_bind (ih.expression false s) fun subject mid hmid hsubject =>
    leads_bind (leads_braced _ ih.arm mid) ?_
  rintro arms stop hstop ⟨u, v, s', rfl, hu, harms, hv, -⟩
  exact leads_pure (.choose ht hsubject.1 hu harms hv (allow.here hs (hstop.trans hmid)))

/-- What an arm does, behind its pattern. -/
theorem leads_action {t : Token} {s mid : List Token} {pattern : Option Expr}
    (hs : t :: s <:+ tokens) (hmid : mid <:+ s)
    (harm : ∀ u rest body stop, mid = u :: rest → u.isOp "=>" = true →
      ActionFrom L body rest stop → L.node t.line (t :: s) stop →
      ArmFrom L ⟨pattern, body, t.line⟩ (t :: s) stop) : Leads tokens mid (do
      let _ ← expectOp "=>"
      let body ← if (← peek).isOp "\x7b" then block d else List.singleton <$> statement d
      return (⟨pattern, body, t.line⟩ : Arm)) fun a stop => ArmFrom L a (t :: s) stop := by
  refine leads_op ?_
  rintro u rest rfl hu
  have hall : ∀ body stop, stop <:+ rest → ActionFrom L body rest stop →
      Leads tokens stop (pure (⟨pattern, body, t.line⟩ : Arm))
        fun a stop => ArmFrom L a (t :: s) stop := fun body stop hstop hbody =>
    leads_pure <| harm u rest body stop rfl hu hbody <|
      allow.here hs (hstop.trans ((List.suffix_cons u rest).trans hmid))
  refine leads_peek fun _ _ _ => leads_ite (fun _ => ?_) fun _ => ?_
  · exact leads_bind (ih.block rest) fun body stop hstop hb => hall body stop hstop (.block hb)
  · exact leads_bind (P := fun body stop => ActionFrom L body rest stop)
      (leads_map (ih.statement rest) fun _ _ _ hst => .stmt hst) hall

theorem leads_arm (start : List Token) :
    Leads tokens start (arm (d + 1)) fun a stop => ArmFrom L a start stop := by
  refine leads_within fun hs _ => leads_peek ?_
  rintro t s rfl
  refine leads_ite (fun ht => leads_take ?_ ?_) fun _ => ?_
  · rw [Bool.or_eq_true, Bool.and_eq_true, beq_iff_eq] at ht
    exact ht.elim Token.isEnd_of_isKeyword fun h => Token.isEnd_of_kind (h.1 ▸ nofun)
  · refine leads_bind (P := fun p mid => p = none ∧ mid = s) (leads_pure ⟨rfl, rfl⟩) ?_
    rintro _ mid - ⟨rfl, rfl⟩
    refine leads_action allow ih hs (List.suffix_refl mid) ?_
    rintro u rest body stop rfl hu hbody hline
    exact .wild ht hu hbody hline
  · refine leads_bind (P := fun p mid => ∃ e, p = some e ∧ Begun L (t :: s) e mid)
      (leads_map (ih.expression false _) fun e _ _ he => ⟨e, rfl, he⟩) ?_
    rintro _ mid - ⟨e, rfl, he, hmid⟩
    refine leads_action allow ih hs hmid ?_
    rintro u rest body stop rfl hu hbody hline
    exact .pattern he hu hbody hline

theorem leads_iteration (start : List Token) :
    Leads tokens start (iteration (d + 1)) fun st stop => StmtFrom L st start stop := by
  refine leads_within fun hs _ => leads_keyword ?_
  rintro t s rfl ht
  refine leads_name ?_
  rintro n s rfl hn
  refine leads_keyword ?_
  rintro u s rfl hu
  refine leads_bind (ih.expression false s) fun items mid hmid hitems =>
    leads_bind (ih.block mid) fun body stop hstop hbody => leads_pure ?_
  have hall : stop <:+ n :: u :: s :=
    hstop.trans <| hmid.trans <| (List.suffix_cons u s).trans (List.suffix_cons n _)
  exact .each ht (.intro hn) hu hitems.1 hbody (allow.here hs hall)

theorem leads_fnDecl (start : List Token) :
    Leads tokens start (fnDecl (d + 1)) fun decl stop => FnFrom L decl start stop := by
  refine leads_within fun hs _ => leads_keyword ?_
  rintro t s rfl ht
  refine leads_name ?_
  rintro n s rfl hn
  refine leads_bind (leads_bracketed _ _ (leads_param d) s) ?_
  rintro params s₂ hs₂ ⟨u, v, s₁, rfl, hu, hparams, hv, -⟩
  refine leads_bind (leads_optionalType d s₂) fun result s₃ hs₃ hresult =>
    leads_bind (ih.block s₃) fun body stop hstop hbody => leads_pure ?_
  have hall : stop <:+ n :: u :: s₁ := hstop.trans <| hs₃.trans <| hs₂.trans (List.suffix_cons n _)
  exact .intro ht (.intro hn) hu hparams hv hresult hbody (allow.here hs hall)

theorem leads_fieldDecl (start : List Token) :
    Leads tokens start (fieldDecl (d + 1))
      fun decl stop => MemberFrom L (.inl decl) start stop := by
  refine leads_within fun hs _ => leads_name ?_
  rintro n s rfl hn
  refine leads_bind (leads_typeName d s) fun type mid hmid htype => leads_peek ?_
  rintro t rest rfl
  refine leads_ite (fun ht => leads_take (Token.isEnd_of_isOp ht) <|
    leads_bind (ih.expression true rest) fun value stop hstop hvalue => leads_pure ?_) fun _ =>
    leads_pure (.plain (.intro hn) htype (allow.here hs hmid))
  exact .initial (.intro hn) htype ht hvalue.1
    (allow.here hs (hstop.trans ((List.suffix_cons t rest).trans hmid)))

theorem leads_typeDecl (start : List Token) :
    Leads tokens start (typeDecl (d + 1)) fun st stop => StmtFrom L st start stop := by
  refine leads_within fun hs _ => leads_keyword ?_
  rintro t s rfl ht
  refine leads_name ?_
  rintro n s rfl hn
  refine leads_bind (leads_specs s) fun specs mid hmid hspecs =>
    leads_bind (leads_braced (R := MemberFrom L) _ (fun s => ?_) mid) ?_
  · exact leads_peek fun _ _ _ => leads_ite
      (fun _ => leads_bind (ih.fnDecl s) fun _ _ _ hfn => leads_pure (.method hfn))
      fun _ => leads_bind (ih.fieldDecl s) fun _ _ _ hfield => leads_pure hfield
  · rintro items stop hstop ⟨u, v, s₂, rfl, hu, hitems, hv, -⟩
    have hall : stop <:+ n :: s := hstop.trans <| hmid.trans (List.suffix_cons n s)
    exact leads_pure (.type ht (.intro hn) hspecs hu hitems hv (allow.here hs hall))

theorem derivedRules_succ : DerivedRules L tokens (d + 1) where
  expression b start := ih.binary 0 b start
  binary := leads_binary allow ih
  unary := leads_unary allow ih
  suffixed := leads_suffixed allow ih
  arguments := leads_bracketed _ _ fun start => leads_mono (ih.expression true start)
    fun _ _ _ he => he.1
  primary := leads_primary allow ih
  named b _ rest := leads_named allow ih b rest
  nodeBody := leads_nodeBody allow ih
  statement := leads_statement allow ih
  block start := by
    refine leads_mono (leads_braced _ ih.statement start) ?_
    rintro body stop - ⟨t, u, s, rfl, ht, hbody, hu, -⟩
    exact .intro ht hbody hu
  binding rest := leads_binding allow ih rest
  choice := leads_choice allow ih
  arm := leads_arm allow ih
  iteration := leads_iteration allow ih
  fnDecl := leads_fnDecl allow ih
  fieldDecl := leads_fieldDecl allow ih
  typeDecl := leads_typeDecl allow ih

end Step

theorem derivedRules (allow : L.Allows tokens) (d : Nat) : DerivedRules L tokens d := by
  induction d with
  | zero => exact derivedRules_zero
  | succ d ih => exact derivedRules_succ allow ih

/-! ## Whole texts -/

/-- A statement takes a token at least. -/
theorem shorter_of_stmtFrom (allow : L.Allows tokens) {st : Stmt} {start stop : List Token}
    (h : StmtFrom L st start stop) : stop.length < start.length := by
  cases h with
  | expr _ hl => exact allow.shorter hl
  | assign _ _ _ _ hl => exact allow.shorter hl
  | bind _ _ _ _ _ _ hl => exact allow.shorter hl
  | choose _ _ _ _ _ hl => exact allow.shorter hl
  | each _ _ _ _ _ hl => exact allow.shorter hl
  | fn hfn =>
    cases hfn with
    | intro _ _ _ _ _ _ _ hl => exact allow.shorter hl
  | type _ _ _ _ _ _ hl => exact allow.shorter hl

/-- All statements up to the end, as long as there are rounds for all tokens. -/
theorem leads_statementsToEnd (allow : L.Allows tokens) {statement : Parser Stmt}
    (hst : ∀ start, Leads tokens start statement fun st stop => StmtFrom L st start stop)
    (n : Nat) : ∀ start, start.length ≤ n + 1 →
      Leads tokens start (statementsToEnd statement n) fun sts _ => CodeFrom L sts start := by
  induction n with
  | zero =>
    refine fun start hn => leads_within fun _ hended => leads_pure ?_
    cases hended with
    | last he => exact ⟨_, he, .nil⟩
    | cons _ hts => cases hts <;> simp at hn
  | succ n ih =>
    refine fun start hn => leads_within fun _ hended => leads_peek ?_
    rintro t rest rfl
    refine leads_ite (fun ht => leads_pure ?_) fun _ => leads_bind (hst _) fun st mid hmid hs =>
      leads_skip ?_
    · cases hended.eq_nil ht
      exact ⟨t, ht, .nil⟩
    · rintro seps mid rfl hseps
      have hlt := shorter_of_stmtFrom allow hs
      rw [List.length_append] at hlt
      refine leads_bind (ih mid (by omega)) ?_
      rintro sts stop - ⟨e, he, hsts⟩
      exact leads_pure ⟨e, he, .cons hs (.skips hseps hsts)⟩

theorem leads_code (allow : L.Allows tokens) (d : Nat) (start : List Token) :
    Leads tokens start (code d) fun sts _ => CodeFrom L sts start := by
  refine leads_skip ?_
  rintro seps mid rfl hseps
  refine leads_rounds fun n hn => leads_mono
    (leads_statementsToEnd allow (derivedRules allow d).statement n mid hn.le) ?_
  rintro sts stop - ⟨e, he, hsts⟩
  exact ⟨e, he, .skips hseps hsts⟩

end Parser

/-- **Every parsed text is derived**, under a rule for lines that allows what the parser does. -/
theorem parse_derived {source : String} {file : Option String} {c : Code}
    (h : parse source file = .ok c) : ∃ ts, tokenize source file = .ok ts ∧
      ∀ L : LineRule, L.Allows ts → CodeFrom L c.stmts ts := by
  rw [parse, Parser.run] at h
  cases ht : tokenize source file with
  | error e =>
    rw [ht] at h
    cases h
  | ok ts =>
    simp only [ht] at h
    refine ⟨ts, rfl, fun L allow => ?_⟩
    have hended : Ended ts := (lexed_of_tokenize ht).ended
    have hall : (Stream.ofTokens ts).ahead ++ [(Stream.ofTokens ts).last] = ts := by
      have hne : ts ≠ [] := by rintro rfl; cases hended
      rw [Stream.ofTokens, List.getLast?_eq_some_getLast hne]
      exact List.dropLast_append_getLast hne
    have hstands : Parser.Stands ts ts (Stream.ofTokens ts) := ⟨hall, List.suffix_refl ts, hended⟩
    cases hr : StateT.run (Parser.code nestingLimit) (Stream.ofTokens ts) with
    | error e =>
      rw [hr] at h
      cases h
    | ok r =>
      rw [hr] at h
      cases h
      obtain ⟨-, -, -, hcode⟩ := Parser.leads_code allow nestingLimit ts _ hstands r.1 r.2 hr
      exact hcode

end Widgetry
