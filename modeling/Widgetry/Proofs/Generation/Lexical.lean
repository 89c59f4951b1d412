import Widgetry.Generation.Sink
import Widgetry.Language.Lexer
import Widgetry.Text.Identifier

/-!
# Reading generated source by its brackets

What is a text, what is a comment and which bracket closes which, as generated source is read from
its first character to its last. A comment ends with its line, whatever stands there.

> `balanced`: all brackets outside texts and comments are closed, each by its own kind and in order;
> `whole`: besides, all comments are remarks that the generator makes, with nothing behind them.

`Moves` says what reading a piece of source does to the brackets that are still to be closed, and
whether it can be read at all. It composes along `++`, so nothing further on is proved by looking at
single characters. `Blocks` says the same of lines, wherever these are indented to.
-/

namespace Widgetry

namespace Lexical

/-! ## Reading -/

/-- What stands in the middle of being read. -/
inductive Mode where
  | code
  /-- behind the first quote of a text -/
  | opened (quote : Char)
  /-- behind two quotes: an empty text, unless a third one begins a long text -/
  | doubled (quote : Char)
  | text (quote : Char)
  | escaped (quote : Char)
  /-- in a long text, behind so many quotes in a row -/
  | long (quote : Char) (count : Nat)
  | longEscaped (quote : Char)
  /-- in a comment, with its characters so far, the last one first -/
  | comment (cs : List Char)

/-- Whether a character ends a line. -/
def isBreak (c : Char) : Bool := c == '\n' || c == '\r'

/-- The bracket that closes another. -/
def closer? (c : Char) : Option Char :=
  [('(', ')'), ('[', ']'), ('\x7b', '\x7d')].lookup c

def isCloser (c : Char) : Bool := [')', ']', '\x7d'].contains c

/-- Reads a character outside texts and comments; `due` has the brackets that are to come, the next
one first. -/
def codeStep (due : List Char) (c : Char) : Option (Mode × List Char) :=
  if c = '#' then some (.comment [], due)
  else if c = '"' ∨ c = '\'' then some (.opened c, due)
  else match closer? c with
    | some d => some (.code, d :: due)
    | none =>
      if isCloser c then
        match due with
        | d :: rest => if c = d then some (.code, rest) else none
        | [] => none
      else some (.code, due)

/-- Reads a character of a text. -/
def textStep (quote : Char) (due : List Char) (c : Char) : Option (Mode × List Char) :=
  if c = '\\' then some (.escaped quote, due)
  else if c = quote then some (.code, due)
  else if isBreak c then none
  else some (.text quote, due)

/-- Reads a character; `ok` is asked about each comment. -/
def step (ok : List Char → Bool) : Mode → List Char → Char → Option (Mode × List Char)
  | .code, due, c => codeStep due c
  | .opened q, due, c => if c = q then some (.doubled q, due) else textStep q due c
  | .doubled q, due, c => if c = q then some (.long q 0, due) else codeStep due c
  | .text q, due, c => textStep q due c
  | .escaped q, due, _ => some (.text q, due)
  | .long q n, due, c =>
    if c = '\\' then some (.longEscaped q, due)
    else if c = q then some (if n = 2 then .code else .long q (n + 1), due)
    else some (.long q 0, due)
  | .longEscaped q, due, _ => some (.long q 0, due)
  | .comment cs, due, c =>
    if isBreak c then if ok cs.reverse then some (.code, due) else none
    else some (.comment (c :: cs), due)

/-- Whether source may end there. -/
def ends (ok : List Char → Bool) : Mode → Bool
  | .code | .doubled _ => true
  | .comment cs => ok cs.reverse
  | _ => false

/-- Whether the rest of some source can be read to its end, where no bracket is due. -/
def scan (ok : List Char → Bool) : Mode → List Char → List Char → Bool
  | m, due, [] => ends ok m && due.isEmpty
  | m, due, c :: cs =>
    match step ok m due c with
    | some (m, due) => scan ok m due cs
    | none => false

/-- Whether a character may stand in a name, in the language or in generated source. -/
def nameChar (c : Char) : Bool := Lexer.continuesWord c || Text.continuesIdentifier c

/-- How remarks begin, and what may follow there. -/
def remarks : List (String × (Char → Bool)) :=
  [(" nested node: ", nameChar), (" unknown call: ", nameChar),
    (" unsupported statement: ", nameChar),
    (" no view event references ", fun c => nameChar c || c == '.'),
    (" Generated by auto-ui. Do not edit by hand.", fun _ => false), (" Source: ", fun _ => true)]

/-- Whether a comment is a remark that the generator makes, and no more than that. -/
def isRemark (cs : List Char) : Bool :=
  remarks.any fun r => r.1.toList.isPrefixOf cs && (cs.drop r.1.toList.length).all r.2

/-- Whether the brackets outside texts and comments are balanced. -/
def balanced (source : String) : Bool := scan (fun _ => true) .code [] source.toList

/-- Whether, besides, no comment has swallowed what was to follow it on its line. -/
def whole (source : String) : Bool := scan isRemark .code [] source.toList

section

variable {ok ok' : List Char → Bool}

theorem step_mono (hok : ∀ cs, ok cs → ok' cs) {m m' : Mode} {due due' : List Char} {c : Char}
    (h : step ok m due c = some (m', due')) : step ok' m due c = some (m', due') := by
  cases m with
  | comment cs =>
    simp only [step] at h ⊢
    split
    · next hbreak =>
      rw [if_pos hbreak] at h
      split at h
      · next hcs => rwa [if_pos (hok _ hcs)]
      · cases h
    · next hbreak => rwa [if_neg hbreak] at h
  | _ => exact h

theorem scan_mono (hok : ∀ cs, ok cs → ok' cs) {cs : List Char} :
    ∀ {m : Mode} {due : List Char}, scan ok m due cs → scan ok' m due cs := by
  induction cs with
  | nil =>
    intro m due h
    simp only [scan, Bool.and_eq_true] at h ⊢
    refine ⟨?_, h.2⟩
    cases m with
    | comment cs => exact hok _ h.1
    | _ => exact h.1
  | cons c cs ih =>
    intro m due h
    rw [scan] at h ⊢
    cases hstep : step ok m due c with
    | none =>
      rw [hstep] at h
      cases h
    | some r =>
      rw [hstep] at h
      rw [step_mono hok hstep]
      exact ih h

end

/-- Source that is whole is balanced. -/
theorem whole_balanced {source : String} (h : whole source) : balanced source :=
  scan_mono (fun _ _ => rfl) h

/-! ## Pieces of source -/

/-- Reads on outside texts and comments. -/
abbrev read (due cs : List Char) : Bool := scan isRemark .code due cs

/-- Whether reading a piece, with what may follow it, closes the brackets `ds` and leaves `ds'` to
be closed; with `b` false it cannot be read to its end. -/
def Moves (P : List Char → Prop) (b : Bool) (ds ds' : List Char) (s : String) : Prop :=
  ∀ due k, P k → read (ds ++ due) (s.toList ++ k) = (b && read (ds' ++ due) k)

/-- What follows may be anything. -/
def Any : List Char → Prop := fun _ => True

/-- What follows is on the same line and goes on with no name and no text. -/
def Interrupted (k : List Char) : Prop :=
  ∃ c rest, k = c :: rest ∧ c ≠ '"' ∧ nameChar c = false ∧ isBreak c = false

/-- The line ends there. -/
def LineEnd (k : List Char) : Prop := ∃ rest, k = '\n' :: rest

/-- What follows is no quote. -/
def Unquoted (k : List Char) : Prop := k.head? ≠ some '"'

theorem Interrupted.unquoted {k : List Char} (h : Interrupted k) : Unquoted k := by
  obtain ⟨c, rest, rfl, hc, -, -⟩ := h
  intro he
  exact hc (Option.some.inj he)

theorem LineEnd.unquoted {k : List Char} (h : LineEnd k) : Unquoted k := by
  obtain ⟨rest, rfl⟩ := h
  intro he
  exact absurd (Option.some.inj he) (by decide)

/-- Whether a piece begins so that it may follow any other on its line. -/
def Interrupts (s : String) : Prop :=
  ∃ c, s.toList.head? = some c ∧ c ≠ '"' ∧ nameChar c = false ∧ isBreak c = false

theorem Interrupts.follows {s : String} (h : Interrupts s) (k : List Char) :
    Interrupted (s.toList ++ k) := by
  obtain ⟨c, hhead, hc⟩ := h
  cases hs : s.toList with
  | nil =>
    rw [hs] at hhead
    cases hhead
  | cons d rest =>
    rw [hs] at hhead
    cases hhead
    exact ⟨_, rest ++ k, rfl, hc⟩

theorem Interrupts.append {s : String} (h : Interrupts s) (t : String) : Interrupts (s ++ t) := by
  obtain ⟨c, rest, he, hc⟩ := h.follows t.toList
  exact ⟨c, by rw [String.toList_append, he]; rfl, hc⟩

/-- The signs that stand behind something on its line. -/
def signs : List Char := [' ', ',', '.', ':', '(', ')', ']', '\x7d']

theorem interrupts_of {s : String} {c : Char} (h : s.toList.head? = some c) (hc : c ∈ signs) :
    Interrupts s := by
  have hall : signs.all (fun c => c != '"' && !nameChar c && !isBreak c) = true := by
    decide +kernel
  have hsign := List.all_eq_true.mp hall c hc
  simp only [Bool.and_eq_true, bne_iff_ne, Bool.not_eq_true'] at hsign
  exact ⟨c, h, hsign.1.1, hsign.1.2, hsign.2⟩

section Moves

variable {P Q : List Char → Prop} {b b' : Bool} {ds ds₁ ds' : List Char} {s t : String}

theorem Moves.weaken (h : Moves P b ds ds' s) (hPQ : ∀ k, Q k → P k) : Moves Q b ds ds' s :=
  fun due k hk => h due k (hPQ k hk)

theorem Moves.any (h : Moves Any b ds ds' s) : Moves P b ds ds' s :=
  h.weaken fun _ _ => trivial

theorem Moves.within (h : Moves Unquoted b ds ds' s) : Moves Interrupted b ds ds' s :=
  h.weaken fun _ hk => hk.unquoted

theorem Moves.last (h : Moves Unquoted b ds ds' s) : Moves LineEnd b ds ds' s :=
  h.weaken fun _ hk => hk.unquoted

/-- What a piece does it does inside other brackets too. -/
theorem Moves.frame (h : Moves P b [] [] s) : Moves P b ds ds s := by
  intro due k hk
  exact h (ds ++ due) k hk

theorem Moves.empty : Moves P true ds ds "" := fun _ _ _ => rfl

/-- Pieces are read one after the other. -/
theorem Moves.append (hs : Moves P b ds ds₁ s) (ht : Moves Q b' ds₁ ds' t)
    (hfollow : ∀ k, Q k → P (t.toList ++ k)) : Moves Q (b && b') ds ds' (s ++ t) := by
  intro due k hk
  rw [String.toList_append, List.append_assoc, hs due _ (hfollow k hk), ht due k hk, Bool.and_assoc]

/-- A piece that may stand in the middle of a line, and what goes on there. -/
theorem Moves.then (hs : Moves Interrupted b ds ds₁ s) (hstart : Interrupts t)
    (ht : Moves Q b' ds₁ ds' t) : Moves Q (b && b') ds ds' (s ++ t) :=
  hs.append ht fun k _ => hstart.follows k

/-- What goes on there can always be read. -/
theorem Moves.closed (hs : Moves Interrupted b ds ds₁ s) (hstart : Interrupts t)
    (ht : Moves Q true ds₁ ds' t) : Moves Q b ds ds' (s ++ t) :=
  Bool.and_true b ▸ hs.then hstart ht

/-- A piece that may stand anywhere, and what goes on there. -/
theorem Moves.both (hs : Moves Any b ds ds₁ s) (ht : Moves Q b' ds₁ ds' t) :
    Moves Q (b && b') ds ds' (s ++ t) :=
  hs.append ht fun _ _ => trivial

/-- What stands in front can always be read. -/
theorem Moves.after (hs : Moves Any true ds ds₁ s) (ht : Moves Q b ds₁ ds' t) :
    Moves Q b ds ds' (s ++ t) :=
  Bool.true_and b ▸ hs.both ht

/-- What stands behind can always be read. -/
theorem Moves.before (hs : Moves Any b ds ds₁ s) (ht : Moves Q true ds₁ ds' t) :
    Moves Q b ds ds' (s ++ t) :=
  Bool.and_true b ▸ hs.both ht

end Moves

/-! ## What pieces consist of -/

/-- Whether reading a character outside texts changes nothing. -/
def isPlain (c : Char) : Bool :=
  !(['#', '"', '\'', '(', '[', '\x7b'].contains c || isCloser c)

/-- Reads source without texts and comments. -/
def pushes : List Char → List Char → Option (List Char)
  | ds, [] => some ds
  | ds, c :: cs =>
    match codeStep ds c with
    | some (.code, ds) => pushes ds cs
    | _ => none

theorem codeStep_append {ds ds' due : List Char} {c : Char}
    (h : codeStep ds c = some (.code, ds')) :
    codeStep (ds ++ due) c = some (.code, ds' ++ due) := by
  unfold codeStep at h ⊢
  by_cases hhash : c = '#'
  · rw [if_pos hhash] at h
    cases h
  by_cases hquote : c = '"' ∨ c = '\''
  · rw [if_neg hhash, if_pos hquote] at h
    cases h
  rw [if_neg hhash, if_neg hquote] at h ⊢
  cases hcloser : closer? c with
  | some d =>
    rw [hcloser] at h
    cases h
    rfl
  | none =>
    rw [hcloser] at h
    dsimp only at h ⊢
    by_cases hc : isCloser c
    · rw [if_pos hc] at h ⊢
      cases ds with
      | nil => cases h
      | cons d rest =>
        dsimp only [List.cons_append] at h ⊢
        by_cases hd : c = d
        · rw [if_pos hd] at h ⊢
          cases h
          rfl
        · rw [if_neg hd] at h
          cases h
    · rw [if_neg hc] at h ⊢
      cases h
      rfl

theorem read_pushes {cs : List Char} :
    ∀ {ds ds' : List Char}, pushes ds cs = some ds' →
      ∀ due k, read (ds ++ due) (cs ++ k) = read (ds' ++ due) k := by
  induction cs with
  | nil =>
    intro ds ds' h due k
    cases h
    rfl
  | cons c cs ih =>
    intro ds ds' h due k
    rw [pushes] at h
    split at h
    · next ds₁ hstep =>
      rw [List.cons_append, read, scan, step, codeStep_append hstep]
      exact ih h due k
    · cases h

/-- A piece without texts and comments does what it does by its brackets. -/
theorem moves_fixed {P : List Char → Prop} {ds ds' : List Char} {s : String}
    (h : pushes ds s.toList = some ds') : Moves P true ds ds' s := by
  intro due k _
  exact read_pushes h due k

theorem codeStep_plain {c : Char} (h : isPlain c = true) (ds : List Char) :
    codeStep ds c = some (.code, ds) := by
  have hne : ∀ d, d ∈ ['#', '"', '\'', '(', '[', '\x7b'] → c ≠ d := by
    rintro d hd rfl
    rw [isPlain, List.contains_iff_mem.mpr hd] at h
    cases h
  have hcloser : isCloser c = false := by
    rw [← Bool.not_eq_true]
    intro hc
    rw [isPlain, hc, Bool.or_true] at h
    cases h
  have hnone : closer? c = none := by
    rw [closer?, List.lookup_eq_none_iff]
    intro p hp
    have hmem : p.1 ∈ ['(', '[', '\x7b'] := List.mem_map_of_mem hp
    have hspecial : p.1 ∈ ['#', '"', '\''] ++ ['(', '[', '\x7b'] := List.mem_append_right _ hmem
    exact bne_iff_ne.mpr (hne p.1 hspecial)
  unfold codeStep
  rw [if_neg (hne '#' (by decide)),
    if_neg (not_or.mpr ⟨hne '"' (by decide), hne '\'' (by decide)⟩), hnone]
  dsimp only
  rw [if_neg (by rw [hcloser]; decide)]

theorem pushes_plain {cs : List Char} (h : ∀ c ∈ cs, isPlain c = true) (ds : List Char) :
    pushes ds cs = some ds := by
  induction cs with
  | nil => rfl
  | cons c cs ih =>
    rw [pushes, codeStep_plain (h c List.mem_cons_self)]
    exact ih fun d hd => h d (List.mem_cons_of_mem _ hd)

/-- A piece without brackets, texts and comments does nothing. -/
theorem moves_plain {P : List Char → Prop} {ds : List Char} {s : String}
    (h : ∀ c ∈ s.toList, isPlain c = true) : Moves P true ds ds s :=
  moves_fixed (pushes_plain h ds)

/-! ## Names -/

/-- Whether a text has only characters of names. -/
def Named (s : String) : Prop := ∀ c ∈ s.toList, nameChar c = true

theorem plain_of_nameChar {c : Char} (h : nameChar c = true) : isPlain c = true := by
  have hall : (['#', '"', '\'', '(', '[', '\x7b'] ++ [')', ']', '\x7d']).all
      (fun d => !nameChar d) = true := by decide +kernel
  rw [isPlain, Bool.not_eq_true', ← Bool.not_eq_true]
  intro hc
  have hmem : c ∈ ['#', '"', '\'', '(', '[', '\x7b'] ++ [')', ']', '\x7d'] := by
    rw [List.mem_append]
    rcases Bool.or_eq_true_iff.mp hc with hc | hc
    · exact Or.inl (List.contains_iff_mem.mp hc)
    · exact Or.inr (List.contains_iff_mem.mp hc)
  have hnot := List.all_eq_true.mp hall c hmem
  rw [h] at hnot
  cases hnot

/-- A name does nothing. -/
theorem Named.moves {P : List Char → Prop} {ds : List Char} {s : String} (h : Named s) :
    Moves P true ds ds s :=
  moves_plain fun c hc => plain_of_nameChar (h c hc)

theorem Named.append {s t : String} (hs : Named s) (ht : Named t) : Named (s ++ t) := by
  intro c hc
  rw [String.toList_append] at hc
  rcases List.mem_append.mp hc with hc | hc
  · exact hs c hc
  · exact ht c hc

theorem named_of_isIdentifier {s : String} (h : Text.isIdentifier s = true) : Named s := by
  intro c hc
  rw [nameChar, Text.continues_of_mem h hc, Bool.or_true]

/-! ## Comments -/

/-- A comment reaches to the end of its line. -/
theorem scan_comment {cs : List Char} (hcs : ∀ c ∈ cs, isBreak c = false) :
    ∀ (before due k : List Char), scan isRemark (.comment before) due (cs ++ k)
      = scan isRemark (.comment (cs.reverse ++ before)) due k := by
  induction cs with
  | nil => exact fun _ _ _ => rfl
  | cons c cs ih =>
    intro before due k
    have hc : step isRemark (.comment before) due c = some (.comment (c :: before), due) :=
      if_neg (by rw [hcs c List.mem_cons_self]; decide)
    rw [List.cons_append, scan, hc]
    dsimp only
    rw [ih (fun d hd => hcs d (List.mem_cons_of_mem _ hd)), List.reverse_cons, List.append_assoc]
    rfl

/-- What is no remark now will be none. -/
def Spoilt (cs : List Char) : Prop := ∀ more, isRemark (cs ++ more) = false

theorem scan_spoilt {k : List Char} :
    ∀ {cs : List Char} (due : List Char), Spoilt cs.reverse →
      scan isRemark (.comment cs) due k = false := by
  induction k with
  | nil =>
    intro cs due h
    have hcs := h []
    rw [List.append_nil] at hcs
    rw [scan, ends, hcs, Bool.false_and]
  | cons c k ih =>
    intro cs due h
    have hcs := h []
    rw [List.append_nil] at hcs
    rw [scan, step]
    by_cases hc : isBreak c
    · rw [if_pos hc, hcs]
      rfl
    · rw [if_neg hc]
      refine ih due fun more => ?_
      rw [List.reverse_cons, List.append_assoc]
      exact h ([c] ++ more)

/-- A remark at the end of its line is passed over. -/
theorem moves_remark {cs : List Char} (hcs : ∀ c ∈ cs, isBreak c = false)
    (h : isRemark cs = true) (due : List Char) {k : List Char} (hk : LineEnd k) :
    read due ('#' :: cs ++ k) = read due k := by
  obtain ⟨rest, rfl⟩ := hk
  have hhash : step isRemark .code due '#' = some (.comment [], due) := rfl
  have hend : step isRemark (.comment cs.reverse) due '\n' = some (.code, due) := by
    rw [step, if_pos (by decide), List.reverse_reverse, h]
    rfl
  have hplain : step isRemark .code due '\n' = some (.code, due) := by
    rw [step]
    exact codeStep_plain (by decide) due
  rw [List.cons_append, read, scan, hhash]
  dsimp only
  rw [scan_comment hcs, List.append_nil, scan, hend, read, scan, hplain]

/-- A comment that has become no remark spoils the source. -/
theorem moves_spoilt {cs : List Char} (hcs : ∀ c ∈ cs, isBreak c = false) (h : Spoilt cs)
    (due k : List Char) : read due ('#' :: cs ++ k) = false := by
  have hhash : step isRemark .code due '#' = some (.comment [], due) := rfl
  rw [List.cons_append, read, scan, hhash]
  dsimp only
  rw [scan_comment hcs, List.append_nil]
  exact scan_spoilt due (by rwa [List.reverse_reverse])

theorem isRemark_of {r : String × (Char → Bool)} (hr : r ∈ remarks) {cs : List Char}
    (h : ∀ c ∈ cs, r.2 c = true) : isRemark (r.1.toList ++ cs) = true := by
  refine List.any_eq_true.mpr ⟨r, hr, ?_⟩
  rw [Bool.and_eq_true]
  constructor
  · exact List.isPrefixOf_iff_prefix.mpr (List.prefix_append _ _)
  · rw [List.drop_left]
    exact List.all_eq_true.mpr h

/-! ## Lines -/

/-- Whether some texts are lines as they are written: each indented somehow, and empty ones perhaps
left out. -/
inductive Shows : List Line → List String → Prop where
  | nil : Shows [] []
  | line {l : Line} {ls : List Line} {ts : List String} (n : Nat) : Shows ls ts →
      Shows (l :: ls) ((String.ofList (List.replicate n ' ') ++ l.text) :: ts)
  | skip {l : Line} {ls : List Line} {ts : List String} : l.text = "" → Shows ls ts →
      Shows (l :: ls) ts

/-- Texts one below the other. -/
def written (ts : List String) : List Char := ts.flatMap fun t => t.toList ++ ['\n']

/-- Whether reading some lines closes the brackets `ds` and leaves `ds'` to be closed, however they
are written; with `b` false they cannot be read to their end. -/
def Blocks (b : Bool) (ds ds' : List Char) (ls : List Line) : Prop :=
  ∀ ts, Shows ls ts → ∀ due k, read (ds ++ due) (written ts ++ k) = (b && read (ds' ++ due) k)

section Lines

variable {b b' : Bool} {ds ds₁ ds' : List Char} {l : Line} {ls ms : List Line} {ts us : List String}

theorem written_append (ts us : List String) : written (ts ++ us) = written ts ++ written us :=
  List.flatMap_append

theorem Shows.append (hs : Shows ls ts) (ht : Shows ms us) : Shows (ls ++ ms) (ts ++ us) := by
  induction hs with
  | nil => exact ht
  | line n _ ih => exact .line n ih
  | skip hl _ ih => exact .skip hl ih

theorem Shows.of_append : ∀ {ls : List Line} {ts : List String}, Shows (ls ++ ms) ts →
    ∃ us vs, ts = us ++ vs ∧ Shows ls us ∧ Shows ms vs := by
  intro ls
  induction ls with
  | nil => exact fun h => ⟨[], _, rfl, .nil, h⟩
  | cons l ls ih =>
    intro ts h
    cases h with
    | line n h =>
      obtain ⟨us, vs, rfl, hu, hv⟩ := ih h
      exact ⟨_ :: us, vs, rfl, .line n hu, hv⟩
    | skip hl h =>
      obtain ⟨us, vs, rfl, hu, hv⟩ := ih h
      exact ⟨us, vs, rfl, .skip hl hu, hv⟩

theorem Shows.of_indented : ∀ {ls : List Line} {ts : List String},
    Shows (Line.indented ls) ts → Shows ls ts := by
  intro ls
  induction ls with
  | nil => exact fun h => h
  | cons l ls ih =>
    intro ts h
    cases h with
    | line n h => exact .line n (ih h)
    | skip hl h => exact .skip hl (ih h)

theorem Shows.reverse (h : Shows ls ts) : Shows ls.reverse ts.reverse := by
  induction h with
  | nil => exact .nil
  | line n _ ih =>
    rw [List.reverse_cons, List.reverse_cons]
    exact ih.append (.line n .nil)
  | skip hl _ ih =>
    have hshows := ih.append (.skip hl .nil)
    rwa [List.append_nil, ← List.reverse_cons] at hshows

/-- Empty lines in front may be left out. -/
theorem Shows.dropWhile (h : Shows ls ts) : Shows ls (ts.dropWhile (· == "")) := by
  induction h with
  | nil => exact .nil
  | @line l ls ts n h ih =>
    rw [List.dropWhile_cons]
    split
    · next he =>
      have htext := congrArg String.toList (beq_iff_eq.mp he)
      rw [String.toList_append, String.toList_empty] at htext
      exact .skip (String.toList_eq_nil_iff.mp (List.append_eq_nil_iff.mp htext).2) ih
    · exact .line n h
  | skip hl _ ih => exact .skip hl ih

theorem Shows.trimmed (h : Shows ls ts) : Shows ls (Sink.trimmed ts) := by
  have hrev := h.dropWhile.reverse.dropWhile.reverse
  rwa [List.reverse_reverse] at hrev

/-- A line may be written on any level. -/
theorem shows_render (width : Int) (l : Line) (n : Nat) :
    Shows [l] [{ l with level := n }.render width] := by
  rw [Line.render]
  split
  · next hl => exact hl ▸ .line (l := l) 0 .nil
  · exact .line _ .nil

theorem shows_texts (ts : List String) : Shows (ts.map .at0) ts := by
  induction ts with
  | nil => exact .nil
  | cons t ts ih =>
    have ht := ih.line (l := .at0 t) 0
    rwa [List.replicate_zero, String.ofList_nil, String.empty_append] at ht

theorem read_newline (due k : List Char) : read due ('\n' :: k) = read due k := by
  have hplain : step isRemark .code due '\n' = some (.code, due) := codeStep_plain (by decide) due
  rw [read, scan, hplain]

/-- A single line. -/
theorem Blocks.line (h : Moves LineEnd b ds ds' l.text) : Blocks b ds ds' [l] := by
  intro ts hs due k
  have hline := h due ('\n' :: k) ⟨k, rfl⟩
  rw [read_newline] at hline
  cases hs with
  | line n hs =>
    cases hs
    have hpad : ∀ c ∈ (String.ofList (List.replicate n ' ')).toList, isPlain c = true := by
      intro c hc
      rw [String.toList_ofList] at hc
      rw [List.eq_of_mem_replicate hc]
      decide
    have hmoves : Moves Any true ds ds (String.ofList (List.replicate n ' ')) := moves_plain hpad
    have hread := hmoves due (l.text.toList ++ '\n' :: k) trivial
    rw [Bool.true_and, hline] at hread
    rw [← hread]
    simp [written]
  | skip hl hs =>
    cases hs
    rw [hl, String.toList_empty, List.nil_append, read_newline] at hline
    exact hline

theorem Blocks.nil : Blocks true ds ds [] := by
  intro ts hs due k
  cases hs
  rfl

theorem Blocks.blank : Blocks true ds ds [Line.blank] := .line .empty

theorem Blocks.append (hs : Blocks b ds ds₁ ls) (ht : Blocks b' ds₁ ds' ms) :
    Blocks (b && b') ds ds' (ls ++ ms) := by
  intro ts h due k
  obtain ⟨us, vs, rfl, hu, hv⟩ := h.of_append
  rw [written_append, List.append_assoc, hs us hu, ht vs hv, Bool.and_assoc]

theorem Blocks.cons (hl : Moves LineEnd b ds ds₁ l.text) (ht : Blocks b' ds₁ ds' ls) :
    Blocks (b && b') ds ds' (l :: ls) :=
  (Blocks.line hl).append ht

theorem Blocks.indented (h : Blocks b ds ds' ls) : Blocks b ds ds' (Line.indented ls) :=
  fun ts hs => h ts hs.of_indented

/-- What lines do they do inside other brackets too. -/
theorem Blocks.frame (h : Blocks b [] [] ls) : Blocks b ds ds ls :=
  fun ts hs due k => h ts hs (ds ++ due) k

/-- Lines between a first and a last one. -/
theorem Blocks.around {b₂ : Bool} {first last : String} (hfirst : Moves LineEnd b [] ds first)
    (h : Blocks b' [] [] ls) (hlast : Moves LineEnd b₂ ds [] last) :
    Blocks (b && (b' && b₂)) [] [] (.at0 first :: Line.indented ls ++ [.at0 last]) :=
  .cons hfirst (h.frame.indented.append (.line hlast))

/-- Lines below a first one. -/
theorem Blocks.below {first : String} (hfirst : Moves LineEnd b [] [] first)
    (h : Blocks b' [] [] ls) : Blocks (b && b') [] [] (.at0 first :: Line.indented ls) :=
  .cons hfirst h.indented

end Lines

end Lexical

end Widgetry
