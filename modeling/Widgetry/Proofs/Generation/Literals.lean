import Widgetry.Proofs.Generation.LineEnds
import Widgetry.Proofs.Value.Equality

/-!
# Literals stand for their values

Whoever runs generated source reads its literals: words, whole numbers in decimal, texts between
double quotes with escapes, lists in brackets, and dictionaries in braces.

> `Value.literal_read`: the literal of a value without floating-point numbers and nodes is read back
> as that value, up to the last character, and it stands on one line.

What a text is read as does not depend on what follows it, as long as that is a mark between or
behind parts (`Literal.Reads`). So the parts of a list are read one after the other, whatever they
are.
-/

namespace Widgetry

/-! ## Entries put one after the other -/

namespace Entries

variable {es fs : List (Key × Value)}

theorem put_append {k : Key} (h : ∀ f ∈ fs, Scalar.same f.1 k = false) (v : Value) :
    put k v fs = fs ++ [(k, v)] := by
  induction fs with
  | nil => rfl
  | cons f rest ih =>
    obtain ⟨hf, hrest⟩ := List.forall_mem_cons.mp h
    rw [put, if_neg (Bool.eq_false_iff.mp hf), ih hrest, List.cons_append]

/-- Entries whose keys differ stay as they are. -/
theorem ofPairs_of_distinct (h : Key.Distinct (es.map Prod.fst)) : ofPairs es = es := by
  have hgo : ∀ es fs : List (Key × Value),
      (fs.map Prod.fst ++ es.map Prod.fst).Pairwise (fun k l => Scalar.same k l = false) →
      es.foldl (fun es e => put e.1 e.2 es) fs = fs ++ es := by
    intro es
    induction es with
    | nil => exact fun fs _ => (List.append_nil fs).symm
    | cons e rest ih =>
      intro fs hapart
      have hfs : ∀ f ∈ fs, Scalar.same f.1 e.1 = false := fun f hf =>
        (List.pairwise_append.mp hapart).2.2 _ (List.mem_map_of_mem hf) _ List.mem_cons_self
      rw [List.foldl_cons, put_append hfs, ih _ (by simpa using hapart), List.append_assoc]
      rfl
  exact hgo es [] h.apart

end Entries

namespace Literal

/-! ## Reading -/

/-- What reads something from the front of a text, and leaves the rest. -/
abbrev Reader (α : Type) := List Char → Option (α × List Char)

def skipBlanks (cs : List Char) : List Char := cs.dropWhile (· == ' ')

/-- What stands behind a mark. -/
def readMark (mark : Char) (cs : List Char) : Option (List Char) :=
  match skipBlanks cs with
  | c :: rest => if c = mark then some rest else none
  | [] => none

def words : List (String × Scalar) :=
  [("None", .nil), ("True", .bool true), ("False", .bool false)]

def readWord : Reader Scalar := fun cs =>
  (words.lookup (String.ofList (cs.takeWhile Text.continuesIdentifier))).map
    fun s => (s, cs.dropWhile Text.continuesIdentifier)

/-- A whole number, which is not longer than numbers may be. No letter and no point may follow. -/
def readWhole : Reader Nat := fun cs =>
  let digits := cs.takeWhile Char.isDigit
  let rest := cs.dropWhile Char.isDigit
  if Decimal.digitLimit < digits.length then none
  else if rest.head?.any fun c => Text.continuesIdentifier c || c == '.' then none
  else (Formula.wholeOf? digits).map fun n => (n, rest)

/-- A text from behind its opening quote on. -/
def readText : Reader String := fun cs =>
  (Formula.scanText cs).map fun s => (String.ofList s.1, s.2)

/-- Parts up to a closing mark, at most so many of them. A comma stands between two, and may stand
behind the last. -/
def readParts {α : Type} (closing : Char) (part : Reader α) : Nat → Reader (List α)
  | 0, _ => none
  | n + 1, cs =>
    match part cs with
    | none => (readMark closing cs).map fun rest => ([], rest)
    | some (a, behind) =>
      match readMark ',' behind with
      | some rest => (readParts closing part n rest).map fun s => (a :: s.1, s.2)
      | none => (readMark closing behind).map fun rest => ([a], rest)

/-- A key and its value. -/
def readEntry (value : Reader Value) : Reader (Key × Value) := fun cs => do
  let inside ← readMark '"' cs
  let key ← readText inside
  let behind ← readMark ':' key.2
  let v ← value behind
  return ((.str key.1, v.1), v.2)

/-- A value whose text has at most so many characters. Of the entries with one key the last one
counts. -/
def readValue : Nat → Reader Value
  | 0, _ => none
  | n + 1, cs =>
    match skipBlanks cs with
    | [] => none
    | '[' :: rest => (readParts ']' (readValue n) n rest).map fun s => (.list s.1, s.2)
    | '\x7b' :: rest => (readParts '\x7d' (readEntry (readValue n)) n rest).map
        fun s => (.object (Entries.ofPairs s.1), s.2)
    | '"' :: rest => (readText rest).map fun s => (.str s.1, s.2)
    | '-' :: rest => (readWhole rest).map fun s => (.int (-s.1), s.2)
    | c :: rest =>
      if c.isDigit then (readWhole (c :: rest)).map fun s => (.int s.1, s.2)
      else (readWord (c :: rest)).map fun s => (.scalar s.1, s.2)

/-- The value that a whole text is read as. -/
def read (text : String) : Option Value :=
  match readValue text.toList.length text.toList with
  | some (v, []) => some v
  | _ => none

/-! ## What may follow -/

/-- The marks that stand behind a part. -/
def marks : List Char := [',', ']', '\x7d']

/-- Whether a text is empty or begins with a mark. -/
def Ends (rest : List Char) : Prop := ∀ c, rest.head? = some c → c ∈ marks

variable {α : Type} {cs rest : List Char} {n : Nat} {v : Value} {t : String}

theorem ends_nil : Ends [] := nofun

theorem ends_cons {c : Char} (h : c ∈ marks) (rest : List Char) : Ends (c :: rest) := by
  rintro d hd
  cases hd
  exact h

/-- No mark is in a class of characters that parts are made of. -/
theorem Ends.stops (h : Ends rest) {p : Char → Bool} (hp : marks.all (p · == false) = true)
    (c : Char) (hc : rest.head? = some c) : p c = false :=
  beq_iff_eq.mp (List.all_eq_true.mp hp c (h c hc))

/-- A text is read as a value wherever a part may end. -/
def Reads (cs : List Char) (v : Value) : Prop :=
  ∀ rest n, Ends rest → cs.length ≤ n → readValue n (cs ++ rest) = some (v, rest)

theorem Reads.read (h : Reads t.toList v) : read t = some v := by
  have hall := h [] t.toList.length ends_nil (Nat.le_refl _)
  rw [List.append_nil] at hall
  rw [Literal.read, hall]

/-! ## Scalars -/

theorem readMark_blank (mark : Char) (cs : List Char) :
    readMark mark (' ' :: cs) = readMark mark cs := rfl

theorem readValue_blank (n : Nat) (cs : List Char) : readValue n (' ' :: cs) = readValue n cs := by
  cases n with
  | zero => rfl
  | succ n => rfl

/-- What is read in one round, if there is something to read. -/
theorem reads_of_round (hne : cs ≠ []) (h : ∀ rest n, Ends rest → cs.length ≤ n + 1 →
    readValue (n + 1) (cs ++ rest) = some (v, rest)) : Reads cs v := by
  intro rest n hrest hn
  cases n with
  | zero => exact absurd (List.length_eq_zero_iff.mp (Nat.le_zero.mp hn)) hne
  | succ n => exact h rest n hrest hn

/-- What a word of literals is made of, and that it is read as one. -/
theorem word_cases {w : String} {s : Scalar} (hw : (w, s) ∈ words) :
    w.toList ≠ [] ∧ w.toList.all Text.continuesIdentifier = true ∧ words.lookup w = some s ∧
      ∀ rest n, readValue (n + 1) (w.toList ++ rest)
        = (readWord (w.toList ++ rest)).map fun s => (.scalar s.1, s.2) := by
  simp only [words, List.mem_cons, Prod.mk.injEq, List.not_mem_nil, or_false] at hw
  obtain ⟨rfl, rfl⟩ | ⟨rfl, rfl⟩ | ⟨rfl, rfl⟩ := hw
  · exact ⟨by decide, by decide, rfl, fun _ _ => rfl⟩
  · exact ⟨by decide, by decide, rfl, fun _ _ => rfl⟩
  · exact ⟨by decide, by decide, rfl, fun _ _ => rfl⟩

theorem reads_word {w : String} {s : Scalar} (hw : (w, s) ∈ words) :
    Reads w.toList (.scalar s) := by
  obtain ⟨hne, hletters, hlookup, hround⟩ := word_cases hw
  refine reads_of_round hne fun rest n hrest _ => ?_
  have hall := List.all_eq_true.mp hletters
  have hstop := hrest.stops (p := Text.continuesIdentifier) (by decide)
  rw [hround, readWord, Formula.takeWhile_stop hall hstop, Formula.dropWhile_stop hall hstop,
    String.ofList_toList, hlookup]
  rfl

theorem readWhole_digits {m : Nat} (hm : (Nat.repr m).length ≤ Decimal.digitLimit)
    (hrest : Ends rest) : readWhole ((Nat.repr m).toList ++ rest) = some (m, rest) := by
  have hdigits := Formula.digits_repr m
  have hstop := hrest.stops (p := Char.isDigit) (by decide)
  have hnone : (rest.head?.any fun c => Text.continuesIdentifier c || c == '.') = false := by
    cases rest with
    | nil => rfl
    | cons c rest =>
      exact hrest.stops (p := fun c => Text.continuesIdentifier c || c == '.') (by decide) c rfl
  unfold readWhole
  dsimp only
  rw [Formula.takeWhile_stop hdigits hstop, Formula.dropWhile_stop hdigits hstop,
    String.length_toList, if_neg (Nat.not_lt.mpr hm), hnone, Formula.wholeOf?_repr]
  rfl

theorem readValue_digit {c : Char} (hc : c.isDigit = true) (n : Nat) (rest : List Char) :
    readValue (n + 1) (c :: rest) = (readWhole (c :: rest)).map fun s => (.int s.1, s.2) := by
  have hne : ∀ d : Char, d.isDigit = false → c ≠ d := by
    rintro d hd rfl
    exact absurd hc (Bool.eq_false_iff.mp hd)
  have hblank : skipBlanks (c :: rest) = c :: rest :=
    List.dropWhile_cons_of_neg (by simpa using hne ' ' (by decide))
  rw [readValue, hblank]
  split
  · next he => cases he
  · next he => exact absurd (List.cons.inj he).1 (hne '[' (by decide))
  · next he => exact absurd (List.cons.inj he).1 (hne '\x7b' (by decide))
  · next he => exact absurd (List.cons.inj he).1 (hne '"' (by decide))
  · next he => exact absurd (List.cons.inj he).1 (hne '-' (by decide))
  · next he =>
    cases he
    rw [if_pos hc]

/-- The text of a whole number is its digits, with a sign in front of them if it is negative. -/
theorem reads_whole {i : Int} (h : (Nat.repr i.natAbs).length ≤ Decimal.digitLimit) :
    ∃ t, wholeText i = .ok t ∧ Reads t.toList (.int i) := by
  refine ⟨if i < 0 then "-" ++ Nat.repr i.natAbs else Nat.repr i.natAbs, ?_, ?_⟩
  · rw [wholeText, Decimal.ofInt?, if_pos h]
  · by_cases hneg : i < 0
    · rw [if_pos hneg, String.toList_append]
      refine reads_of_round (List.cons_ne_nil _ _) fun rest n hrest _ => ?_
      show ((readWhole ((Nat.repr i.natAbs).toList ++ rest)).map
        fun s => (Value.int (-s.1), s.2)) = _
      rw [readWhole_digits h hrest, Option.map_some,
        ← Int.eq_neg_natAbs_of_nonpos (Int.le_of_lt hneg)]
    · rw [if_neg hneg]
      refine reads_of_round (Formula.repr_ne_nil _) fun rest n hrest _ => ?_
      have hread := readWhole_digits h hrest
      cases hdigits : (Nat.repr i.natAbs).toList with
      | nil => exact absurd hdigits (Formula.repr_ne_nil _)
      | cons c cs =>
        have hc : c.isDigit = true := Formula.digits_repr i.natAbs c (by simp [hdigits])
        rw [hdigits] at hread
        rw [List.cons_append] at hread ⊢
        rw [readValue_digit hc, hread, Option.map_some, Int.natAbs_of_nonneg (Int.not_lt.mp hneg)]

theorem toList_quoted (s : String) :
    (Json.quoted s).toList = '"' :: (s.toList.flatMap Json.escapeChar ++ ['"']) := by
  rw [Json.quoted, String.toList_ofList]
  rfl

theorem readText_quoted (s : String) (rest : List Char) :
    readText (s.toList.flatMap Json.escapeChar ++ '"' :: rest) = some (s, rest) := by
  rw [readText, Formula.scanText_quoted, Option.map_some, String.ofList_toList]

theorem reads_text (s : String) : Reads (Json.quoted s).toList (.str s) := by
  rw [toList_quoted]
  refine reads_of_round (List.cons_ne_nil _ _) fun rest n _ _ => ?_
  show ((readText (s.toList.flatMap Json.escapeChar ++ ['"'] ++ rest)).map
    fun s => (Value.str s.1, s.2)) = _
  rw [List.append_assoc, List.singleton_append, readText_quoted, Option.map_some]

/-! ## Parts -/

/-- A text is read as a part wherever a part may end. -/
def ReadsPart (part : Reader α) (t : String) (a : α) : Prop :=
  ∀ rest, Ends rest → part (t.toList ++ rest) = some (a, rest)

theorem readMark_self {mark : Char} (h : mark ≠ ' ') (rest : List Char) :
    readMark mark (mark :: rest) = some rest := by
  have hblank : skipBlanks (mark :: rest) = mark :: rest :=
    List.dropWhile_cons_of_neg (by simpa using h)
  rw [readMark, hblank]
  exact if_pos rfl

theorem readMark_other {mark c : Char} (h : c ≠ ' ') (hne : c ≠ mark) (rest : List Char) :
    readMark mark (c :: rest) = none := by
  have hblank : skipBlanks (c :: rest) = c :: rest :=
    List.dropWhile_cons_of_neg (by simpa using h)
  rw [readMark, hblank]
  exact if_neg hne

/-- Whether a bracket or a brace ends a list. -/
def Closes (c : Char) : Prop := c = ']' ∨ c = '\x7d'

/-- Whether a reader of parts passes over blanks, and takes nothing that ends a list for a part. -/
structure Separable (part : Reader α) : Prop where
  blank : ∀ cs, part (' ' :: cs) = part cs
  closing : ∀ c, Closes c → ∀ rest, part (c :: rest) = none

section Parts

variable {part : Reader α} {closing : Char} {ts : List String} {as : List α}

theorem readParts_blank (hpart : Separable part) (n : Nat) (cs : List Char) :
    readParts closing part n (' ' :: cs) = readParts closing part n cs := by
  cases n with
  | zero => rfl
  | succ n => rw [readParts, readParts, hpart.blank, readMark_blank]

/-- **Parts set off by commas are read one by one**, up to the mark behind the last. -/
theorem readParts_commaSeparated (hpart : Separable part) (hclosing : Closes closing)
    (h : List.Forall₂ (ReadsPart part) ts as) (rest : List Char) : ∀ n, ts.length ≤ n + 1 →
      readParts closing part (n + 1) ((commaSeparated ts).toList ++ closing :: rest)
        = some (as, rest) := by
  have hmark : closing ∈ marks ∧ closing ≠ ' ' ∧ closing ≠ ',' := by
    rcases hclosing with rfl | rfl <;> decide
  have hclose := readMark_self hmark.2.1 rest
  -- on the parts: each ends at the mark behind it, and the next round begins behind that mark
  induction h with
  | nil =>
    intro n _
    show readParts closing part (n + 1) (closing :: rest) = _
    simp only [readParts, hpart.closing closing hclosing, hclose, Option.map_some]
  | @cons t a ts as ht hts ih =>
    intro n hn
    cases hts with
    | nil =>
      have hlast := ht _ (ends_cons hmark.1 rest)
      have hcomma := readMark_other hmark.2.1 hmark.2.2 rest
      rw [commaSeparated, String.intercalate_singleton]
      simp only [readParts, hlast, hcomma, hclose, Option.map_some]
    | @cons u b us bs hu hus =>
      cases n with
      | zero => simp at hn
      | succ n =>
        have hmore := ih n (by simpa using hn)
        have htext : (commaSeparated (t :: u :: us)).toList ++ closing :: rest
            = t.toList ++ ',' :: ' ' :: ((commaSeparated (u :: us)).toList ++ closing :: rest) := by
          rw [Expr.commaSeparated_cons, List.append_assoc, List.append_assoc]
          rfl
        rw [htext]
        generalize (commaSeparated (u :: us)).toList ++ closing :: rest = more at hmore
        rw [← readParts_blank hpart] at hmore
        have hfirst := ht (',' :: ' ' :: more) (ends_cons (by decide) _)
        have hcomma : readMark ',' (',' :: ' ' :: more) = some (' ' :: more) :=
          readMark_self (by decide) _
        rw [readParts, hfirst]
        simp only [hcomma, hmore, Option.map_some]

end Parts

/-- Parts set off by commas are not longer than they all, and not more than there is room for. -/
theorem commaSeparated_bounds : ∀ ts : List String,
    ts.length ≤ (commaSeparated ts).toList.length + 1 ∧
      ∀ t ∈ ts, t.toList.length ≤ (commaSeparated ts).toList.length
  | [] => ⟨Nat.zero_le _, nofun⟩
  | [t] => by
    rw [commaSeparated, String.intercalate_singleton]
    exact ⟨Nat.le_add_left 1 _, List.forall_mem_singleton.mpr (Nat.le_refl _)⟩
  | t :: u :: rest => by
    obtain ⟨hcount, hlong⟩ := commaSeparated_bounds (u :: rest)
    have hlength : (commaSeparated (t :: u :: rest)).toList.length
        = t.toList.length + 2 + (commaSeparated (u :: rest)).toList.length := by
      rw [Expr.commaSeparated_cons, List.length_append, List.length_append]
      simp only [List.length_cons, List.length_nil]
      omega
    rw [List.length_cons, hlength]
    refine ⟨by omega, List.forall_mem_cons.mpr ⟨by omega, fun s hs => ?_⟩⟩
    have := hlong s hs
    omega

/-- Parts between an opening mark and a closing one, if each is read with as many rounds as its text
has characters. -/
theorem reads_enclosed {part : Nat → Reader α} (hpart : ∀ n, Separable (part n))
    {opening closing : Char} (hclosing : Closes closing) {f : List α → Value}
    (hround : ∀ n rest, readValue (n + 1) (opening :: rest)
      = (readParts closing (part n) n rest).map fun s => (f s.1, s.2))
    {ts : List String} {as : List α}
    (h : List.Forall₂ (fun t a => ∀ n, t.toList.length ≤ n → ReadsPart (part n) t a) ts as) :
    Reads (opening :: ((commaSeparated ts).toList ++ [closing])) (f as) := by
  obtain ⟨hcount, hlong⟩ := commaSeparated_bounds ts
  refine reads_of_round (List.cons_ne_nil _ _) fun rest n hrest hn => ?_
  rw [List.length_cons, List.length_append, List.length_singleton] at hn
  -- every part is shorter than the text, and there are not more of them than rounds
  have hparts : List.Forall₂ (ReadsPart (part n)) ts as := by
    refine List.Forall₂.imp (fun t a ht => ht.2 n ht.1) ((List.forall₂_and_left ts as).mpr ⟨?_, h⟩)
    intro t ht
    have := hlong t ht
    omega
  obtain ⟨n, rfl⟩ : ∃ m, n = m + 1 := ⟨n - 1, by omega⟩
  rw [List.cons_append, List.append_assoc, List.singleton_append, hround,
    readParts_commaSeparated (hpart _) hclosing hparts rest n (by omega)]
  rfl

/-! ## Lists and dictionaries -/

theorem separable_value (n : Nat) : Separable (readValue n) where
  blank := readValue_blank n
  closing c hc rest := by
    cases n with
    | zero => rfl
    | succ n => rcases hc with rfl | rfl <;> rfl

theorem separable_entry (n : Nat) : Separable (readEntry (readValue n)) where
  blank _ := rfl
  closing c hc rest := by rcases hc with rfl | rfl <;> rfl

theorem reads_list {ts : List String} {vs : List Value}
    (h : List.Forall₂ (fun t v => Reads t.toList v) ts vs) :
    Reads ("[" ++ commaSeparated ts ++ "]").toList (.list vs) := by
  rw [String.toList_append, String.toList_append]
  refine reads_enclosed separable_value (.inl rfl) (fun _ _ => rfl) (h.imp fun t v ht => ?_)
  exact fun n hn rest hrest => ht rest n hrest hn

/-- A key is a text, so the colon behind it cannot be part of it. -/
theorem readEntry_reads {name : String} (h : Reads t.toList v) (hn : t.toList.length ≤ n) :
    ReadsPart (readEntry (readValue n)) (Json.quoted name ++ ": " ++ t) (.str name, v) := by
  intro rest hrest
  have htext : (Json.quoted name ++ ": " ++ t).toList ++ rest
      = '"' :: (name.toList.flatMap Json.escapeChar ++ '"' :: ':' :: ' ' :: (t.toList ++ rest)) :=
    by simp [toList_quoted]
  have hvalue := h rest n hrest hn
  rw [htext, readEntry, readMark_self (by decide)]
  generalize t.toList ++ rest = more at hvalue
  have hkey := readText_quoted name (':' :: ' ' :: more)
  have hcolon : readMark ':' (':' :: ' ' :: more) = some (' ' :: more) :=
    readMark_self (by decide) _
  simp [hkey, hcolon, readValue_blank, hvalue]

theorem reads_object {ts : List String} {es : List (Key × Value)}
    (hkeys : Key.Named (es.map Prod.fst))
    (h : List.Forall₂ (fun t e => ∃ name part, e.1 = .str name ∧
      t = Json.quoted name ++ ": " ++ part ∧ Reads part.toList e.2) ts es) :
    Reads ("\x7b" ++ commaSeparated ts ++ "\x7d").toList (.object es) := by
  have hread : Reads ("\x7b" ++ commaSeparated ts ++ "\x7d").toList
      (.object (Entries.ofPairs es)) := by
    rw [String.toList_append, String.toList_append]
    refine reads_enclosed (f := fun es => .object (Entries.ofPairs es)) separable_entry (.inr rfl)
      (fun _ _ => rfl) (h.imp ?_)
    rintro _ ⟨_, v⟩ ⟨name, part, rfl, rfl, hpart⟩ n hn
    refine readEntry_reads hpart (Nat.le_trans ?_ hn)
    rw [String.toList_append, List.length_append]
    exact Nat.le_add_left _ _
  rwa [Entries.ofPairs_of_distinct hkeys.distinct] at hread

end Literal

/-! ## Literals -/

/-- Whether a value is made of what a literal can write exactly. Whole numbers have at most 4300
digits. -/
inductive Value.Elementary : Value → Prop where
  | nil : Value.Elementary .nil
  | bool (b : Bool) : Value.Elementary (.bool b)
  | int {n : Int} : (Nat.repr n.natAbs).length ≤ Decimal.digitLimit → Value.Elementary (.int n)
  | str (s : String) : Value.Elementary (.str s)
  | list {items : List Value} : (∀ v ∈ items, v.Elementary) → Value.Elementary (.list items)
  | object {entries : List (Key × Value)} : Key.Named (entries.map Prod.fst) →
      (∀ e ∈ entries, Value.Elementary e.2) → Value.Elementary (.object entries)

theorem literalItems_eq_ok {R : String → Value → Prop} {vs : List Value}
    (h : ∀ v ∈ vs, ∃ t, v.literal = .ok t ∧ R t v) :
    ∃ ts, literalItems vs = .ok ts ∧ List.Forall₂ R ts vs := by
  induction vs with
  | nil => exact ⟨[], rfl, .nil⟩
  | cons v rest ih =>
    obtain ⟨⟨t, ht, hR⟩, hrest⟩ := List.forall_mem_cons.mp h
    obtain ⟨ts, hts, hall⟩ := ih hrest
    exact ⟨t :: ts, by rw [literalItems, ht, hts]; rfl, .cons hR hall⟩

theorem literalEntries_eq_ok {R : String → Value → Prop} {es : List (Key × Value)}
    (hkeys : ∀ k ∈ es.map Prod.fst, ∃ name, k = .str name)
    (h : ∀ e ∈ es, ∃ t, Value.literal e.2 = .ok t ∧ R t e.2) :
    ∃ ts, literalEntries es = .ok ts ∧ List.Forall₂ (fun t e => ∃ name part, e.1 = .str name ∧
      t = Json.quoted name ++ ": " ++ part ∧ R part e.2) ts es := by
  induction es with
  | nil => exact ⟨[], rfl, .nil⟩
  | cons e rest ih =>
    obtain ⟨k, v⟩ := e
    obtain ⟨⟨name, hk⟩, hnames⟩ := List.forall_mem_cons.mp hkeys
    obtain ⟨⟨t, ht, hR⟩, hrest⟩ := List.forall_mem_cons.mp h
    obtain ⟨ts, hts, hall⟩ := ih hnames hrest
    have hkey : k.literal = .ok (Json.quoted name) := by
      rw [show k = .str name from hk]
      rfl
    exact ⟨_ :: ts, by rw [literalEntries, hkey, ht, hts]; rfl, .cons ⟨name, t, hk, rfl, hR⟩ hall⟩

theorem Value.Elementary.reads {v : Value} :
    v.Elementary → ∃ t, v.literal = .ok t ∧ Literal.Reads t.toList v
  | .nil => ⟨"None", rfl, Literal.reads_word (by simp [Literal.words])⟩
  | .bool false => ⟨"False", rfl, Literal.reads_word (by simp [Literal.words])⟩
  | .bool true => ⟨"True", rfl, Literal.reads_word (by simp [Literal.words])⟩
  | .int h => by
    obtain ⟨t, ht, hread⟩ := Literal.reads_whole h
    exact ⟨t, by rw [Value.literal, Scalar.literal, ht]; rfl, hread⟩
  | .str s => ⟨Json.quoted s, rfl, Literal.reads_text s⟩
  | .list h => by
    obtain ⟨ts, hts, hread⟩ := literalItems_eq_ok fun v hv => (h v hv).reads
    exact ⟨_, by rw [Value.literal, hts]; rfl, Literal.reads_list hread⟩
  | .object hkeys h => by
    obtain ⟨ts, hts, hread⟩ := literalEntries_eq_ok hkeys.text fun e he => (h e he).reads
    exact ⟨_, by rw [Value.literal, hts]; rfl, Literal.reads_object hkeys hread⟩

/-- **A literal stands for its value.** It is written for every elementary value, nothing of it is
left when it is read, and no line ends in it. -/
theorem Value.literal_read {v : Value} (h : v.Elementary) :
    ∃ text, v.literal = .ok text ∧ Literal.read text = some v ∧
      '\n' ∉ text.toList ∧ '\r' ∉ text.toList := by
  obtain ⟨text, htext, hread⟩ := h.reads
  have hline := Lexical.literal_unbroken v htext
  exact ⟨text, htext, hread.read, fun hc => absurd (hline _ hc) (by decide),
    fun hc => absurd (hline _ hc) (by decide)⟩

/-- Marks and escapes within texts and keys, and parts within parts. -/
theorem literal_read_nested :
    let v : Value := .object [
      (.str "say: \"a, b\"\x7d", .list [.int (-12), .nil, .str "]\n\\u\x01é"]),
      (.str "", .object [(.str "k", .bool true), (.str "l", .list [])])]
    v.Elementary ∧ ∃ text, v.literal = .ok text ∧ Literal.read text = some v ∧
      '\n' ∉ text.toList ∧ '\r' ∉ text.toList := by
  intro v
  have hv : v.Elementary := by
    refine .object (Key.named_pair (by decide)) (List.forall_mem_cons.mpr
      ⟨.list (List.forall_mem_cons.mpr ⟨.int (by decide), List.forall_mem_cons.mpr
        ⟨.nil, List.forall_mem_singleton.mpr (.str _)⟩⟩), List.forall_mem_singleton.mpr ?_⟩)
    exact .object (Key.named_pair (by decide)) (List.forall_mem_cons.mpr
      ⟨.bool true, List.forall_mem_singleton.mpr (.list (List.forall_mem_nil _))⟩)
  exact ⟨hv, Value.literal_read hv⟩

end Widgetry
