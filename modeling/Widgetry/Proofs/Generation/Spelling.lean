import Widgetry.Generation.Expression
import Widgetry.Proofs.Generation.Formulas
import Widgetry.Proofs.Value.Tables
import Widgetry.Text.Identifier

/-!
# The text of a formula

Generated source is a text, and whoever runs it splits it into tokens first: names and words,
numbers, texts between quotes, and marks.

> `Scans`: whatever follows, as long as it may follow, a text is split into some tokens and the
> rest into its own.

What is written without a blank can run together with what comes next. A name ends where no letter
follows, and a whole number must not be followed by a point either, which would be its own.
-/

namespace Widgetry

namespace Formula

/-! ## Tokens of a text -/

/-- The words that have a place in a formula. -/
def words : List (String × Token) :=
  [("None", .atom .nothing), ("True", .atom (.truth true)), ("False", .atom (.truth false)),
    ("and", .operator .and), ("or", .operator .or), ("not", .negation)]

def wordToken (w : String) : Token :=
  match words.lookup w with
  | some t => t
  | none => if Text.isReserved w then .word w else .atom (.name w)

/-- The marks, the longer ones first. -/
def marks : List (List Char × Token) :=
  [(['=', '='], .operator .eq), (['!', '='], .operator .ne), (['<', '='], .operator .le),
    (['>', '='], .operator .ge), (['<'], .operator .lt), (['>'], .operator .gt),
    (['+'], .operator .add), (['-'], .operator .sub), (['*'], .operator .mul),
    (['/'], .operator .div), (['%'], .operator .mod), (['.'], .point), ([','], .comma),
    (['('], .opening), ([')'], .closing)]

def scanMark (cs : List Char) : Option (Token × List Char) :=
  (marks.find? fun m => m.1.isPrefixOf cs).map fun m => (m.2, cs.drop m.1.length)

/-- A point with the digits behind it, if there is one. -/
def pointPart : List Char → List Char × List Char
  | '.' :: rest => ('.' :: rest.takeWhile Char.isDigit, rest.dropWhile Char.isDigit)
  | cs => ([], cs)

/-- A sign, if there is one. -/
def signPart : List Char → List Char × List Char
  | '+' :: rest => (['+'], rest)
  | '-' :: rest => (['-'], rest)
  | cs => ([], cs)

/-- A power of ten, if there is one. -/
def powerPart : List Char → List Char × List Char
  | 'e' :: rest =>
    match (signPart rest).2.takeWhile Char.isDigit with
    | [] => ([], 'e' :: rest)
    | digits => ('e' :: (signPart rest).1 ++ digits, (signPart rest).2.dropWhile Char.isDigit)
  | cs => ([], cs)

/-- The number that digits stand for, unless it is written without some of them. -/
def wholeOf? (digits : List Char) : Option Nat :=
  let n := Nat.ofDigitChars 10 digits 0
  if (Nat.repr n).toList = digits then some n else none

/-- A number. No letter may follow at once. -/
def scanNumber (cs : List Char) : Option (Token × List Char) :=
  let digits := cs.takeWhile Char.isDigit
  let point := pointPart (cs.dropWhile Char.isDigit)
  let power := powerPart point.2
  if power.2.head?.any Text.continuesIdentifier then none
  else match point.1 ++ power.1 with
    | [] => (wholeOf? digits).map fun n => (.atom (.whole n), power.2)
    | behind => some (.atom (.fraction (String.ofList (digits ++ behind))), power.2)

/-- What a letter behind a backslash stands for. -/
def escapes : List (Char × Char) :=
  [('"', '"'), ('\'', '\''), ('\\', '\\'), ('a', '\x07'), ('b', '\x08'), ('t', '\t'), ('n', '\n'),
    ('v', '\x0b'), ('f', '\x0c'), ('r', '\r')]

def hexDigit? (c : Char) : Option Nat :=
  if c.isDigit then some (c.toNat - 48)
  else if 'a' ≤ c ∧ c ≤ 'f' then some (c.toNat - 87)
  else if 'A' ≤ c ∧ c ≤ 'F' then some (c.toNat - 55)
  else none

/-- The character with a number in base sixteen. -/
def hexChar? (digits : List Char) : Option Char := do
  let n ← digits.foldlM (fun n c => (hexDigit? c).map (16 * n + ·)) 0
  if n.isValidChar then some (Char.ofNat n) else none

/-- A text from behind its opening quote on. -/
def scanText : List Char → Option (List Char × List Char)
  | '"' :: rest => some ([], rest)
  | '\\' :: 'u' :: a :: b :: c :: d :: rest => do
    let meant ← hexChar? [a, b, c, d]
    let s ← scanText rest
    return (meant :: s.1, s.2)
  | '\\' :: e :: rest => do
    let meant ← escapes.lookup e
    let s ← scanText rest
    return (meant :: s.1, s.2)
  | '\n' :: _ => none
  | '\r' :: _ => none
  | c :: rest => do
    let s ← scanText rest
    return (c :: s.1, s.2)
  | [] => none

/-- The first token of a text that begins with a character. -/
def scan (c : Char) (rest : List Char) : Option (Token × List Char) :=
  if Text.startsIdentifier c then
    some (wordToken (String.ofList (c :: rest.takeWhile Text.continuesIdentifier)),
      rest.dropWhile Text.continuesIdentifier)
  else if c.isDigit then scanNumber (c :: rest)
  else if c = '"' then
    (scanText rest).map fun s => (.atom (.text (String.ofList s.1)), s.2)
  else scanMark (c :: rest)

/-- The tokens of a text with so many characters at most. -/
def tokensUpTo : Nat → List Char → Option (List Token)
  | _, [] => some []
  | 0, _ :: _ => none
  | n + 1, c :: rest =>
    if c = ' ' then tokensUpTo n rest
    else (scan c rest).bind fun s => (tokensUpTo n s.2).map (s.1 :: ·)

/-- The tokens of a text. -/
def tokens (text : String) : Option (List Token) := tokensUpTo text.toList.length text.toList

/-- The formula that a text is read as. -/
def ofText (text : String) : Option Formula := (tokens text).bind ofTokens

example : ofText "not a == b.f(1, -x)" = some
    (.unary .bang (.binary .eq (.atom (.name "a"))
      (.call (.member (.atom (.name "b")) "f")
        [.atom (.whole 1), .unary .minus (.atom (.name "x"))]))) := by
  rfl

/-! ## What may follow -/

/-- Whether a text stands apart from what is written in front of it. A point does only if it may. -/
def Apart (point : Bool) : List Char → Prop
  | [] => True
  | c :: _ => c ∈ [' ', '(', ')', ','] ∨ point = true ∧ c = '.'

variable {b : Bool} {cs ds rest : List Char} {ts us : List Token}
  {F G : List Char → Prop}

theorem Apart.of_head {c : Char} (hc : c ∈ [' ', '(', ')', ',']) (h : rest.head? = some c) :
    Apart b rest := by
  cases rest with
  | nil => cases h
  | cons d rest =>
    cases h
    exact Or.inl hc

theorem Apart.head {c : Char} (h : Apart b rest) (hc : rest.head? = some c) :
    c ∈ [' ', '(', ')', ',', '.'] := by
  cases rest with
  | nil => cases hc
  | cons d rest =>
    cases hc
    rcases h with h | ⟨-, rfl⟩
    · exact List.mem_append_left ['.'] h
    · decide

theorem Apart.not_continues {c : Char} (h : Apart b rest) (hc : rest.head? = some c) :
    Text.continuesIdentifier c = false := by
  have hall : [' ', '(', ')', ',', '.'].all (Text.continuesIdentifier · == false) = true := by decide
  exact beq_iff_eq.mp (List.all_eq_true.mp hall c (h.head hc))

theorem Apart.not_digit {c : Char} (h : Apart b rest) (hc : rest.head? = some c) :
    c.isDigit = false := by
  have hall : [' ', '(', ')', ',', '.'].all (·.isDigit == false) = true := by decide
  exact beq_iff_eq.mp (List.all_eq_true.mp hall c (h.head hc))

/-- A class of characters is taken up to the first that is not in it. -/
theorem takeWhile_stop {p : Char → Bool} (hcs : ∀ c ∈ cs, p c = true)
    (hrest : ∀ c, rest.head? = some c → p c = false) : (cs ++ rest).takeWhile p = cs := by
  rw [List.takeWhile_append_of_pos hcs]
  cases rest with
  | nil => rw [List.takeWhile_nil, List.append_nil]
  | cons c rest => rw [List.takeWhile_cons_of_neg (by simp [hrest c rfl]), List.append_nil]

theorem dropWhile_stop {p : Char → Bool} (hcs : ∀ c ∈ cs, p c = true)
    (hrest : ∀ c, rest.head? = some c → p c = false) : (cs ++ rest).dropWhile p = rest := by
  rw [List.dropWhile_append_of_pos hcs]
  cases rest with
  | nil => rfl
  | cons c rest => rw [List.dropWhile_cons_of_neg (by simp [hrest c rfl])]

/-! ## Parts of a text -/

/-- A text is split into some tokens and what follows into its own, if it may follow. -/
def Scans (F : List Char → Prop) (cs : List Char) (ts : List Token) : Prop :=
  ∀ rest n, F rest → (cs ++ rest).length ≤ n → ∃ m, rest.length ≤ m ∧
    tokensUpTo n (cs ++ rest) = (tokensUpTo m rest).map (ts ++ ·)

theorem Scans.nil : Scans F [] [] :=
  fun rest n _ hn => ⟨n, hn, by simp⟩

/-- Two parts, the second of which lets the first end where it does. -/
theorem Scans.append (h : Scans F cs ts) (h' : Scans G ds us)
    (hF : ∀ rest, G rest → F (ds ++ rest)) : Scans G (cs ++ ds) (ts ++ us) := by
  intro rest n hrest hn
  rw [List.append_assoc] at hn ⊢
  obtain ⟨m, hm, he⟩ := h (ds ++ rest) n (hF rest hrest) hn
  obtain ⟨m', hm', he'⟩ := h' rest m hrest hm
  refine ⟨m', hm', ?_⟩
  rw [he, he', Option.map_map]
  congr 1
  funext us'
  exact (List.append_assoc ts us us').symm

/-- A part behind which anything may follow. -/
theorem Scans.then (h : Scans (fun _ => True) cs ts) (h' : Scans G ds us) :
    Scans G (cs ++ ds) (ts ++ us) := h.append h' fun _ _ => trivial

theorem Scans.weaken (h : Scans F cs ts) (hF : ∀ rest, G rest → F rest) : Scans G cs ts :=
  fun rest n hrest hn => h rest n (hF rest hrest) hn

theorem scans_blank : Scans F [' '] [] := by
  intro rest n _ hn
  cases n with
  | zero => simp at hn
  | succ n =>
    refine ⟨n, by simpa using hn, ?_⟩
    rw [List.singleton_append, tokensUpTo, if_pos rfl]
    simp

/-- One token. -/
theorem scans_token {c : Char} {t : Token} (hc : c ≠ ' ')
    (h : ∀ rest, F rest → scan c (cs ++ rest) = some (t, rest)) : Scans F (c :: cs) [t] := by
  intro rest n hrest hn
  cases n with
  | zero => simp at hn
  | succ n =>
    have hlen : (cs ++ rest).length ≤ n := by simpa using hn
    rw [List.length_append] at hlen
    refine ⟨n, by omega, ?_⟩
    rw [List.cons_append, tokensUpTo, if_neg hc, h rest hrest]
    rfl

/-- A whole text. -/
theorem Scans.tokens {text : String} (h : Scans F text.toList ts) (hF : F []) :
    tokens text = some ts := by
  obtain ⟨m, -, he⟩ := h [] text.toList.length hF (by simp)
  rw [List.append_nil] at he
  rw [Formula.tokens, he]
  cases m <;> simp [tokensUpTo]

/-! ## Marks and words -/

theorem scans_comma : Scans F [',', ' '] [.comma] := by
  have h : Scans (fun _ => True) [','] [.comma] := scans_token (by decide) fun rest _ => rfl
  exact h.then scans_blank

theorem scans_opening : Scans F ['('] [.opening] :=
  scans_token (by decide) fun _ _ => rfl

theorem scans_closing : Scans F [')'] [.closing] :=
  scans_token (by decide) fun _ _ => rfl

theorem scans_point : Scans F ['.'] [.point] :=
  scans_token (by decide) fun _ _ => rfl

theorem scans_sign : Scans F ['-'] [.operator .sub] :=
  scans_token (by decide) fun _ _ => rfl

theorem scans_word {w : String} (hw : Text.isIdentifier w = true) :
    Scans (Apart b) w.toList [wordToken w] := by
  obtain ⟨c, cs, hcs, hc, hall⟩ := Text.isIdentifier_iff.mp hw
  have hblank : c ≠ ' ' := by
    rintro rfl
    exact absurd hc (by decide)
  rw [hcs]
  refine scans_token hblank fun rest hrest => ?_
  rw [scan, if_pos hc, takeWhile_stop hall fun d hd => hrest.not_continues hd,
    dropWhile_stop hall fun d hd => hrest.not_continues hd, ← hcs, String.ofList_toList]

theorem scans_negation : Scans F ['n', 'o', 't', ' '] [.negation] := by
  have h : Scans (Apart false) ['n', 'o', 't'] [.negation] := scans_word (w := "not") rfl
  exact h.append scans_blank fun rest _ => Or.inl (by decide)

/-- Whether a name can be written in generated source. -/
def IsName (x : String) : Prop := Text.isIdentifier x = true ∧ Text.isReserved x = false

theorem wordToken_name {x : String} (hx : IsName x) : wordToken x = .atom (.name x) := by
  have hwords : words.lookup x = none := by
    -- the words of formulas are reserved themselves
    by_contra hne
    obtain ⟨t, ht⟩ := Option.ne_none_iff_exists'.mp hne
    have hall : ∀ p ∈ words, Text.isReserved p.1 = true := by decide
    have := hall (x, t) (mem_of_lookup ht)
    rw [hx.2] at this
    cases this
  rw [wordToken, hwords]
  simp [hx.2]

theorem scans_name {x : String} (hx : IsName x) :
    Scans (Apart b) x.toList [.atom (.name x)] := by
  rw [← wordToken_name hx]
  exact scans_word hx.1

/-- An operator between the blanks around it. -/
theorem scans_operator (op : BinaryOp) :
    Scans F (' ' :: (op.source.toList ++ [' '])) [.operator op] := by
  have hword : ∀ w t, Text.isIdentifier w = true → wordToken w = t →
      Scans (fun rest => rest.head? = some ' ') w.toList [t] := by
    rintro w _ hw rfl
    exact (scans_word (b := false) hw).weaken fun _ hrest => .of_head (by decide) hrest
  have hmark : ∀ (c : Char) (cs : List Char) (t : Token), c ≠ ' ' →
      (∀ more, scan c (cs ++ ' ' :: more) = some (t, ' ' :: more)) →
      Scans (fun rest => rest.head? = some ' ') (c :: cs) [t] := by
    intro c cs t hc h
    refine scans_token hc fun rest hrest => ?_
    obtain ⟨more, rfl⟩ := List.head?_eq_some_iff.mp hrest
    exact h more
  have h : Scans (fun rest => rest.head? = some ' ') op.source.toList [.operator op] := by
    cases op with
    | or => exact hword "or" _ rfl rfl
    | and => exact hword "and" _ rfl rfl
    | eq => exact hmark '=' ['='] _ (by decide) fun _ => rfl
    | ne => exact hmark '!' ['='] _ (by decide) fun _ => rfl
    | le => exact hmark '<' ['='] _ (by decide) fun _ => rfl
    | ge => exact hmark '>' ['='] _ (by decide) fun _ => rfl
    | lt => exact hmark '<' [] _ (by decide) fun _ => rfl
    | gt => exact hmark '>' [] _ (by decide) fun _ => rfl
    | add => exact hmark '+' [] _ (by decide) fun _ => rfl
    | sub => exact hmark '-' [] _ (by decide) fun _ => rfl
    | mul => exact hmark '*' [] _ (by decide) fun _ => rfl
    | div => exact hmark '/' [] _ (by decide) fun _ => rfl
    | mod => exact hmark '%' [] _ (by decide) fun _ => rfl
  have hall := h.append (scans_blank (F := F)) fun _ _ => rfl
  exact (scans_blank (F := fun _ => True)).then hall

/-! ## Numbers -/

def Digits (cs : List Char) : Prop := ∀ c ∈ cs, c.isDigit = true

theorem Digits.append (h : Digits cs) (h' : Digits ds) : Digits (cs ++ ds) := by
  intro c hc
  rcases List.mem_append.mp hc with hc | hc
  · exact h c hc
  · exact h' c hc

theorem digits_zeros (n : Nat) : Digits (List.replicate n '0') := by
  intro c hc
  cases List.eq_of_mem_replicate hc
  decide

theorem digits_repr (n : Nat) : Digits (Nat.repr n).toList := by
  intro c hc
  rw [Nat.repr_eq_ofList_toDigits, String.toList_ofList] at hc
  exact Nat.isDigit_of_mem_toDigits (by decide) (by decide) hc

theorem repr_ne_nil (n : Nat) : (Nat.repr n).toList ≠ [] := by
  rw [Nat.repr_eq_ofList_toDigits, String.toList_ofList]
  exact Nat.toDigits_ne_nil

/-- A digit begins a number and nothing else. -/
theorem scan_digit {c : Char} (hc : c.isDigit = true) (rest : List Char) :
    scan c rest = scanNumber (c :: rest) := by
  have hstart : Text.startsIdentifier c = false := by
    have hall : ∀ n < 10, Text.startsIdentifier (Char.ofNat (48 + n)) = false := by decide
    obtain ⟨hlow, hhigh⟩ := Char.isDigit_iff_toNat.mp hc
    have hlow' : 48 ≤ c.toNat := hlow
    have hhigh' : c.toNat ≤ 57 := hhigh
    have hcode := hall (c.toNat - 48) (by omega)
    rwa [Nat.add_sub_cancel' hlow', Char.ofNat_toNat] at hcode
  rw [scan, if_neg (by simp [hstart]), if_pos hc]

theorem wholeOf?_repr (n : Nat) : wholeOf? (Nat.repr n).toList = some n := by
  have hvalue : Nat.ofDigitChars 10 (Nat.repr n).toList 0 = n := by
    rw [Nat.repr_eq_ofList_toDigits, String.toList_ofList]
    exact Nat.ofDigitChars_toDigits (by decide) (by decide)
  rw [wholeOf?, hvalue]
  exact if_pos rfl

theorem pointPart_apart (h : Apart false rest) : pointPart rest = ([], rest) := by
  unfold pointPart
  split
  · exact absurd h (by simp [Apart])
  · rfl

theorem powerPart_apart (h : Apart b rest) : powerPart rest = ([], rest) := by
  unfold powerPart
  split
  · exact absurd (h.head rfl) (by decide)
  · rfl

theorem scanNumber_whole (n : Nat) (h : Apart false rest) :
    scanNumber ((Nat.repr n).toList ++ rest) = some (.atom (.whole n), rest) := by
  have hd := digits_repr n
  have hnone : rest.head?.any Text.continuesIdentifier = false := by
    cases rest with
    | nil => rfl
    | cons c rest => exact h.not_continues rfl
  unfold scanNumber
  rw [takeWhile_stop hd fun c hc => h.not_digit hc, dropWhile_stop hd fun c hc => h.not_digit hc,
    pointPart_apart h]
  dsimp only
  rw [powerPart_apart h, hnone, wholeOf?_repr]
  rfl

theorem scans_number {t : Token} (hne : cs ≠ []) (hd : ∀ c, cs.head? = some c → c.isDigit = true)
    (h : ∀ rest, F rest → scanNumber (cs ++ rest) = some (t, rest)) : Scans F cs [t] := by
  cases cs with
  | nil => exact absurd rfl hne
  | cons c cs =>
    have hc := hd c rfl
    refine scans_token ?_ fun rest hrest => ?_
    · rintro rfl
      exact absurd hc (by decide)
    · rw [scan_digit hc]
      exact h rest hrest

theorem scans_whole (n : Nat) : Scans (Apart false) (Nat.repr n).toList [.atom (.whole n)] :=
  scans_number (repr_ne_nil n) (fun c hc => digits_repr n c (List.mem_of_mem_head? hc))
    fun _ hrest => scanNumber_whole n hrest

/-- A sign and digits behind the mark of a power, or nothing. -/
def IsPower (cs : List Char) : Prop :=
  cs = [] ∨ ∃ s ds, (s = '+' ∨ s = '-') ∧ ds ≠ [] ∧ Digits ds ∧ cs = 'e' :: s :: ds

/-- Digits behind a point, or nothing. -/
def IsPointed (cs : List Char) : Prop := cs = [] ∨ ∃ ds, Digits ds ∧ cs = '.' :: ds

/-- Digits with a point or a power behind them, or both. -/
inductive IsFraction : List Char → Prop where
  | mk {whole pointed power : List Char} : whole ≠ [] → Digits whole → IsPointed pointed →
      IsPower power → pointed ++ power ≠ [] → IsFraction (whole ++ (pointed ++ power))

theorem powerPart_power (h : IsPower cs) (hrest : Apart b rest) :
    powerPart (cs ++ rest) = (cs, rest) := by
  rcases h with rfl | ⟨s, ds, hs, hne, hds, rfl⟩
  · exact powerPart_apart hrest
  · have hsign : signPart (s :: (ds ++ rest)) = ([s], ds ++ rest) := by
      rcases hs with rfl | rfl <;> rfl
    have htake := takeWhile_stop hds fun c hc => hrest.not_digit hc
    have hdrop := dropWhile_stop hds fun c hc => hrest.not_digit hc
    rw [List.cons_append, List.cons_append, powerPart, hsign]
    dsimp only
    rw [htake, hdrop]
    cases ds with
    | nil => exact absurd rfl hne
    | cons d ds => rfl

/-- Neither a power nor what may follow begins with a digit. -/
theorem head_power (h : IsPower cs) (hrest : Apart b rest) {c : Char}
    (hc : (cs ++ rest).head? = some c) : c.isDigit = false := by
  rcases h with rfl | ⟨s, ds, -, -, -, rfl⟩
  · exact hrest.not_digit hc
  · cases hc
    decide

theorem head_pointed (h : IsPointed cs) (h' : IsPower ds) (hrest : Apart b rest) {c : Char}
    (hc : (cs ++ (ds ++ rest)).head? = some c) : c.isDigit = false := by
  rcases h with rfl | ⟨ds, -, rfl⟩
  · exact head_power h' hrest hc
  · cases hc
    decide

theorem pointPart_pointed (h : IsPointed cs) (h' : IsPower ds) (hne : cs ++ ds ≠ [])
    (hrest : Apart b rest) : pointPart (cs ++ (ds ++ rest)) = (cs, ds ++ rest) := by
  rcases h with rfl | ⟨places, hplaces, rfl⟩
  · rcases h' with rfl | ⟨s, ds, -, -, -, rfl⟩
    · exact absurd rfl hne
    · rfl
  · rw [List.cons_append, pointPart, takeWhile_stop hplaces fun c hc => head_power h' hrest hc,
      dropWhile_stop hplaces fun c hc => head_power h' hrest hc]

theorem scanNumber_fraction (h : IsFraction cs) (hrest : Apart true rest) :
    scanNumber (cs ++ rest) = some (.atom (.fraction (String.ofList cs)), rest) := by
  cases h with
  | @mk whole pointed power hne hw hpoint hpow hbehind =>
    have hnone : rest.head?.any Text.continuesIdentifier = false := by
      cases rest with
      | nil => rfl
      | cons c rest => exact hrest.not_continues rfl
    have hhead := fun c hc => head_pointed (c := c) hpoint hpow hrest hc
    rw [List.append_assoc, List.append_assoc]
    unfold scanNumber
    rw [takeWhile_stop hw hhead, dropWhile_stop hw hhead,
      pointPart_pointed hpoint hpow hbehind hrest]
    dsimp only
    rw [powerPart_power hpow hrest, hnone]
    dsimp only
    cases hb : pointed ++ power with
    | nil => exact absurd hb hbehind
    | cons c more => rfl

theorem scans_fraction (h : IsFraction cs) :
    Scans (Apart true) cs [.atom (.fraction (String.ofList cs))] := by
  have hhead : cs ≠ [] ∧ ∀ c, cs.head? = some c → c.isDigit = true := by
    cases h with
    | @mk whole _ _ hne hw =>
      refine ⟨fun he => hne (List.append_eq_nil_iff.mp he).1, fun c hc => ?_⟩
      rw [List.head?_append_of_ne_nil _ hne] at hc
      exact hw c (List.mem_of_mem_head? hc)
  exact scans_number hhead.1 hhead.2 fun rest hrest => scanNumber_fraction h hrest

theorem isFraction_point (hne : cs ≠ []) (h : Digits cs) (h' : Digits ds) :
    IsFraction (cs ++ '.' :: ds) := by
  have hall := IsFraction.mk hne h (.inr ⟨ds, h', rfl⟩) (.inl rfl) (by simp)
  rw [List.append_nil] at hall
  exact hall

/-- The digits that are chosen for a number are laid out as a fraction. -/
theorem isFraction_magnitude (d : Decimal.Digits) : IsFraction (numberLayout.magnitude d) := by
  have hds := digits_repr d.digits
  have hne := repr_ne_nil d.digits
  have hzero : Digits ['0'] := digits_zeros 1
  unfold Decimal.Layout.magnitude
  generalize (Nat.repr d.digits).toList = ds at hds hne
  dsimp only
  split
  · -- a point and no power: behind, within or before the digits
    split
    · refine isFraction_point (fun he => hne (List.append_eq_nil_iff.mp he).1) ?_ hzero
      exact hds.append (digits_zeros _)
    · split
      · refine isFraction_point ?_ (fun c hc => hds c (List.mem_of_mem_take hc))
          fun c hc => hds c (List.mem_of_mem_drop hc)
        cases ds with
        | nil => exact absurd rfl hne
        | cons c ds => exact List.cons_ne_nil _ _
      · have h := isFraction_point (List.cons_ne_nil '0' []) hzero
          ((digits_zeros (-(d.exponent + ds.length - 1) - 1).toNat).append hds)
        exact h
  · -- one digit before the point, and a power
    generalize hlead : d.exponent + ds.length - 1 = leading
    have hpow : IsPower ('e' :: ((if leading < 0 then ['-'] else if numberLayout.exponentPlus = true
        then ['+'] else []) ++ Decimal.padLeft numberLayout.exponentWidth
          (Nat.repr leading.natAbs).toList)) := by
      have hpad : Digits (Decimal.padLeft numberLayout.exponentWidth
          (Nat.repr leading.natAbs).toList) := (digits_zeros _).append (digits_repr _)
      have hpad_ne : Decimal.padLeft numberLayout.exponentWidth
          (Nat.repr leading.natAbs).toList ≠ [] :=
        fun he => repr_ne_nil _ (List.append_eq_nil_iff.mp he).2
      split
      · exact .inr ⟨'-', _, .inr rfl, hpad_ne, hpad, rfl⟩
      · exact .inr ⟨'+', _, .inl rfl, hpad_ne, hpad, rfl⟩
    cases ds with
    | nil => exact absurd rfl hne
    | cons c ds =>
      have hc : Digits [c] := fun c' hc' => hds c' (List.mem_cons.mpr (.inl (List.mem_singleton.mp hc')))
      have hrest : Digits ds := fun c' hc' => hds c' (List.mem_cons_of_mem _ hc')
      rw [List.append_assoc]
      cases ds with
      | nil =>
        have h := IsFraction.mk (List.cons_ne_nil c []) hc (.inl rfl) hpow (List.cons_ne_nil _ _)
        exact h
      | cons c' ds =>
        have h := IsFraction.mk (List.cons_ne_nil c []) hc (.inr ⟨_, hrest, rfl⟩) hpow
          (List.cons_ne_nil _ _)
        exact h

/-- A finite number that is not negative. -/
def IsPlain (x : Float) : Prop :=
  ∃ e, Binary64.Exact.ofFloat? x = some e ∧ e.negative = false

theorem scans_float {x : Float} (h : IsPlain x) : Scans (Apart true)
    (numberLayout.render x).toList [.atom (.fraction (numberLayout.render x))] := by
  obtain ⟨e, he, hsign⟩ := h
  have hrender : numberLayout.render x = String.ofList
      (if e.mantissa = 0 then "0.0".toList else numberLayout.magnitude (Decimal.shortest e)) := by
    rw [Decimal.Layout.render, he]
    dsimp only
    rw [hsign]
    rfl
  have hfraction : IsFraction
      (if e.mantissa = 0 then "0.0".toList else numberLayout.magnitude (Decimal.shortest e)) := by
    split
    · exact isFraction_point (List.cons_ne_nil '0' []) (digits_zeros 1) (digits_zeros 1)
    · exact isFraction_magnitude _
  rw [hrender, String.toList_ofList]
  exact scans_fraction hfraction

/-! ## Texts -/

theorem scanText_unit {digits : List Char} {c : Char} (hlen : digits.length = 4)
    (hc : hexChar? digits = some c) (rest : List Char) :
    scanText ('\\' :: 'u' :: (digits ++ rest)) = (scanText rest).map fun s => (c :: s.1, s.2) := by
  obtain ⟨d₁, d₂, d₃, d₄, rfl⟩ : ∃ d₁ d₂ d₃ d₄, digits = [d₁, d₂, d₃, d₄] := by
    match digits, hlen with
    | [d₁, d₂, d₃, d₄], _ => exact ⟨d₁, d₂, d₃, d₄, rfl⟩
  show scanText ('\\' :: 'u' :: d₁ :: d₂ :: d₃ :: d₄ :: rest) = _
  rw [scanText, hc]
  cases scanText rest <;> rfl

theorem scanText_plain {c : Char} (hc : c ∉ ['"', '\\', '\n', '\r']) (rest : List Char) :
    scanText (c :: rest) = (scanText rest).map fun s => (c :: s.1, s.2) := by
  have hne : ∀ d ∈ ['"', '\\', '\n', '\r'], c ≠ d := by
    rintro d hd rfl
    exact hc hd
  rw [scanText]
  · cases scanText rest <;> rfl
  · exact hne '"' (by decide)
  · exact fun _ _ _ _ _ he => absurd he (hne '\\' (by decide))
  · exact fun _ _ he => absurd he (hne '\\' (by decide))
  · exact hne '\n' (by decide)
  · exact hne '\r' (by decide)

/-- A character that is written into a text is read back. -/
theorem scanText_escaped (c : Char) (rest : List Char) :
    scanText (Json.escapeChar c ++ rest) = (scanText rest).map fun s => (c :: s.1, s.2) := by
  unfold Json.escapeChar
  split
  · next e he =>
    have hmem := mem_of_lookup he
    simp only [List.mem_cons, Prod.mk.injEq, List.not_mem_nil, or_false] at hmem
    rcases hmem with ⟨rfl, rfl⟩ | ⟨rfl, rfl⟩ | ⟨rfl, rfl⟩ | ⟨rfl, rfl⟩ | ⟨rfl, rfl⟩ | ⟨rfl, rfl⟩ |
      ⟨rfl, rfl⟩
    all_goals
      show scanText ('\\' :: _ :: rest) = _
      rw [scanText]
      · cases scanText rest <;> rfl
      · exact fun _ _ _ _ _ he => absurd he (by decide)
  · next hnone =>
    split
    · next hlow =>
      -- written with its number: one of the 32 control characters, and each of them is tried
      have hall : ∀ n < 32, (Text.hexDigits 4 n).length = 4 ∧
          hexChar? (Text.hexDigits 4 n) = some (Char.ofNat n) := by decide
      obtain ⟨hlen, hvalue⟩ := hall c.toNat hlow
      rw [Char.ofNat_toNat] at hvalue
      exact scanText_unit hlen hvalue rest
    · refine scanText_plain ?_ rest
      intro hmem
      have hall : ['"', '\\', '\n', '\r'].all (Json.shortEscape? · != none) = true := by decide
      exact bne_iff_ne.mp (List.all_eq_true.mp hall c hmem) hnone

theorem scanText_quoted (s : List Char) (rest : List Char) :
    scanText (s.flatMap Json.escapeChar ++ '"' :: rest) = some (s, rest) := by
  induction s with
  | nil => rfl
  | cons c s ih =>
    rw [List.flatMap_cons, List.append_assoc, scanText_escaped, ih]
    rfl

theorem scans_text (s : String) : Scans F (Json.quoted s).toList [.atom (.text s)] := by
  have hquoted : (Json.quoted s).toList = '"' :: (s.toList.flatMap Json.escapeChar ++ ['"']) := by
    rw [Json.quoted, String.toList_ofList]
    rfl
  rw [hquoted]
  refine scans_token (by decide) fun rest _ => ?_
  have hscan : scan '"' = fun cs =>
      (scanText cs).map fun s => (.atom (.text (String.ofList s.1)), s.2) := rfl
  rw [hscan, List.append_assoc]
  dsimp only
  rw [List.singleton_append, scanText_quoted, Option.map_some, String.ofList_toList]

end Formula

end Widgetry
