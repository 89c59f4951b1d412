import Widgetry.Proofs.Generation.Units
import Mathlib.Data.List.TakeWhile

/-!
# What the import lines say

The imports of a unit are a set of dotted paths. Their lines say which set that is, and nothing else.

> `importLines_canonical`: sinks to which the same paths were added have the same import lines, in
> whatever order and however often they were added, and in whatever order the set is gone through.
> The lines are statements in the order of their modules: one for each path without a point, and one
> for each module that names are taken from, with these names in order. They can be read back, and
> import exactly the paths.

A line is an `Import.Statement` written down. `Statement.read?` reads it word by word, and
`Import.Complete` says what the statements for some paths are.
-/

namespace Widgetry

namespace Import

/-- Whether a text is a dotted path: identifiers with a point between each two. -/
def Dotted (path : String) : Prop :=
  ∃ parts : List String, parts ≠ [] ∧ (∀ part ∈ parts, Text.isIdentifier part = true) ∧
    path = ".".intercalate parts

/-- An import of a module as a whole, or of names from a module. -/
inductive Statement where
  | whole (source : String)
  | named (source : String) (names : List String)
deriving DecidableEq, Repr

namespace Statement

def source : Statement → String
  | whole source => source
  | named source _ => source

/-- The line that a statement is written on. -/
def text : Statement → String
  | whole source => "import " ++ source
  | named source names => "from " ++ source ++ " import " ++ commaSeparated names

/-- The paths that a statement imports. -/
def paths : Statement → List String
  | whole source => [source]
  | named source names => names.map fun name => source ++ "." ++ name

/-- The order of the lines: by module, and for one module by what is written. -/
def Precedes (st st' : Statement) : Prop :=
  st.source < st'.source ∨ st.source = st'.source ∧ st.text < st'.text

/-- Reads names of which each but the last has a comma behind it. -/
def readNames? : List (List Char) → Option (List String)
  | [] => none
  | [word] => if ',' ∈ word then none else some [String.ofList word]
  | word :: rest =>
    if word.getLast? = some ',' then
      (readNames? rest).map (String.ofList word.dropLast :: ·)
    else none

/-- Reads a line, whose words stand one blank apart. -/
def read? (line : String) : Option Statement :=
  match line.toList.splitOn ' ' with
  | [keyword, source] =>
    if keyword = "import".toList then some (whole (String.ofList source)) else none
  | keyword :: source :: keyword' :: rest =>
    if keyword = "from".toList ∧ keyword' = "import".toList then
      (readNames? rest).map (named (String.ofList source))
    else none
  | _ => none

end Statement

/-- Whether statements are those that import some paths. -/
structure Complete (paths : List String) (statements : List Statement) : Prop where
  /-- each path without a point is imported as a whole, and no other is -/
  whole (path : String) : .whole path ∈ statements ↔ path ∈ paths ∧ '.' ∉ path.toList
  /-- the names from one module are taken all at once -/
  named {source name : String} : source ++ "." ++ name ∈ paths → '.' ∉ name.toList →
    ∃! names, .named source names ∈ statements
  /-- there are some then, sorted and without points -/
  names {source : String} {names : List String} : .named source names ∈ statements →
    names ≠ [] ∧ names.Pairwise (· < ·) ∧ ∀ name ∈ names, '.' ∉ name.toList
  ordered : statements.Pairwise Statement.Precedes
  distinct : statements.Nodup
  paths (path : String) : path ∈ statements.flatMap Statement.paths ↔ path ∈ paths
  /-- no path is imported twice -/
  once : (statements.flatMap Statement.paths).Nodup

/-! ## Paths -/

section Paths

variable {path source name : String} {paths : List String}

theorem ofPath_pointless (h : '.' ∉ path.toList) : ofPath path = ⟨path, none⟩ := by
  have hdrop : path.toList.reverse.dropWhile (· != '.') = [] := by
    refine List.dropWhile_eq_nil_iff.mpr fun c hc => ?_
    exact bne_iff_ne.mpr fun he => h (he ▸ List.mem_reverse.mp hc)
  simp only [ofPath, hdrop]

/-- What stands behind the last point is taken from what stands in front of it. -/
theorem ofPath_point (source : String) (h : '.' ∉ name.toList) :
    ofPath (source ++ "." ++ name) = ⟨source, some name⟩ := by
  have hname : ∀ c ∈ name.toList.reverse, (c != '.') = true := fun c hc =>
    bne_iff_ne.mpr fun he => h (he ▸ List.mem_reverse.mp hc)
  have hlist : (source ++ "." ++ name).toList.reverse
      = name.toList.reverse ++ '.' :: source.toList.reverse := by
    simp
  simp only [ofPath, hlist, List.dropWhile_append_of_pos hname,
    List.takeWhile_append_of_pos hname]
  simp

/-- A path has no point, or a last one. -/
theorem point_cases (path : String) : '.' ∉ path.toList ∨
    ∃ source name, path = source ++ "." ++ name ∧ '.' ∉ name.toList := by
  by_cases h : '.' ∈ path.toList
  · obtain ⟨name, source, hlist, hname⟩ :=
      List.eq_append_cons_of_mem (List.mem_reverse.mpr h)
    refine .inr ⟨String.ofList source.reverse, String.ofList name.reverse, ?_, ?_⟩
    · apply String.toList_injective
      rw [← List.reverse_reverse path.toList, hlist]
      simp
    · rwa [String.toList_ofList, List.mem_reverse]
  · exact .inl h

theorem ofPath_eq_whole_iff : ofPath path = ⟨source, none⟩ ↔ path = source ∧ '.' ∉ source.toList := by
  constructor
  · intro h
    obtain hplain | ⟨source', name, rfl, hname⟩ := point_cases path
    · rw [ofPath_pointless hplain] at h
      cases h
      exact ⟨rfl, hplain⟩
    · rw [ofPath_point source' hname] at h
      cases h
  · rintro ⟨rfl, h⟩
    exact ofPath_pointless h

theorem ofPath_eq_named_iff : ofPath path = ⟨source, some name⟩ ↔
    path = source ++ "." ++ name ∧ '.' ∉ name.toList := by
  constructor
  · intro h
    obtain hplain | ⟨source', name', rfl, hname⟩ := point_cases path
    · rw [ofPath_pointless hplain] at h
      cases h
    · rw [ofPath_point source' hname] at h
      cases h
      exact ⟨rfl, hname⟩
  · rintro ⟨rfl, h⟩
    exact ofPath_point source h

theorem whole_mem_iff : ⟨source, none⟩ ∈ paths.map ofPath ↔
    source ∈ paths ∧ '.' ∉ source.toList := by
  simp only [List.mem_map, ofPath_eq_whole_iff]
  constructor
  · rintro ⟨path, hpath, rfl, h⟩
    exact ⟨hpath, h⟩
  · rintro ⟨hpath, h⟩
    exact ⟨source, hpath, rfl, h⟩

theorem named_mem_iff : ⟨source, some name⟩ ∈ paths.map ofPath ↔
    source ++ "." ++ name ∈ paths ∧ '.' ∉ name.toList := by
  simp only [List.mem_map, ofPath_eq_named_iff]
  constructor
  · rintro ⟨path, hpath, rfl, h⟩
    exact ⟨hpath, h⟩
  · rintro ⟨hpath, h⟩
    exact ⟨_, hpath, rfl, h⟩

end Paths

/-! ## Statements -/

/-- The statements that import from a module: its names, and the module as a whole. -/
def statementsOf (imports : List Import) (source : String) : List Statement :=
  (if imports.any (fun i => i.source = source ∧ i.name.isSome)
    then [.named source (namesFrom imports source)] else []) ++
  if imports.any (fun i => i.source = source ∧ i.name.isNone) then [.whole source] else []

/-- The statements that import some paths. -/
def statements (paths : List String) : List Statement :=
  (Text.sortedSet ((paths.map ofPath).map (·.source))).flatMap (statementsOf (paths.map ofPath))

theorem lines_eq_map (paths : List String) : lines paths = (statements paths).map (·.text) := by
  rw [lines, statements, List.map_flatMap]
  congr 1
  funext source
  simp only [linesOf, statementsOf, List.map_append]
  congr 1
  · split <;> rfl
  · split <;> rfl

section Statements

variable {imports : List Import} {source name : String} {names : List String} {st : Statement}

theorem mem_namesFrom : name ∈ namesFrom imports source ↔ ⟨source, some name⟩ ∈ imports := by
  rw [namesFrom, Text.mem_sortedSet, List.mem_filterMap]
  constructor
  · rintro ⟨⟨source', name'⟩, hi, hname⟩
    dsimp only at hname
    split at hname
    · next hsource =>
      cases hsource
      cases hname
      exact hi
    · cases hname
  · intro hi
    exact ⟨_, hi, if_pos rfl⟩

theorem mem_statementsOf : st ∈ statementsOf imports source ↔
    (namesFrom imports source ≠ [] ∧ st = .named source (namesFrom imports source)) ∨
      (⟨source, none⟩ ∈ imports ∧ st = .whole source) := by
  have hnamed : imports.any (fun i => i.source = source ∧ i.name.isSome) = true ↔
      namesFrom imports source ≠ [] := by
    rw [List.any_eq_true]
    constructor
    · rintro ⟨⟨source', name?⟩, hi, h⟩
      obtain ⟨rfl, hname⟩ : source' = source ∧ name?.isSome = true := by simpa using h
      obtain ⟨name, rfl⟩ := Option.isSome_iff_exists.mp hname
      exact List.ne_nil_of_mem (mem_namesFrom.mpr hi)
    · intro hne
      obtain ⟨name, hname⟩ := List.exists_mem_of_ne_nil _ hne
      exact ⟨_, mem_namesFrom.mp hname, by simp⟩
  have hwhole : imports.any (fun i => i.source = source ∧ i.name.isNone) = true ↔
      ⟨source, none⟩ ∈ imports := by
    rw [List.any_eq_true]
    constructor
    · rintro ⟨⟨source', name?⟩, hi, h⟩
      obtain ⟨rfl, rfl⟩ : source' = source ∧ name? = none := by simpa using h
      exact hi
    · exact fun hi => ⟨_, hi, by simp⟩
  rw [statementsOf, List.mem_append, List.mem_ite_nil_right, List.mem_ite_nil_right, hnamed, hwhole,
    List.mem_singleton, List.mem_singleton]

theorem source_of_mem (h : st ∈ statementsOf imports source) : st.source = source := by
  obtain ⟨-, rfl⟩ | ⟨-, rfl⟩ := mem_statementsOf.mp h <;> rfl

/-- The names from a module are imported in front of the module as a whole. -/
theorem statementsOf_ordered : (statementsOf imports source).Pairwise Statement.Precedes := by
  -- of two lines about one module, the one that begins with "from" is the smaller text
  have hfirst : (Statement.named source (namesFrom imports source)).Precedes (.whole source) := by
    refine .inr ⟨rfl, String.lt_iff_toList_lt.mpr ?_⟩
    simp only [Statement.text, String.toList_append]
    exact List.Lex.rel (by decide)
  unfold statementsOf
  split <;> split <;> simp [hfirst]

end Statements

section Complete

variable {paths : List String} {source name : String} {names : List String}

theorem mem_statements {st : Statement} : st ∈ statements paths ↔
    st ∈ statementsOf (paths.map ofPath) st.source := by
  rw [statements, List.mem_flatMap]
  constructor
  · rintro ⟨source, -, h⟩
    rwa [source_of_mem h]
  · intro h
    refine ⟨_, Text.mem_sortedSet.mpr ?_, h⟩
    obtain ⟨hnames, -⟩ | ⟨hi, -⟩ := mem_statementsOf.mp h
    · obtain ⟨name, hname⟩ := List.exists_mem_of_ne_nil _ hnames
      exact List.mem_map.mpr ⟨_, mem_namesFrom.mp hname, rfl⟩
    · exact List.mem_map.mpr ⟨_, hi, rfl⟩

theorem whole_mem_statements : .whole source ∈ statements paths ↔
    source ∈ paths ∧ '.' ∉ source.toList := by
  rw [mem_statements, mem_statementsOf, ← whole_mem_iff]
  simp [Statement.source]

theorem named_mem_statements : .named source names ∈ statements paths ↔
    names = namesFrom (paths.map ofPath) source ∧ names ≠ [] := by
  rw [mem_statements, mem_statementsOf]
  constructor
  · rintro (⟨hne, he⟩ | ⟨-, he⟩)
    · obtain ⟨-, hnames⟩ := Statement.named.inj he
      exact ⟨hnames, fun hnil => hne (hnames.symm.trans hnil)⟩
    · cases he
  · rintro ⟨rfl, hne⟩
    exact .inl ⟨hne, rfl⟩

theorem statements_ordered (paths : List String) :
    (statements paths).Pairwise Statement.Precedes := by
  refine List.pairwise_flatMap.mpr ⟨fun _ _ => statementsOf_ordered, ?_⟩
  refine (Text.sortedSet_sorted _).imp fun hlt st hst st' hst' => .inl ?_
  rwa [source_of_mem hst, source_of_mem hst']

theorem statements_distinct (paths : List String) : (statements paths).Nodup := by
  refine (statements_ordered paths).imp ?_
  rintro st _ (hlt | ⟨-, hlt⟩) rfl
  · exact lt_irrefl _ hlt
  · exact lt_irrefl _ hlt

theorem mem_statements_paths {path : String} :
    path ∈ (statements paths).flatMap Statement.paths ↔ path ∈ paths := by
  rw [List.mem_flatMap]
  constructor
  · rintro ⟨_ | ⟨source, names⟩, hst, hpath⟩
    · cases List.mem_singleton.mp hpath
      exact (whole_mem_statements.mp hst).1
    · obtain ⟨name, hname, rfl⟩ := List.mem_map.mp hpath
      obtain ⟨rfl, -⟩ := named_mem_statements.mp hst
      exact (named_mem_iff.mp (mem_namesFrom.mp hname)).1
  · intro hpath
    obtain hplain | ⟨source, name, rfl, hname⟩ := point_cases path
    · exact ⟨_, whole_mem_statements.mpr ⟨hpath, hplain⟩, List.mem_singleton_self _⟩
    · have hmem : name ∈ namesFrom (paths.map ofPath) source :=
        mem_namesFrom.mpr (named_mem_iff.mpr ⟨hpath, hname⟩)
      exact ⟨.named source _, named_mem_statements.mpr ⟨rfl, List.ne_nil_of_mem hmem⟩,
        List.mem_map_of_mem hmem⟩

/-- What a path is imported by is seen from the path. -/
theorem eq_of_mem_paths {path : String} {st : Statement} (hst : st ∈ statements paths)
    (hpath : path ∈ st.paths) : st = match ofPath path with
      | ⟨source, none⟩ => .whole source
      | ⟨source, some _⟩ => .named source (namesFrom (paths.map ofPath) source) := by
  cases st with
  | whole source =>
    cases List.mem_singleton.mp hpath
    rw [ofPath_pointless (whole_mem_statements.mp hst).2]
  | named source names =>
    obtain ⟨name, hname, rfl⟩ := List.mem_map.mp hpath
    obtain ⟨rfl, -⟩ := named_mem_statements.mp hst
    rw [ofPath_point source (named_mem_iff.mp (mem_namesFrom.mp hname)).2]

theorem statements_once (paths : List String) :
    ((statements paths).flatMap Statement.paths).Nodup := by
  refine List.nodup_flatMap.mpr ⟨?_, ?_⟩
  · rintro (source | ⟨source, names⟩) hst
    · exact List.nodup_singleton _
    · obtain ⟨rfl, -⟩ := named_mem_statements.mp hst
      refine List.Nodup.map (fun name name' h => ?_) ((Text.sortedSet_sorted _).imp ne_of_lt)
      exact String.append_right_inj _ |>.mp h
  · -- two statements that import one path are the same, since the path says which one it is
    refine (statements_distinct paths).imp_of_mem fun {st st'} hst hst' hne path hpath hpath' => ?_
    exact hne ((eq_of_mem_paths hst hpath).trans (eq_of_mem_paths hst' hpath').symm)

theorem statements_complete (paths : List String) : Complete paths (statements paths) where
  whole _ := whole_mem_statements
  named {source name} hpath hname := by
    have hmem : name ∈ namesFrom (paths.map ofPath) source :=
      mem_namesFrom.mpr (named_mem_iff.mpr ⟨hpath, hname⟩)
    refine ⟨_, named_mem_statements.mpr ⟨rfl, List.ne_nil_of_mem hmem⟩, fun names hnames => ?_⟩
    exact (named_mem_statements.mp hnames).1
  names hst := by
    obtain ⟨rfl, hne⟩ := named_mem_statements.mp hst
    exact ⟨hne, Text.sortedSet_sorted _, fun name hname =>
      (named_mem_iff.mp (mem_namesFrom.mp hname)).2⟩
  ordered := statements_ordered paths
  distinct := statements_distinct paths
  paths _ := mem_statements_paths
  once := statements_once paths

end Complete

/-! ## Reading lines back -/

/-- Whether a text has no character that stands between the words of a line. -/
def Word (s : String) : Prop := ∀ c ∈ s.toList, c ≠ ' ' ∧ c ≠ ','

namespace Statement

/-- The module and the names of a statement. -/
def words : Statement → List String
  | whole source => [source]
  | named source names => source :: names

/-- Names with a comma behind each but the last. -/
def commaWords : List String → List (List Char)
  | [] => []
  | [name] => [name.toList]
  | name :: rest => (name.toList ++ [',']) :: commaWords rest

theorem commaWords_cons_cons (name name' : String) (rest : List String) :
    commaWords (name :: name' :: rest)
      = (name.toList ++ [',']) :: commaWords (name' :: rest) := rfl

theorem exists_commaWords : ∀ {names : List String}, names ≠ [] →
    ∃ word words, commaWords names = word :: words
  | [_], _ => ⟨_, _, rfl⟩
  | _ :: _ :: _, _ => ⟨_, _, rfl⟩

theorem toList_commaSeparated : ∀ names : List String,
    (commaSeparated names).toList = [' '].intercalate (commaWords names)
  | [] => rfl
  | [name] => by simp [commaSeparated, commaWords]
  | name :: name' :: rest => by
    obtain ⟨word, words, hwords⟩ := exists_commaWords (List.cons_ne_nil name' rest)
    rw [Expr.commaSeparated_cons, toList_commaSeparated (name' :: rest), commaWords_cons_cons,
      hwords, List.intercalate_cons_cons]
    simp

theorem readNames?_commaWords : ∀ {names : List String}, names ≠ [] → (∀ name ∈ names, Word name) →
    readNames? (commaWords names) = some names
  | [name], _, h => by
    have hcomma : ',' ∉ name.toList := fun hmem => (h name List.mem_cons_self _ hmem).2 rfl
    simp [commaWords, readNames?, hcomma]
  | name :: name' :: rest, _, h => by
    have hrest : readNames? (commaWords (name' :: rest)) = some (name' :: rest) :=
      readNames?_commaWords (List.cons_ne_nil _ _) fun n hn => h n (List.mem_cons_of_mem _ hn)
    obtain ⟨word, words, hwords⟩ := exists_commaWords (List.cons_ne_nil name' rest)
    rw [hwords] at hrest
    simp [commaWords_cons_cons, hwords, readNames?, hrest]

theorem blank_not_mem_commaWords : ∀ {names : List String}, (∀ name ∈ names, Word name) →
    ∀ word ∈ commaWords names, ' ' ∉ word
  | [], _ => nofun
  | [name], h => by
    refine List.forall_mem_singleton.mpr fun hmem => ?_
    exact (h name List.mem_cons_self _ hmem).1 rfl
  | name :: name' :: rest, h => by
    refine List.forall_mem_cons.mpr ⟨fun hmem => ?_,
      blank_not_mem_commaWords fun n hn => h n (List.mem_cons_of_mem _ hn)⟩
    rcases List.mem_append.mp hmem with hmem | hmem
    · exact (h name List.mem_cons_self _ hmem).1 rfl
    · cases List.mem_singleton.mp hmem

/-- A written statement is read back. -/
theorem read?_text {st : Statement} (h : ∀ word ∈ st.words, Word word)
    (hne : ∀ source, st ≠ .named source []) : read? st.text = some st := by
  have hblank : ∀ word ∈ st.words, ' ' ∉ word.toList := fun word hword hmem =>
    (h word hword _ hmem).1 rfl
  cases st with
  | whole source =>
    have hwords : (whole source).text.toList.splitOn ' ' = ["import".toList, source.toList] := by
      have htext : (whole source).text.toList
          = [' '].intercalate ["import".toList, source.toList] := by
        simp [text]
      rw [htext]
      refine List.splitOn_intercalate ' ' ?_ (List.cons_ne_nil _ _)
      exact List.forall_mem_cons.mpr ⟨by decide,
        List.forall_mem_singleton.mpr (hblank source List.mem_cons_self)⟩
    rw [read?, hwords]
    simp
  | named source names =>
    have hnames : names ≠ [] := fun hnil => hne source (hnil ▸ rfl)
    have hwords : (named source names).text.toList.splitOn ' '
        = "from".toList :: source.toList :: "import".toList :: commaWords names := by
      have htext : (named source names).text.toList = [' '].intercalate
          ("from".toList :: source.toList :: "import".toList :: commaWords names) := by
        obtain ⟨word, words, hwords⟩ := exists_commaWords hnames
        rw [hwords, List.intercalate_cons_cons, List.intercalate_cons_cons,
          List.intercalate_cons_cons, ← hwords, ← toList_commaSeparated]
        simp [text]
      rw [htext]
      refine List.splitOn_intercalate ' ' ?_ (List.cons_ne_nil _ _)
      exact List.forall_mem_cons.mpr ⟨by decide, List.forall_mem_cons.mpr
        ⟨hblank source List.mem_cons_self, List.forall_mem_cons.mpr ⟨by decide,
          blank_not_mem_commaWords fun name hname => h name (List.mem_cons_of_mem _ hname)⟩⟩⟩
    have hread : readNames? (commaWords names) = some names :=
      readNames?_commaWords hnames fun name hname => h name (List.mem_cons_of_mem _ hname)
    obtain ⟨word, words, hcomma⟩ := exists_commaWords hnames
    rw [read?, hwords]
    rw [hcomma] at hread ⊢
    simp [hread]

end Statement

section Dotted

variable {path source name : String} {paths : List String}

theorem Word.of_point (h : Word (source ++ "." ++ name)) : Word source ∧ Word name := by
  have hlist : (source ++ "." ++ name).toList = source.toList ++ '.' :: name.toList := by simp
  rw [Word, hlist] at h
  exact ⟨fun c hc => h c (List.mem_append_left _ hc),
    fun c hc => h c (List.mem_append_right _ (List.mem_cons_of_mem _ hc))⟩

theorem word_of_isIdentifier (h : Text.isIdentifier name = true) : Word name := by
  have hblank : Text.continuesIdentifier ' ' = false := by decide +kernel
  have hcomma : Text.continuesIdentifier ',' = false := by decide +kernel
  intro c hc
  have hcontinues := Text.continues_of_mem h hc
  constructor
  · rintro rfl
    exact Bool.false_ne_true (hblank.symm.trans hcontinues)
  · rintro rfl
    exact Bool.false_ne_true (hcomma.symm.trans hcontinues)

theorem Dotted.word (h : Dotted path) : Word path := by
  obtain ⟨parts, -, hparts, rfl⟩ := h
  induction parts with
  | nil => exact nofun
  | cons part rest ih =>
    obtain ⟨hpart, hrest⟩ := List.forall_mem_cons.mp hparts
    cases rest with
    | nil =>
      rw [String.intercalate_singleton]
      exact word_of_isIdentifier hpart
    | cons part' rest =>
      intro c hc
      rw [String.intercalate_cons_cons, String.toList_append, String.toList_append,
        List.mem_append, List.mem_append] at hc
      obtain (hc | hc) | hc := hc
      · exact word_of_isIdentifier hpart c hc
      · cases List.mem_singleton.mp hc
        decide
      · exact ih hrest c hc

theorem words_of_mem {st : Statement} (h : ∀ path ∈ paths, Word path)
    (hst : st ∈ statements paths) : ∀ word ∈ st.words, Word word := by
  cases st with
  | whole source => exact List.forall_mem_singleton.mpr (h _ (whole_mem_statements.mp hst).1)
  | named source names =>
    obtain ⟨rfl, hne⟩ := named_mem_statements.mp hst
    have hboth : ∀ name ∈ namesFrom (paths.map ofPath) source, Word source ∧ Word name :=
      fun name hname => (h _ (named_mem_iff.mp (mem_namesFrom.mp hname)).1).of_point
    obtain ⟨name, hname⟩ := List.exists_mem_of_ne_nil _ hne
    exact List.forall_mem_cons.mpr ⟨(hboth name hname).1, fun name hname => (hboth name hname).2⟩

theorem lines_read (h : ∀ path ∈ paths, Dotted path) :
    (lines paths).map Statement.read? = (statements paths).map some := by
  rw [lines_eq_map, List.map_map]
  refine List.map_congr_left fun st hst => Statement.read?_text
    (words_of_mem (fun path hpath => (h path hpath).word) hst) ?_
  rintro source rfl
  exact (named_mem_statements.mp hst).2 rfl

end Dotted

end Import

namespace Sink

/-- Where nothing was imported before, the paths that are added are all that is imported. -/
theorem mem_addImports {s : Sink} (hs : s.imports = []) {paths : List String} (path : String) :
    path ∈ (paths.foldl addImport s).imports ↔ path ∈ paths := by
  rw [(adds_addImports paths).imports s path, hs, or_iff_left List.not_mem_nil]

/-- **The import lines say which paths were added, and nothing else.** -/
theorem importLines_canonical {s : Sink} (hs : s.imports = []) {paths : List String}
    (h : ∀ path ∈ paths, Import.Dotted path) :
    (∀ order : List String, (∀ path, path ∈ order ↔ path ∈ paths) →
      Import.lines order = (paths.foldl addImport s).importLines ∧
      ∀ s' : Sink, s'.imports = [] →
        (order.foldl addImport s').importLines = (paths.foldl addImport s).importLines) ∧
    ∃ statements, Import.Complete paths statements ∧
      (paths.foldl addImport s).importLines = statements.map Import.Statement.text ∧
      (paths.foldl addImport s).importLines.map Import.Statement.read? = statements.map some := by
  have hlines : ∀ {s' : Sink}, s'.imports = [] → ∀ order : List String,
      (∀ path, path ∈ order ↔ path ∈ paths) →
        (order.foldl addImport s').importLines = Import.lines paths :=
    fun hs' order horder => Import.lines_congr fun path =>
      (mem_addImports hs' path).trans (horder path)
  have hself : (paths.foldl addImport s).importLines = Import.lines paths :=
    hlines hs paths fun _ => Iff.rfl
  rw [hself]
  refine ⟨fun order horder => ⟨Import.lines_congr horder, fun s' hs' => hlines hs' order horder⟩,
    Import.statements paths, Import.statements_complete paths, Import.lines_eq_map paths,
    Import.lines_read h⟩

/-- The parts of paths into one module and into modules below it, some of them more than once. -/
def mixedParts : List (List String) :=
  [["typing", "Callable"], ["enum"], ["a", "b", "c"], ["enum", "Enum"], ["typing", "Any"],
    ["a", "d"], ["enum"], ["typing", "Any"]]

def mixedPaths : List String := mixedParts.map ".".intercalate

theorem mixed_importLines : (∀ path ∈ mixedPaths, Import.Dotted path) ∧
    (mixedPaths.foldl addImport {}).importLines = ["from a import d", "from a.b import c",
      "from enum import Enum", "import enum", "from typing import Any, Callable"] ∧
    (mixedPaths.reverse.foldl addImport {}).importLines
      = (mixedPaths.foldl addImport {}).importLines ∧
    ∃ statements, Import.Complete mixedPaths statements ∧
      (mixedPaths.foldl addImport {}).importLines.map Import.Statement.read?
        = statements.map some := by
  have hparts : ∀ parts ∈ mixedParts, parts ≠ [] ∧
      ∀ part ∈ parts, Text.isIdentifier part = true := by decide +kernel
  have hdotted : ∀ path ∈ mixedPaths, Import.Dotted path :=
    List.forall_mem_map.mpr fun parts h => ⟨parts, (hparts parts h).1, (hparts parts h).2, rfl⟩
  obtain ⟨horder, statements, hcomplete, -, hread⟩ :=
    importLines_canonical (s := {}) rfl hdotted
  exact ⟨hdotted, by decide +kernel, (horder _ fun _ => List.mem_reverse).2 {} rfl,
    statements, hcomplete, hread⟩

end Sink

end Widgetry
