import Widgetry.Language.Interpreter
import Widgetry.Proofs.Value.Tables

/-!
# What loading a program makes

A program that was loaded has initial fields for each widget that it declares, and no others; they
are exactly the fields that the declaration names.

> `program_wellFormed`: the defaults are looked up by the names of the declared widgets, and those
> of a widget have the names of its declared fields;
> `interpret_wellFormed`, `interpret_error_program`: the interpreter takes such a program, or keeps
> the one it has.

Of several declarations of one name the last counts, for the widget and for its fields.
-/

namespace Widgetry

/-! ## What a program declares -/

/-- The names of the fields that a type declares. -/
def Code.fieldNames (c : Code) (type : String) : List String :=
  (((c.type? type).map (·.members)).getD []).map (·.name)

namespace Program

/-- Whether a program has a widget of a name. -/
def HasWidget (p : Program) (widget : String) : Prop := widget ∈ widgetNames p.code

/-- Whether a widget of a program has a field of a name. -/
def Declares (p : Program) (widget field : String) : Prop :=
  p.HasWidget widget ∧ field ∈ p.code.fieldNames widget

/-- What a field of a widget starts with. -/
def default? (p : Program) (widget field : String) : Option Value :=
  (p.defaults.lookup widget).bind (Fields.get? field)

/-- Whether the defaults of a program are those of the widgets that it declares. -/
structure WellFormed (p : Program) : Prop where
  nodup : (p.defaults.map (·.1)).Nodup
  widgets : ∀ widget, (p.defaults.lookup widget).isSome ↔ p.HasWidget widget
  fields : ∀ widget fs, p.defaults.lookup widget = some fs →
    fs.names.Nodup ∧ ∀ field, field ∈ fs.names ↔ field ∈ p.code.fieldNames widget

/-- A field that is declared has a default. -/
theorem WellFormed.default?_isSome {p : Program} (h : p.WellFormed) {widget field : String} :
    (p.default? widget field).isSome ↔ p.Declares widget field := by
  unfold default? Declares
  rw [← h.widgets widget]
  cases hl : p.defaults.lookup widget with
  | none => simp
  | some fs =>
    have hf : (fs.get? field).isSome = true ↔ field ∈ fs.names := Fields.has_iff_mem_names
    simpa [(h.fields widget fs hl).2] using hf

end Program

/-! ## Entries by name -/

namespace Load

theorem mem_insert {e f : String × Fields} {entries : List (String × Fields)}
    (h : f ∈ byName.insert e entries) : f = e ∨ f ∈ entries := by
  induction entries with
  | nil => exact Or.inl (List.mem_singleton.mp h)
  | cons g rest ih =>
    simp only [byName.insert] at h
    split at h
    · exact (List.mem_cons.mp h).imp_right (List.mem_cons_of_mem _)
    · rcases List.mem_cons.mp h with rfl | h
      · exact Or.inr List.mem_cons_self
      · exact (ih h).imp_right (List.mem_cons_of_mem _)

theorem names_insert (e : String × Fields) (entries : List (String × Fields)) :
    (byName.insert e entries).map (·.1)
      = if e.1 ∈ entries.map (·.1) then entries.map (·.1) else entries.map (·.1) ++ [e.1] := by
  induction entries with
  | nil => simp [byName.insert]
  | cons g rest ih =>
    by_cases h : g.1 = e.1
    · simp [byName.insert, h]
    · have hne : e.1 ≠ g.1 := fun he => h he.symm
      simp only [byName.insert, h, if_false, List.map_cons, ih]
      by_cases hm : e.1 ∈ rest.map (·.1) <;> simp [hm, hne]

/-- Entries kept by name are some of the entries, one for each name. -/
theorem byName_spec (entries : List (String × Fields)) :
    ((byName entries).map (·.1)).Nodup ∧
    (∀ name, name ∈ (byName entries).map (·.1) ↔ name ∈ entries.map (·.1)) ∧
    ∀ e ∈ byName entries, e ∈ entries := by
  have hgo : ∀ (entries table : List (String × Fields)), (table.map (·.1)).Nodup →
      ((entries.foldl (fun table e => byName.insert e table) table).map (·.1)).Nodup ∧
      (∀ name, name ∈ (entries.foldl (fun table e => byName.insert e table) table).map (·.1)
        ↔ name ∈ table.map (·.1) ∨ name ∈ entries.map (·.1)) ∧
      ∀ e ∈ entries.foldl (fun table e => byName.insert e table) table,
        e ∈ table ∨ e ∈ entries := by
    -- the fold keeps the names of its table different, so the table is generalised
    intro entries
    induction entries with
    | nil =>
      intro table h
      exact ⟨h, by simp, fun e he => Or.inl he⟩
    | cons f rest ih =>
      intro table h
      have hnd : ((byName.insert f table).map (·.1)).Nodup := by
        rw [names_insert]
        split
        · exact h
        · next hm => exact h.append (List.nodup_singleton _) (by simpa using hm)
      obtain ⟨h₁, h₂, h₃⟩ := ih (byName.insert f table) hnd
      refine ⟨h₁, fun name => ?_, fun e he => ?_⟩
      · rw [List.foldl_cons, h₂, names_insert, List.map_cons, List.mem_cons]
        by_cases hm : f.1 ∈ table.map (·.1)
        · rw [if_pos hm]
          constructor
          · rintro (h | h)
            · exact Or.inl h
            · exact Or.inr (Or.inr h)
          · rintro (h | rfl | h)
            · exact Or.inl h
            · exact Or.inl hm
            · exact Or.inr h
        · rw [if_neg hm, List.mem_append, List.mem_singleton, or_assoc]
      · rcases h₃ e he with he | he
        · exact (mem_insert he).elim (fun h => Or.inr (h ▸ List.mem_cons_self)) Or.inl
        · exact Or.inr (List.mem_cons_of_mem _ he)
  obtain ⟨h₁, h₂, h₃⟩ := hgo entries [] List.nodup_nil
  exact ⟨h₁, by simpa [byName] using h₂, fun e he => (h₃ e he).resolve_left fun h => nomatch h⟩

/-! ## What loading makes -/

/-- Whether the results of a computation satisfy a property. -/
def Yields {α : Type} (P : α → Prop) (x : Run α) : Prop :=
  ∀ m a m', x m = (.ok a, m') → P a

section Yields

variable {α β : Type} {P : α → Prop} {Q : β → Prop}

theorem yields_pure {a : α} (h : P a) : Yields P (pure a) := by
  intro m b m' hb
  cases hb
  exact h

theorem yields_bind {x : Run α} {f : α → Run β} (hx : Yields P x)
    (hf : ∀ a, P a → Yields Q (f a)) : Yields Q (x >>= f) := by
  intro m b m' h
  rw [Run.run_bind] at h
  rcases hr : x m with ⟨r, m₁⟩
  rw [hr] at h
  cases r with
  | error e => cases h
  | ok a => exact hf a (hx m a m₁ hr) m₁ b m' h

theorem yields_any {x : Run α} : Yields (fun _ => True) x := fun _ _ _ _ => trivial

/-- The results for the items of a list, each related to its item. -/
theorem yields_each {R : α → β → Prop} {f : α → Run β} (h : ∀ a, Yields (R a) (f a))
    (l : List α) : Yields (List.Forall₂ R l) (Run.each f l) := by
  induction l with
  | nil => exact yields_pure .nil
  | cons a rest ih =>
    exact yields_bind (h a) fun b hb => yields_bind ih fun bs hbs => yields_pure (.cons hb hbs)

end Yields

variable {d : Nat} {c : Context}

theorem yields_fieldDefault (f : FieldDecl) :
    Yields (fun e => f.name = e.1) (fieldDefault d c f) := by
  unfold fieldDefault
  split
  · exact yields_bind yields_any fun v _ => yields_pure rfl
  · exact yields_pure rfl

/-- What a widget starts with has its name and its fields. -/
def IsDefaultOf (code : Code) (widget : String) (e : String × Fields) : Prop :=
  widget = e.1 ∧ e.2.names.Nodup ∧ ∀ field, field ∈ e.2.names ↔ field ∈ code.fieldNames widget

theorem yields_widgetDefaults (name : String) :
    Yields (IsDefaultOf c.code name) (widgetDefaults d c name) := by
  refine yields_bind (yields_each (fun f => yields_fieldDefault f) _) fun pairs hp => ?_
  refine yields_pure ⟨rfl, Fields.nodup_ofPairs pairs, fun field => ?_⟩
  have hnames : pairs.map (·.1) = c.code.fieldNames name := by
    unfold Code.fieldNames
    generalize ((c.code.type? name).map (·.members)).getD [] = members at hp
    induction hp with
    | nil => rfl
    | cons h _ ih => rw [List.map_cons, List.map_cons, ih, h]
  rw [Fields.mem_names_ofPairs, hnames]

/-- **A program that was loaded has the defaults of its widgets.** -/
theorem program_wellFormed (code : Code) :
    Yields (fun p => p.code = code ∧ p.WellFormed) (program d code) := by
  refine yields_bind yields_any fun result _ => ?_
  refine yields_bind (yields_each (fun name => yields_widgetDefaults name) _) fun entries he => ?_
  have hnames : entries.map (·.1) = Program.widgetNames code := by
    generalize Program.widgetNames code = names at he
    induction he with
    | nil => rfl
    | cons h _ ih => rw [List.map_cons, ih, h.1]
  have hdefault : ∀ e ∈ entries, IsDefaultOf code e.1 e := by
    generalize Program.widgetNames code = names at he
    clear hnames
    induction he with
    | nil => exact fun _ h => nomatch h
    | cons h _ ih =>
      intro e hm
      rcases List.mem_cons.mp hm with rfl | hm
      · exact h.1 ▸ h
      · exact ih e hm
  obtain ⟨hnodup, hkeys, hmem⟩ := byName_spec entries
  have hprogram : ∀ (globals : Scope) (result : Value), Program.WellFormed
      { code, globals, defaults := byName entries, result } := by
    refine fun _ _ => ⟨hnodup, fun widget => ?_, fun widget fs hl => ?_⟩
    · rw [lookup_isSome, hkeys, hnames]
      rfl
    · exact (hdefault _ (hmem _ (mem_of_lookup hl))).2
  split
  · exact yields_bind yields_any fun r _ => yields_bind yields_any fun m _ =>
      yields_pure ⟨rfl, hprogram _ _⟩
  · exact yields_bind yields_any fun r _ => yields_bind yields_any fun m _ =>
      yields_pure ⟨rfl, hprogram _ _⟩

end Load

/-- **A program that the interpreter took has the defaults of its widgets.** -/
theorem interpret_wellFormed {i i' : Interpreter} {source : String} {file : Option String}
    {v : Value} (h : i.interpret source file = (.ok v, i')) :
    ∃ code p m, parse source file = .ok code ∧
      Load.program evaluationLimit code { output := i.output } = (.ok p, m) ∧
      i'.program = some p ∧ p.code = code ∧ p.WellFormed := by
  unfold Interpreter.interpret at h
  split at h
  · cases h
  · next code hcode =>
    split at h
    · next p m hm =>
      cases h
      obtain ⟨hc, hw⟩ := Load.program_wellFormed code _ _ _ hm
      exact ⟨code, p, m, hcode, hm, rfl, hc, hw⟩
    · cases h

/-- A program that is not taken leaves the one before it. -/
theorem interpret_error_program {i i' : Interpreter} {source : String} {file : Option String}
    {f : Fault} (h : i.interpret source file = (.error f, i')) : i'.program = i.program := by
  unfold Interpreter.interpret at h
  split at h
  · cases h
    rfl
  · split at h
    · cases h
    · cases h
      rfl

end Widgetry
