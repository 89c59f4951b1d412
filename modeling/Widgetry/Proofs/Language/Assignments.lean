import Widgetry.Proofs.Language.Depth
import Widgetry.Proofs.Language.Folding
import Widgetry.Proofs.Language.Scopes

/-!
# Assignments with an operator

`x += e` looks like a short form of `x = x + e`, and so with the other operators. Both find the
place of `x` first, work out `e` once and write once. But the long form reads `x` before it works
out `e`, and the short one reads the place of `x` afterwards, with what `e` has written to it.

> `compound_eq_iff`: the two do the same exactly if the operator makes the same of the value that
> `x` had before `e` and of the one that stands in its place after it.

The long form also nests one deeper, so nothing is said of one that nests too deep.
-/

namespace Widgetry

open Run

variable {c : Context} {x : Target} {e : Expr} {m m' : Machine} {slot : Slot} {v : Value}

/-- What was written to a place where the name stands is read there again. -/
theorem Machine.load_save {name : String} (h : m.Binds name slot) (v : Value) :
    (m.save name v slot).load name slot = v := by
  cases slot with
  | inner i =>
    obtain ⟨names, hi, -⟩ := h
    rw [List.getElem?_map] at hi
    obtain ⟨s, hs, -⟩ := Option.map_eq_some_iff.mp hi
    simp [load, save, hs, Scope.get?, Scope.store, Fields.get?_put]
  | field t =>
    have hhas : m.store.Has t := by
      by_contra hnot
      rw [Binds, Store.get_of_not_has hnot] at h
      cases h
    simp [load, save, Store.get_set_self hhas, Fields.get?_put]
  | global => simp [load, save, Scope.get?, Scope.store, Fields.get?_put]

/-- A target that is found has a name that stands there. -/
theorem binds_of_targetSlot {line : Nat} (h : targetSlot c x line m = (.ok slot, m')) :
    m.Binds x.label slot := by
  rcases Footprint.targetSlot_cases h with ⟨u, rfl, -, hh⟩ | h
  · exact Fields.has_iff_mem_names.mp hh
  · exact Machine.binds_of_slot? h

/-- The name `self` of a method is the table of its fields; every other name has the value that
stands where it is found. -/
theorem valueOf_found {name : String} (h : m.slot? c name = some slot) (line : Nat) :
    ∃ a, valueOf c name line m = (.ok a, m) := by
  unfold valueOf
  cases name == "self" with
  | false =>
    refine ⟨m.load name slot, ?_⟩
    dsimp only
    rw [run_bind_ok (run_get m), h]
    rfl
  | true =>
    cases c.fields with
    | none =>
      refine ⟨m.load name slot, ?_⟩
      dsimp only
      rw [run_bind_ok (run_get m), h]
      rfl
    | some t => exact ⟨.live t, rfl⟩

/-- A target that is found can be read, unless that nests too deep. -/
theorem eval_target {line : Nat} (h : targetSlot c x line m = (.ok slot, m')) (d : Nat) :
    eval d c x.toExpr m = (.error .tooDeep, m) ∨ ∃ a, eval d c x.toExpr m = (.ok a, m) := by
  cases d with
  | zero => exact .inl rfl
  | succ d =>
    cases x with
    | name name l => exact .inr (valueOf_found (Footprint.targetSlot_name h).1 l)
    | member obj name l =>
      obtain ⟨hself, u, -, hu, hhas⟩ := Footprint.targetSlot_member h
      obtain ⟨w, hw⟩ := Option.isSome_iff_exists.mp hhas
      cases obj with
      | ident n l' =>
        obtain rfl : n = "self" := beq_iff_eq.mp hself
        cases d with
        | zero => exact .inl rfl
        | succ d =>
          have hread : valueOf c "self" l' m = (.ok (.live u), m) := by
            rw [valueOf, hu]
            rfl
          have hmember : memberOf (.live u) name l m = (.ok w, m) := by
            rw [memberOf, run_bind_ok (run_get m), hw]
            rfl
          exact .inr ⟨w, (run_bind_ok hread).trans hmember⟩
      | _ => cases hself

/-! ## The two forms -/

/-- No assignment combines truth values. -/
theorem AssignOp.isLogical_of_binary? {op : AssignOp} {bop : BinaryOp}
    (h : op.binary? = some bop) : bop.isLogical = false := by
  cases op <;> cases h <;> rfl

/-- How an assignment ends whose new value is worked out. -/
def Run.conclude (name : String) (slot : Slot) (m : Machine) :
    Except Fault Value → Except Halt Value × Machine
  | .ok w => (.ok .nil, m.save name w slot)
  | .error f => (.error (.fault f), m)

/-- What was written can be told from how it ended. -/
theorem Run.conclude_inj {name : String} (h : m.Binds name slot) {r r' : Except Fault Value} :
    conclude name slot m r = conclude name slot m r' ↔ r = r' := by
  refine ⟨fun he => ?_, congrArg _⟩
  cases r with
  | error f =>
    cases r' with
    | error f' =>
      cases he
      rfl
    | ok w' => cases he
  | ok w =>
    cases r' with
    | error f' => cases he
    | ok w' =>
      have hload := congrArg (fun ran => ran.2.load name slot) he
      simp only [conclude, Machine.load_save h] at hload
      rw [hload]

/-- A target that is not found ends an assignment at once. -/
theorem exec_assign_unfound {line : Nat} {h : Halt}
    (ht : targetSlot c x line m = (.error h, m)) (d : Nat) (op : AssignOp) (e : Expr) :
    exec (d + 1) c (.assign x op e line) m = (.error h, m) := by
  rw [exec, Run.assign, run_bind, ht]

/-- So does a value that cannot be worked out, once the target is found. -/
theorem exec_assign_halted {d line : Nat} {h : Halt}
    (ht : targetSlot c x line m = (.ok slot, m)) (he : eval d c e m = (.error h, m'))
    (op : AssignOp) : exec (d + 1) c (.assign x op e line) m = (.error h, m') := by
  rw [exec, Run.assign, run_bind_ok ht, run_bind, he]

/-- An operator whose right side halts. -/
theorem eval_binary_halted {d line : Nat} {bop : BinaryOp} (hop : bop.isLogical = false)
    {left right : Expr} {a : Value} {m₁ : Machine} {h : Halt}
    (hx : eval d c left m = (.ok a, m₁)) (he : eval d c right m₁ = (.error h, m')) :
    eval (d + 1) c (.binary bop left right line) m = (.error h, m') := by
  rw [eval_binary hop, run_bind_ok hx, run_bind, he]

/-- The short form reads the place of the target when the value is there. -/
theorem exec_compound {d line : Nat} {op : AssignOp} {bop : BinaryOp} (hop : op.binary? = some bop)
    (ht : targetSlot c x line m = (.ok slot, m)) (he : eval d c e m = (.ok v, m')) :
    exec (d + 1) c (.assign x op e line) m = conclude x.label slot m'
      (applyBinary m'.store bop (m'.load x.label slot) v (some line)) := by
  rw [exec, Run.assign, run_bind_ok ht, run_bind_ok he, run_bind_ok (run_get m'), hop]
  dsimp only
  cases applyBinary m'.store bop (m'.load x.label slot) v (some line) <;> rfl

/-- The long form has read it before. -/
theorem exec_spelled {d line : Nat} {op : AssignOp} {bop : BinaryOp} (hop : op.binary? = some bop)
    {a : Value} (ht : targetSlot c x line m = (.ok slot, m))
    (hx : eval d c x.toExpr m = (.ok a, m)) (he : eval d c e m = (.ok v, m')) :
    exec (d + 2) c (.assign x .set (.binary bop x.toExpr e line) line) m
      = conclude x.label slot m' (applyBinary m'.store bop a v (some line)) := by
  have hvalue : eval (d + 1) c (.binary bop x.toExpr e line) m
      = Run.ofExcept (applyBinary m'.store bop a v (some line)) m' := by
    rw [eval_binary (AssignOp.isLogical_of_binary? hop), run_bind_ok hx, run_bind_ok he]
    rfl
  rw [exec, Run.assign, run_bind_ok ht, run_bind, hvalue]
  cases applyBinary m'.store bop a v (some line) <;> rfl

/-- A long form that does not nest too deep has read its target and gone through its right side, and
with more depth it does both in the same way. -/
theorem eval_of_spelled {d line : Nat} {bop : BinaryOp} (hop : bop.isLogical = false)
    (ht : targetSlot c x line m = (.ok slot, m))
    (hdeep : (exec (d + 2) c (.assign x .set (.binary bop x.toExpr e line) line) m).1
      ≠ .error .tooDeep) :
    (∃ a, ∀ n, d ≤ n → eval n c x.toExpr m = (.ok a, m)) ∧
      ∀ n, d ≤ n → eval n c e m = eval d c e m := by
  obtain ⟨a, hx⟩ : ∃ a, eval d c x.toExpr m = (.ok a, m) := by
    refine (eval_target ht d).resolve_left fun hx => hdeep ?_
    have hhalt : eval (d + 1) c (.binary bop x.toExpr e line) m = (.error .tooDeep, m) := by
      rw [eval_binary hop, run_bind, hx]
    rw [exec_assign_halted ht hhalt]
  refine ⟨⟨a, fun n hn => ?_⟩, fun n hn => eval_deeper hn c e m fun he => hdeep ?_⟩
  · rw [← hx]
    refine eval_deeper hn c _ m ?_
    rw [hx]
    exact fun h => by cases h
  · rw [exec_assign_halted ht (eval_binary_halted hop hx (Prod.ext he rfl))]

/-- **`x op= e` does the same as `x = x op e` exactly if what `e` did to `x` makes no difference**:
if the operator makes the same of the value that stands in the place of `x` after `e` as of the
value that `x` had before. So it does in particular if the target is not found, if `e` halts, and
if `x` is there what it was. -/
theorem compound_eq_iff {op : AssignOp} {bop : BinaryOp} (hop : op.binary? = some bop) (d : Nat)
    (c : Context) (x : Target) (e : Expr) (line : Nat) (m : Machine)
    (hdeep : (exec d c (.assign x .set (.binary bop x.toExpr e line) line) m).1
      ≠ .error .tooDeep) :
    exec d c (.assign x op e line) m
        = exec d c (.assign x .set (.binary bop x.toExpr e line) line) m ↔
      ∀ slot a v m', targetSlot c x line m = (.ok slot, m) → eval d c x.toExpr m = (.ok a, m) →
        eval d c e m = (.ok v, m') →
        applyBinary m'.store bop (m'.load x.label slot) v (some line)
          = applyBinary m'.store bop a v (some line) := by
  cases d with
  | zero => exact absurd rfl hdeep
  | succ d =>
    rcases ht : targetSlot c x line m with ⟨r, m₀⟩
    obtain rfl := (Reads.targetSlot c x line).eq ht
    cases r with
    | error h =>
      rw [exec_assign_unfound ht, exec_assign_unfound ht]
      exact iff_of_true rfl fun _ _ _ _ hfound => nomatch hfound
    | ok slot =>
      cases d with
      | zero => exact absurd (congrArg Prod.fst (exec_assign_halted ht rfl .set)) hdeep
      | succ d =>
        have hlogical := AssignOp.isLogical_of_binary? hop
        obtain ⟨⟨a, hread⟩, hright⟩ := eval_of_spelled hlogical ht hdeep
        have hx := hread d (Nat.le_refl d)
        rcases he : eval d c e m with ⟨r, m'⟩
        have hnext : eval (d + 1) c e m = (r, m') := (hright _ (Nat.le_add_right d 1)).trans he
        have hlast : eval (d + 2) c e m = (r, m') := (hright _ (Nat.le_add_right d 2)).trans he
        cases r with
        | error h =>
          rw [exec_assign_halted ht hnext,
            exec_assign_halted ht (eval_binary_halted hlogical hx he)]
          refine iff_of_true rfl fun _ _ _ _ _ _ hv => ?_
          cases hlast.symm.trans hv
        | ok v =>
          have hbinds : m'.Binds x.label slot := (binds_of_targetSlot ht).mono (eval_names he)
          rw [exec_compound hop ht hnext, exec_spelled hop ht hx he, conclude_inj hbinds]
          constructor
          · intro heq slot' a' v' m'' ht' hx' hv'
            cases (hread _ (Nat.le_add_right d 2)).symm.trans hx'
            cases hlast.symm.trans hv'
            cases ht'
            exact heq
          · exact fun hall => hall slot a v m' rfl (hread _ (Nat.le_add_right d 2)) hlast

/-! ## A method that writes to the target -/

/-- A widget with a number and two methods that answer 5. One of them prints something before, and
the other one sets the number to 10. -/
def teller : TypeDecl where
  name := "W"
  specs := ["Widget"]
  members := [⟨"n", "int", some (.literal (.int 1) 1), 1⟩]
  methods :=
    [⟨"tell", [], [.expr (.call (.ident "print" 1) [.literal (.str "five") 1] 1) 1,
        .expr (.literal (.int 5) 1) 1], none, 1⟩,
      ⟨"bump", [], [.assign (.name "n" 1) .set (.literal (.int 10) 1) 1,
        .expr (.literal (.int 5) 1) 1], none, 1⟩]
  line := 1

/-- What a method of that widget sees. -/
def inTeller : Context where
  code := ⟨[.type teller], none⟩
  widget := some "W"
  fields := some ⟨0⟩

/-- A machine that runs such a method while the number is 1. -/
def telling : Machine where
  locals := [{}]
  store := ⟨#[[("n", .int 1)]]⟩

/-- A call of a method of that widget. -/
def askTeller (method : String) : Expr := .call (.ident method 1) [] 1

/-- The target `n`. -/
def numberTold : Target := .name "n" 1

/-- What `tell` does makes no difference to the number. -/
theorem told_added : exec 9 inTeller (.assign numberTold .add (askTeller "tell") 1) telling
    = exec 9 inTeller
      (.assign numberTold .set (.binary .add numberTold.toExpr (askTeller "tell") 1) 1) telling := by
  have hop : AssignOp.add.binary? = some .add := rfl
  have hlong : (exec 9 inTeller (.assign numberTold .set
      (.binary .add numberTold.toExpr (askTeller "tell") 1) 1) telling).1 = .ok .nil := by
    rfl
  refine (compound_eq_iff hop 9 inTeller numberTold (askTeller "tell") 1 telling
    (by rw [hlong]; exact fun h => nomatch h)).mpr ?_
  intro slot a v m' ht hx he
  have ht' : targetSlot inTeller numberTold 1 telling = (.ok (.field ⟨0⟩), telling) := rfl
  have hx' : eval 9 inTeller numberTold.toExpr telling = (.ok (.int 1), telling) := rfl
  cases ht'.symm.trans ht
  cases hx'.symm.trans hx
  have he' : eval 9 inTeller (askTeller "tell") telling
      = (.ok (.int 5), { telling with output := #["five"] }) := rfl
  cases he'.symm.trans he
  rfl

/-- The number in the field of the widget after a statement. -/
def numberAfter (s : Stmt) : Option Value :=
  ((exec 9 inTeller s telling).2.store.get ⟨0⟩).get? "n"

/-- To `bump` it does make a difference: `n += bump()` comes to 15, `n = n + bump()` to 6. -/
theorem bump_added_twice : ¬ ∀ (op : AssignOp) (bop : BinaryOp), op.binary? = some bop →
    ∀ d c x e line m, exec d c (.assign x op e line) m
      = exec d c (.assign x .set (.binary bop x.toExpr e line) line) m := by
  intro hall
  have hsame := hall .add .add rfl 9 inTeller numberTold (askTeller "bump") 1 telling
  have hshort : numberAfter (.assign numberTold .add (askTeller "bump") 1) = some (.int 15) := rfl
  have hlong : numberAfter (.assign numberTold .set
      (.binary .add numberTold.toExpr (askTeller "bump") 1) 1) = some (.int 6) := rfl
  rw [numberAfter, hsame, ← numberAfter, hlong] at hshort
  cases hshort

end Widgetry
