import Widgetry.View.Data

/-!
# Equality of views

Two views are equal if they are of one kind and agree in every setting. Numbers are compared by
quantity and messages by a test of their own.
-/

namespace Widgetry

variable {μ : Type}

namespace View

def sameQuantity (a b : Quantity) : Bool := a.compare? b == some .eq

/-- Both absent, or both present and the same. -/
def sameOption {α : Type} (same : α → α → Bool) : Option α → Option α → Bool
  | none, none => true
  | some a, some b => same a b
  | _, _ => false

def sameNavItems : List NavItem → List NavItem → Bool
  | [], [] => true
  | a :: as, b :: bs =>
    a.icon == b.icon && a.label == b.label && a.badge == b.badge && sameNavItems as bs
  | _, _ => false

mutual

def same (message : μ → μ → Bool) : View μ → View μ → Bool
  | .empty, .empty => true
  | .text a, .text b => a.content == b.content && a.style == b.style
  | .button a, .button b =>
    a.label == b.label && message a.onclick b.onclick && a.style == b.style
  | .input a, .input b =>
    a.placeholder == b.placeholder && a.value == b.value &&
      sameOption message a.onChange b.onChange && a.width == b.width &&
      a.password == b.password && a.style == b.style
  | .checkbox a, .checkbox b =>
    a.checked == b.checked && a.label == b.label && sameOption message a.onToggle b.onToggle &&
      a.style == b.style
  | .radio a, .radio b =>
    a.selected == b.selected && a.label == b.label && sameOption message a.onSelect b.onSelect &&
      a.style == b.style
  | .select a, .select b =>
    a.options == b.options && a.selected == b.selected &&
      sameOption message a.onSelect b.onSelect && a.style == b.style
  | .slider a, .slider b =>
    sameQuantity a.min b.min && sameQuantity a.max b.max && sameQuantity a.value b.value &&
      message a.onChange b.onChange && sameOption sameQuantity a.step b.step && a.style == b.style
  | .progressBar a, .progressBar b => sameQuantity a.progress b.progress && a.style == b.style
  | .row ⟨c, s, p, st⟩, .row ⟨c', s', p', st'⟩ =>
    sameList message c c' && s == s' && p == p' && st == st'
  | .column ⟨c, s, p, st⟩, .column ⟨c', s', p', st'⟩ =>
    sameList message c c' && s == s' && p == p' && st == st'
  | .container ⟨c, p, w, h, x, y, st⟩, .container ⟨c', p', w', h', x', y', st'⟩ =>
    same message c c' && p == p' && w == w' && h == h' && x == x' && y == y' && st == st'
  | .scrollable ⟨c, w, h, st⟩, .scrollable ⟨c', w', h', st'⟩ =>
    same message c c' && w == w' && h == h' && st == st'
  | .list ⟨i, s, st⟩, .list ⟨i', s', st'⟩ => sameList message i i' && s == s' && st == st'
  | .table ⟨h, r, s, c, st⟩, .table ⟨h', r', s', c', st'⟩ =>
    sameList message h h' && sameRows message r r' && s == s' && c == c' && st == st'
  | .tabs ⟨l, c, s, p, m, st⟩, .tabs ⟨l', c', s', p', m', st'⟩ =>
    l == l' && sameList message c c' && s == s' && p == p' && sameOption message m m' && st == st'
  | .accordion ⟨i, a, m, st⟩, .accordion ⟨i', a', m', st'⟩ =>
    sameSections message i i' && a == a' && sameOption message m m' && st == st'
  | .navigationRail a, .navigationRail b =>
    sameNavItems a.items b.items && a.selected == b.selected && sameQuantity a.width b.width &&
      a.showLabels == b.showLabels && sameOption message a.onSelect b.onSelect &&
      a.style == b.style
  | .sidebar ⟨c, w, f, p, m, st⟩, .sidebar ⟨c', w', f', p', m', st'⟩ =>
    same message c c' && sameQuantity w w' && f == f' && p == p' && sameOption message m m' &&
      st == st'
  | _, _ => false

def sameList (message : μ → μ → Bool) : List (View μ) → List (View μ) → Bool
  | [], [] => true
  | v :: vs, w :: ws => same message v w && sameList message vs ws
  | _, _ => false

def sameRows (message : μ → μ → Bool) : List (List (View μ)) → List (List (View μ)) → Bool
  | [], [] => true
  | r :: rs, t :: ts => sameList message r t && sameRows message rs ts
  | _, _ => false

def sameSections (message : μ → μ → Bool) :
    List (AccordionItem μ) → List (AccordionItem μ) → Bool
  | [], [] => true
  | ⟨t, i, e, c⟩ :: rest, ⟨t', i', e', c'⟩ :: rest' =>
    t == t' && i == i' && e == e' && sameList message c c' && sameSections message rest rest'
  | _, _ => false

end

end View

end Widgetry
