import Widgetry.Proofs.Host.Outcomes

/-!
# Messages

A message is handed to a handler, which may be any program: it may write fields and variables, call
other methods, and fail after some of that. The host gives it a copy of the fields, so that a
failure leaves nothing behind in the widgets.

> `send_atomic`: a message that fails leaves all but the engine and new tables as it was, and one
> that succeeds gives its recipient new values in its fields and marks it dirty, and does nothing
> else.

In the engine the program stays the same but for the values of its variables.
-/

namespace Widgetry

/-- What a message that was handled makes of a host: the recipient has a new table with fields of
the same names and is dirty. -/
structure Host.Handled (h : Host Interpreter) (name : String) (h' : Host Interpreter) : Prop where
  recipient : ∃ s t, h.widgets.get? name = some s ∧ ¬ h.store.Has t ∧
    h'.widgets.get? name = some { s with table := t, dirty := true } ∧
    (h'.store.get t).names = (h.store.get s.table).names
  names : h'.widgets.map (·.1) = h.widgets.map (·.1)
  others : ∀ other, other ≠ name → h'.widgets.get? other = h.widgets.get? other ∧
    ∀ field, h'.field? other field = h.field? other field
  /-- all else that a host has -/
  rest : h' = { h with engine := h'.engine, store := h'.store, widgets := h'.widgets }
  kept : h.store.Keeps h'.store
  program : h.engine.SameProgram h'.engine

/-- What a message that failed makes of a host. -/
structure Host.Undone (h h' : Host Interpreter) : Prop where
  fields : ∀ widget field, h'.field? widget field = h.field? widget field
  /-- the widgets and all else that a host has -/
  rest : h' = { h with engine := h'.engine, store := h'.store }
  kept : h.store.Keeps h'.store
  program : h.engine.SameProgram h'.engine

variable {h h' : Host Interpreter}

/-- A method that runs on a copy of a table leaves all tables as they were. -/
theorem copy_kept {σ σ' : Store} {t : TableId}
    (hf : (σ.copyTable t).2.Footprint (σ.copyTable t).1 σ') : σ.Keeps σ' := by
  have hcopy : σ.Keeps (σ.copyTable t).2 := Store.keeps_copyTable
  refine ⟨hf.size ▸ hcopy.size, fun u hu => ?_⟩
  -- the method writes to the copy only, which was not there before
  have hne : u ≠ (σ.copyTable t).1 := by
    rintro rfl
    exact Store.not_has_copyTable hu
  rw [hf.others u hne]
  exact hcopy.get u hu

/-- A widget whose table is kept has the fields that it had. -/
theorem field?_kept (hs : h.core.Sound) (hk : h.store.Keeps h'.store) {widget : String}
    (hw : h'.widgets.get? widget = h.widgets.get? widget) (field : String) :
    h'.field? widget field = h.field? widget field := by
  cases hg : h.widgets.get? widget with
  | none => rw [Host.field?_of_none hg, Host.field?_of_none (hw.trans hg)]
  | some s =>
    rw [Host.field?_of_get? hg, Host.field?_of_get? (hw.trans hg), hk.get _ (hs.widgets.has hg)]

theorem undone_self (h : Host Interpreter) : h.Undone h :=
  ⟨fun _ _ => rfl, rfl, Store.keeps_refl _, .of_eq rfl⟩

/-- A handler that failed. -/
theorem undone_ran (hs : h.core.Sound) {s : WidgetState} {name method : String} {args : List Value}
    {r : Except Fault Value} {i : Interpreter} {σ : Store}
    (hi : h.engine.invoke (h.store.copyTable s.table).2 name method args
      (h.store.copyTable s.table).1 = (r, i, σ)) : h.Undone (h.ran i σ) := by
  obtain ⟨hp, hf⟩ := invoke_footprint hi
  have hk : h.store.Keeps (h.ran i σ).store := copy_kept hf
  exact ⟨fun widget field => field?_kept hs hk rfl field, rfl, hk, hp⟩

/-- A handler that succeeded. -/
theorem handled_spec (hs : h.core.Sound) {s : WidgetState} {name method : String}
    {args : List Value} {r : Except Fault Value} {i : Interpreter} {σ : Store}
    (hg : h.widgets.get? name = some s)
    (hi : h.engine.invoke (h.store.copyTable s.table).2 name method args
      (h.store.copyTable s.table).1 = (r, i, σ)) :
    h.Handled name (h.handled i σ name (h.store.copyTable s.table).1) := by
  obtain ⟨hp, hf⟩ := invoke_footprint hi
  have hk : h.store.Keeps (h.handled i σ name (h.store.copyTable s.table).1).store := copy_kept hf
  refine ⟨⟨s, (h.store.copyTable s.table).1, hg, Store.not_has_copyTable, ?_, ?_⟩, ?_,
    fun other hne => ?_, rfl, hk, hp⟩
  · rw [Host.widgets_handled, Widgets.get?_modify, if_pos rfl, hg]
    rfl
  · show (σ.get _).names = _
    rw [hf.names, Store.names_copyTable]
  · rw [Host.widgets_handled, Widgets.names_modify]
  · have hw : (h.handled i σ name (h.store.copyTable s.table).1).widgets.get? other
        = h.widgets.get? other := by
      rw [Host.widgets_handled, Widgets.get?_modify, if_neg hne]
    exact ⟨hw, fun field => field?_kept hs hk hw field⟩

namespace Act

/-- **A message is all or nothing.** If it fails, at whatever point of the handler, widgets and
fields are as they were; if it succeeds, only its recipient has changed. -/
theorem send_atomic (disk : Disk) (hr : h.Reachable) (m : Message) :
    (∀ e h', respondWith disk (.send m) h = (.error e, h') → h.Undone h') ∧
    ∀ a h', respondWith disk (.send m) h = (.ok a, h') →
      ∃ name, m.recipient? h.engine.mainWidget? = some name ∧ h.Handled name h' := by
  have hs := reachable_sound hr
  obtain ⟨r, h₁, hrun, hsent⟩ := send_sent disk hs.free m
  cases hsent with
  | refused e =>
    have hresp : respondWith disk (.send m) h = (.error e, h) := run_bind_error hrun
    rw [hresp]
    refine ⟨fun e' h' he => ?_, fun a h' ha => nomatch ha⟩
    cases he
    exact undone_self h
  | @failed name event s args f i σ hto hg hi =>
    have hresp : respondWith disk (.send m) h = (.error (methodError f), h.ran i σ) :=
      run_bind_error hrun
    rw [hresp]
    refine ⟨fun e' h' he => ?_, fun a h' ha => nomatch ha⟩
    cases he
    exact undone_ran hs.core hi
  | @handled name event s args v i σ hto hg hi =>
    have hresp : respondWith disk (.send m) h
        = (.ok .done, h.handled i σ name (h.store.copyTable s.table).1) := run_bind_ok hrun
    rw [hresp]
    refine ⟨?_, fun a h' ha => ?_⟩
    · exact fun e' h' he => nomatch he
    cases ha
    exact ⟨name, hto, handled_spec hs.core hg hi⟩

/-- A handler that counts and then fails on one event. -/
def slippingSource : String :=
  "type P is Widget \x7b\n n int = 0\n" ++
  " fn on(ev) \x7b n = n + 1\n is ev \x7b Msg.B => n = 1 / 0 \x7d \x7d\n\x7d"

/-- A host that has loaded that widget. -/
def slipping : Host Interpreter :=
  (respondWith {} (.interpret slippingSource) (Host.new {} {} none)).2

theorem reachable_slipping : slipping.Reachable := reachable_ofSource slippingSource

/-- The failing event counts nothing, and another one counts. -/
theorem slipping_undone :
    (∃ e h', respondWith {} (.send (.event "B")) slipping = (.error e, h') ∧ slipping.Undone h') ∧
    ∃ a h', respondWith {} (.send (.event "A")) slipping = (.ok a, h') ∧
      ∃ name, slipping.Handled name h' := by
  have hB : (respondWith {} (.send (.event "B")) slipping).1.isOk = false := by decide +kernel
  have hA : (respondWith {} (.send (.event "A")) slipping).1.isOk = true := by decide +kernel
  have hatomic : ∀ m, _ := send_atomic {} reachable_slipping
  rcases hrun : respondWith {} (.send (.event "B")) slipping with ⟨r, h'⟩
  rcases hrun' : respondWith {} (.send (.event "A")) slipping with ⟨r', h''⟩
  rw [hrun] at hB
  rw [hrun'] at hA
  cases r with
  | ok a => cases hB
  | error e =>
    cases r' with
    | error e' => cases hA
    | ok a =>
      obtain ⟨name, -, hh⟩ := (hatomic _).2 a h'' hrun'
      exact ⟨⟨e, h', rfl, (hatomic _).1 e h' hrun⟩, a, h'', rfl, name, hh⟩

end Act

end Widgetry
