-- SUMMARY: Over any run, placeholders are numbered through and go with the parameters.
import SqlExpr.Render.Journal

/-!
# Placeholders

A journal does what its renderer does, and keeps over every step, failed or not, what each write
and each change of depth keeps (`Journal.Tracks`, `Journal.run_of_kept`). The numbering of
placeholders is such a property (`Journal.Numbered`), so it holds after any run
(`Renderer.placeholders_run`).
-/

namespace SqlExpr

namespace Journal

/-! ## Journals and their renderers -/

/-- Writes and changes of depth keep the property. -/
structure Kept (P : Journal → Prop) : Prop where
  write {j : Journal} (w : Write) : P j → P (j.write w)
  atDepth {j : Journal} (n : Nat) : P j → P (j.atDepth n)

/-- From every journal with the property, `y` ends as `x` does from its renderer, and the
    property is kept. -/
def Tracks (P : Journal → Prop) (y : EStateM RenderError Journal Unit)
    (x : EStateM RenderError Renderer Unit) : Prop :=
  ∀ j, P j →
    (∃ j', P j' ∧ y j = .ok () j' ∧ x j.renderer = .ok () j'.renderer) ∨
    ∃ e j', P j' ∧ y j = .error e j' ∧ x j.renderer = .error e j'.renderer

variable {P : Journal → Prop} {y y' : EStateM RenderError Journal Unit}
  {x x' : EStateM RenderError Renderer Unit}

theorem Tracks.seq (h : Tracks P y x) (h' : Tracks P y' x') :
    Tracks P (do y; y') (do x; x') := by
  intro j hj
  simp only [bind, EStateM.bind]
  rcases h j hj with ⟨j', hj', hy, hx⟩ | ⟨e, j', hj', hy, hx⟩
  · rw [hy, hx]
    exact h' j' hj'
  · rw [hy, hx]
    exact .inr ⟨e, j', hj', rfl, rfl⟩

theorem Tracks.nested (hP : Kept P) (h : Tracks P y x) :
    Tracks P (nested y) (Renderer.nested x) := by
  intro j hj
  unfold Journal.nested Renderer.nested
  cases j.renderer.reachedLimit? with
  | some limit => exact .inr ⟨_, j, hj, rfl, rfl⟩
  | none =>
    have hdeeper := hP.atDepth (j.renderer.depth + 1) hj
    rcases h _ hdeeper with ⟨j', hj', hy, hx⟩ | ⟨e, j', hj', hy, hx⟩
    · refine .inl ⟨j'.atDepth (j'.renderer.depth - 1), hP.atDepth _ hj', by simp only [hy], ?_⟩
      dsimp only [atDepth] at hx ⊢
      rw [hx]
    · refine .inr ⟨e, j'.atDepth (j'.renderer.depth - 1), hP.atDepth _ hj', by simp only [hy], ?_⟩
      dsimp only [atDepth] at hx ⊢
      rw [hx]

private theorem tracks_inOrder (hP : Kept P) (d : Dialect) {pieces : List Piece}
    (h : ∀ e, .visit e ∈ pieces →
      Tracks P (e.renderInto (sink d)) (e.renderInto (Renderer.sink d))) :
    Tracks P (Sink.inOrder (pieces.map (sink d).renderPiece))
      (Sink.inOrder (pieces.map (Renderer.sink d).renderPiece)) := by
  induction pieces with
  | nil => exact fun j hj => .inl ⟨j, hj, rfl, rfl⟩
  | cons piece pieces ih =>
    refine Tracks.seq ?_ (ih fun e he => h e (List.mem_cons_of_mem _ he))
    cases piece with
    | write w => exact fun j hj => .inl ⟨j.write w, hP.write w hj, rfl, rfl⟩
    | visit e => exact (h e List.mem_cons_self).nested hP

/-- Rendering into a journal goes as rendering into its renderer. -/
private theorem tracks_renderInto (hP : Kept P) (d : Dialect) (e : Expr) :
    Tracks P (e.renderInto (sink d)) (e.renderInto (Renderer.sink d)) := by
  induction e using Expr.visit_induction d with
  | node e ih =>
    rw [Expr.renderInto_eq, Expr.renderInto_eq]
    exact tracks_inOrder hP d ih

/-! ## Runs -/

/-- A step of a journal is the step of its renderer and keeps what writes keep, also when it
    fails. -/
private theorem step_of_kept (hP : Kept P) {j : Journal} (hj : P j) (s : Renderer.Step) :
    P (j.step s) ∧ (j.step s).renderer = (j.renderer.step s).2 := by
  have hrender (e : Expr) := tracks_renderInto hP j.renderer.dialect e
  cases s with
  | write w => exact ⟨hP.write w hj, rfl⟩
  | render e =>
    unfold step Renderer.step
    rcases hrender e j hj with ⟨j', hj', hy, hx⟩ | ⟨err, j', hj', hy, hx⟩
    · simpa only [hy, hx, and_true] using hj'
    · simpa only [hy, hx, and_true] using hj'
  | visit e =>
    unfold step Renderer.step Renderer.visit
    rcases (hrender e).nested hP j hj with ⟨j', hj', hy, hx⟩ | ⟨err, j', hj', hy, hx⟩
    · simpa only [hy, hx, and_true] using hj'
    · simpa only [hy, hx, and_true] using hj'

theorem run_of_kept (hP : Kept P) {j : Journal} (hj : P j) (steps : List Renderer.Step) :
    P (j.run steps) ∧ (j.run steps).renderer = j.renderer.run steps := by
  induction steps generalizing j with
  | nil => exact ⟨hj, rfl⟩
  | cons s steps ih =>
    obtain ⟨hstep, hrenderer⟩ := step_of_kept hP hj s
    obtain ⟨hrun, hlast⟩ := ih hstep
    refine ⟨hrun, hlast.trans ?_⟩
    rw [hrenderer]
    rfl

/-! ## The numbering of placeholders -/

/-- The text is that of the fragments one after the other. The fragments that stand for values go
    with the parameters one by one, and are numbered from one. -/
structure Numbered (d : Dialect) (s : Settings) (j : Journal) : Prop where
  dialect : j.renderer.dialect = d
  settings : j.renderer.settings = s
  sql : j.renderer.sql = String.join (j.fragments.map (·.text))
  placeholders :
    (j.fragments.filter (·.isPlaceholder s)).map
        (fun f => (f.write.constant?.map (·.value), f.text)) =
      j.renderer.params.toList.zipIdx.map fun p => (some p.1, s.placeholder d (p.2 + 1))
  literals : ∀ f ∈ j.fragments, ∀ c, f.write = .value c → s.writesOut c = true →
    f.text = c.value.literal d

private theorem numbered_start (d : Dialect) (s : Settings) :
    Numbered d s { renderer := { dialect := d, settings := s } } where
  dialect := rfl
  settings := rfl
  sql := rfl
  placeholders := rfl
  literals := by simp

theorem Numbered.write {d : Dialect} {s : Settings} {j : Journal} (h : Numbered d s j) (w : Write) :
    Numbered d s (j.write w) := by
  obtain ⟨rfl, rfl, hsql, hplaceholders, hliterals⟩ := h
  refine ⟨rfl, rfl, ?_, ?_, ?_⟩
  · simp [Journal.write, Renderer.write, hsql, textOf, String.join]
  · simp only [Journal.write, List.filter_append, List.map_append, hplaceholders]
    cases w with
    | value c =>
      cases hout : j.renderer.settings.writesOut c with
      | true => simp [Renderer.write, Settings.binds, Fragment.isPlaceholder, hout]
      | false =>
        simp [Renderer.write, Settings.binds, Fragment.isPlaceholder, Write.constant?, textOf,
          Settings.text, hout, List.zipIdx_append]
    | _ => simp [Renderer.write, Settings.binds, Fragment.isPlaceholder]
  · intro f hf c hc hout
    rcases List.mem_append.1 hf with hf | hf
    · exact hliterals f hf c hc hout
    · cases List.mem_singleton.1 hf
      cases hc
      simp [textOf, Settings.text, hout]

private theorem numbered_kept (d : Dialect) (s : Settings) : Kept (Numbered d s) where
  write w h := h.write w
  atDepth _ h := ⟨h.dialect, h.settings, h.sql, h.placeholders, h.literals⟩

/-- The placeholder at a position is numbered by the position and stands for the parameter
    there. -/
theorem Numbered.of_getElem? {d : Dialect} {s : Settings} {j : Journal} (h : Numbered d s j)
    {k : Nat} {f : Fragment} (hf : (j.fragments.filter (·.isPlaceholder s))[k]? = some f) :
    f.text = s.placeholder d (k + 1) ∧
      ∃ c, f.write = .value c ∧ j.renderer.params[k]? = some c.value := by
  have hk := congrArg (·[k]?) h.placeholders
  simp only [List.getElem?_map, hf, Option.map_some, List.getElem?_zipIdx] at hk
  cases hv : j.renderer.params[k]? with
  | none => simp [hv] at hk
  | some v =>
    simp only [Array.getElem?_toList, hv, Option.map_some, Option.some.injEq, Prod.mk.injEq,
      Nat.zero_add] at hk
    obtain ⟨hvalue, htext⟩ := hk
    refine ⟨htext, ?_⟩
    cases hw : f.write with
    | value c =>
      rw [hw] at hvalue
      exact ⟨c, rfl, hvalue.symm⟩
    | _ => simp [hw, Write.constant?] at hvalue

end Journal

/-- After any steps of a renderer, some of which may have failed at the depth limit: the journal
    has gone through the same run; the text falls into the fragments of the single writes; those
    that stand for a value are as many as the parameters, the `k`-th of them is the `k`-th
    placeholder of the dialect, or `?`, and was written for the `k`-th parameter; a value marked
    inline is written out and binds nothing; and if the settings write all values out, nothing is
    ever bound. -/
theorem Renderer.placeholders_run (d : Dialect) (s : Settings) (steps : List Renderer.Step) :
    let start : Renderer := { dialect := d, settings := s }
    let journal := Journal.run { renderer := start } steps
    let placed := journal.fragments.filter (·.isPlaceholder s)
    journal.renderer = start.run steps ∧
    (start.run steps).sql = String.join (journal.fragments.map (·.text)) ∧
    placed.length = (start.run steps).params.size ∧
    (∀ k f, placed[k]? = some f →
      (s.paramStyle = .dialect → f.text = d.placeholder (k + 1)) ∧
      (s.paramStyle = .positional → f.text = "?") ∧
      ∃ c, f.write = .value c ∧ (start.run steps).params[k]? = some c.value) ∧
    (∀ f ∈ journal.fragments, ∀ c, f.write = .value c → c.inline = true →
      f.isPlaceholder s = false ∧ f.text = c.value.literal d) ∧
    (s.paramStyle = .inline → (start.run steps).params = #[]) := by
  intro start journal placed
  obtain ⟨hnumbered, hrenderer⟩ :=
    Journal.run_of_kept (Journal.numbered_kept d s) (Journal.numbered_start d s) steps
  rw [← hrenderer]
  have hcount : placed.length = journal.renderer.params.size := by
    simpa using congrArg List.length hnumbered.placeholders
  refine ⟨rfl, hnumbered.sql, hcount, ?_, ?_, ?_⟩
  · intro k f hf
    obtain ⟨htext, hparam⟩ := hnumbered.of_getElem? hf
    refine ⟨?_, ?_, hparam⟩
    · intro hstyle
      simpa [Settings.placeholder, hstyle] using htext
    · intro hstyle
      simpa [Settings.placeholder, hstyle] using htext
  · intro f hf c hc hinline
    have hout : s.writesOut c = true := by simp [Settings.writesOut, hinline]
    exact ⟨by simp [Fragment.isPlaceholder, hc, hout], hnumbered.literals f hf c hc hout⟩
  · intro hstyle
    have hnone : placed = [] := by
      refine List.filter_eq_nil_iff.2 fun f _ => ?_
      cases hw : f.write <;> simp [Fragment.isPlaceholder, hw, Settings.writesOut, hstyle]
    exact Array.eq_empty_of_size_eq_zero (by rw [← hcount, hnone]; rfl)

end SqlExpr
