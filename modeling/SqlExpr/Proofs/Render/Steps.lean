-- SUMMARY: A renderer only appends, and no step changes what later steps append but for the numbers of placeholders.
import SqlExpr.Proofs.Render.Cut
import SqlExpr.Proofs.Render.Fragments

/-!
# Steps of a renderer

Between steps a renderer differs from a new one by its text and its parameters alone
(`Renderer.run_eq_takeUp`). A step appends to them what it appends to those of a new renderer, with
placeholders numbered from where they were left, whatever became of the steps before
(`Renderer.step_run`).
-/

namespace SqlExpr.Renderer

/-- A step appends the fragments of the writes it makes, and what they bind. -/
theorem step_eq_append {r : Renderer} (h : r.depth = 0) (next : Step) :
    r.step next = (next.failure? r.dialect r.settings.maxDepth,
      r.append
        (r.settings.fragments r.dialect r.params.size (next.made r.dialect r.settings.maxDepth))
        ((next.made r.dialect r.settings.maxDepth).filterMap r.settings.binds)) := by
  rw [step_eq h, takeUp_eq_append]

/-- After any steps, some of which may have failed, a renderer has taken up some writes, and nothing
    else about it has changed. -/
theorem run_eq_takeUp {r : Renderer} (h : r.depth = 0) (steps : List Step) :
    ∃ ws, r.run steps = r.takeUp ws := by
  induction steps generalizing r with
  | nil => exact ⟨[], rfl⟩
  | cons next steps ih =>
    have hstep : (r.step next).2 = r.takeUp (next.made r.dialect r.settings.maxDepth) :=
      congrArg Prod.snd (step_eq h next)
    have hdepth : (r.step next).2.depth = 0 := by
      rw [hstep, (takeUp_frame r _).2.2, h]
    obtain ⟨ws, hws⟩ := ih hdepth
    rw [hstep] at hws
    exact ⟨next.made r.dialect r.settings.maxDepth ++ ws, by rw [takeUp_append, ← hws, ← hstep]; rfl⟩

/-- The limit matters to nothing but how many of its writes a step makes. -/
private theorem step_limitedTo {r : Renderer} (h : r.depth = 0) (limit : Option UInt64)
    (next : Step) :
    (r.limitedTo limit).step next = (next.failure? r.dialect limit,
      (r.limitedTo limit).append
        (r.settings.fragments r.dialect r.params.size (next.made r.dialect limit))
        ((next.made r.dialect limit).filterMap r.settings.binds)) := by
  have hfragments (bound : Nat) (ws : List Write) :
      (r.limitedTo limit).settings.fragments r.dialect bound ws =
        r.settings.fragments r.dialect bound ws := by
    induction ws generalizing bound with
    | nil => rfl
    | cons w ws ih => exact congrArg (_ :: ·) (ih _)
  rw [← hfragments]
  exact step_eq_append (r := r.limitedTo limit) h next

/-- Whatever steps a renderer has been used for, the next one succeeds or fails as it does with a new
    renderer of the same dialect and settings, and makes the same writes: all writes of the step
    unless it fails, and some first part of them if it fails. It leaves all but the text and the
    parameters as they are. To these it appends what it appends to those of the new renderer, but for
    the placeholders, which are numbered from behind the parameters that were bound before. Under a
    smaller limit a step appends a part of what it appends under a larger one, or under none. -/
theorem step_run (d : Dialect) (s : Settings) (steps : List Step) (next : Step) :
    let fresh : Renderer := { dialect := d, settings := s }
    let r := fresh.run steps
    (∃ failure ws, ws <+: next.writes d ∧ (failure = none → ws = next.writes d) ∧
      let fs := s.fragments d 0 ws
      let vs := ws.filterMap s.binds
      (fs.filter (·.isPlaceholder s)).map (·.text) = Fragment.numbered s d 1 vs.length ∧
      fresh.step next = (failure, fresh.append fs vs) ∧
      r.step next = (failure, r.append
        (Fragment.relabel s fs (Fragment.numbered s d (r.params.size + 1) vs.length)) vs)) ∧
    (∀ limit limit' : Option UInt64, (∀ l' ∈ limit', ∃ l ∈ limit, l ≤ l') →
      ∃ failure failure' fs fs' vs vs',
        (r.limitedTo limit).step next = (failure, (r.limitedTo limit).append fs vs) ∧
        (r.limitedTo limit').step next = (failure', (r.limitedTo limit').append fs' vs') ∧
        fs <+: fs' ∧ vs <+: vs') := by
  intro fresh r
  obtain ⟨taken, htaken⟩ := run_eq_takeUp (r := fresh) rfl steps
  obtain ⟨hdialect, hsettings, hdepth⟩ : r.dialect = d ∧ r.settings = s ∧ r.depth = 0 := by
    rw [show r = fresh.takeUp taken from htaken]
    exact takeUp_frame fresh taken
  constructor
  · let made := next.made d s.maxDepth
    refine ⟨next.failure? d s.maxDepth, made, next.made_prefix_writes d s.maxDepth,
      Step.made_of_fits, Settings.placeholderTexts_fragments 0 made, step_eq_append rfl next, ?_⟩
    have hstep := step_eq_append hdepth next
    rwa [hdialect, hsettings, ← Settings.relabel_numbered 0] at hstep
  · intro limit limit' hle
    have hmade := Step.made_prefix r.dialect hle next
    exact ⟨_, _, _, _, _, _, step_limitedTo hdepth limit next, step_limitedTo hdepth limit' next,
      Settings.fragments_prefix hmade r.params.size, hmade.filterMap r.settings.binds⟩

/-- A sum of three values is too deep for a limit of two. A renderer that has failed on it fails on it
    again as a new one does, after a first part of what it appends under a limit of three. -/
theorem step_run_of_failed_sum :
    let sum : Expr := .add (.bind (.int 1)) (.add (.bind (.int 2)) (.bind (.int 3)))
    let fresh : Renderer := { dialect := .postgres, settings := { maxDepth := some 2 } }
    let r := fresh.run [.visit sum]
    (fresh.step (.visit sum)).1 = some (.depthExceeded 2) ∧
    (r.step (.visit sum)).1 = some (.depthExceeded 2) ∧
    ∃ failure failure' fs fs' vs vs',
      (r.limitedTo (some 2)).step (.visit sum) = (failure, (r.limitedTo (some 2)).append fs vs) ∧
      (r.limitedTo (some 3)).step (.visit sum) = (failure', (r.limitedTo (some 3)).append fs' vs') ∧
      fs <+: fs' ∧ vs <+: vs' := by
  intro sum fresh r
  obtain ⟨⟨failure, ws, -, -, -, hfresh, hr⟩, hlimits⟩ :=
    step_run .postgres { maxDepth := some 2 } [.visit sum] (.visit sum)
  have hvalue (n : Int) : (Expr.bind (.int n)).depth .postgres = 1 := Expr.depth_of_native rfl
  have hsum (l m : Expr) :
      (Expr.add l m).depth .postgres = 1 + max (l.depth .postgres) (m.depth .postgres) := by
    rw [Expr.depth_of_native rfl]
    simp [Expr.add, Expr.links, Expr.operands, Expr.slots]
  have hdepth : sum.depth .postgres = 3 := by
    simp only [sum, hsum, hvalue]
    rfl
  have hfails : (fresh.step (.visit sum)).1 = some (.depthExceeded 2) := by
    have hfailure : (Step.visit sum).failure? .postgres (some 2) =
        ((some (2 : UInt64)).filter (·.toNat < 3)).map .depthExceeded := by
      rw [← hdepth]
      rfl
    rw [step_eq rfl]
    exact hfailure
  have hsame : (r.step (.visit sum)).1 = (fresh.step (.visit sum)).1 := by
    rw [show r.step (.visit sum) = _ from hr, show fresh.step (.visit sum) = _ from hfresh]
  refine ⟨hfails, hsame.trans hfails, hlimits (some 2) (some 3) ?_⟩
  intro limit hlimit
  cases hlimit
  exact ⟨2, rfl, by decide⟩

end SqlExpr.Renderer
