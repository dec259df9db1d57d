-- SUMMARY: The depth limit: which renderings it lets through, and that it changes nothing else.
import SqlExpr.Proofs.Render.Pieces
import SqlExpr.Proofs.Render.Writes

/-!
# Nesting

`Nests x n` says that running `x` fails exactly if the limit does not allow `n` visits inside of each
other, beside those that are under way. It composes along the pieces of a node, so that a visit of an
expression nests just as deep as `Expr.depth` says. The limit of the settings decides whether an
expression is rendered, and does nothing else (`Expr.render_eq_error_iff`).
-/

namespace SqlExpr.Renderer

/-- No more visits are under way than the limit allows. -/
def WithinLimit (r : Renderer) : Prop := ∀ limit ∈ r.settings.maxDepth, r.depth ≤ limit.toNat

/-- The limit does not allow `n` visits more than those under way. -/
def Exceeds (r : Renderer) (n : Nat) (limit : UInt64) : Prop :=
  r.settings.maxDepth = some limit ∧ limit.toNat < r.depth + n

/-- Running `x` fails exactly if the limit does not allow `n` visits more, and fails with it. -/
def Nests (x : EStateM RenderError Renderer Unit) (n : Nat) : Prop :=
  ∀ r, r.WithinLimit → ∀ err,
    (∃ r', x r = .error err r') ↔ ∃ limit, r.Exceeds n limit ∧ err = .depthExceeded limit

variable {x y : EStateM RenderError Renderer Unit} {m n : Nat}

theorem WithinLimit.not_exceeds_zero {r : Renderer} (h : r.WithinLimit) (limit : UInt64) :
    ¬ r.Exceeds 0 limit := by
  rintro ⟨hlimit, hlt⟩
  exact Nat.not_lt.2 (h limit hlimit) hlt

theorem WithinLimit.takeUp {r : Renderer} (h : r.WithinLimit) (ws : List Write) :
    (r.takeUp ws).WithinLimit := by
  obtain ⟨-, hsettings, hdepth⟩ := takeUp_frame r ws
  unfold WithinLimit
  rw [hsettings, hdepth]
  exact h

private theorem exceeds_takeUp {r : Renderer} {ws : List Write} {limit : UInt64} :
    (r.takeUp ws).Exceeds n limit ↔ r.Exceeds n limit := by
  obtain ⟨-, hsettings, hdepth⟩ := takeUp_frame r ws
  unfold Exceeds
  rw [hsettings, hdepth]

private theorem exceeds_max {r : Renderer} {limit : UInt64} :
    r.Exceeds (max m n) limit ↔ r.Exceeds m limit ∨ r.Exceeds n limit := by
  unfold Exceeds
  rw [← and_or_left]
  exact and_congr_right fun _ => by omega

theorem Exceeds.add {r : Renderer} {limit : UInt64} (h : r.Exceeds m limit) (n : Nat) :
    r.Exceeds (m + n) limit :=
  ⟨h.1, Nat.lt_of_lt_of_le h.2 (Nat.add_le_add_left (Nat.le_add_right m n) _)⟩

/-- What never fails opens no visits. -/
theorem Nests.of_ok (h : ∀ r, ∃ r', x r = .ok () r') : Nests x 0 := by
  intro r hr err
  obtain ⟨r', hok⟩ := h r
  refine iff_of_false ?_ ?_
  · rintro ⟨r'', herr⟩
    cases hok.symm.trans herr
  · rintro ⟨limit, hexceeds, -⟩
    exact hr.not_exceeds_zero limit hexceeds

theorem Nests.seq {ws : List Write} (hemits : Emits x ws) (hx : Nests x m) (hy : Nests y n) :
    Nests (do x; y) (max m n) := by
  intro r hr err
  cases hrun : x r with
  | error err' r' =>
    obtain ⟨limit, hexceeds, rfl⟩ := (hx r hr err').1 ⟨r', hrun⟩
    have hseq : (do x; y : EStateM RenderError Renderer Unit) r =
        .error (.depthExceeded limit) r' := by
      simp only [bind, EStateM.bind, hrun]
    rw [hseq]
    constructor
    · rintro ⟨r'', h⟩
      cases h
      exact ⟨limit, exceeds_max.2 (.inl hexceeds), rfl⟩
    · rintro ⟨limit', hexceeds', rfl⟩
      cases hexceeds.1.symm.trans hexceeds'.1
      exact ⟨r', rfl⟩
  | ok _ r' =>
    obtain rfl := hemits.of_ok hrun
    have hseq : (do x; y : EStateM RenderError Renderer Unit) r = y (r.takeUp ws) := by
      simp only [bind, EStateM.bind, hrun]
    have hallowed (limit : UInt64) : ¬ r.Exceeds m limit := by
      intro hexceeds
      obtain ⟨r'', herr⟩ := (hx r hr _).2 ⟨limit, hexceeds, rfl⟩
      cases hrun.symm.trans herr
    rw [hseq, hy _ (hr.takeUp ws)]
    simp only [exceeds_takeUp, exceeds_max, hallowed, false_or]

theorem reachedLimit?_eq_some_iff {r : Renderer} {limit : UInt64} :
    r.reachedLimit? = some limit ↔ r.Exceeds 1 limit := by
  unfold reachedLimit? Exceeds
  rw [Option.filter_eq_some_iff, decide_eq_true_iff, Nat.lt_add_one_iff]

theorem nested_of_reached {r : Renderer} {limit : UInt64} (h : r.Exceeds 1 limit) :
    nested x r = .error (.depthExceeded limit) r := by
  unfold nested
  rw [reachedLimit?_eq_some_iff.2 h]

private theorem nested_eq_error_iff {r : Renderer} {err : RenderError}
    (h : ∀ limit, ¬ r.Exceeds 1 limit) :
    (∃ r', nested x r = .error err r') ↔
      ∃ r', x { r with depth := r.depth + 1 } = .error err r' := by
  have hreached : r.reachedLimit? = none := by
    apply Option.eq_none_iff_forall_ne_some.2
    intro limit hlimit
    exact h limit (reachedLimit?_eq_some_iff.1 hlimit)
  unfold nested
  rw [hreached]
  cases hrun : x { r with depth := r.depth + 1 } with
  | ok _ r' => simp
  | error err' r' => simp

theorem Nests.nested (h : Nests x n) : Nests (nested x) (1 + n) := by
  intro r hr err
  have hexceeds {limit : UInt64} :
      r.Exceeds (1 + n) limit ↔ { r with depth := r.depth + 1 }.Exceeds n limit := by
    unfold Exceeds
    rw [Nat.add_assoc]
  by_cases hreached : ∃ limit, r.Exceeds 1 limit
  · obtain ⟨limit, hlimit⟩ := hreached
    rw [nested_of_reached hlimit]
    constructor
    · rintro ⟨r', h⟩
      cases h
      exact ⟨limit, hlimit.add n, rfl⟩
    · rintro ⟨limit', hlimit', rfl⟩
      cases hlimit.1.symm.trans hlimit'.1
      exact ⟨r, rfl⟩
  · have hnone (limit : UInt64) : ¬ r.Exceeds 1 limit := fun h => hreached ⟨limit, h⟩
    have hwithin : WithinLimit { r with depth := r.depth + 1 } := by
      intro limit hlimit
      exact Nat.not_lt.1 fun hlt => hnone limit ⟨hlimit, hlt⟩
    rw [nested_eq_error_iff hnone, h _ hwithin]
    simp only [hexceeds]

/-! ## Expressions -/

/-- Pieces nest as deep as the deepest of what they visit. -/
theorem nests_inOrder (d : Dialect) {pieces : List Piece}
    (h : ∀ e, .visit e ∈ pieces → Nests (Renderer.nested (e.renderInto (sink d))) (e.depth d)) :
    Nests (Sink.inOrder (pieces.map (sink d).renderPiece))
      (((pieces.filterMap Piece.visited?).map (Expr.depth d)).foldr max 0) := by
  induction pieces with
  | nil => exact .of_ok fun r => ⟨r, rfl⟩
  | cons piece pieces ih =>
    have hrest := ih fun e he => h e (List.mem_cons_of_mem _ he)
    cases piece with
    | write w =>
      have hwrite : Nests ((sink d).write w) 0 := .of_ok fun r => ⟨r.write w, rfl⟩
      have hemits : Emits ((sink d).write w) [w] := fun r => .inl rfl
      have hseq := hwrite.seq hemits hrest
      rwa [Nat.zero_max] at hseq
    | visit e => exact (h e List.mem_cons_self).seq (emits_renderInto d e).nested hrest

/-- A visit of an expression nests as deep as the expression does. -/
theorem nests_nested_renderInto (d : Dialect) (e : Expr) :
    Nests (Renderer.nested (e.renderInto (sink d))) (e.depth d) := by
  induction e using Expr.visit_induction d with
  | node e ih =>
    rw [e.depth_eq, Expr.renderInto_eq]
    exact (nests_inOrder d ih).nested

/-- Rendering the expression itself, at the depth of its surroundings, nests one visit less. -/
theorem nests_renderInto (d : Dialect) (e : Expr) :
    Nests (e.renderInto (sink d)) (e.depth d - 1) := by
  rw [e.depth_eq, Nat.add_sub_cancel_left, Expr.renderInto_eq]
  exact nests_inOrder d fun e' _ => nests_nested_renderInto d e'

end SqlExpr.Renderer

namespace SqlExpr.Expr

variable {e : Expr} {d : Dialect} {s : Settings} {err : RenderError}

/-- With a new renderer the limit is compared with the nesting alone. -/
theorem exists_error_of_nests {x : EStateM RenderError Renderer Unit} {n : Nat}
    (h : Renderer.Nests x n) :
    (∃ r, x { dialect := d, settings := s } = .error err r) ↔
      ∃ limit, s.maxDepth = some limit ∧ limit.toNat < n ∧ err = .depthExceeded limit := by
  have hwithin : Renderer.WithinLimit { dialect := d, settings := s } :=
    fun limit _ => Nat.zero_le limit.toNat
  rw [h _ hwithin]
  simp only [Renderer.Exceeds, Nat.zero_add, and_assoc]

theorem render_eq_error_iff_visit :
    e.render d s = .error err ↔
      ∃ r, Renderer.nested (e.renderInto (Renderer.sink d)) { dialect := d, settings := s } =
        .error err r := by
  change _ ↔ ∃ r, Renderer.visit e { dialect := d, settings := s } = .error err r
  unfold render
  cases Renderer.visit e { dialect := d, settings := s } with
  | ok _ r => simp
  | error err' r => simp

/-- An expression is rendered exactly if the limit allows its depth. -/
theorem exists_render_iff :
    (∃ out, e.render d s = .ok out) ↔ ∀ limit ∈ s.maxDepth, e.depth d ≤ limit.toNat := by
  have hnests := Renderer.nests_nested_renderInto d e
  rw [Except.exists_ok_iff]
  simp only [ne_eq, render_eq_error_iff_visit, exists_error_of_nests hnests]
  constructor
  · intro h limit hlimit
    exact Nat.not_lt.1 fun hlt => h _ ⟨limit, hlimit, hlt, rfl⟩
  · rintro h err ⟨limit, hlimit, hlt, -⟩
    exact Nat.not_lt.2 (h limit hlimit) hlt

/-- The depth limit is all that rendering can fail at, and it does so exactly if the limit is less
    than the depth of the expression. An expression that is within the limit is rendered as it is
    without one. Rendered into a new renderer without a visit, an expression may be one visit
    deeper. The other settings have no part in this. -/
theorem render_eq_error_iff (e : Expr) (d : Dialect) (s : Settings) :
    (∀ err, e.render d s = .error err ↔
      ∃ limit, s.maxDepth = some limit ∧ limit.toNat < e.depth d ∧ err = .depthExceeded limit) ∧
    (∀ out, e.render d s = .ok out → e.render d { s with maxDepth := none } = .ok out) ∧
    (∀ err, (∃ r, e.renderInto (Renderer.sink d) { dialect := d, settings := s } = .error err r) ↔
      ∃ limit, s.maxDepth = some limit ∧ limit.toNat < e.depth d - 1 ∧
        err = .depthExceeded limit) := by
  refine ⟨fun err => ?_, fun out hout => ?_, fun err => ?_⟩
  · rw [render_eq_error_iff_visit]
    exact exists_error_of_nests (Renderer.nests_nested_renderInto d e)
  · rw [render_of_unlimited rfl, rendered_maxDepth, eq_rendered_of_render hout]
  · exact exists_error_of_nests (Renderer.nests_renderInto d e)

/-- A chain of three conditions is as deep as a chain of two, and its depth is just allowed. -/
theorem render_eq_error_iff_chain :
    let a : Expr := .column ⟨none, "a", .boolean⟩
    let chain : Expr := .and (.and a a) a
    let limited (limit : UInt64) : Settings := { maxDepth := some limit }
    chain.render .generic (limited 1) = .error (.depthExceeded 1) ∧
      ∃ out, chain.render .generic (limited 2) = .ok out ∧
        chain.render .generic = .ok out := by
  intro a chain limited
  have hdepth : chain.depth .generic = 2 := by
    have hlinks : chain.links = [a, a, a] := rfl
    have ha : a.depth .generic = 1 := depth_of_native rfl
    rw [depth_of_native rfl, hlinks]
    simp only [List.map_cons, List.map_nil, List.foldr_cons, List.foldr_nil, ha]
    rfl
  obtain ⟨hfails, -, -⟩ := render_eq_error_iff chain .generic (limited 1)
  obtain ⟨hallowed, hsame, -⟩ := render_eq_error_iff chain .generic (limited 2)
  rw [hdepth] at hfails hallowed
  refine ⟨(hfails _).2 ⟨1, rfl, by decide, rfl⟩, ?_⟩
  cases hrender : chain.render .generic (limited 2) with
  | error err =>
    obtain ⟨limit, hlimit, hlt, -⟩ := (hallowed err).1 hrender
    cases hlimit
    exact absurd hlt (by decide)
  | ok out => exact ⟨out, rfl, hsame out hrender⟩

end SqlExpr.Expr
