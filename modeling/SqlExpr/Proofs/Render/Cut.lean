-- SUMMARY: What a rendering leaves when it fails: a part of its writes, more of them under a larger limit.
import Mathlib.Data.List.MinMax
import SqlExpr.Proofs.Render.Nesting
import SqlExpr.Render.Cut

/-!
# What a failed rendering leaves

`Leaves x cut` says that a run of `x` which fails has taken up the writes that `cut` gives for the
visits that were still allowed. It composes along the pieces of a node as `Emits` and `Nests` do.
With these two it tells all there is to a step (`Renderer.step_eq`). A larger limit cuts off later
(`Expr.writesWithin_prefix`).
-/

namespace SqlExpr

/-! ## Writes within a limit -/

section

variable {d : Dialect} {m n : Nat} {cut cut' : Expr → List Write} {pieces : List Piece}

private theorem Piece.writesWithin_of_fits (h : ∀ e, .visit e ∈ pieces → e.depth d ≤ n) :
    Piece.writesWithin d n cut pieces = pieces.flatMap (Piece.writes d) := by
  induction pieces with
  | nil => rfl
  | cons piece pieces ih =>
    have hrest := ih fun e he => h e (List.mem_cons_of_mem _ he)
    cases piece with
    | write w => simp [Piece.writesWithin, Piece.writes, hrest]
    | visit e => simp [Piece.writesWithin, Piece.writes, hrest, h e List.mem_cons_self]

theorem Piece.writesWithin_prefix (hmn : m ≤ n) (hcut : ∀ e, cut e <+: cut' e)
    (hwrites : ∀ e, cut e <+: e.writes d) (pieces : List Piece) :
    Piece.writesWithin d m cut pieces <+: Piece.writesWithin d n cut' pieces := by
  induction pieces with
  | nil => exact List.prefix_rfl
  | cons piece pieces ih =>
    cases piece with
    | write w => exact List.prefix_cons_inj w |>.2 ih
    | visit e =>
      unfold Piece.writesWithin
      by_cases hm : e.depth d ≤ m
      · rw [if_pos hm, if_pos (Nat.le_trans hm hmn)]
        exact (List.prefix_append_right_inj _).2 ih
      · rw [if_neg hm]
        split
        · exact (hwrites e).trans (List.prefix_append _ _)
        · exact hcut e

/-- What a node visits is less deep than the node. -/
private theorem Expr.depth_lt_of_mem_pieces {e e' : Expr} (h : .visit e' ∈ e.pieces d) :
    e'.depth d < e.depth d := by
  have hmem : e'.depth d ∈ ((e.pieces d).filterMap Piece.visited?).map (Expr.depth d) :=
    List.mem_map_of_mem (Piece.mem_filterMap_visited?.2 h)
  have hle := List.le_max_of_le' 0 hmem (Nat.le_refl _)
  have hdepth := e.depth_eq d
  omega

/-- An expression that is within the limit is written as a whole. -/
theorem Expr.writesWithin_of_fits {e : Expr} (h : e.depth d ≤ n) :
    e.writesWithin d n = e.writes d := by
  cases n with
  | zero => rw [e.depth_eq] at h; omega
  | succ n =>
    rw [writesWithin, e.writes_eq]
    refine Piece.writesWithin_of_fits fun e' he' => ?_
    have := depth_lt_of_mem_pieces he'
    omega

/-- A larger limit leaves at least what a smaller one does. -/
theorem Expr.writesWithin_prefix (h : m ≤ n) (e : Expr) :
    e.writesWithin d m <+: e.writesWithin d n := by
  induction m generalizing n e with
  | zero => exact List.nil_prefix
  | succ m ih =>
    obtain ⟨n, rfl⟩ : ∃ n', n = n' + 1 := ⟨n - 1, by omega⟩
    refine Piece.writesWithin_prefix (by omega) (fun e' => ih (by omega) e') (fun e' => ?_) _
    have hwhole := ih (n := max m (e'.depth d)) (Nat.le_max_left _ _) e'
    rwa [writesWithin_of_fits (Nat.le_max_right _ _)] at hwhole

private theorem Expr.writesWithin_prefix_writes (n : Nat) (e : Expr) :
    e.writesWithin d n <+: e.writes d := by
  have hwhole := e.writesWithin_prefix (d := d) (Nat.le_max_left n (e.depth d))
  rwa [writesWithin_of_fits (Nat.le_max_right _ _)] at hwhole

end

namespace Renderer

/-! ## Failed runs -/

/-- A run of `x` that fails has taken up what `cut` gives for the visits that were still allowed. -/
def Leaves (x : EStateM RenderError Renderer Unit) (cut : Nat → List Write) : Prop :=
  ∀ r, r.WithinLimit → ∀ limit, r.settings.maxDepth = some limit → ∀ err r',
    x r = .error err r' → r' = r.takeUp (cut (limit.toNat - r.depth))

variable {x y : EStateM RenderError Renderer Unit} {m : Nat} {cut cut' : Nat → List Write}

theorem Leaves.of_ok (h : ∀ r, ∃ r', x r = .ok () r') : Leaves x cut := by
  intro r hr limit hlimit err r' herr
  obtain ⟨r'', hok⟩ := h r
  cases hok.symm.trans herr

theorem Leaves.seq {ws : List Write} (hemits : Emits x ws) (hnests : Nests x m)
    (hx : Leaves x cut) (hy : Leaves y cut') :
    Leaves (do x; y) fun room => if m ≤ room then ws ++ cut' room else cut room := by
  intro r hr limit hlimit err r' herr
  have hdepth := hr limit hlimit
  cases hrun : x r with
  | error err' r'' =>
    obtain ⟨limit', ⟨hlimit', hlt⟩, -⟩ := (hnests r hr err').1 ⟨r'', hrun⟩
    cases hlimit.symm.trans hlimit'
    have hseq : (do x; y : EStateM RenderError Renderer Unit) r = .error err' r'' := by
      simp only [bind, EStateM.bind, hrun]
    cases hseq.symm.trans herr
    have hexceeds : ¬ m ≤ limit.toNat - r.depth := by omega
    simp only [if_neg hexceeds]
    exact hx r hr limit hlimit _ _ hrun
  | ok _ r'' =>
    obtain rfl := hemits.of_ok hrun
    have hfits : m ≤ limit.toNat - r.depth := by
      by_contra hnot
      obtain ⟨r'', hfail⟩ := (hnests r hr (.depthExceeded limit)).2 ⟨limit, ⟨hlimit, by omega⟩, rfl⟩
      cases hrun.symm.trans hfail
    have hseq : (do x; y : EStateM RenderError Renderer Unit) r = y (r.takeUp ws) := by
      simp only [bind, EStateM.bind, hrun]
    obtain ⟨-, hsettings, hframe⟩ := takeUp_frame r ws
    have hleft := hy _ (hr.takeUp ws) limit (hsettings ▸ hlimit) err r' (hseq.symm.trans herr)
    simp only [if_pos hfits, takeUp_append]
    rwa [hframe] at hleft

theorem Leaves.nested (hzero : cut 0 = []) (h : Leaves x fun room => cut (room + 1)) :
    Leaves (nested x) cut := by
  intro r hr limit hlimit err r' herr
  have hdepth := hr limit hlimit
  by_cases hreached : r.Exceeds 1 limit
  · rw [nested_of_reached hreached] at herr
    cases herr
    have hroom : limit.toNat - r.depth = 0 := by
      have := hreached.2
      omega
    rw [hroom, hzero, takeUp_nil]
  · have hnone : r.reachedLimit? = none := by
      refine Option.eq_none_iff_forall_ne_some.2 fun limit' hlimit' => ?_
      obtain hexceeds := reachedLimit?_eq_some_iff.1 hlimit'
      cases hlimit.symm.trans hexceeds.1
      exact hreached hexceeds
    have hlt : r.depth < limit.toNat := by
      by_contra hnot
      exact hreached ⟨hlimit, by omega⟩
    obtain ⟨room, hroom⟩ : ∃ room, limit.toNat - r.depth = room + 1 :=
      ⟨limit.toNat - (r.depth + 1), by omega⟩
    have hwithin : WithinLimit { r with depth := r.depth + 1 } := by
      intro limit' hlimit'
      cases hlimit.symm.trans hlimit'
      exact hlt
    unfold Renderer.nested at herr
    rw [hnone] at herr
    cases hrun : x { r with depth := r.depth + 1 } with
    | ok _ r'' => simp [hrun] at herr
    | error err' r'' =>
      have hleft := h _ hwithin limit hlimit err' r'' hrun
      simp only [hrun, EStateM.Result.error.injEq] at herr
      obtain ⟨-, rfl⟩ := herr
      have hinner : limit.toNat - (r.depth + 1) = room := by omega
      rw [hleft, hroom]
      simp only [hinner, takeUp_depth, Nat.add_sub_cancel]
      rw [← (takeUp_frame r (cut (room + 1))).2.2]

/-! ## Expressions -/

private theorem leaves_inOrder (d : Dialect) {pieces : List Piece}
    (h : ∀ e, .visit e ∈ pieces →
      Leaves (Renderer.nested (e.renderInto (sink d))) fun room => e.writesWithin d room) :
    Leaves (Sink.inOrder (pieces.map (sink d).renderPiece)) fun room =>
      Piece.writesWithin d room (Expr.writesWithin d room) pieces := by
  induction pieces with
  | nil => exact .of_ok fun r => ⟨r, rfl⟩
  | cons piece pieces ih =>
    have hrest := ih fun e he => h e (List.mem_cons_of_mem _ he)
    cases piece with
    | write w =>
      have hok : ∀ r, ∃ r', (sink d).write w r = .ok () r' := fun r => ⟨r.write w, rfl⟩
      have hemits : Emits ((sink d).write w) [w] := fun r => .inl rfl
      have hleaves : Leaves ((sink d).write w) fun _ => [] := .of_ok hok
      have hseq := hleaves.seq hemits (.of_ok hok) hrest
      simp only [if_pos (Nat.zero_le _)] at hseq
      exact hseq
    | visit e =>
      exact (h e List.mem_cons_self).seq (emits_renderInto d e).nested
        (nests_nested_renderInto d e) hrest

private theorem leaves_renderInto (d : Dialect) (e : Expr) :
    Leaves (e.renderInto (sink d)) fun room => e.writesWithin d (room + 1) := by
  induction e using Expr.visit_induction d with
  | node e ih =>
    rw [Expr.renderInto_eq]
    refine leaves_inOrder d fun e' he' => ?_
    exact (ih e' he').nested rfl

/-! ## Steps -/

/-- A run succeeds and takes up all of its writes, or it exceeds the limit and leaves a part. -/
private theorem run_cases {ws : List Write} (hemits : Emits x ws) (hnests : Nests x m)
    (hleaves : Leaves x cut) {r : Renderer} (hr : r.WithinLimit) :
    (∀ limit, ¬ r.Exceeds m limit) ∧ x r = .ok () (r.takeUp ws) ∨
      ∃ limit, r.Exceeds m limit ∧
        x r = .error (.depthExceeded limit) (r.takeUp (cut (limit.toNat - r.depth))) := by
  cases hrun : x r with
  | ok _ r' =>
    refine .inl ⟨fun limit hexceeds => ?_, by rw [hemits.of_ok hrun]⟩
    obtain ⟨r'', hfail⟩ := (hnests r hr _).2 ⟨limit, hexceeds, rfl⟩
    cases hrun.symm.trans hfail
  | error err r' =>
    obtain ⟨limit, hexceeds, rfl⟩ := (hnests r hr err).1 ⟨r', hrun⟩
    exact .inr ⟨limit, hexceeds, by rw [hleaves r hr limit hexceeds.1 _ _ hrun]⟩

theorem outcome_eq {ws : List Write} (hemits : Emits x ws) (hnests : Nests x m)
    (hleaves : Leaves x cut) (hwhole : ∀ room, m ≤ room → cut room = ws) {r : Renderer}
    (hr : r.depth = 0) :
    (match x r with
      | .ok _ r' => (none, r')
      | .error err r' => (some err, r')) =
      ((r.settings.maxDepth.filter (·.toNat < m)).map RenderError.depthExceeded,
        r.takeUp (r.settings.maxDepth.elim ws fun limit => cut limit.toNat)) := by
  have hwithin : r.WithinLimit := fun limit _ => by rw [hr]; exact Nat.zero_le _
  rcases run_cases hemits hnests hleaves hwithin with ⟨hfits, hrun⟩ | ⟨limit, hexceeds, hrun⟩
  · rw [hrun]
    cases hlimit : r.settings.maxDepth with
    | none => rfl
    | some limit =>
      have hle : m ≤ limit.toNat := by
        have hnot := hfits limit
        simp only [Exceeds, hlimit, hr, true_and] at hnot
        omega
      simp [hwhole _ hle, Option.filter, Nat.not_lt.2 hle]
  · obtain ⟨hlimit, hlt⟩ := hexceeds
    rw [hrun, hlimit]
    rw [hr, Nat.zero_add] at hlt
    simp [Option.filter, hlt, hr]

/-- All there is to a step: its failure and its writes depend on the dialect and the limit alone. -/
theorem step_eq {r : Renderer} (h : r.depth = 0) (next : Step) :
    r.step next = (next.failure? r.dialect r.settings.maxDepth,
      r.takeUp (next.made r.dialect r.settings.maxDepth)) := by
  cases next with
  | write w =>
    cases r.settings.maxDepth <;> simp [step, Step.failure?, Step.depth, Step.made, Step.writes]
  | visit e =>
    have houtcome := outcome_eq (emits_renderInto r.dialect e).nested
      (nests_nested_renderInto r.dialect e) ((leaves_renderInto r.dialect e).nested rfl)
      (fun room hroom => Expr.writesWithin_of_fits hroom) h
    refine houtcome.trans ?_
    cases r.settings.maxDepth <;> rfl
  | render e =>
    have houtcome := outcome_eq (emits_renderInto r.dialect e) (nests_renderInto r.dialect e)
      (leaves_renderInto r.dialect e)
      (fun room hroom => Expr.writesWithin_of_fits (by omega)) h
    refine houtcome.trans ?_
    cases r.settings.maxDepth <;> rfl

/-- Without a failure the step makes all of its writes. -/
theorem Step.made_of_fits {d : Dialect} {limit : Option UInt64} {next : Step}
    (h : next.failure? d limit = none) : next.made d limit = next.writes d := by
  cases limit with
  | none => rfl
  | some limit =>
    have hfits : next.depth d ≤ limit.toNat := by
      simpa [Step.failure?, Option.filter_eq_none_iff] using h
    cases next with
    | write w => rfl
    | visit e => exact Expr.writesWithin_of_fits hfits
    | render e => exact Expr.writesWithin_of_fits (Nat.le_add_of_sub_le hfits)

theorem Step.made_prefix_writes (d : Dialect) (limit : Option UInt64) (next : Step) :
    next.made d limit <+: next.writes d := by
  cases limit with
  | none => exact List.prefix_rfl
  | some limit =>
    cases next with
    | write w => exact List.prefix_rfl
    | visit e => exact e.writesWithin_prefix_writes _
    | render e => exact e.writesWithin_prefix_writes _

/-- Under a larger limit, or none, the step makes at least the same writes. -/
theorem Step.made_prefix (d : Dialect) {limit limit' : Option UInt64}
    (h : ∀ l' ∈ limit', ∃ l ∈ limit, l ≤ l') (next : Step) :
    next.made d limit <+: next.made d limit' := by
  cases limit' with
  | none => exact next.made_prefix_writes d limit
  | some l' =>
    obtain ⟨l, rfl, hle⟩ := h l' rfl
    have hle : l.toNat ≤ l'.toNat := UInt64.le_iff_toNat_le.1 hle
    cases next with
    | write w => exact List.prefix_rfl
    | visit e => exact e.writesWithin_prefix hle
    | render e => exact e.writesWithin_prefix (Nat.succ_le_succ hle)

end Renderer

end SqlExpr
