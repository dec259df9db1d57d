-- SUMMARY: How deep row comparisons nest that are written as comparisons of their fields.
import Mathlib.Data.List.MinMax
import Mathlib.Order.Nat
import SqlExpr.Proofs.Render.Nesting
import SqlExpr.Proofs.Row.Leading

/-!
# Nesting of row comparisons

Comparisons that are joined by one connective are visited side by side. The decision for an ordering
alternates `OR` and `AND`, so that each field but the last is two visits deeper than the one before,
whereas the equalities of fields are all at one depth, whatever the degree
(`RowCompare.depth_emulated`).
-/

namespace SqlExpr

/-! ## Conditions -/

namespace Expr

variable {d : Dialect}

theorem depth_compare (d : Dialect) (op : Comparator) (l r : Expr) :
    (Expr.compare op l r).depth d = 1 + max (l.depth d) (r.depth d) := by
  have hlinks : (Expr.compare op l r).links = [l, r] := rfl
  rw [depth_of_native rfl, hlinks]
  simp

theorem depth_logical (d : Dialect) (op : Connective) (l r : Expr) :
    (Expr.logical op l r).depth d =
      1 + (((Expr.logical op l r).chain op).map (depth d)).foldr max 0 :=
  depth_of_native rfl

theorem depth_not (d : Dialect) (e : Expr) : (Expr.not e).depth d = 1 + e.depth d := by
  have hlinks : (Expr.not e).links = [e] := rfl
  rw [depth_of_native rfl, hlinks]
  simp

/-- Links that are joined by `AND` one after the other make one chain. -/
private theorem chain_foldl_and (first : Expr) (rest : List Expr) :
    (rest.foldl Expr.and first).chain .and = first.chain .and ++ rest.flatMap (chain .and) := by
  induction rest generalizing first with
  | nil => simp
  | cons e rest ih =>
    have hfirst : (first.and e).chain .and = first.chain .and ++ e.chain .and := by
      simp [Expr.and, chain]
    rw [List.foldl_cons, ih, hfirst, List.append_assoc, List.flatMap_cons]

private theorem exists_foldl_and {rest : List Expr} (h : rest ≠ []) (first : Expr) :
    ∃ a b, rest.foldl Expr.and first = .and a b := by
  rw [← List.dropLast_append_getLast h, List.foldl_append]
  exact ⟨_, _, rfl⟩

end Expr

/-! ## Deepest points -/

/-- Going deeper everywhere goes deeper at the deepest point. -/
theorem foldr_max_map_add {ns : List Nat} (h : ns ≠ []) (k : Nat) :
    (ns.map (k + ·)).foldr max 0 = k + ns.foldr max 0 := by
  induction ns with
  | nil => exact absurd rfl h
  | cons n ns ih =>
    cases ns with
    | nil => simp
    | cons m ns =>
      rw [List.map_cons, List.foldr_cons, ih (List.cons_ne_nil m ns), Nat.add_max_add_left]
      rfl

theorem foldr_max_mapIdx_add {ns : List Nat} (h : ns ≠ []) (k : Nat) (f : Nat → Nat) :
    (ns.mapIdx fun i n => k + f i + n).foldr max 0 =
      k + (ns.mapIdx fun i n => f i + n).foldr max 0 := by
  have hmap : (ns.mapIdx fun i n => k + f i + n) = (ns.mapIdx fun i n => f i + n).map (k + ·) := by
    simp [List.mapIdx_eq_zipIdx_map, Nat.add_assoc]
  rw [hmap, foldr_max_map_add (by simpa using h)]

namespace RowCompare

variable {d : Dialect} {op : Comparator} {l r : Expr} {left right : List Expr}

/-- How deep the fields at each position nest, on the side where they nest deeper. -/
def fieldDepths (d : Dialect) (left right : List Expr) : List Nat :=
  left.zipWith (fun l r => max (l.depth d) (r.depth d)) right

theorem fieldDepths_cons (d : Dialect) (l r : Expr) (left right : List Expr) :
    fieldDepths d (l :: left) (r :: right) =
      max (l.depth d) (r.depth d) :: fieldDepths d left right := rfl

theorem fieldDepths_ne_nil (hne : left ≠ []) (hlength : left.length = right.length) :
    fieldDepths d left right ≠ [] := by
  cases left with
  | nil => exact absurd rfl hne
  | cons l left =>
    cases right with
    | nil => cases hlength
    | cons r right => exact List.cons_ne_nil _ _

/-! ## Orderings -/

/-- How many nodes of the decision between rows of degree `n` are around the fields at the position
    `i` in their deeper place. -/
def level (n i : Nat) : Nat := min (2 * i + 3) (2 * n - 1)

private theorem level_first {n : Nat} (hn : 0 < n) : level (n + 1) 0 = 3 := by
  unfold level
  omega

private theorem level_next {n : Nat} (hn : 0 < n) (i : Nat) :
    level (n + 1) (i + 1) = 2 + level n i := by
  unfold level
  omega

/-- The decision between the rest of two rows is no `AND`. -/
theorem chain_and_lexicographic {tree : Expr} (h : lexicographic op left right = some tree) :
    tree.chain .and = [tree] := by
  unfold lexicographic at h
  split at h
  · cases h
    rfl
  · simp only [Option.bind_eq_bind, Option.bind_eq_some_iff, Option.pure_def,
      Option.some.injEq] at h
    obtain ⟨rest, -, rfl⟩ := h
    simp [Expr.or, Expr.chain]
  · cases h

/-- One step of the decision: the first fields are deepest in their equality, which stands beside
    the decision between the rest. -/
theorem depth_step {rest : Expr} (h : lexicographic op left right = some rest) :
    (Expr.or (.compare op.strict l r) (.and (.compare .eq l r) rest)).depth d =
      max (3 + max (l.depth d) (r.depth d)) (2 + rest.depth d) := by
  have htie : (Expr.and (.compare .eq l r) rest).depth d =
      1 + max (1 + max (l.depth d) (r.depth d)) (rest.depth d) := by
    rw [Expr.and, Expr.depth_logical, Expr.chain, if_pos rfl, chain_and_lexicographic h]
    simp [Expr.chain, Expr.depth_compare]
  have hchain : (Expr.or (.compare op.strict l r) (.and (.compare .eq l r) rest)).chain .or =
      [.compare op.strict l r, .and (.compare .eq l r) rest] := by
    simp [Expr.or, Expr.and, Expr.chain]
  rw [Expr.or, Expr.depth_logical, ← Expr.or, hchain]
  simp only [List.map_cons, List.map_nil, List.foldr_cons, List.foldr_nil, Expr.depth_compare, htie]
  omega

/-- The decision nests as deep as the deepest field at its level. -/
private theorem depth_lexicographic {tree : Expr} (h : lexicographic op left right = some tree) :
    tree.depth d =
      ((fieldDepths d left right).mapIdx fun i n => level left.length i + n).foldr max 0 := by
  fun_induction lexicographic op left right generalizing tree with
  | case1 l r =>
    cases h
    simp [Expr.depth_compare, fieldDepths, level]
  | case2 l left r right hne ih =>
    simp only [Option.bind_eq_bind, Option.bind_eq_some_iff, Option.pure_def,
      Option.some.injEq] at h
    obtain ⟨rest, hrest, rfl⟩ := h
    obtain ⟨hleft, hlength⟩ := (lexicographic_isSome op left right).1 (by simp [hrest])
    have hn : 0 < left.length := List.length_pos_iff.2 hleft
    have hrest' := foldr_max_mapIdx_add (fieldDepths_ne_nil (d := d) hleft hlength) 2
      (level left.length)
    rw [depth_step hrest, ih hrest, fieldDepths_cons, List.mapIdx_cons, List.foldr_cons,
      List.length_cons, level_first hn, ← hrest']
    simp only [level_next hn]
  | case3 => cases h

/-- An ordering of scalars is written as the comparison of them. -/
theorem depth_ordering_singleton (hd : d.support .rowOrdering = .emulated)
    (hop : op.isOrdering = true) (l r : Expr) :
    (Expr.rowCompare op [l] [r]).depth d = 2 + max (l.depth d) (r.depth d) := by
  rw [Expr.depth_of_rewrite (rewrite_rowCompare_singleton hd hop l r), Expr.depth_compare,
    ← Nat.add_assoc]

/-- The leading predicate is visited beside the decision and above its deeper fields. -/
theorem depth_ordering (hd : d.support .rowOrdering = .emulated) (hop : op.isOrdering = true)
    (hmore : 2 ≤ left.length) (hlength : left.length = right.length) :
    (Expr.rowCompare op left right).depth d =
      ((fieldDepths d left right).mapIdx fun i n =>
        min (2 * i + 5) (2 * left.length + 1) + n).foldr max 0 := by
  match left, right, hlength with
  | l :: left, r :: right, hlength =>
    have hleft : left ≠ [] := by
      rintro rfl
      exact absurd hmore (by simp)
    obtain ⟨tree, htree, hrewrite⟩ :=
      exists_rewrite_rowCompare hd hop hleft l r (Nat.succ.inj hlength)
    have hdepth : (Expr.and (.compare op.factored l r) tree).depth d = 1 + tree.depth d := by
      obtain ⟨rest, hrest, rfl⟩ := lexicographic_cons hleft htree
      rw [Expr.and, Expr.depth_logical, Expr.chain, if_pos rfl, chain_and_lexicographic htree]
      simp only [Expr.chain, List.cons_append, List.nil_append, List.map_cons, List.map_nil,
        List.foldr_cons, List.foldr_nil, Expr.depth_compare, depth_step hrest]
      omega
    have hlevels : (fun i n => min (2 * i + 5) (2 * (l :: left).length + 1) + n) =
        fun i n => 2 + level (l :: left).length i + n := by
      funext i n
      simp only [level, List.length_cons]
      omega
    rw [Expr.depth_of_rewrite hrewrite, hdepth, depth_lexicographic htree, hlevels,
      foldr_max_mapIdx_add (fieldDepths_ne_nil (List.cons_ne_nil l left) hlength), ← Nat.add_assoc]

/-! ## Equalities -/

private theorem map_depth_fieldEqualities (d : Dialect) (left right : List Expr) :
    (fieldEqualities left right).map (Expr.depth d) = (fieldDepths d left right).map (1 + ·) := by
  unfold fieldEqualities fieldDepths
  rw [List.map_zipWith, List.map_zipWith]
  simp only [Expr.depth_compare]

/-- The equalities are the links of one chain. -/
private theorem chain_conjunction {first : Expr} {rest : List Expr}
    (h : fieldEqualities left right = first :: rest) :
    (rest.foldl Expr.and first).chain .and = fieldEqualities left right := by
  have hlinks : (fieldEqualities left right).flatMap (Expr.chain .and) =
      fieldEqualities left right := by
    rw [fieldEqualities, ← List.map_uncurry_zip_eq_zipWith, List.flatMap_map]
    exact List.flatMap_pure_eq_map _ _
  rw [Expr.chain_foldl_and, ← List.flatMap_cons, ← h, hlinks]

/-- The conjunction is one more visit around the equalities, unless there is one alone. -/
private theorem depth_conjunction {first : Expr} {rest : List Expr} (hrest : rest ≠ [])
    (h : fieldEqualities left right = first :: rest) :
    (rest.foldl Expr.and first).depth d = 2 + (fieldDepths d left right).foldr max 0 := by
  have hfields : fieldDepths d left right ≠ [] := by
    intro hnil
    have hmap := map_depth_fieldEqualities d left right
    simp [h, hnil] at hmap
  obtain ⟨a, b, hand⟩ := Expr.exists_foldl_and hrest first
  have hchain := chain_conjunction h
  rw [hand, Expr.and] at hchain ⊢
  rw [Expr.depth_logical, hchain, map_depth_fieldEqualities, foldr_max_map_add hfields,
    ← Nat.add_assoc]

/-- Equality of scalars is written as the comparison of them. -/
private theorem depth_equality_singleton (hd : d.support .rowEquality = .emulated) (l r : Expr) :
    (Expr.rowCompare .eq [l] [r]).depth d = 2 + max (l.depth d) (r.depth d) := by
  have hrewrite : (Expr.rowCompare .eq [l] [r]).rewrite d = some (.compare .eq l r) := by
    rw [rewrite_rowCompare_of_isEquality hd rfl]
    rfl
  rw [Expr.depth_of_rewrite hrewrite, Expr.depth_compare, ← Nat.add_assoc]

private theorem depth_equality (hd : d.support .rowEquality = .emulated) (hmore : 2 ≤ left.length)
    (hlength : left.length = right.length) :
    (Expr.rowCompare .eq left right).depth d = 3 + (fieldDepths d left right).foldr max 0 := by
  have hcount : 2 ≤ (fieldEqualities left right).length := by
    simp only [fieldEqualities, List.length_zipWith]
    omega
  have hne : fieldEqualities left right ≠ [] := List.ne_nil_of_length_pos (by omega)
  obtain ⟨first, rest, hfields⟩ := List.exists_cons_of_ne_nil hne
  have hrest : rest ≠ [] := by
    rintro rfl
    simp [hfields] at hcount
  have hrewrite : (Expr.rowCompare .eq left right).rewrite d =
      some (rest.foldl Expr.and first) := by
    rw [rewrite_rowCompare_of_isEquality hd rfl, equality, hfields]
    rfl
  rw [Expr.depth_of_rewrite hrewrite, depth_conjunction hrest hfields, ← Nat.add_assoc]

/-- The negation is one more visit. -/
private theorem depth_inequality (hd : d.support .rowEquality = .emulated) (hne : left ≠ [])
    (hlength : left.length = right.length) :
    (Expr.rowCompare .ne left right).depth d = (Expr.rowCompare .eq left right).depth d + 1 := by
  match left, right, hlength with
  | l :: left, r :: right, _ =>
    have hrewrite (op : Comparator) (hop : op.isEquality = true) :=
      rewrite_rowCompare_of_isEquality hd hop (l :: left) (r :: right)
    rw [Expr.depth_of_rewrite (hrewrite .ne rfl), Expr.depth_of_rewrite (hrewrite .eq rfl)]
    exact (congrArg (1 + ·) (Expr.depth_not d _)).trans (Nat.add_comm 1 _)

/-! ## The smallest limit -/

/-- The expression is a column or a constant. -/
def IsLeaf (e : Expr) : Prop := (∃ c, e = .column c) ∨ ∃ c, e = .constant c

theorem depth_of_isLeaf {e : Expr} (h : IsLeaf e) : e.depth d = 1 := by
  rcases h with ⟨c, rfl⟩ | ⟨c, rfl⟩
  · exact Expr.depth_of_native rfl
  · exact Expr.depth_of_native rfl

private theorem fieldDepths_of_isLeaf (hlength : left.length = right.length)
    (h : ∀ e ∈ left ++ right, IsLeaf e) : fieldDepths d left right = .replicate left.length 1 := by
  rw [List.eq_replicate_iff]
  constructor
  · simp [fieldDepths, hlength]
  · intro n hn
    rw [fieldDepths, ← List.map_uncurry_zip_eq_zipWith, List.mem_map] at hn
    obtain ⟨⟨l, r⟩, hmem, rfl⟩ := hn
    obtain ⟨hl, hr⟩ := List.of_mem_zip hmem
    simp [depth_of_isLeaf (h l (List.mem_append_left _ hl)),
      depth_of_isLeaf (h r (List.mem_append_right _ hr))]

/-- Where all fields are at one depth, the last ones are in the deepest place. -/
private theorem foldr_max_levels {n : Nat} (hn : 2 ≤ n) (k : Nat) :
    ((List.replicate n k).mapIdx fun i m => min (2 * i + 5) (2 * n + 1) + m).foldr max 0 =
      2 * n + 1 + k := by
  apply Nat.le_antisymm
  · refine List.max_le_of_forall_le _ _ fun m hm => ?_
    obtain ⟨i, hi, rfl⟩ := List.mem_mapIdx.1 hm
    rw [List.getElem_replicate]
    omega
  · have hlast : 2 * n + 1 + k ∈
        (List.replicate n k).mapIdx fun i m => min (2 * i + 5) (2 * n + 1) + m := by
      refine List.mem_mapIdx.2 ⟨n - 1, by simp; omega, ?_⟩
      rw [List.getElem_replicate]
      omega
    exact List.le_max_of_le hlast (Nat.le_refl _)

/-- The smallest depth limit with which an expression is rendered is its depth. On dialects that lack
    the construct it is given by the depths of the fields at each position. Fields of an ordering of
    two or more are behind `2 * i + 5` visits at the position `i`, and the last ones behind two less,
    so that rows of columns and constants need a limit of `2 * degree + 2`. Fields of an equality are
    behind three visits whatever the degree, and scalars behind two. A negated equality takes one
    more. -/
theorem depth_emulated :
    (∀ (e : Expr) (d : Dialect) (s : Settings) (limit : UInt64),
      (∃ out, e.render d { s with maxDepth := some limit } = .ok out) ↔
        e.depth d ≤ limit.toNat) ∧
    (∀ d op, d.support .rowOrdering = .emulated → op.isOrdering = true →
      (∀ l r : Expr, (Expr.rowCompare op [l] [r]).depth d = 2 + max (l.depth d) (r.depth d)) ∧
      ∀ left right : List Expr, 2 ≤ left.length → left.length = right.length →
        (Expr.rowCompare op left right).depth d =
          ((fieldDepths d left right).mapIdx fun i n =>
            min (2 * i + 5) (2 * left.length + 1) + n).foldr max 0 ∧
        ((∀ e ∈ left ++ right, IsLeaf e) →
          (Expr.rowCompare op left right).depth d = 2 * left.length + 2)) ∧
    ∀ d, d.support .rowEquality = .emulated →
      (∀ l r : Expr, (Expr.rowCompare .eq [l] [r]).depth d = 2 + max (l.depth d) (r.depth d)) ∧
      (∀ left right : List Expr, 2 ≤ left.length → left.length = right.length →
        (Expr.rowCompare .eq left right).depth d = 3 + (fieldDepths d left right).foldr max 0) ∧
      ∀ left right : List Expr, left ≠ [] → left.length = right.length →
        (Expr.rowCompare .ne left right).depth d =
          (Expr.rowCompare .eq left right).depth d + 1 := by
  refine ⟨fun e d s limit => ?_, fun d op hd hop => ⟨depth_ordering_singleton hd hop, ?_⟩,
    fun d hd => ⟨depth_equality_singleton hd, fun left right => depth_equality hd,
      fun left right => depth_inequality hd⟩⟩
  · rw [Expr.exists_render_iff]
    exact ⟨fun h => h limit rfl, fun h _ hlimit => Option.some.inj hlimit ▸ h⟩
  · intro left right hmore hlength
    have hdepth := depth_ordering hd hop hmore hlength
    refine ⟨hdepth, fun hleaves => ?_⟩
    rw [hdepth, fieldDepths_of_isLeaf hlength hleaves, foldr_max_levels hmore]

/-- A first field that nests is deeper than the last one. Firebird is given `(NOT (NOT (a)), a)` in
    an ordering under a limit of 8, in an equality under one of 6 and in its negation under one of 7,
    and three columns in an ordering under one of 8. -/
theorem depth_emulated_firebird :
    let a : Expr := .column ⟨none, "a", .boolean⟩
    let left : List Expr := [.not (.not a), a]
    let right : List Expr := [a, a]
    let limited (limit : UInt64) : Settings := { maxDepth := some limit }
    (∃ out, (Expr.rowCompare .gt left right).render .firebird (limited 8) = .ok out) ∧
      (¬ ∃ out, (Expr.rowCompare .gt left right).render .firebird (limited 7) = .ok out) ∧
      (Expr.rowCompare .le [a, a, a] [a, a, a]).depth .firebird = 8 ∧
      (Expr.rowCompare .eq left right).depth .firebird = 6 ∧
      (Expr.rowCompare .ne left right).depth .firebird = 7 := by
  intro a left right limited
  obtain ⟨hrendered, horderings, hequalities⟩ := depth_emulated
  have ha : a.depth .firebird = 1 := depth_of_isLeaf (.inl ⟨_, rfl⟩)
  have hfields : fieldDepths .firebird left right = [3, 1] := by
    simp [fieldDepths, left, right, Expr.depth_not, ha]
  have hordering : (Expr.rowCompare .gt left right).depth .firebird = 8 := by
    rw [((horderings .firebird .gt rfl rfl).2 left right (by decide) rfl).1, hfields]
    rfl
  have hequality : (Expr.rowCompare .eq left right).depth .firebird = 6 := by
    rw [(hequalities .firebird rfl).2.1 left right (by decide) rfl, hfields]
    rfl
  have hleaves : ∀ e ∈ [a, a, a] ++ [a, a, a], IsLeaf e := by
    intro e he
    obtain rfl : e = a := by simpa using he
    exact .inl ⟨_, rfl⟩
  have hlimited (limit : UInt64) :
      (∃ out, (Expr.rowCompare .gt left right).render .firebird (limited limit) = .ok out) ↔
        8 ≤ limit.toNat := hordering ▸ hrendered _ .firebird {} limit
  refine ⟨(hlimited 8).2 (by decide), mt (hlimited 7).1 (by decide), ?_, hequality, ?_⟩
  · exact ((horderings .firebird .le rfl rfl).2 [a, a, a] [a, a, a] (by decide) rfl).2 hleaves
  · rw [(hequalities .firebird rfl).2.2 left right (by decide) rfl, hequality]

end RowCompare

end SqlExpr
