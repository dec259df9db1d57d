-- SUMMARY: When a pass that rewrites several operands of a construct makes what its builder would.
import SqlExpr.Proofs.Expr.Operand
import SqlExpr.Proofs.Expr.Rebuild
import SqlExpr.Proofs.Overlay.Update
import SqlExpr.Proofs.Row.Update

/-!
# Passes through checked constructs

A pass puts the rewritten operands of an overlay or a row comparison into it one after the
other, so the builder checks and types the first of them beside the others as they were. The
node that comes out is the one that the builder makes of all rewritten operands exactly if that
leaves no trace (`rebuilt_eq_built_iff`). It may leave one: the builder can take all operands
together where it does not take the first of them alone (`replace_texts_of_overlay`).
-/

namespace SqlExpr

/-! ## Putting one operand into a node -/

namespace Expr

/-- The pass sees that the operand was rewritten, if it was. -/
def Visible (new old : Expr) : Prop := new.same old = true → new = old

/-- An operand that can be seen to be rewritten is put into the node in any case, provided that
    the old one is in it. -/
theorem splice_of_visible {node old new : Expr} {i : Nat} (hvisible : Visible new old)
    (hold : node.withOperand i (some old) = .ok node) :
    splice node old i new = node.withOperand i (some new) := by
  unfold splice
  split
  case isTrue h => rw [hvisible h, hold]
  case isFalse => rfl

end Expr

/-! ## Overlays -/

namespace Overlay

variable {o o' t : Overlay} {i : Nat}

private theorem toExpr_inj : o.toExpr = o'.toExpr ↔ o = o' := by
  cases o; cases o'; simp [toExpr]

theorem operands_toExpr (o : Overlay) :
    o.toExpr.operands = o.source :: o.replacement :: o.start :: o.length.toList := by
  cases o with | mk s r p n => cases n <;> rfl

theorem positions_toExpr (o : Overlay) :
    o.toExpr.positions =
      (0, o.source) :: (1, o.replacement) :: (2, o.start) :: o.length.toList.map (3, ·) := by
  cases o with | mk s r p n => cases n <;> rfl

section Built

variable {source replacement start length : Option Expr}

private theorem splice_toExpr (h : ofOperands source replacement start length = .ok o)
    {old new : Expr} (hold : o.toExpr.slots[i]? = some (some old)) (hvisible : new.Visible old) :
    Expr.splice o.toExpr old i new = toExpr <$> o.setOperand i (some new) := by
  have hi : i < 4 := (List.getElem?_eq_some_iff.1 hold).1
  rw [Expr.splice_of_visible hvisible, withOperand_toExpr o hi]
  rw [withOperand_toExpr o hi, setOperand_self h hold]
  rfl

/-- The last operands of an overlay, exchanged one after the other, are those of an overlay built
    at once. -/
private theorem setOperand_chain_eq_ok_iff (h : ofOperands source replacement start length = .ok o)
    {r p n : Option Expr} :
    (∃ o₂, o.setOperand 1 r = .ok o₂ ∧ ∃ o₃, o₂.setOperand 2 p = .ok o₃ ∧
      o₃.setOperand 3 n = .ok t) ↔ ofOperands (some o.source) r p n = .ok t := by
  constructor
  · rintro ⟨o₂, h₂, o₃, h₃, h₄⟩
    rw [setOperand_start_eq h₂] at h₃
    rwa [setOperand_length_eq h₃] at h₄
  · intro ht
    obtain ⟨-, hstart, hlength⟩ := ofOperands_eq_ok_iff.1 (ofOperands_again h)
    obtain ⟨htstrings, htstart, -⟩ := ofOperands_eq_ok_iff.1 ht
    have h₂ : o.setOperand 1 r = .ok ⟨t.source, t.replacement, o.start, o.length⟩ :=
      ofOperands_eq_ok_iff.2 ⟨htstrings, hstart, hlength⟩
    have h₃ : ofOperands (some o.source) r p o.length =
        .ok ⟨t.source, t.replacement, t.start, o.length⟩ :=
      ofOperands_eq_ok_iff.2 ⟨htstrings, htstart, hlength⟩
    refine ⟨_, h₂, _, (setOperand_start_eq h₂ p).trans h₃, ?_⟩
    rwa [setOperand_length_eq h₃]

/-- Exchanging all operands of an overlay one after the other gives what is built of them at
    once, if the new source stands beside the old replacement and does not show it. -/
private theorem setOperand_all_eq_ok_iff {s r p : Expr} {n : Option Expr}
    (ht : ofOperands (some s) (some r) (some p) n = .ok t) :
    (∃ o₁, o.setOperand 0 (some s) = .ok o₁ ∧ ∃ o₂, o₁.setOperand 1 (some r) = .ok o₂ ∧
      ∃ o₃, o₂.setOperand 2 (some p) = .ok o₃ ∧ o₃.setOperand 3 n = .ok t) ↔
    (∃ o₁, o.setOperand 0 (some s) = .ok o₁) ∧ SourceSettled s o.replacement r := by
  obtain ⟨htstrings, htstart, htlength⟩ := ofOperands_eq_ok_iff.1 ht
  have hiff : ∀ o₁, o.setOperand 0 (some s) = .ok o₁ →
      (ofOperands (some o₁.source) (some r) (some p) n = .ok t ↔
        SourceSettled s o.replacement r) := by
    intro o₁ h₁
    have hold : strings s o.replacement = .ok (o₁.source, o₁.replacement) :=
      (ofOperands_eq_ok_iff.1 h₁).1
    rw [← strings_replacement_eq_iff hold, ← ht]
    exact ofOperands_inj htstart htlength htstart htlength
  constructor
  · rintro ⟨o₁, h₁, hrest⟩
    exact ⟨⟨o₁, h₁⟩, (hiff o₁ h₁).1 ((setOperand_chain_eq_ok_iff h₁).1 hrest)⟩
  · rintro ⟨⟨o₁, h₁⟩, hsettled⟩
    exact ⟨o₁, h₁, (setOperand_chain_eq_ok_iff h₁).2 ((hiff o₁ h₁).2 hsettled)⟩

theorem splice_bind_eq_ok_iff (h : ofOperands source replacement start length = .ok o)
    {old new e : Expr} {g : Expr → Except BuildError Expr}
    (hold : o.toExpr.slots[i]? = some (some old)) (hvisible : new.Visible old) :
    o.toExpr.splice old i new >>= g = .ok e ↔
      ∃ o', o.setOperand i (some new) = .ok o' ∧ g o'.toExpr = .ok e := by
  rw [splice_toExpr h hold hvisible, bind_map_left, Except.bind_eq_ok_iff]

/-- The length comes last; without one, nothing is left to do. -/
private theorem spliceAll_length_eq_ok_iff (h : ofOperands source replacement start length = .ok o)
    {n : Option Expr} (hn : n.toList.length = o.length.toList.length)
    (hvisible : ∀ q ∈ n.toList.zip o.length.toList, q.1.Visible q.2) :
    o.toExpr.spliceAll ((o.length.toList.map (3, ·)).zip n.toList) = .ok t.toExpr ↔
      o.setOperand 3 n = .ok t := by
  cases hlength : o.length with
  | none =>
    obtain rfl : n = none := by
      cases n with
      | none => rfl
      | some e => simp [hlength] at hn
    rw [setOperand_self h (by rw [← hlength]; rfl)]
    simp only [Option.toList_none, List.map_nil, List.zip_nil_left, Expr.spliceAll_nil,
      Except.ok.injEq, toExpr_inj]
  | some l =>
    obtain ⟨n, rfl⟩ : ∃ e, n = some e := by
      cases n with
      | none => simp [hlength] at hn
      | some e => exact ⟨e, rfl⟩
    rw [hlength] at hvisible
    have hl : n.Visible l := hvisible (n, l) (List.mem_singleton.2 rfl)
    simp only [Option.toList_some, List.map_cons, List.map_nil, List.zip_cons_cons,
      List.zip_nil_left, Expr.spliceAll_cons]
    rw [splice_bind_eq_ok_iff h (by rw [← hlength]; rfl) hl]
    simp only [Expr.spliceAll_nil, Except.ok.injEq, toExpr_inj, exists_eq_right]

/-- Rewritten operands are put into an overlay by exchanging them one after the other. -/
private theorem spliceAll_toExpr_eq_ok_iff (h : ofOperands source replacement start length = .ok o)
    {s r p : Expr} {n : Option Expr} (hn : n.toList.length = o.length.toList.length)
    (hvisible : ∀ q ∈ (s :: r :: p :: n.toList).zip o.toExpr.operands, q.1.Visible q.2) :
    o.toExpr.spliceAll (o.toExpr.positions.zip (s :: r :: p :: n.toList)) = .ok t.toExpr ↔
      ∃ o₁, o.setOperand 0 (some s) = .ok o₁ ∧ ∃ o₂, o₁.setOperand 1 (some r) = .ok o₂ ∧
        ∃ o₃, o₂.setOperand 2 (some p) = .ok o₃ ∧ o₃.setOperand 3 n = .ok t := by
  rw [operands_toExpr] at hvisible
  simp only [List.zip_cons_cons, List.forall_mem_cons] at hvisible
  obtain ⟨hs, hr, hp, hlast⟩ := hvisible
  simp only [positions_toExpr, List.zip_cons_cons, Expr.spliceAll_cons]
  -- every step leaves the operands behind it as they were in `o`
  rw [splice_bind_eq_ok_iff h rfl hs]
  refine exists_congr fun o₁ => and_congr_right fun h₁ => ?_
  obtain ⟨-, hr₁, hp₁, hn₁⟩ := (typed_of_ofOperands h).setOperand h₁
  rw [splice_bind_eq_ok_iff h₁ (by rw [← hr₁ (by decide)]; rfl) hr]
  refine exists_congr fun o₂ => and_congr_right fun h₂ => ?_
  obtain ⟨-, -, hp₂, hn₂⟩ := (typed_of_ofOperands h₁).setOperand h₂
  have hp₂ : o₂.start = o.start := (hp₂ (by decide)).trans (hp₁ (by decide))
  rw [splice_bind_eq_ok_iff h₂ (by rw [← hp₂]; rfl) hp]
  refine exists_congr fun o₃ => and_congr_right fun h₃ => ?_
  obtain ⟨-, -, -, hn₃⟩ := (typed_of_ofOperands h₂).setOperand h₃
  have hn₃ : o₃.length = o.length :=
    ((hn₃ (by decide)).trans (hn₂ (by decide))).trans (hn₁ (by decide))
  rw [← hn₃] at hn hlast ⊢
  exact spliceAll_length_eq_ok_iff h₃ hn hlast

end Built

end Overlay

/-! ## Row comparisons -/

namespace RowCompare

private theorem toExpr_inj {c c' : RowCompare} : c.toExpr = c'.toExpr ↔ c = c' := by
  obtain ⟨op, ⟨l⟩, ⟨r⟩⟩ := c
  obtain ⟨op', ⟨l'⟩, ⟨r'⟩⟩ := c'
  simp [toExpr]

variable {op : Comparator} {l r : Row} {c t : RowCompare}

private theorem splice_left (h : new op l r = .ok c) {x : Expr}
    (hvisible : x.Visible c.left.toExpr) :
    c.toExpr.splice c.left.toExpr 0 x = toExpr <$> c.setOperand 0 x := by
  rw [Expr.splice_of_visible hvisible, withOperand_toExpr c (by decide)]
  rw [withOperand_toExpr c (by decide), setOperand, Row.ofExpr_toExpr, op_of_new h, new_again h]
  rfl

/-- The right row that the left one was compared with can be seen to be exchanged as well. -/
private theorem splice_right (h : new op l r = .ok c) {y : Expr} (hvisible : y.Visible r.toExpr) :
    c.toExpr.splice r.toExpr 1 y = toExpr <$> c.setOperand 1 y := by
  rw [Expr.splice_of_visible hvisible, withOperand_toExpr c (by decide)]
  rw [withOperand_toExpr c (by decide), setOperand, Row.ofExpr_toExpr, op_of_new h,
    new_left_again h]
  rfl

/-- Rewritten rows are put into a comparison by exchanging them one after the other. -/
private theorem spliceAll_toExpr_eq_ok_iff (h : new op l r = .ok c) {x y : Expr}
    (hvisible : ∀ q ∈ [x, y].zip c.toExpr.operands, q.1.Visible q.2) :
    c.toExpr.spliceAll (c.toExpr.positions.zip [x, y]) = .ok t.toExpr ↔
      ∃ c₁, c.setOperand 0 x = .ok c₁ ∧ c₁.setOperand 1 y = .ok t := by
  have hx : x.Visible c.left.toExpr := hvisible (x, c.left.toExpr) (.head _)
  have hy : y.Visible c.right.toExpr := hvisible (y, c.right.toExpr) (.tail _ (.head _))
  change c.toExpr.spliceAll [((0, c.left.toExpr), x), ((1, c.right.toExpr), y)] = _ ↔ _
  rw [Expr.spliceAll_cons, splice_left h hx, bind_map_left, Except.bind_eq_ok_iff]
  refine exists_congr fun c₁ => and_congr_right fun h₁ => ?_
  rw [Expr.spliceAll_cons, splice_right h₁ hy, bind_map_left, Except.bind_eq_ok_iff]
  simp only [Expr.spliceAll_nil, Except.ok.injEq, toExpr_inj, exists_eq_right]

end RowCompare

/-! ## Whole passes -/

/-- The rewritten source `s` can stand beside the old replacement of the overlay and does not
    show it beside the rewritten replacement `r`. -/
def Overlay.PassesOver (o : Overlay) (s r : Expr) : Prop :=
  (∃ o₁, ofOperands (some s) o.replacement o.start o.length = .ok o₁) ∧
    SourceSettled s o.replacement r

/-- The rewritten left side `x` can be compared with the old right row and does not show it beside
    the rewritten right side `y`. -/
def RowCompare.PassesOver (c : RowCompare) (x y : Expr) : Prop :=
  ∃ c₁, new c.op (.ofExpr x) c.right = .ok c₁ ∧
    Row.Pointwise Expr.SettledOnLeft (.ofExpr x) c₁.left (.ofExpr y)

variable {σ : Type}

/-- If the builder takes all rewritten operands of an overlay or a row comparison together, the
    pass offers the node that it builds exactly if the first of them passes over the old second
    one: by itself it is put into the node first, where the builder meets it beside the others
    as they were. -/
theorem rebuilt_eq_built_iff (f : Expr → StateM σ (Option Expr)) (s₀ s₁ : σ) :
    (∀ (source replacement start length : Option Expr) (o : Overlay),
      Overlay.ofOperands source replacement start length = .ok o →
      ∀ (s r p : Expr) (n : Option Expr),
        o.toExpr.rewriteOperands f s₀ = .ok (s :: r :: p :: n.toList) s₁ →
        (∀ q ∈ (s :: r :: p :: n.toList).zip o.toExpr.operands, q.1.Visible q.2) →
        ∀ t, Overlay.ofOperands (some s) (some r) (some p) n = .ok t →
          (o.toExpr.rebuilt f s₀ = .ok t.toExpr s₁ ↔ o.PassesOver s r) ∧
          (o.PassesOver s r → o.toExpr.replaceWith f s₀ = Expr.offer f t.toExpr s₁)) ∧
    (∀ (op : Comparator) (l r : Row) (c : RowCompare), RowCompare.new op l r = .ok c →
      ∀ x y : Expr,
        c.toExpr.rewriteOperands f s₀ = .ok [x, y] s₁ →
        (∀ q ∈ [x, y].zip c.toExpr.operands, q.1.Visible q.2) →
        ∀ t, RowCompare.new c.op (.ofExpr x) (.ofExpr y) = .ok t →
          (c.toExpr.rebuilt f s₀ = .ok t.toExpr s₁ ↔ c.PassesOver x y) ∧
          (c.PassesOver x y → c.toExpr.replaceWith f s₀ = Expr.offer f t.toExpr s₁)) := by
  constructor
  · intro source replacement start length o ho s r p n hnews hvisible t ht
    have hn : n.toList.length = o.length.toList.length := by
      have hlength := Expr.length_of_mapM hnews
      rw [Overlay.operands_toExpr] at hlength
      simpa using hlength
    have hiff : o.toExpr.rebuilt f s₀ = .ok t.toExpr s₁ ↔ o.PassesOver s r := by
      rw [Expr.rebuilt_eq_ok_iff hnews, Overlay.spliceAll_toExpr_eq_ok_iff ho hn hvisible,
        Overlay.setOperand_all_eq_ok_iff ht, and_iff_left rfl]
      rfl
    exact ⟨hiff, fun h => Expr.replaceWith_of_rebuilt (hiff.2 h)⟩
  · intro op l r c hc x y hnews hvisible t ht
    have hiff : c.toExpr.rebuilt f s₀ = .ok t.toExpr s₁ ↔ c.PassesOver x y := by
      rw [Expr.rebuilt_eq_ok_iff hnews, RowCompare.spliceAll_toExpr_eq_ok_iff hc hvisible,
        and_iff_left rfl]
      refine exists_congr fun c₁ => and_congr_right fun h₁ => ?_
      obtain ⟨hsettled, hunsettled⟩ := RowCompare.setOperand_right_eq h₁ y
      exact ⟨hunsettled t ht, fun hs => (hsettled hs).trans ht⟩
    exact ⟨hiff, fun h => Expr.replaceWith_of_rebuilt (hiff.2 h)⟩

/-- The number 2 in the place of every number, and `yz` in the place of every text. -/
def otherValues : Expr → StateM Unit (Option Expr)
  | .constant ⟨.int _, _, _⟩ => pure (some (.bind (.int 2)))
  | .constant ⟨.text _, _, _⟩ => pure (some (.bind (.text "yz")))
  | _ => pure none

/-- A pass that rewrites all operands of an overlay and both rows of a comparison. -/
theorem rebuilt_eq_built_other_values :
    let o : Overlay := ⟨.bind (.text "ab"), .bind (.text "c"), .bind (.int 1), none⟩
    let t : Overlay := ⟨.bind (.text "yz"), .bind (.text "yz"), .bind (.int 2), none⟩
    let c : RowCompare := ⟨.lt, ⟨[.bind (.int 1), .bind (.text "ab")]⟩,
      ⟨[.bind (.int 3), .bind (.text "c")]⟩⟩
    let d : RowCompare := ⟨.lt, ⟨[.bind (.int 2), .bind (.text "yz")]⟩,
      ⟨[.bind (.int 2), .bind (.text "yz")]⟩⟩
    o.toExpr.replaceWith otherValues () = Expr.offer otherValues t.toExpr () ∧
      c.toExpr.rebuilt otherValues () = .ok d.toExpr () := by
  intro o t c d
  have hleaf {e : Expr} (he : e.slots = []) :
      e.replaceWith otherValues = Expr.offer otherValues e := Expr.replaceWith_leaf he
  have hoperands : o.toExpr.rewriteOperands otherValues () =
      .ok [t.source, t.replacement, t.start] () := by
    simp only [Expr.rewriteOperands, Overlay.operands_toExpr, List.mapM_cons,
      hleaf (show o.source.slots = [] from rfl), hleaf (show o.replacement.slots = [] from rfl),
      hleaf (show o.start.slots = [] from rfl)]
    rfl
  have hfields (n : Int) (s : String) :
      (Expr.row [.bind (.int n), .bind (.text s)]).rewriteOperands otherValues () =
        .ok [.bind (.int 2), .bind (.text "yz")] () := by
    change List.mapM (Expr.replaceWith otherValues) [.bind (.int n), .bind (.text s)] () = _
    rw [List.mapM_cons, List.mapM_cons, hleaf (show (Expr.bind _).slots = [] from rfl),
      hleaf (show (Expr.bind _).slots = [] from rfl)]
    rfl
  have hleft : c.left.toExpr.replaceWith otherValues () = .ok d.left.toExpr () :=
    Expr.replaceWith_eq_ok_iff.2 ⟨_, d.left.toExpr, (), hfields 1 "ab", rfl, rfl⟩
  have hright : c.right.toExpr.replaceWith otherValues () = .ok d.right.toExpr () :=
    Expr.replaceWith_eq_ok_iff.2 ⟨_, d.right.toExpr, (), hfields 3 "c", rfl, rfl⟩
  have hrows : c.toExpr.rewriteOperands otherValues () =
      .ok [d.left.toExpr, d.right.toExpr] () := by
    change List.mapM (Expr.replaceWith otherValues) [c.left.toExpr, c.right.toExpr] () = _
    simp only [List.mapM_cons, List.mapM_nil, bind, EStateM.bind, hleft, hright]
    rfl
  refine ⟨((rebuilt_eq_built_iff otherValues () ()).1 (some o.source) (some o.replacement)
    (some o.start) none o rfl t.source t.replacement t.start none hoperands ?_ t rfl).2 ?_,
    ((rebuilt_eq_built_iff otherValues () ()).2 .lt c.left c.right c rfl d.left.toExpr
      d.right.toExpr hrows ?_ d rfl).1.2 ?_⟩
  · simp only [Overlay.operands_toExpr, Option.toList_none, List.zip_cons_cons, List.zip_nil_left,
      List.forall_mem_cons]
    exact ⟨fun h => absurd h (by decide), fun h => absurd h (by decide),
      fun h => absurd h (by decide), fun _ h => absurd h List.not_mem_nil⟩
  · exact ⟨⟨_, rfl⟩, fun h => absurd h (by decide)⟩
  · refine List.forall_mem_cons.2 ⟨fun h => ?_, List.forall_mem_cons.2 ⟨fun h => ?_, ?_⟩⟩
    · exact absurd h (by decide)
    · exact absurd h (by decide)
    · exact fun _ h => absurd h List.not_mem_nil
  · refine ⟨⟨.lt, d.left, c.right⟩, rfl, fun q hq => ?_⟩
    rcases List.mem_cons.1 hq with rfl | hq
    · exact .kept rfl
    · rw [List.mem_singleton.1 hq]
      exact .kept rfl

/-- A byte string in the place of every text. -/
def bytesForTexts : Expr → Option Expr
  | .constant ⟨.text _, _, _⟩ => some (.bind (.blob [0xAB]))
  | _ => none

/-- The pass may fail on an overlay whose operands all came out such that they can be built: the
    new source is met by the old replacement first. -/
theorem replace_texts_of_overlay :
    let o : Overlay := ⟨.bind (.text "ab"), .bind (.text "c"), .bind (.int 1), none⟩
    let t : Overlay := ⟨.bind (.blob [0xAB]), .bind (.blob [0xAB]), .bind (.int 1), none⟩
    Overlay.ofOperands o.source o.replacement o.start o.length = .ok o ∧
      o.source.replace bytesForTexts = .ok t.source ∧
      o.replacement.replace bytesForTexts = .ok t.replacement ∧
      o.start.replace bytesForTexts = .ok t.start ∧
      Overlay.ofOperands t.source t.replacement t.start t.length = .ok t ∧
      o.toExpr.replace bytesForTexts =
        .error (.typeConformance .overlay 1 (.ofFamily .binary) (.varchar none)) := by
  intro o t
  have hconstant (c : Constant) : (Expr.constant c).replace bytesForTexts =
      .ok ((bytesForTexts (.constant c)).getD (.constant c)) := by
    rw [Expr.replace, Expr.replaceWith_leaf rfl]
    rfl
  refine ⟨rfl, hconstant _, hconstant _, hconstant _, rfl, ?_⟩
  rw [Expr.replace, Expr.replaceWith_eq, Overlay.positions_toExpr]
  simp only [List.foldlM_cons, Expr.replaceWith_leaf (show o.source.slots = [] from rfl),
    Expr.replaceWith_leaf (show o.replacement.slots = [] from rfl)]
  rfl

end SqlExpr
