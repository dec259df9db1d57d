-- SUMMARY: What writes append, in fragments: numbered from any index, and with literals for the placeholders.
import SqlExpr.Proofs.Render.Writes
import SqlExpr.Render.Journal

/-!
# Writes as fragments

Taking up writes appends their fragments and what they bind (`Renderer.takeUp_eq_append`). However
many parameters were bound before, the fragments are the same but for the numbers of the
placeholders (`Settings.relabel_numbered`), and they are the same under every style but for what
stands in the place of a placeholder (`Settings.relabel_literals`).
-/

namespace SqlExpr

/-! ## Labels -/

namespace Fragment

variable {s : Settings} {f : Fragment} {fs : List Fragment}

private theorem relabel_of_placeholder (h : f.isPlaceholder s = true) (label : String)
    (labels : List String) :
    relabel s (f :: fs) (label :: labels) = { f with text := label } :: relabel s fs labels :=
  if_pos h

private theorem relabel_of_text (h : f.isPlaceholder s = false) (labels : List String) :
    relabel s (f :: fs) labels = f :: relabel s fs labels := by
  cases labels with
  | nil => simp [relabel]
  | cons label labels => simp [relabel, h]

end Fragment

/-! ## Fragments of writes -/

namespace Settings

variable {s : Settings} {d : Dialect}

theorem fragments_append (bound : Nat) (ws us : List Write) :
    s.fragments d bound (ws ++ us) =
      s.fragments d bound ws ++ s.fragments d (bound + (ws.filterMap s.binds).length) us := by
  induction ws generalizing bound with
  | nil => rfl
  | cons w ws ih =>
    cases hw : s.binds w with
    | none => simp [fragments, ih, hw]
    | some v => simp [fragments, ih, hw, Nat.add_assoc, Nat.add_comm 1]

theorem fragments_prefix {ws us : List Write} (h : ws <+: us) (bound : Nat) :
    s.fragments d bound ws <+: s.fragments d bound us := by
  obtain ⟨rest, rfl⟩ := h
  rw [fragments_append]
  exact List.prefix_append _ _

/-- A write binds a value exactly if its fragment is a placeholder. -/
theorem isPlaceholder_eq (w : Write) (text : String) :
    Fragment.isPlaceholder s ⟨w, text⟩ = (s.binds w).isSome := by
  cases w with
  | value c => cases hout : s.writesOut c <;> simp [Fragment.isPlaceholder, binds, hout]
  | _ => rfl

theorem text_of_binds {w : Write} {v : Value} (h : s.binds w = some v) (bound : Nat) :
    s.text d bound w = s.placeholder d (bound + 1) ∧ ∃ c, w = .value c ∧ c.value = v := by
  cases w with
  | value c => cases hout : s.writesOut c <;> simp_all [binds, text]
  | _ => cases h

/-- The placeholders stand for the values that are bound. -/
theorem placeholders_fragments (bound : Nat) (ws : List Write) :
    ((s.fragments d bound ws).filter (·.isPlaceholder s)).map
        (fun f => (f.write.constant?.map (·.value), f.text)) =
      ((ws.filterMap s.binds).map some).zip
        (Fragment.numbered s d (bound + 1) (ws.filterMap s.binds).length) := by
  induction ws generalizing bound with
  | nil => rfl
  | cons w ws ih =>
    cases hw : s.binds w with
    | none => simpa [fragments, isPlaceholder_eq, hw] using ih bound
    | some v =>
      obtain ⟨htext, c, rfl, rfl⟩ := text_of_binds (d := d) hw bound
      simpa [fragments, isPlaceholder_eq, hw, htext, Write.constant?, Fragment.numbered,
        List.range'_succ] using ih (bound + 1)

theorem placeholderTexts_fragments (bound : Nat) (ws : List Write) :
    ((s.fragments d bound ws).filter (·.isPlaceholder s)).map (·.text) =
      Fragment.numbered s d (bound + 1) (ws.filterMap s.binds).length := by
  have h := congrArg (List.map Prod.snd) (placeholders_fragments (s := s) (d := d) bound ws)
  rw [List.map_map, List.map_snd_zip (by simp [Fragment.numbered])] at h
  exact h

/-! ## Other labels -/

/-- `t` writes everything as `s` does, save that it may write out values that `s` binds. -/
structure WritesOutMore (s t : Settings) : Prop where
  keywordCase : t.keywordCase = s.keywordCase
  quoteIdentifiers : t.quoteIdentifiers = s.quoteIdentifiers
  writesOut (c : Constant) : s.writesOut c = true → t.writesOut c = true

theorem WritesOutMore.refl (s : Settings) : WritesOutMore s s where
  keywordCase := rfl
  quoteIdentifiers := rfl
  writesOut _ := id

private theorem writesOutMore_inline (s : Settings) :
    WritesOutMore s { s with paramStyle := .inline } where
  keywordCase := rfl
  quoteIdentifiers := rfl
  writesOut c _ := by simp [Settings.writesOut]

variable {t : Settings}

theorem WritesOutMore.text_eq (h : WritesOutMore s t) {w : Write} (hw : s.binds w = none)
    (m n : Nat) : s.text d m w = t.text d n w := by
  obtain ⟨hcase, hquote, hout⟩ := h
  cases w with
  | keyword k | functionName f => simp only [text, hcase]
  | sql text => rfl
  | identifier c => simp only [text, columnText, nameText, hquote]
  | value c =>
    have hwritten : s.writesOut c = true := by
      cases hbound : s.writesOut c with
      | true => rfl
      | false => simp [binds, hbound] at hw
    simp only [text, if_pos hwritten, if_pos (hout c hwritten)]

/-- The fragments differ in nothing but what stands in the place of the placeholders. -/
theorem WritesOutMore.relabel_fragments (h : WritesOutMore s t) (m n : Nat) (ws : List Write) :
    Fragment.relabel s (s.fragments d m ws)
        (((t.fragments d n ws).filter (·.isPlaceholder s)).map (·.text)) =
      t.fragments d n ws := by
  induction ws generalizing m n with
  | nil => rfl
  | cons w ws ih =>
    unfold fragments
    cases hw : s.binds w with
    | none =>
      have htext {text : String} : Fragment.isPlaceholder s ⟨w, text⟩ = false := by
        rw [isPlaceholder_eq, hw]
        rfl
      rw [Fragment.relabel_of_text htext, List.filter_cons_of_neg (by simp [htext]),
        h.text_eq hw m n, ih]
    | some v =>
      have hplaceholder {text : String} : Fragment.isPlaceholder s ⟨w, text⟩ = true := by
        rw [isPlaceholder_eq, hw]
        rfl
      rw [List.filter_cons_of_pos hplaceholder, List.map_cons,
        Fragment.relabel_of_placeholder hplaceholder, ih]

/-- With other numbers, the fragments are those behind another number of parameters. -/
theorem relabel_numbered (m n : Nat) (ws : List Write) :
    Fragment.relabel s (s.fragments d m ws)
        (Fragment.numbered s d (n + 1) (ws.filterMap s.binds).length) =
      s.fragments d n ws := by
  rw [← placeholderTexts_fragments]
  exact (WritesOutMore.refl s).relabel_fragments m n ws

/-- With the literals of the values that are bound, the fragments are those of the inline style. -/
theorem relabel_literals (m n : Nat) (ws : List Write) :
    Fragment.relabel s (s.fragments d m ws) ((ws.filterMap s.binds).map (·.literal d)) =
      ({ s with paramStyle := .inline } : Settings).fragments d n ws := by
  have hliterals :
      (((({ s with paramStyle := .inline } : Settings).fragments d n ws).filter
        (·.isPlaceholder s)).map (·.text)) = (ws.filterMap s.binds).map (·.literal d) := by
    induction ws generalizing n with
    | nil => rfl
    | cons w ws ih =>
      cases hw : s.binds w with
      | none => simpa [fragments, isPlaceholder_eq, hw] using ih _
      | some v =>
        obtain ⟨-, c, rfl, rfl⟩ := text_of_binds (d := d) hw n
        simpa [fragments, isPlaceholder_eq, hw, text, Settings.writesOut] using ih _
  rw [← hliterals]
  exact (writesOutMore_inline s).relabel_fragments m n ws

end Settings

/-! ## Renderers -/

namespace Renderer

/-- Taking up writes appends their fragments and the values that they bind. -/
theorem takeUp_eq_append (r : Renderer) (ws : List Write) :
    r.takeUp ws = r.append (r.settings.fragments r.dialect r.params.size ws)
      (ws.filterMap r.settings.binds) := by
  induction ws generalizing r with
  | nil => simp [append, Settings.fragments, String.join]
  | cons w ws ih =>
    have hsize : (r.write w).params.size = r.params.size + (r.settings.binds w).toList.length := by
      cases hw : r.settings.binds w <;> simp [write, hw]
    rw [takeUp_cons, ih, hsize]
    simp only [append, Settings.fragments, write, List.map_cons, String.join_cons,
      String.append_assoc]
    cases hw : r.settings.binds w <;> simp [hw]

end Renderer

end SqlExpr
