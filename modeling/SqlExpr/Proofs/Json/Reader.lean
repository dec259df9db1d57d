-- SUMMARY: Reading token by token keeps the laws of a JSON library.
import SqlExpr.Json.Reader
import SqlExpr.Proofs.Json.Naturals
import SqlExpr.Proofs.Json.Tokens
import SqlExpr.BuildError

/-!
# The tokenwise library is lawful

Each reader takes up exactly the tokens of the value that it accepts (`Shape.read_eq_ok_iff`,
`Record.readTokens_eq_ok_iff`), so a text is read as its value is. The laws of objects are shown of
drafts: members that name other fields leave a field alone (`ofMembers?_give`), and a field that is
given is not given again (`ofMembers?_eq_none`).
-/

namespace SqlExpr.Json

variable {α : Type} {R : Record} {f g : R.Field} {v w : Tree} {ts rest : List Token}

/-! ## Values -/

namespace Scalar

private theorem find_eq_ok_iff {N : Names α} {name : String} {a : α} :
    N.find name = .ok a ↔ N.ofName? name = some a := by
  unfold Names.find
  cases N.ofName? name <;> simp

private theorem eq_string_of_tokens {name : String}
    (h : v.tokens ++ ts = .string (some name) :: rest) : v = .string (some name) ∧ rest = ts := by
  cases v with
  | string s =>
    cases h
    exact ⟨rfl, rfl⟩
  | null | bool | number | array | object => cases h

/-- An object whose first value is `null` and is followed by a brace has one member. -/
private theorem eq_object_of_tokens {name : String}
    (h : v.tokens ++ ts =
      .openBrace :: .string (some name) :: .colon :: .null :: .closeBrace :: rest) :
    v = .object [(some name, .null)] ∧ rest = ts := by
  cases v with
  | object members =>
    match members with
    | [] => cases h
    | [(k, w)] =>
      cases w with
      | null =>
        cases h
        exact ⟨rfl, rfl⟩
      | bool | number | string | array | object => cases h
    | (k, w) :: m :: ms => cases w <;> cases h
  | null | bool | number | string | array => cases h

private theorem readBoolean_eq_ok_iff {b : Bool} :
    readBoolean (v.tokens ++ ts) = .ok (b, rest) ↔ boolean? v = some b ∧ rest = ts := by
  cases v with
  | bool c => simp [Tree.tokens, readBoolean, boolean?, eq_comm]
  | null | number | string | array | object => simp [Tree.tokens, readBoolean, boolean?]

private theorem readUnsigned_eq_ok_iff {n : UInt64} :
    readUnsigned (v.tokens ++ ts) = .ok (n, rest) ↔ unsigned? v = some n ∧ rest = ts := by
  cases v with
  | number m =>
    simp only [Tree.tokens, List.cons_append, List.nil_append, readUnsigned, unsigned?]
    cases m.value? with
    | none => simp
    | some value => cases value <;> simp [eq_comm]
  | null | bool | string | array | object => simp [Tree.tokens, readUnsigned, unsigned?]

private theorem readName_eq_ok_iff {N : Names α} {a : α} :
    readName N (v.tokens ++ ts) = .ok (a, rest) ↔ ofName? N v = some a ∧ rest = ts := by
  constructor
  · intro h
    unfold readName at h
    split at h
    · next name ts' htokens =>
      obtain ⟨rfl, rfl⟩ := eq_string_of_tokens htokens
      obtain ⟨b, hb, heq⟩ := Except.map_eq_ok_iff.1 h
      cases heq
      exact ⟨find_eq_ok_iff.1 hb, rfl⟩
    · next name ts' htokens =>
      obtain ⟨b, hb, h⟩ := Except.bind_eq_ok_iff.1 h
      split at h
      · next ts'' =>
        cases h
        obtain ⟨rfl, rfl⟩ := eq_object_of_tokens htokens
        exact ⟨find_eq_ok_iff.1 hb, rfl⟩
      all_goals cases h
    · cases h
  · rintro ⟨hv, rfl⟩
    unfold ofName? at hv
    split at hv
    · next name =>
      show (N.find name).map _ = _
      rw [find_eq_ok_iff.2 hv]
      rfl
    · next name =>
      show (N.find name >>= _) = _
      rw [find_eq_ok_iff.2 hv]
      rfl
    · cases hv

/-- A value is read from exactly its tokens. -/
theorem read_eq_ok_iff {s : Scalar α} {a : α} :
    s.read (v.tokens ++ ts) = .ok (a, rest) ↔ s.value? v = some a ∧ rest = ts := by
  cases s with
  | boolean => exact readBoolean_eq_ok_iff
  | unsigned => exact readUnsigned_eq_ok_iff
  | names N => exact readName_eq_ok_iff

end Scalar

private theorem map_eq_ok_iff {β : Type} {x : Except Fault (α × List Token)} {P : α → Prop}
    {g : α → β} {b : β} (hx : ∀ {a rest}, x = .ok (a, rest) ↔ P a ∧ rest = ts) :
    (x.map fun (a, ts) => (g a, ts)) = .ok (b, rest) ↔ (∃ a, P a ∧ g a = b) ∧ rest = ts := by
  constructor
  · intro h
    obtain ⟨⟨a, ts'⟩, ha, heq⟩ := Except.map_eq_ok_iff.1 h
    cases heq
    obtain ⟨ha, rfl⟩ := hx.1 ha
    exact ⟨⟨a, ha, rfl⟩, rfl⟩
  · rintro ⟨⟨a, ha, rfl⟩, rfl⟩
    exact Except.map_eq_ok_iff.2 ⟨_, hx.2 ⟨ha, rfl⟩, rfl⟩

namespace Shape

private theorem readOptional_of_ne {s : Scalar α} (h : v ≠ .null) :
    readOptional s (v.tokens ++ ts) = (s.read (v.tokens ++ ts)).map fun (a, ts) => (some a, ts) := by
  cases v with
  | null => exact absurd rfl h
  | bool | number | string | array | object => rfl

theorem optional?_of_ne {s : Scalar α} (h : v ≠ .null) :
    optional? s v = (s.value? v).map some := by
  cases v with
  | null => exact absurd rfl h
  | bool | number | string | array | object => rfl

private theorem readOptional_eq_ok_iff {s : Scalar α} {a : Option α} :
    readOptional s (v.tokens ++ ts) = .ok (a, rest) ↔ optional? s v = some a ∧ rest = ts := by
  by_cases hnull : v = .null
  · subst hnull
    simp [Tree.tokens, readOptional, optional?, eq_comm]
  · rw [readOptional_of_ne hnull, optional?_of_ne hnull, Option.map_eq_some_iff]
    exact map_eq_ok_iff Scalar.read_eq_ok_iff

/-- A field is read from exactly the tokens of its value. -/
theorem read_eq_ok_iff {s : Shape α} {a : α} :
    s.read (v.tokens ++ ts) = .ok (a, rest) ↔ s.value? v = some a ∧ rest = ts := by
  cases s with
  | required s => exact Scalar.read_eq_ok_iff
  | optional s => exact readOptional_eq_ok_iff

end Shape

/-! ## Members -/

namespace Record.Draft

variable {d d' : R.Draft} {y : R.Value f} {key : String} {ms : List (Option String × Tree)}

theorem readField_eq_ok_iff :
    d.readField f (v.tokens ++ ts) = .ok (d', rest) ↔
      (∃ y, (R.shape f).value? v = some y ∧ d.give f y = d') ∧ rest = ts :=
  map_eq_ok_iff Shape.read_eq_ok_iff

/-- What a reader does behind a member. -/
private def readRest (d : R.Draft) : List Token → Except Fault (R.Draft × List Token)
  | .closeBrace :: ts => .ok (d, ts)
  | .comma :: ts => d.readMembers ts
  | _ => .error .malformed

/-- The tokens behind a member that others follow, up to the end of the object. -/
private def memberEnd (ms : List (Option String × Tree)) (ts : List Token) : List Token :=
  match ms with
  | [] => .closeBrace :: ts
  | (key, v) :: ms => .comma :: .string key :: .colon :: (v.tokens ++ memberEnd ms ts)

private theorem comma_memberTokens (m : Option String × Tree) (ms : List (Option String × Tree))
    (ts : List Token) :
    .comma :: (Tree.memberTokens (m :: ms) ++ .closeBrace :: ts) = memberEnd (m :: ms) ts := by
  induction ms generalizing m with
  | nil => simp [Tree.memberTokens, memberEnd]
  | cons m' ms ih =>
    obtain ⟨key, v⟩ := m
    rw [memberEnd, ← ih m']
    simp only [Tree.memberTokens, List.cons_append, List.append_assoc]

private theorem readMembers_string : d.readMembers (.string (some key) :: ts) =
    d.readMember key ts >>= fun (d', rest) => readRest d' rest := by
  rw [readMembers]
  split
  · next h => rw [h]; rfl
  · next h => rw [h]; rfl
  · next h => rw [h]; rfl
  · next p hbrace hcomma h =>
    obtain ⟨d', rest⟩ := p
    rw [h]
    simp only [bind, Except.bind]
    unfold readRest
    split
    · exact (hbrace _ _ rfl).elim
    · exact (hcomma _ _ rfl).elim
    · rfl

private theorem readMember_unknown (hkey : R.keys.ofName? key = none) :
    d.readMember key (.colon :: (v.tokens ++ ts)) = .ok (d, ts) := by
  simp only [readMember, hkey, Tree.skip?_tokens]

private theorem readMember_given (h : (d f).isSome = true) :
    d.readMember (R.keys.name f) ts = .error (.duplicateField (R.keys.name f)) := by
  simp only [readMember, R.keys.ofName?_eq_some_iff.2 rfl, h, if_true]

private theorem readMember_new (h : (d f).isSome = false) :
    d.readMember (R.keys.name f) (.colon :: ts) = d.readField f ts := by
  simp only [readMember, R.keys.ofName?_eq_some_iff.2 rfl, h, Bool.false_eq_true, if_false]

/-- Members are read from exactly their tokens. -/
private theorem readRest_eq_ok_iff :
    readRest d (memberEnd ms ts) = .ok (d', rest) ↔ d.ofMembers? ms = some d' ∧ rest = ts := by
  induction ms generalizing d with
  | nil =>
    simp only [memberEnd, readRest, ofMembers?, Except.ok.injEq, Prod.mk.injEq, Option.some.injEq,
      eq_comm (a := ts)]
  | cons m ms ih =>
    obtain ⟨key | key, v⟩ := m
    · simp [memberEnd, readRest, readMembers, ofMembers?]
    rw [memberEnd, readRest, readMembers_string, ofMembers?]
    cases hkey : R.keys.ofName? key with
    | none =>
      rw [readMember_unknown hkey]
      exact ih
    | some f =>
      obtain rfl := R.keys.ofName?_eq_some_iff.1 hkey
      cases hgiven : (d f).isSome with
      | true =>
        rw [readMember_given hgiven]
        refine iff_of_false (fun h => ?_) (by simp [hgiven])
        cases h
      | false =>
        rw [readMember_new hgiven, Except.bind_eq_ok_iff]
        simp only [Prod.exists, readField_eq_ok_iff, hgiven, Bool.false_eq_true, if_false,
          Option.bind_eq_some_iff]
        constructor
        · rintro ⟨_, _, ⟨⟨y, hy, rfl⟩, rfl⟩, h⟩
          obtain ⟨hmembers, rfl⟩ := ih.1 h
          exact ⟨⟨y, hy, hmembers⟩, rfl⟩
        · rintro ⟨⟨y, hy, h⟩, rfl⟩
          exact ⟨_, _, ⟨⟨y, hy, rfl⟩, rfl⟩, ih.2 ⟨h, rfl⟩⟩

/-- The values of an array are read from exactly their tokens. -/
private theorem readItems_eq_ok_iff {fields : List R.Field} {items : List Tree} (hne : items ≠ []) :
    d.readItems fields (Tree.itemTokens items ++ .closeBracket :: ts) = .ok (d', rest) ↔
      d.ofItems? fields items = some d' ∧ rest = ts := by
  induction fields generalizing d items with
  | nil =>
    obtain ⟨v, vs, rfl⟩ := List.exists_cons_of_ne_nil hne
    simp [readItems, ofItems?]
  | cons f fields ih =>
    obtain ⟨v, vs, rfl⟩ := List.exists_cons_of_ne_nil hne
    cases vs with
    | nil =>
      rw [Tree.itemTokens, readItems, Except.bind_eq_ok_iff]
      simp only [Prod.exists, readField_eq_ok_iff, ofItems?, Option.bind_eq_some_iff]
      constructor
      · rintro ⟨_, _, ⟨⟨y, hy, rfl⟩, rfl⟩, h⟩
        cases h
        exact ⟨⟨y, hy, rfl⟩, rfl⟩
      · rintro ⟨⟨y, hy, h⟩, rfl⟩
        cases h
        exact ⟨_, _, ⟨⟨y, hy, rfl⟩, rfl⟩, rfl⟩
    | cons w vs =>
      rw [Tree.itemTokens, List.append_assoc, List.cons_append, readItems, Except.bind_eq_ok_iff]
      have hrest {d : R.Draft} := @ih d (w :: vs) (List.cons_ne_nil w vs)
      simp only [Prod.exists, readField_eq_ok_iff, ofItems?, Option.bind_eq_some_iff]
      constructor
      · rintro ⟨_, _, ⟨⟨y, hy, rfl⟩, rfl⟩, h⟩
        obtain ⟨hitems, rfl⟩ := hrest.1 h
        exact ⟨⟨y, hy, hitems⟩, rfl⟩
      · rintro ⟨⟨y, hy, h⟩, rfl⟩
        exact ⟨_, _, ⟨⟨y, hy, rfl⟩, rfl⟩, hrest.2 ⟨h, rfl⟩⟩

end Record.Draft

/-! ## Records -/

namespace Record

open Draft (readRest memberEnd)

/-- A record is read from exactly the tokens of its value. -/
theorem readTokens_eq_ok_iff {d : R.Draft} :
    R.readTokens v.tokens = .ok (d, rest) ↔ R.draft? v = some d ∧ rest = [] := by
  cases v with
  | object ms =>
    have hread : R.readTokens (Tree.object ms).tokens = readRest .empty (memberEnd ms []) := by
      cases ms with
      | nil => simp [Tree.tokens, Tree.memberTokens, readTokens, memberEnd, readRest]
      | cons m ms =>
        rw [← Draft.comma_memberTokens, readRest]
        obtain ⟨k, ts, htokens⟩ := Tree.exists_memberTokens_eq_cons m ms
        simp only [Tree.tokens, htokens, List.cons_append, readTokens]
    rw [hread, Draft.readRest_eq_ok_iff, draft?]
  | array items =>
    cases items with
    | nil => simp [Tree.tokens, Tree.itemTokens, readTokens, draft?, Draft.ofItems?, eq_comm]
    | cons v vs =>
      have hread : R.readTokens (Tree.array (v :: vs)).tokens =
          Draft.empty.readItems R.keys.all (Tree.itemTokens (v :: vs) ++ [.closeBracket]) := by
        obtain ⟨t, ts, htokens, ht⟩ := Tree.exists_itemTokens_eq_cons v vs
        rw [Tree.tokens, htokens, List.cons_append, readTokens]
        exact fun _ h => ht (List.cons.inj h).1
      rw [hread, Draft.readItems_eq_ok_iff (List.cons_ne_nil v vs), draft?]
  | null | bool | number | string => simp [Tree.tokens, readTokens, draft?]

end Record

/-! ## Drafts -/

namespace Record.Draft

variable {d : R.Draft} {y : R.Value f} {z : R.Value g} {ms : List (Option String × Tree)}

theorem give_self : d.give f y f = some y := R.keys.set_self

theorem give_of_ne (h : g ≠ f) : d.give f y g = d g := R.keys.set_of_ne h

private theorem give_comm (h : g ≠ f) : (d.give f y).give g z = (d.give g z).give f y := by
  funext k
  by_cases hf : k = f
  · subst hf
    rw [give_self, give_of_ne h.symm, give_self]
  · rw [give_of_ne (f := f) hf]
    by_cases hg : k = g
    · subst hg
      rw [give_self, give_self]
    · rw [give_of_ne hg, give_of_ne hg, give_of_ne hf]

private theorem values_give : (d.give f y).values = R.keys.set d.values f y := by
  funext k
  by_cases hk : k = f
  · subst hk
    rw [values, give_self, R.keys.set_self, Option.getD_some]
  · rw [values, give_of_ne hk, R.keys.set_of_ne hk, values]

theorem ofMembers?_unknown {key : String} (hkey : R.keys.ofName? key = none) :
    d.ofMembers? ((some key, v) :: ms) = d.ofMembers? ms := by
  rw [ofMembers?, hkey]

theorem ofMembers?_known : d.ofMembers? ((some (R.keys.name f), v) :: ms) =
    if (d f).isSome then none
    else ((R.shape f).value? v).bind fun y => (d.give f y).ofMembers? ms := by
  rw [ofMembers?, R.keys.ofName?_eq_some_iff.2 rfl]

/-- Members that do not name a field read the same whether it is given or not. -/
theorem ofMembers?_give (h : ∀ w, (some (R.keys.name f), w) ∉ ms) :
    (d.give f y).ofMembers? ms = (d.ofMembers? ms).map (·.give f y) := by
  induction ms generalizing d with
  | nil => rfl
  | cons m ms ih =>
    have hms : ∀ w, (some (R.keys.name f), w) ∉ ms := fun w hw => h w (List.mem_cons_of_mem _ hw)
    obtain ⟨key | key, v⟩ := m
    · rfl
    cases hkey : R.keys.ofName? key with
    | none => rw [ofMembers?_unknown hkey, ofMembers?_unknown hkey, ih hms]
    | some g =>
      obtain rfl := R.keys.ofName?_eq_some_iff.1 hkey
      have hg : g ≠ f := by
        rintro rfl
        exact h v List.mem_cons_self
      rw [ofMembers?_known, ofMembers?_known, give_of_ne hg]
      split
      · rfl
      · rw [Option.map_bind]
        refine Option.bind_congr fun z _ => ?_
        rw [give_comm hg, ih hms, Function.comp_apply]

/-- A field that has been given is not given again. -/
theorem ofMembers?_eq_none (hgiven : (d f).isSome = true)
    (h : (some (R.keys.name f), w) ∈ ms) : d.ofMembers? ms = none := by
  induction ms generalizing d with
  | nil => cases h
  | cons m ms ih =>
    obtain ⟨key | key, v⟩ := m
    · rfl
    cases hkey : R.keys.ofName? key with
    | none =>
      rw [ofMembers?_unknown hkey]
      refine ih hgiven ((List.mem_cons.1 h).resolve_left fun heq => ?_)
      cases heq
      exact R.keys.ofName?_eq_none_iff.1 hkey f rfl
    | some g =>
      obtain rfl := R.keys.ofName?_eq_some_iff.1 hkey
      rw [ofMembers?_known]
      by_cases hg : f = g
      · subst hg
        exact if_pos hgiven
      · have hmem := (List.mem_cons.1 h).resolve_left fun heq =>
          hg (R.keys.name_inj (Option.some.inj (Prod.mk.inj heq).1))
        split
        · rfl
        · refine Option.bind_eq_none_iff.2 fun y _ => ih ?_ hmem
          rwa [give_of_ne hg]

/-- Values for fields give them what they are for; the others stay as they are. -/
private theorem exists_ofItems? {v : R.Field → Tree} {x : R.Values}
    (h : ∀ f, (R.shape f).value? (v f) = some (x f)) (fields : List R.Field) (d : R.Draft) :
    ∃ d', d.ofItems? fields (fields.map v) = some d' ∧
      ∀ f, f ∈ fields ∨ d f = some (x f) → d' f = some (x f) := by
  induction fields generalizing d with
  | nil => exact ⟨d, rfl, fun f hf => hf.resolve_left List.not_mem_nil⟩
  | cons f fields ih =>
    obtain ⟨d', hd, hget⟩ := ih (d.give f (x f))
    refine ⟨d', by rw [List.map_cons, ofItems?, h f, Option.bind_some, hd], fun g hg => ?_⟩
    by_cases hself : g = f
    · subst hself
      exact hget g (.inr give_self)
    · refine hget g (hg.imp (fun hmem => (List.mem_cons.1 hmem).resolve_left hself) fun hd => ?_)
      rwa [give_of_ne hself]

end Record.Draft

namespace Record

open Draft (ofMembers?_known ofMembers?_give ofMembers?_eq_none give_self values_give)

variable {ms : List (Option String × Tree)}

theorem draft?_known : R.draft? (.object ((some (R.keys.name f), v) :: ms)) =
    ((R.shape f).value? v).bind fun y => (Draft.empty.give f y).ofMembers? ms :=
  ofMembers?_known

private theorem map_values_draft?_known (h : ∀ w, (some (R.keys.name f), w) ∉ ms) :
    (R.draft? (.object ((some (R.keys.name f), v) :: ms))).map Draft.values = do
      let y ← (R.shape f).value? v
      let x ← (R.draft? (.object ms)).map Draft.values
      return R.keys.set x f y := by
  rw [draft?_known, draft?]
  simp only [ofMembers?_give h]
  cases (R.shape f).value? v with
  | none => rfl
  | some y =>
    cases Draft.empty.ofMembers? ms with
    | none => rfl
    | some d => exact congrArg some values_give

private theorem draft?_duplicate (h : (some (R.keys.name f), w) ∈ ms) :
    R.draft? (.object ((some (R.keys.name f), v) :: ms)) = none := by
  rw [draft?_known, Option.bind_eq_none_iff]
  exact fun y _ => ofMembers?_eq_none (by rw [give_self, Option.isSome_some]) h

end Record

/-! ## Laws -/

private theorem toOption_readText {text : String} (h : v.Document text) :
    (R.readText text).toOption = (R.draft? v).map Record.Draft.values := by
  have hread {d rest} := @Record.readTokens_eq_ok_iff R v rest d
  rw [Record.readText, Tree.ofText_of_document h]
  cases hv : R.draft? v with
  | some d => rw [hread.2 ⟨hv, rfl⟩]; rfl
  | none =>
    split
    · next hd => exact absurd (hread.1 hd).1 (by simp [hv])
    · rfl
    · rfl

/-- Reading token by token keeps the laws of a library. -/
theorem lawful_tokenwise : tokenwise.Lawful where
  read_document := toOption_readText
  value?_boolean _ := rfl
  value?_unsigned h := by
    have hvalue := Number.value?_eq_natural_iff.2 ⟨_, rfl, h⟩
    simp only [tokenwise, Shape.value?, Scalar.value?, Scalar.unsigned?, hvalue]
  value?_name N a := N.ofName?_eq_some_iff.2 rfl
  value?_null _ := rfl
  value?_optional _ := Shape.optional?_of_ne
  record?_nil _ := rfl
  record?_unknown {R key v ms} h :=
    congrArg (Option.map _) (Record.Draft.ofMembers?_unknown (R.keys.ofName?_eq_none_iff.2 h))
  record?_known h := Record.map_values_draft?_known h
  record?_duplicate h := congrArg (Option.map _) (Record.draft?_duplicate h)
  record?_array {R v x} h := by
    obtain ⟨d, hd, hget⟩ := Record.Draft.exists_ofItems? h R.keys.all .empty
    simp only [tokenwise, Record.draft?, hd, Option.map_some, Option.some.injEq]
    funext f
    rw [Record.Draft.values, hget f (.inl (R.keys.mem_all f)), Option.getD_some]
  text_boolean _ := rfl
  text_unsigned _ := rfl
  text_name _ _ := rfl
  text_none _ := rfl
  text_some _ _ := rfl
  write_eq _ := rfl

end SqlExpr.Json
