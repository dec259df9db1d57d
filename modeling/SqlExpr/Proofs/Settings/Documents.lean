-- SUMMARY: Settings are read back as they were written, and documents override exactly what they name.
import SqlExpr.Proofs.Json.Reader
import SqlExpr.Proofs.Json.Records
import SqlExpr.Settings.Document

/-!
# Settings documents

With any lawful library, settings that are written as an object or as an array are read back as they
were, the depth limit up to the last of 64 bits (`Settings.ofJson_toJson`). An object gives the
default settings but for the fields that its members name, each at most once and with a value that
is acceptable for it; the order of its members, blanks, and members with other keys do not matter
(`Settings.ofJson_object_outcome`).
-/

namespace SqlExpr

open Json (Library Tree)

variable {L : Library} {s : Settings} {members : List (String × Tree)} {text : String}

/-- The value is in the form that is documented for the field, and stands for the setting: a name, a
    truth value, an integer of 64 bits without sign, fraction and exponent, or `null` for no
    limit. -/
inductive SettingsField.Means : (f : SettingsField) → Tree → f.Setting → Prop
  | paramStyle (style : ParamStyle) : Means .paramStyle (.string (some style.name)) style
  | keywordCase (letters : KeywordCase) : Means .keywordCase (.string (some letters.name)) letters
  | unbounded : Means .maxDepth .null none
  | maxDepth {digits : List Nat} {limit : UInt64}
    (h : Json.Number.ofDigits digits = limit.toNat) :
    Means .maxDepth (.number ⟨false, digits, none, none⟩) (some limit)
  | quoteIdentifiers (flag : Bool) : Means .quoteIdentifiers (.bool flag) flag

/-- Values in the documented forms are acceptable. -/
theorem SettingsField.Means.value? (hL : L.Lawful) {f : SettingsField} {v : Tree} {x : f.Setting}
    (h : f.Means v x) : L.value? f.shape v = some x := by
  cases h with
  | paramStyle style => exact hL.value?_name ParamStyle.names style
  | keywordCase letters => exact hL.value?_name KeywordCase.names letters
  | unbounded => exact hL.value?_null .unsigned
  | @maxDepth digits limit h =>
    have hnull : Tree.number ⟨false, digits, none, none⟩ ≠ .null := nofun
    exact (hL.value?_optional .unsigned hnull).trans (congrArg _ (hL.value?_unsigned h))
  | quoteIdentifiers flag => exact hL.value?_boolean flag

namespace Settings

theorem ofJson_eq_ok_iff :
    ofJson L text = .ok s ↔ (L.read record text).toOption = some s.values := by
  unfold ofJson
  cases L.read record text with
  | error e => simp [Except.toOption]
  | ok x =>
    rw [Except.toOption, Except.ok.injEq, Option.some.injEq]
    constructor
    · rintro rfl
      exact (values_ofValues x).symm
    · rintro rfl
      exact ofValues_values s

private theorem ofJson_object_iff (hL : L.Lawful) (htext : (Tree.ofMembers members).Document text) :
    ofJson L text = .ok s ↔ L.Overrides record members s.values := by
  rw [ofJson_eq_ok_iff, hL.read_document htext, hL.record?_ofMembers_iff]

/-- Settings are read back from the object and from the array that they are written as, and from any
    other text of an array of values that are acceptable for what the fields have. -/
theorem ofJson_toJson (hL : L.Lawful) (s : Settings) :
    ofJson L (s.toJson L) = .ok s ∧ ofJson L (s.toJsonList L) = .ok s ∧
    ∀ (v : SettingsField → Tree) (text : String),
      (Tree.array (SettingsField.all.map v)).Document text →
      (∀ f : SettingsField, L.value? f.shape (v f) = some (s.get f)) → ofJson L text = .ok s := by
  refine ⟨ofJson_eq_ok_iff.2 (hL.read_write _), ofJson_eq_ok_iff.2 (hL.read_writeList _),
    fun v text htext hv => ?_⟩
  rw [ofJson_eq_ok_iff, hL.read_document htext]
  exact hL.record?_array hv

/-- The last number of 64 bits as a limit, in what is written and in an array with blanks and an
    object in place of a name. -/
theorem ofJson_toJson_last :
    let last : Settings := ⟨.inline, .lower, some 18446744073709551615, true⟩
    ofJson Json.tokenwise (last.toJson Json.tokenwise) = .ok last ∧
    ofJson Json.tokenwise "[ \"inline\",\x7b\"lower\":null\x7d,18446744073709551615,\ttrue]" =
      .ok last := by
  intro last
  obtain ⟨digits, hdigits, hvalue⟩ := Json.Number.exists_spelled_repr 18446744073709551615
  have hstyle : Tree.Element (.string (some "inline")) " \"inline\"".toList :=
    @Tree.Element.mk _ [' '] _ [] (by decide) (.string (.of_plain (s := "inline") (by decide)))
      Json.blanks_nil
  have hcase : Tree.Element (.object [(some "lower", .null)]) "\x7b\"lower\":null\x7d".toList :=
    .of_spelled (.object (.last (.of_quotation (.of_plain (s := "lower") (by decide)))
      (.of_spelled .null)))
  have hflag : Tree.Element (.bool true) "\ttrue".toList :=
    @Tree.Element.mk _ ['\t'] _ [] (by decide) .true Json.blanks_nil
  obtain ⟨hobject, -, harray⟩ := ofJson_toJson Json.lawful_tokenwise last
  refine ⟨hobject, harray
    (@SettingsField.rec (fun _ => Tree) (.string (some "inline")) (.object [(some "lower", .null)])
      (.number ⟨false, digits, none, none⟩) (.bool true)) _
    (.of_spelled (.array (.more hstyle (.more hcase (.more (.of_spelled (.number hdigits))
      (.last hflag)))))) fun f => ?_⟩
  cases f with
  | paramStyle => exact (SettingsField.Means.paramStyle .inline).value? Json.lawful_tokenwise
  | keywordCase => rfl
  | maxDepth => exact (SettingsField.Means.maxDepth hvalue).value? Json.lawful_tokenwise
  | quoteIdentifiers => rfl

/-- A document that is an object is accepted exactly if its members override fields, and gives the
    settings with just these fields overridden; so it is if each field is named once at most, by a
    member with an acceptable value, and never if a field is named twice. Only the members that name
    fields count, in any order. Values in the documented forms are acceptable. -/
theorem ofJson_object_outcome (hL : L.Lawful) (htext : (Tree.ofMembers members).Document text) :
    (∀ s, ofJson L text = .ok s ↔ L.Overrides record members s.values) ∧
    ((∀ f, record.namings members f ≤ 1) → L.Acceptable record members →
      ∃ s, ofJson L text = .ok s) ∧
    (∀ f, 2 ≤ record.namings members f → ∃ err, ofJson L text = .error err) ∧
    (∀ (members' : List (String × Tree)) (text' : String),
      (Tree.ofMembers members').Document text' →
      (record.known members).Perm (record.known members') →
      ∀ s, ofJson L text' = .ok s ↔ ofJson L text = .ok s) ∧
    ∀ (f : SettingsField) (v : Tree) (x : f.Setting), f.Means v x →
      L.value? f.shape v = some x := by
  refine ⟨fun s => ofJson_object_iff hL htext, fun honce hms => ?_, fun f hf => ?_,
    fun members' text' htext' hperm s => ?_, fun f v x h => h.value? hL⟩
  · obtain ⟨x, hx⟩ := Library.Overrides.exists_of_acceptable honce hms
    exact ⟨ofValues x, (ofJson_object_iff hL htext).2 ((values_ofValues x).symm ▸ hx)⟩
  · cases hread : ofJson L text with
    | error err => exact ⟨err, rfl⟩
    | ok s =>
      have := ((ofJson_object_iff hL htext).1 hread).once f
      omega
  · rw [ofJson_object_iff hL htext, ofJson_object_iff hL htext']
    exact ⟨.of_perm hperm.symm, .of_perm hperm⟩

/-- A key with an escape and a blank, and an unknown member that holds the key of a field; and a
    field that comes twice. -/
theorem ofJson_object_outcome_cases :
    ofJson Json.tokenwise ("\x7b\"\\u006dax_depth\" :7,\"\":[\x7b\"max_depth\":0\x7d]," ++
      "\"keyword_case\":\"lower\"\x7d") = .ok { keywordCase := .lower, maxDepth := some 7 } ∧
    ∃ err, ofJson Json.tokenwise "\x7b\"max_depth\":null,\"max_depth\":null\x7d" = .error err := by
  have hescape : Json.Key (some "max_depth") "\"\\u006dax_depth\" ".toList :=
    @Json.Key.mk _ [] _ [' '] Json.blanks_nil
      (.mk (.cons (@Json.Part.Spelled.unit 0x6d '0' '0' '6' 'd' (by decide))
        (@Json.Part.Body.of_plain "ax_depth".toList (by decide)))) (by decide)
  have hkey (s : String) (h : s.toList.all Json.Part.isPlain = true) :=
    Json.Key.of_quotation (.of_plain h)
  have hnumber (d : Nat) (h : d < 10) :
      Tree.Element (.number ⟨false, [d], none, none⟩) [d.digitChar] :=
    .of_spelled (.number (@Json.Number.Spelled.mk ⟨false, [d], none, none⟩ [d.digitChar] [] []
      ⟨⟨by simp, by simpa, rfl⟩, by simp⟩ .absent .absent))
  have hunknown : Tree.Element (.array [.object [(some "max_depth",
      .number ⟨false, [0], none, none⟩)]]) "[\x7b\"max_depth\":0\x7d]".toList :=
    .of_spelled (.array (.last (.of_spelled
      (.object (.last (hkey "max_depth" (by decide)) (hnumber 0 (by decide)))))))
  have hlower : Tree.Element (.string (some "lower")) "\"lower\"".toList :=
    .of_spelled (.string (.of_plain (s := "lower") (by decide)))
  constructor
  · have hmembers := Tree.Members.more hescape (hnumber 7 (by decide))
      (.more (hkey "" (by decide)) hunknown (.last (hkey "keyword_case" (by decide)) hlower))
    refine ((ofJson_object_outcome Json.lawful_tokenwise
      (?_ : (Tree.ofMembers [("max_depth", .number ⟨false, [7], none, none⟩),
        ("", .array [.object [(some "max_depth", .number ⟨false, [0], none, none⟩)]]),
        ("keyword_case", .string (some "lower"))]).Document _)).1 _).2 ⟨?_, ?_, ?_⟩
    · exact .of_spelled (.object hmembers)
    · rintro (_ | _ | _ | _) <;> decide
    · rintro (_ | _ | _ | _) v hv <;>
        simp [record, SettingsField.keys, SettingsField.key] at hv <;> subst hv <;> rfl
    · rintro (_ | _ | _ | _) h <;> first | rfl | cases h
  · have hmembers := Tree.Members.more (hkey "max_depth" (by decide)) (.of_spelled .null)
      (.last (hkey "max_depth" (by decide)) (.of_spelled .null))
    refine (ofJson_object_outcome Json.lawful_tokenwise (?_ : (Tree.ofMembers [("max_depth", .null),
      ("max_depth", .null)]).Document _)).2.2.1 SettingsField.maxDepth (by decide)
    exact .of_spelled (.object hmembers)

end Settings

end SqlExpr
