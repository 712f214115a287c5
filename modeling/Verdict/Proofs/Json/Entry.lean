import Verdict.Json.Entry.Reader
import Verdict.Proofs.Check
import Verdict.Proofs.Json.Document
import Verdict.Proofs.Json.Token
import Verdict.Proofs.Rule.Formula
import Verdict.Proofs.Text
/-
Rules as documents, read back.

The writer makes text of an entry and the reader makes documents of text, so the two meet at
the document of an entry (`Entry.toDocument`): its tokens are found in the written text
(`Entry.ofText_document`), and it is read as the entry (`Entry.read_toDocument`) if the reader
may go as deep as the entry has levels.

The check behind the reader trims the conditions of a rule.  So a rule comes back with its
conditions trimmed, or with the error of the first of them that cannot be split
(`Rule.ofJson_toJson`).
-/
namespace Verdict

/-- The blanks around a condition do not count. -/
lemma Condition.split_trimmed (text : String) : split (Text.trimmed text) = split text := by
  rw [split, split, Text.trimmed, String.toList_ofList, Text.trim_trim]

namespace Json

namespace Entry

/-! ## The document of an entry -/

/-- The member for a child of an entry, if there is one, and further members. -/
def childMember (side : Side) (child : Entry) (d : Document) (rest : Members) : Members :=
  if child.isAbsent then rest else .member (some side.name) d rest

/-- The document that holds an entry; `null` where there is none. -/
def toDocument : Entry → Document
  | absent => .null
  | node kind value left right =>
    .object <| .member (some Field.kind.name) (.string (some kind.name)) <|
      .member (some Field.value.name) (.string (some value)) <|
      childMember .left left left.toDocument <| childMember .right right right.toDocument .closed

lemma whole_childMember {side : Side} {child : Entry} {d : Document} {rest : Members}
    (hd : d.Whole) (hrest : rest.Whole) : (childMember side child d rest).Whole := by
  rw [childMember]
  split
  · exact hrest
  · exact ⟨hd, hrest⟩

lemma whole_toDocument (e : Entry) : e.toDocument.Whole := by
  induction e with
  | absent => trivial
  | node kind value left right ihl ihr =>
    exact ⟨trivial, trivial, whole_childMember ihl (whole_childMember ihr trivial)⟩

/-! ## Written entries -/

section Write

open Token (scan)

lemma scan_beginObject (done : List Token) (cs : List Char) :
    scan done ('\x7b' :: cs) = scan (.beginObject :: done) cs :=
  Token.scan_of_first rfl rfl done

lemma scan_comma (done : List Token) (cs : List Char) :
    scan done (',' :: cs) = scan (.comma :: done) cs :=
  Token.scan_of_first rfl rfl done

lemma scan_closed (done : List Token) (cs : List Char) :
    scan done ('\x7d' :: cs) = scan ((Members.closed.tokens [.comma]).reverse ++ done) cs :=
  Token.scan_of_first rfl rfl done

/-- The text of a child has the tokens of the member for the child. -/
lemma scan_child (side : Side) {child : Entry}
    (h : child.isAbsent = false → ∀ done rest,
      scan done (child.write rest) = scan (child.toDocument.tokens.reverse ++ done) rest)
    {members : Members} {done : List Token} {rest rest' : List Char}
    (hrest : ∀ done, scan done rest = scan ((members.tokens [.comma]).reverse ++ done) rest') :
    scan done (writeChildName side child (child.write rest)) =
      scan (((childMember side child child.toDocument members).tokens [.comma]).reverse ++ done)
        rest' := by
  cases child with
  | absent => exact hrest done
  | node kind value left right =>
    rw [writeChildName, scan_comma, Token.scan_writeName, h rfl, hrest]
    simp [childMember, isAbsent, Members.tokens, Side.name, Field.name]

/-- The text of an entry has the tokens of its document. -/
lemma scan_write {e : Entry} (h : e.isAbsent = false) (done : List Token) (rest : List Char) :
    scan done (e.write rest) = scan (e.toDocument.tokens.reverse ++ done) rest := by
  induction e generalizing done rest with
  | absent => cases h
  | node kind value left right ihl ihr =>
    rw [write, scan_beginObject, Token.scan_writeName, Token.scan_writeString, scan_comma,
      Token.scan_writeName, Token.scan_writeString,
      scan_child .left ihl fun _ => scan_child .right ihr fun _ => scan_closed _ _]
    simp [toDocument, Document.tokens, Members.tokens]

end Write

/-- The document in the text of an entry. -/
theorem ofText_document (e : Entry) : Document.ofText e.document = (e.toDocument, []) := by
  have htokens : Token.ofText e.document = e.toDocument.tokens := by
    cases e with
    | absent =>
      have hnull : Token.scan [] "null".toList = Token.scan [.null] [] :=
        Token.scan_of_first (c := 'n') rfl (by decide) []
      rw [document, Token.ofText, hnull, Token.scan]
      rfl
    | node kind value left right =>
      rw [document, Token.ofText, String.toList_ofList, scan_write rfl, Token.scan,
        List.append_nil, List.reverse_reverse]
      exact Entry.noConfusion
  rw [Document.ofText, htokens, ← List.append_nil e.toDocument.tokens,
    Document.ofTokens_tokens e.whole_toDocument]

/-! ## Read entries -/

/-- The number of entries inside each other. -/
def height : Entry → Nat
  | absent => 0
  | node _ _ left right => 1 + max left.height right.height

/-- The entry, unless there is none. -/
def present? (e : Entry) : Option Entry := if e.isAbsent then none else some e

lemma getD_present? (e : Entry) : e.present?.getD absent = e := by
  cases e <;> rfl

/-- `fields` with the child at `side`, if there is one. -/
def Fields.setChild (fields : Fields) (side : Side) (child : Entry) : Fields :=
  match side with
  | .left => { fields with left? := child.present? }
  | .right => { fields with right? := child.present? }

section Read

variable {levels : Nat} {fields fields' : Fields} {rest : Members}

lemma ofName?_name (field : Field) : Field.ofName? field.name = some field := by
  rcases field with _ | _ | (_ | _) <;> decide

/-- A member with the name of a field that has not been read yet adds that field. -/
lemma readMembers_member (field : Field) {value : Document} (hnew : fields.has field = false)
    (hread : fields.read levels field value (read levels value) = .ok fields') :
    readMembers levels fields (.member (some field.name) value rest) =
      readMembers levels fields' rest := by
  simp only [readMembers, ofName?_name, hnew, hread]
  rfl

lemma readMembers_kind (kind : Kind) (hnew : fields.kind? = none) :
    readMembers levels fields (.member (some Field.kind.name) (.string (some kind.name)) rest) =
      readMembers levels { fields with kind? := some kind } rest := by
  refine readMembers_member .kind (by simp [Fields.has, hnew]) ?_
  cases kind <;> rfl

lemma readMembers_value (value : String) (hnew : fields.value? = none) :
    readMembers levels fields (.member (some Field.value.name) (.string (some value)) rest) =
      readMembers levels { fields with value? := some value } rest :=
  readMembers_member .value (by simp [Fields.has, hnew]) rfl

lemma readMembers_childMember {side : Side} {child : Entry} {d : Document}
    (hnew : fields.has (.child side) = false) (hread : read levels d = .ok child) :
    readMembers levels fields (childMember side child d rest) =
      readMembers levels (fields.setChild side child) rest := by
  cases child with
  | absent =>
    have hsame : fields.setChild side absent = fields := by
      obtain ⟨kind?, value?, left?, right?⟩ := fields
      cases side <;> simp_all [Fields.setChild, Fields.has, present?, isAbsent]
    rw [hsame]
    rfl
  | node kind value left right =>
    refine readMembers_member (.child side) hnew ?_
    cases side <;> simp [Fields.read, hread, Except.map, Fields.setChild, present?, isAbsent]

end Read

/-- An entry is read from its document, if it has no more levels than may be read. -/
theorem read_toDocument {e : Entry} {levels : Nat} (h : e.height ≤ levels) :
    read levels e.toDocument = .ok e := by
  induction e generalizing levels with
  | absent => rfl
  | node kind value left right ihl ihr =>
    rw [height] at h
    obtain ⟨levels, rfl⟩ : ∃ n, levels = n + 1 := Nat.exists_eq_add_one.mpr (by omega)
    have hleft : read levels left.toDocument = .ok left := ihl (by omega)
    have hright : read levels right.toDocument = .ok right := ihr (by omega)
    rw [toDocument, read, readMembers_kind kind rfl, readMembers_value value rfl,
      readMembers_childMember rfl hleft, readMembers_childMember rfl hright, readMembers]
    simp only [Fields.setChild, Fields.entry, getD_present?]

/-- What is read of a written entry is the entry, up to its check. -/
lemma decode_document {α : Type} {e : Entry} (h : e.height ≤ maxLevels)
    (check : Entry → Except JsonError α) :
    decode e.document (read maxLevels) check = check e := by
  simp only [decode, ofText_document, read_toDocument h]
  cases hcheck : check e <;> simp [hcheck, bind, Except.bind, pure, Except.pure]

/-! ## Entries of rules -/

lemma height_ofFormula (f : Formula) : (ofFormula f).height = f.depth := by
  induction f with
  | leaf text => rfl
  | join op left right ihl ihr => rw [ofFormula, height, ihl, ihr, Formula.depth]

lemma height_ofRule (r : Rule) : (ofRule r).height = r.depth := by
  obtain ⟨_ | f⟩ := r
  · rfl
  · exact height_ofFormula f

lemma isAbsent_ofFormula (f : Formula) : (ofFormula f).isAbsent = false := by
  cases f <;> rfl

lemma ofKeyword?_keyword (op : Connective) :
    Connective.ofKeyword? (Text.trimmed op.keyword) = some op := by
  cases op <;> decide

/-- The entry of a formula stands for it, with its conditions trimmed, if they can be
split. -/
lemma formula?_ofFormula (f : Formula) :
    (ofFormula f).formula? =
      match Condition.checkAll f.conditions with
      | .ok () => .ok (some f.trimmed)
      | .error error => .error (.malformedCondition error) := by
  induction f with
  | leaf text =>
    simp only [ofFormula, formula?, isAbsent, Bool.and_self, if_true, Formula.conditions,
      Condition.checkAll]
    cases Condition.split text <;> rfl
  | join op left right ihl ihr =>
    simp only [ofFormula, formula?, ofKeyword?_keyword, isAbsent_ofFormula, Bool.false_eq_true,
      if_false, ihl, ihr, Formula.conditions, Condition.checkAll_append]
    cases Condition.checkAll left.conditions with
    | error error => rfl
    | ok _ => cases Condition.checkAll right.conditions <;> rfl

lemma toRule_ofRule (r : Rule) :
    (ofRule r).toRule =
      match Condition.checkAll r.conditions with
      | .ok () => .ok r.trimmed
      | .error error => .error (.malformedCondition error) := by
  obtain ⟨_ | f⟩ := r
  · rfl
  · have hconditions : (Rule.mk (some f)).conditions = f.conditions := rfl
    show ((ofFormula f).formula?).map Rule.mk = _
    rw [formula?_ofFormula, hconditions]
    cases Condition.checkAll f.conditions <;> rfl

/-! ## Checked entries -/

section Checked

variable {value : String} {left right : Entry} {f : Formula}

/-- An operand that stands for a formula stands for its own condition. -/
lemma eq_condition_of_formula? (h : (node .operand value left right).formula? = .ok (some f)) :
    f = .condition value ∧ ∃ parts, Condition.split value = .ok parts := by
  rw [formula?] at h
  split at h
  · cases hsplit : Condition.split value with
    | error error => simp [hsplit] at h
    | ok parts =>
      simp only [hsplit, Except.ok.injEq, Option.some.injEq] at h
      exact ⟨h.symm, parts, rfl⟩
  · cases h

/-- An operator that stands for a formula joins those of its children. -/
lemma exists_join_of_formula? (h : (node .operator value left right).formula? = .ok (some f)) :
    ∃ op f' g, f = .join op f' g ∧ left.formula? = .ok (some f') ∧
      right.formula? = .ok (some g) := by
  rw [formula?] at h
  split at h
  · cases h
  · rename_i op _
    split_ifs at h
    obtain ⟨left?, hleft, h⟩ := bind_eq_ok_iff.mp h
    obtain ⟨right?, hright, h⟩ := bind_eq_ok_iff.mp h
    cases left? with
    | none => cases h
    | some f' =>
      cases right? with
      | none => cases h
      | some g => exact ⟨op, f', g, (Option.some.inj (Except.ok.inj h)).symm, hleft, hright⟩

/-- The formula that an entry stands for has trimmed conditions, all of which can be split. -/
lemma conditions_of_formula? {e : Entry} (h : e.formula? = .ok (some f)) :
    ∀ text ∈ f.conditions, (∃ parts, Condition.split text = .ok parts) ∧
      Text.trimmed text = text := by
  induction e generalizing f with
  | absent => simp [formula?] at h
  | node kind value left right ihl ihr =>
    intro text htext
    cases kind with
    | operand =>
      obtain ⟨rfl, parts, hparts⟩ := eq_condition_of_formula? h
      obtain rfl := List.mem_singleton.mp htext
      exact ⟨⟨parts, (Condition.split_trimmed value).trans hparts⟩, Text.trimmed_trimmed value⟩
    | operator =>
      obtain ⟨op, f', g, rfl, hleft, hright⟩ := exists_join_of_formula? h
      rcases List.mem_append.mp htext with htext | htext
      · exact ihl hleft text htext
      · exact ihr hright text htext

end Checked

end Entry

/-- A text is decoded if it is read, passes the check and has nothing but blanks at its end. -/
lemma decode_eq_ok_iff {α β : Type} {json : String} {read : Document → Except JsonError α}
    {check : α → Except JsonError β} {b : β} :
    decode json read check = .ok b ↔
      ∃ d a, Document.ofText json = (d, []) ∧ read d = .ok a ∧ check a = .ok b := by
  constructor
  · intro h
    obtain ⟨a, hread, h⟩ := bind_eq_ok_iff.mp h
    obtain ⟨b', hcheck, h⟩ := bind_eq_ok_iff.mp h
    split at h
    · rename_i hrest
      obtain rfl := Except.ok.inj h
      exact ⟨_, a, Prod.ext rfl (List.isEmpty_iff.mp hrest), hread, hcheck⟩
    · cases h
  · rintro ⟨d, a, hd, hread, hcheck⟩
    simp [decode, hd, hread, hcheck, bind, Except.bind, pure, Except.pure]

end Json

namespace Rule

/-- Whatever is read of any document has trimmed conditions, all of which can be split. -/
theorem conditions_of_ofJson {json : String} {r : Rule} (h : ofJson json = .ok r) :
    ∀ text ∈ r.conditions, (∃ parts, Condition.split text = .ok parts) ∧
      Text.trimmed text = text := by
  obtain ⟨_, entry, -, -, hcheck⟩ := Json.decode_eq_ok_iff.mp h
  obtain ⟨_ | f⟩ := r
  · simp [conditions]
  · refine Json.Entry.conditions_of_formula? (e := entry) ?_
    rw [Json.Entry.toRule] at hcheck
    cases hformula : entry.formula? with
    | error error => simp [hformula, Except.map, Except.mapError] at hcheck
    | ok formula? =>
      simp only [hformula, Except.map, Except.mapError, Except.ok.injEq, mk.injEq] at hcheck
      rw [hcheck]

/-- Reading the document of a rule is checking its conditions. -/
lemma ofJson_toJson_eq {r : Rule} (h : r.depth ≤ Json.maxLevels) :
    ofJson r.toJson =
      match Condition.checkAll r.conditions with
      | .ok () => .ok r.trimmed
      | .error error => .error (.invalidEntry (.malformedCondition error)) := by
  rw [ofJson, toJson, Json.Entry.decode_document ((Json.Entry.height_ofRule r).trans_le h),
    Json.Entry.toRule_ofRule]
  cases Condition.checkAll r.conditions <;> rfl

/-- **The document of a rule is read back.**  Let a rule have at most 127 levels, and any texts
as conditions.  If all of them can be split, the document of the rule is read as the rule with
the blanks around its conditions left out, which is the rule itself where there are none; else
the error is that of the first condition which cannot. -/
theorem ofJson_toJson {r : Rule} (hdepth : r.depth ≤ 127) :
    ((∀ text ∈ r.conditions, ∃ parts, Condition.split text = .ok parts) →
      ofJson r.toJson = .ok r.trimmed) ∧
    (∀ before text after error, r.conditions = before ++ text :: after →
      (∀ earlier ∈ before, ∃ parts, Condition.split earlier = .ok parts) →
      Condition.split text = .error error →
        ofJson r.toJson = .error (.invalidEntry (.malformedCondition error)) ∧
        (Json.JsonError.invalidEntry (.malformedCondition error)).message = error.message) ∧
    ((∀ text ∈ r.conditions, Text.trimmed text = text) → r.trimmed = r) := by
  refine ⟨fun hsplit => ?_, fun before text after error hconditions hbefore htext => ⟨?_, rfl⟩,
    trimmed_eq_self_iff.mpr⟩
  · rw [ofJson_toJson_eq hdepth, Condition.checkAll_eq_ok hsplit]
  · rw [ofJson_toJson_eq hdepth, hconditions, Condition.checkAll_eq_error hbefore htext]

/-- A text with a quote, a backslash, a line break, a control character and a letter that is
not ASCII, and one with blanks around it; and a rule of which two conditions are none. -/
theorem ofJson_toJson_escaped :
    ofJson (toJson (.ofFormula (.join .or (.leaf "a = \"\\n\n\x07é\"") (.leaf " b > 1\t")))) =
      .ok (.ofFormula (.join .or (.leaf "a = \"\\n\n\x07é\"") (.leaf "b > 1"))) ∧
    ofJson (toJson (.ofFormula (.join .or (.leaf "x >= 1")
        (.join .and (.leaf "y >> 2") (.leaf "z"))))) =
      .error (.invalidEntry (.malformedCondition (.unsupportedComparator "y >> 2" ">>"))) := by
  constructor
  · refine (ofJson_toJson (by decide)).1 ?_
    intro text htext
    simp only [conditions, ofFormula, Option.elim_some, Formula.conditions, List.cons_append,
      List.nil_append, List.mem_cons, List.not_mem_nil, or_false] at htext
    rcases htext with rfl | rfl
    · exact ⟨⟨"a", .equal, "\"\\n\n\x07é\""⟩, by decide⟩
    · exact ⟨⟨"b", .greater, "1"⟩, by decide⟩
  · refine ((ofJson_toJson (by decide)).2.1 ["x >= 1"] "y >> 2" ["z"] _ rfl ?_ (by decide)).1
    intro text htext
    obtain rfl := List.mem_singleton.mp htext
    exact ⟨⟨"x", .greaterEqual, "1"⟩, by decide⟩

end Rule
end Verdict
