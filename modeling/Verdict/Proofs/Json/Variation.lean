import Mathlib.Logic.Relation
import Verdict.Proofs.Json.Node
import Verdict.Proofs.Json.Text
/-
Variations of a document.

A rule may be written down in many ways: the members of a node may be in any order, the kind may
have its older name, members that are no fields may be added, a child that is absent may be null,
blanks may surround a value, and a node may be an array.  Each of these changes can be made
anywhere in a document (`Document.Change`), and none of them changes what is read, up to blanks
around values (`Document.Change.reads_iff`); those do not count when a rule is made of an entry.

So all texts of all variations of a document hold the same rule (`Rule.ofJson_of_variation`).
-/
namespace Verdict

namespace Json

namespace Document

/-- `d'` is the node `d` with `x'` in the place of its part `x`. -/
inductive Replaces (field : Field) (x x' : Document) : Document → Document → Prop
  | object {before after : List (String × Document)} {name : String}
    (hname : Field.ofName? name = some field) :
    Replaces field x x' (.object (.ofList (before ++ (name, x) :: after)))
      (.object (.ofList (before ++ (name, x') :: after)))
  | array {before after : List Document} (hplace : Field.all[before.length]? = some field)
    (hlength : (before ++ x :: after).length ≤ Field.all.length) :
    Replaces field x x' (.array (.ofList (before ++ x :: after)))
      (.array (.ofList (before ++ x' :: after)))

/-- A change of a document that does not matter. -/
inductive Change : Document → Document → Prop
  /-- The members of a node come in another order. -/
  | reorder {members members' : List (String × Document)} (h : members.Perm members') :
    Change (.object (.ofList members)) (.object (.ofList members'))
  /-- The kind has its older name. -/
  | rename {before after : List (String × Document)} {d : Document} :
    Change (.object (.ofList (before ++ ("kind", d) :: after)))
      (.object (.ofList (before ++ ("type", d) :: after)))
  /-- A member is added that is no field. -/
  | member {before after : List (String × Document)} {name : String} {d : Document}
    (hname : name ∉ ["kind", "type", "value", "left", "right"]) :
    Change (.object (.ofList (before ++ after))) (.object (.ofList (before ++ (name, d) :: after)))
  /-- A child that is absent is null. -/
  | null {before after : List (String × Document)} {side : Side}
    (hside : side.name ∉ (before ++ after).map Prod.fst) :
    Change (.object (.ofList (before ++ after)))
      (.object (.ofList (before ++ (side.name, .null) :: after)))
  /-- The node is an array of its parts. -/
  | array {members : List (String × Document)} {items : List Document}
    (hlength : items.length ≤ Field.all.length)
    (h : (partsOf members).Perm (Field.all.zip items)) :
    Change (.object (.ofList members)) (.array (.ofList items))
  /-- There are other blanks around a value. -/
  | value {text text' : String} {d d' : Document} (htrim : Text.trimmed text = Text.trimmed text')
    (hplace : Replaces .value (.string (some text)) (.string (some text')) d d') : Change d d'
  /-- Something is changed in a child. -/
  | child {side : Side} {x x' d d' : Document} (h : Change x x')
    (hplace : Replaces (.child side) x x' d d') : Change d d'

/-! ## Parts -/

lemma zip_append_cons {field : Field} {before : List Document}
    (hplace : Field.all[before.length]? = some field) (x : Document) (after : List Document) :
    Field.all.zip (before ++ x :: after) =
      (Field.all.take before.length).zip before ++
        (field, x) :: (Field.all.drop (before.length + 1)).zip after := by
  obtain ⟨hlt, hget⟩ := List.getElem?_eq_some_iff.mp hplace
  have hall : Field.all =
      Field.all.take before.length ++ field :: Field.all.drop (before.length + 1) := by
    rw [← hget, List.getElem_cons_drop, List.take_append_drop]
  have hlength : (Field.all.take before.length).length = before.length := by
    rw [List.length_take, Nat.min_eq_left hlt.le]
  conv_lhs => rw [hall]
  rw [List.zip_append hlength, List.zip_cons_cons]

/-- A part that is replaced stands in the same place among the parts. -/
lemma Replaces.exists_parts {field : Field} {x x' d d' : Document}
    (h : Replaces field x x' d d') :
    ∃ before after, d.HasParts (before ++ (field, x) :: after) ∧
      d'.HasParts (before ++ (field, x') :: after) := by
  cases h with
  | @object before after name hname =>
    refine ⟨partsOf before, partsOf after, ?_, ?_⟩
    · rw [← partsOf_cons hname, ← partsOf_append]
      exact .object _
    · rw [← partsOf_cons hname, ← partsOf_append]
      exact .object _
  | @array before after hplace hlength =>
    refine ⟨(Field.all.take before.length).zip before,
      (Field.all.drop (before.length + 1)).zip after, ?_, ?_⟩
    · rw [← zip_append_cons hplace x after]
      exact .array hlength
    · rw [← zip_append_cons hplace x' after]
      exact .array (by simpa using hlength)

/-! ## A single change -/

lemma reads_iff_of_parts {d d' : Document} {ps ps' : List (Field × Document)}
    (hd : d.HasParts ps) (hd' : d'.HasParts ps')
    (h : ∀ levels e, Entry.Completes levels {} ps e ↔ Entry.Completes levels {} ps' e)
    (levels : Nat) (e : Entry) : Entry.Reads levels d e ↔ Entry.Reads levels d' e := by
  cases levels with
  | zero => exact iff_of_false (Entry.not_reads_zero hd) (Entry.not_reads_zero hd')
  | succ levels => rw [Entry.reads_iff hd, Entry.reads_iff hd', h]

/-- A part that is read alike in its place is read alike. -/
lemma Replaces.reads_iff {field : Field} {x x' d d' : Document} (h : Replaces field x x' d d')
    (hread : ∀ levels e, Entry.ReadsField levels field x e ↔ Entry.ReadsField levels field x' e)
    (levels : Nat) (e : Entry) : Entry.Reads levels d e ↔ Entry.Reads levels d' e := by
  obtain ⟨before, after, hd, hd'⟩ := h.exists_parts
  refine reads_iff_of_parts hd hd' ?_ levels e
  intro levels e
  constructor
  · intro h
    exact h.replace (hread levels e).mp
  · intro h
    exact h.replace (hread levels e).mpr

/-- **A change does not matter:** what is read is the same, up to blanks around values. -/
theorem Change.reads_iff {d d' : Document} (h : Change d d') (levels : Nat) (e : Entry) :
    Entry.Reads levels d e ↔ Entry.Reads levels d' e := by
  induction h generalizing levels e with
  | reorder h =>
    have hparts := h.filterMap fun member => (Field.ofName? member.1).map (·, member.2)
    exact reads_iff_of_parts (.object _) (.object _)
      (fun _ _ => ⟨fun h => h.perm hparts, fun h => h.perm hparts.symm⟩) levels e
  | @rename before after d =>
    have hkind : Field.ofName? "kind" = some .kind := by decide
    have htype : Field.ofName? "type" = some .kind := by decide
    refine reads_iff_of_parts (.object _) (.object _) ?_ levels e
    intro levels e
    rw [partsOf_append, partsOf_append, partsOf_cons hkind, partsOf_cons htype]
  | @member before after name d hname =>
    refine reads_iff_of_parts (.object _) (.object _) ?_ levels e
    intro levels e
    rw [partsOf_append, partsOf_append, partsOf_cons_of_none (Field.ofName?_eq_none hname)]
  | @null before after side hside =>
    have hname : Field.ofName? side.name = some (.child side) := Field.ofName?_eq_child_iff.mpr rfl
    have hnew := child_notMem_partsOf hside
    rw [partsOf_append] at hnew
    -- parts may come in any order, so the null child may as well be the first of them
    refine reads_iff_of_parts (.object _) (.object _) ?_ levels e
    intro levels e
    rw [partsOf_append, partsOf_append, partsOf_cons hname, ← Entry.completes_null hnew]
    exact ⟨fun h => h.perm List.perm_middle.symm, fun h => h.perm List.perm_middle⟩
  | array hlength h =>
    exact reads_iff_of_parts (.object _) (.array hlength)
      (fun _ _ => ⟨fun h' => h'.perm h, fun h' => h'.perm h.symm⟩) levels e
  | value htrim hplace =>
    refine hplace.reads_iff ?_ levels e
    intro levels e
    cases e with
    | absent => rfl
    | node => simp [Entry.ReadsField, Entry.readText, htrim]
  | @child side x x' d d' h hplace ih =>
    refine hplace.reads_iff ?_ levels e
    intro levels e
    cases e with
    | absent => rfl
    | node kind value left right =>
      cases side with
      | left => exact ih levels left
      | right => exact ih levels right

end Document

/-! ## Rules of documents -/

namespace Entry

lemma isAbsent_trimmed (e : Entry) : e.trimmed.isAbsent = e.isAbsent := by
  cases e <;> rfl

/-- An entry stands for the same formula whatever blanks are around its values. -/
lemma formula?_trimmed (e : Entry) (f? : Option Formula) :
    e.trimmed.formula? = .ok f? ↔ e.formula? = .ok f? := by
  induction e generalizing f? with
  | absent => rfl
  | node kind value left right ihl ihr =>
    cases kind with
    | operand =>
      simp only [trimmed, formula?, isAbsent_trimmed, Condition.split_trimmed, Formula.condition,
        Text.trimmed_trimmed]
      -- the errors tell the value as it is
      cases left.isAbsent && right.isAbsent <;> simp
    | operator =>
      simp only [trimmed, formula?, isAbsent_trimmed, Text.trimmed_trimmed]
      split
      · simp
      · split_ifs
        · rfl
        · rfl
        · simp only [bind_eq_ok_iff, ihl, ihr]

lemma toRule_trimmed (e : Entry) (r : Rule) : e.trimmed.toRule = .ok r ↔ e.toRule = .ok r := by
  simp only [toRule, map_eq_ok_iff, formula?_trimmed]

end Entry

/-- The document holds the rule. -/
def Document.Holds (d : Document) (r : Rule) : Prop :=
  ∃ e, Entry.read maxLevels d = .ok e ∧ e.toRule = .ok r

lemma Document.holds_iff {d : Document} {r : Rule} :
    d.Holds r ↔ ∃ e, Entry.Reads maxLevels d e ∧ e.toRule = .ok r := by
  constructor
  · rintro ⟨e, hread, hrule⟩
    exact ⟨e.trimmed, ⟨e, hread, rfl⟩, (Entry.toRule_trimmed e r).mpr hrule⟩
  · rintro ⟨_, ⟨e, hread, rfl⟩, hrule⟩
    exact ⟨e, hread, (Entry.toRule_trimmed e r).mp hrule⟩

/-- All variations of a document hold the same rule. -/
lemma Document.holds_iff_of_changes {d d' : Document} (h : Relation.EqvGen Change d d')
    (r : Rule) : d.Holds r ↔ d'.Holds r := by
  induction h with
  | rel d d' h => simp only [holds_iff, h.reads_iff]
  | refl d => rfl
  | symm d d' _ ih => exact ih.symm
  | trans d d' d'' _ _ ih ih' => exact ih.trans ih'

end Json

namespace Rule

open Json (Document)
open Json.Document (Change Replaces)

/-- A rule is read of a text if it is the text of a document that holds the rule. -/
theorem ofJson_eq_ok_iff {json : String} {r : Rule} :
    ofJson json = .ok r ↔ ∃ d : Document, d.IsText json ∧ d.Holds r := by
  have hcheck (e : Json.Entry) :
      e.toRule.mapError Json.JsonError.invalidEntry = .ok r ↔ e.toRule = .ok r := by
    cases e.toRule <;> simp [Except.mapError]
  simp only [ofJson, Json.decode_eq_ok_iff, hcheck]
  constructor
  · rintro ⟨d, e, hd, hread, hrule⟩
    rcases Document.whole_or_torn_of_ofTokens hd with ⟨hwhole, -⟩ | htorn
    · exact ⟨d, Document.isText_iff.mpr ⟨hwhole, hd⟩, e, hread, hrule⟩
    · exact absurd hread (Json.Entry.read_of_torn htorn)
  · rintro ⟨d, htext, e, hread, hrule⟩
    exact ⟨d, e, (Document.isText_iff.mp htext).2, hread, hrule⟩

/-- **Variations do not matter.**  A text that is read as a rule is the text of a document.
Whatever of the changes are made to the document, in any number and anywhere in it, every text of
the document that comes out is read as the same rule. -/
theorem ofJson_of_variation {json : String} {r : Rule} (h : ofJson json = .ok r) :
    (∃ d : Document, d.IsText json) ∧
      ∀ (d d' : Document) (json' : String), d.IsText json →
        Relation.EqvGen Document.Change d d' → d'.IsText json' → ofJson json' = .ok r := by
  obtain ⟨d, htext, hholds⟩ := ofJson_eq_ok_iff.mp h
  refine ⟨⟨d, htext⟩, ?_⟩
  intro e e' json' he hchanges he'
  obtain rfl : d = e := htext.unique he
  exact ofJson_eq_ok_iff.mpr ⟨e', he', (Document.holds_iff_of_changes hchanges r).mp hholds⟩

/-- A kind with its older name, a member that is no field, blanks around an operator, and a node
that is an array. -/
theorem ofJson_of_variation_array :
    ofJson (toJson (.ofFormula (.join .and (.leaf "a > 1") (.leaf "b = 2")))) =
      .ok (.ofFormula (.join .and (.leaf "a > 1") (.leaf "b = 2"))) ∧
    ofJson ("[\"operator\", \" AND\\n\", \x7b\"type\": \"operand\", \"value\": \"a > 1\"\x7d,"
        ++ "\t\x7b\"kind\": \"operand\", \"note\": [1e999], \"value\": \"b = 2\"\x7d ]") =
      .ok (.ofFormula (.join .and (.leaf "a > 1") (.leaf "b = 2"))) := by
  let kind (name : String) : String × Document := ("kind", .string (some name))
  let value (text : String) : String × Document := ("value", .string (some text))
  let a : Document := .object (.ofList [kind "operand", value "a > 1"])
  let a' : Document := .object (.ofList [("type", .string (some "operand")), value "a > 1"])
  let note : Document := .array (.ofList [.number (.decimal ⟨false, 1, 999⟩)])
  let b : Document := .object (.ofList [kind "operand", value "b = 2"])
  let b' : Document := .object (.ofList [kind "operand", ("note", note), value "b = 2"])
  let node (text : String) (left right : Document) : Document :=
    .object (.ofList [kind "operator", value text, ("left", left), ("right", right)])
  let varied : Document :=
    .array (.ofList [.string (some "operator"), .string (some " AND\n"), a', b'])
  have hread : ofJson (toJson (.ofFormula (.join .and (.leaf "a > 1") (.leaf "b = 2")))) =
      .ok (.ofFormula (.join .and (.leaf "a > 1") (.leaf "b = 2"))) := by decide +kernel
  have ha : Change a a' := @Change.rename [] [value "a > 1"] _
  have hb : Change b b' := @Change.member [kind "operand"] [value "b = 2"] "note" note (by decide)
  have hleft : Change (node "AND" a b) (node "AND" a' b) :=
    .child ha (@Replaces.object (.child .left) a a' [kind "operator", value "AND"] [("right", b)]
      "left" rfl)
  have hright : Change (node "AND" a' b) (node "AND" a' b') :=
    .child hb (@Replaces.object (.child .right) b b' [kind "operator", value "AND", ("left", a')] []
      "right" rfl)
  have hblank : Change (node "AND" a' b') (node " AND\n" a' b') :=
    .value (by decide) (@Replaces.object .value _ _ [kind "operator"] [("left", a'), ("right", b')]
      "value" rfl)
  have harray : Change (node " AND\n" a' b') varied := .array (by decide) (.refl _)
  have hchanges : Relation.EqvGen Change (node "AND" a b) varied :=
    .trans _ _ _ (.trans _ _ _ (.rel _ _ hleft) (.rel _ _ hright))
      (.trans _ _ _ (.rel _ _ hblank) (.rel _ _ harray))
  refine ⟨hread, (ofJson_of_variation hread).2 _ _ _ ?_ hchanges ?_⟩
  · exact Document.isText_iff_tokens.mpr ⟨(Document.whole_iff _).mpr (by decide), by decide +kernel⟩
  · exact Document.isText_iff_tokens.mpr ⟨(Document.whole_iff _).mpr (by decide), by decide +kernel⟩

end Rule
end Verdict
