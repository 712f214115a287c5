import Verdict.Proofs.Archive.Shortest
import Verdict.Proofs.Combination
import Verdict.Proofs.Evaluation
import Verdict.Proofs.Json.Entry
/-
Checked rules.

A rule is checked where it comes in, and in three ways: the reader of rule text splits the
tokens that it has trimmed, the reader of documents splits a text before it trims it, and the
reader of archives splits the texts as they are.  An evaluation splits the conditions of the
rule once more.  All of these agree, for the blanks around a condition do not count; so
a rule that was checked anywhere is evaluated without a warning (`Rule.Checked.evaluation`).

They do not agree on what is kept.  The readers of rule text and of documents leave the blanks
out and the reader of archives does not, so a document gives such a rule back with other
conditions (`Rule.stored_and_read`).
-/
namespace Verdict

namespace Condition

lemma exists_parse_of_split {text : String} (h : ∃ parts, split text = .ok parts) :
    ∃ c, parse text = .ok c := by
  obtain ⟨parts, hparts⟩ := h
  exact ⟨_, by rw [parse, hparts]; rfl⟩

/-- Texts that are conditions have these conditions one by one. -/
lemma exists_parsed {texts : List String} (h : ∀ text ∈ texts, ∃ c, parse text = .ok c) :
    ∃ cs : List Condition, texts.map parse = cs.map .ok := by
  induction texts with
  | nil => exact ⟨[], rfl⟩
  | cons text texts ih =>
    obtain ⟨c, hc⟩ := h text List.mem_cons_self
    obtain ⟨cs, hcs⟩ := ih fun text' htext' => h text' (List.mem_cons_of_mem _ htext')
    exact ⟨c :: cs, by rw [List.map_cons, List.map_cons, hc, hcs]⟩

lemma map_holdsAt_of_parsed {texts : List String} {cs : List Condition}
    (h : texts.map parse = cs.map .ok) (ctx : Context) :
    texts.map (holdsAt ctx) = cs.map (·.holds ctx) := by
  induction texts generalizing cs with
  | nil =>
    obtain rfl : cs = [] := List.map_eq_nil_iff.mp h.symm
    rfl
  | cons text texts ih =>
    cases cs with
    | nil => simp at h
    | cons c cs =>
      rw [List.map_cons, List.map_cons, List.cons.injEq] at h
      rw [List.map_cons, List.map_cons, holdsAt_of_parse h.1, ih h.2]

end Condition

lemma Formula.Readable.trimmed {limit : Nat} {f : Formula} (h : f.Readable limit) :
    ∀ text ∈ f.conditions, Text.trimmed text = text := fun text htext =>
  (Rule.Token.trimmed_of_ofText (h.ofText_eq text htext)).1.trimmed_eq_self

namespace Rule

/-- The rules that are read of a text: that of a rule, those of several, or a document. -/
inductive FromText : Rule → Prop
  | parse {e : Engine} {text : String} {r : Rule} : e.parse text = .ok r → FromText r
  | combine {e : Engine} {texts : List String} {r : Rule} : e.combine texts = .ok r → FromText r
  | document {json : String} {r : Rule} : ofJson json = .ok r → FromText r

lemma FromText.of_readable {r : Rule}
    (h : ∀ f, r = .ofFormula f → ∃ limit, f.Readable limit) :
    ∀ text ∈ r.conditions, (∃ parts, Condition.split text = .ok parts) ∧
      Text.trimmed text = text := by
  obtain ⟨_ | f⟩ := r
  · simp [conditions]
  · obtain ⟨limit, hreadable⟩ := h f rfl
    exact fun text htext => ⟨hreadable.split_ok text htext, hreadable.trimmed text htext⟩

/-- What is read of a text has trimmed conditions, all of which can be split. -/
lemma FromText.conditions {r : Rule} (h : r.FromText) :
    ∀ text ∈ r.conditions, (∃ parts, Condition.split text = .ok parts) ∧
      Text.trimmed text = text := by
  cases h with
  | parse h =>
    refine of_readable fun f hf => ?_
    subst hf
    exact ⟨_, Engine.readable_of_parse h⟩
  | combine h =>
    refine of_readable fun f hf => ?_
    subst hf
    exact ⟨_, Engine.readable_of_combine h⟩
  | document h => exact conditions_of_ofJson h

/-- The rules that were checked where they came in, and those that are made of them. -/
inductive Checked : Rule → Prop
  | text {r : Rule} : r.FromText → Checked r
  | archive {bytes : List UInt8} {r : Rule} : Archive.decode bytes = .ok r → Checked r
  | join (op : Connective) {left right : Formula} : Checked (.ofFormula left) →
      Checked (.ofFormula right) → Checked (.ofFormula (.join op left right))
  | throughDocument {r r' : Rule} : Checked r → ofJson r.toJson = .ok r' → Checked r'
  | throughArchive {r r' : Rule} : Checked r → Archive.decode (Archive.encode r) = .ok r' →
      Checked r'

/-- However a rule was checked, its conditions can be split. -/
lemma Checked.split_ok {r : Rule} (h : r.Checked) :
    ∀ text ∈ r.conditions, ∃ parts, Condition.split text = .ok parts := by
  induction h with
  | text h => exact fun text htext => (h.conditions text htext).1
  -- a reader checks again what it reads, wherever the bytes or the document come from
  | throughDocument _ h => exact fun text htext => (conditions_of_ofJson h text htext).1
  | archive h | throughArchive _ h =>
    obtain ⟨_, -, -, hconditions⟩ := Archive.exists_payload_of_decode h
    exact Condition.split_of_checkAll hconditions
  | join op _ _ ihl ihr =>
    intro text htext
    rcases List.mem_append.mp htext with htext | htext
    · exact ihl text htext
    · exact ihr text htext

/-- **Checked rules are evaluated without a warning.**  Every leaf of a checked rule is a
condition, and its outcome is how the condition compares what the context knows of the
attribute with its value; an attribute that is not known only differs from the value. -/
theorem Checked.evaluation {r : Rule} (h : r.Checked) (ctx : Context) :
    ∃ cs : List Condition, r.conditions.map Condition.parse = cs.map .ok ∧
      (r.report ctx).outcomes.map Prod.fst = r.conditions ∧
      (r.report ctx).outcomes.map Prod.snd = cs.map (fun c =>
        match ctx.get? c.name with
        | some value => value.compareWith c.comparator c.value
        | none => c.comparator == .notEqual) ∧
      (r.report ctx).result = r.evaluate ctx ∧
      (r.report ctx).warnings = [] ∧ r.evaluationEvents ctx = [] := by
  have hparse : ∀ text ∈ r.conditions, ∃ c, Condition.parse text = .ok c :=
    fun text htext => Condition.exists_parse_of_split (h.split_ok text htext)
  have hevents : r.conditions.flatMap (Condition.events ctx) = [] := by
    refine List.flatMap_eq_nil_iff.mpr fun text htext => ?_
    obtain ⟨c, hc⟩ := hparse text htext
    exact Condition.events_of_parse hc ctx
  obtain ⟨cs, hcs⟩ := Condition.exists_parsed hparse
  refine ⟨cs, hcs, ?_, ?_, r.result_report ctx, ?_, ?_⟩
  · rw [outcomes_report, List.map_map]
    exact List.map_id _
  · rw [outcomes_report, List.map_map]
    exact Condition.map_holdsAt_of_parsed hcs ctx
  · rw [warnings_report, hevents]
  · rw [evaluationEvents_eq, hevents]

/-- A condition that was parsed, joined with one whose archive has kept a blank. -/
theorem Checked.evaluation_joined :
    Archive.decode (Archive.encode (.ofFormula (.leaf " b != 'x'"))) =
        .ok (.ofFormula (.leaf " b != 'x'")) ∧
      ∃ cs : List Condition, ["a = 1", " b != 'x'"].map Condition.parse = cs.map .ok ∧
        ((ofFormula (.join .or (.leaf "a = 1") (.leaf " b != 'x'"))).report .empty).outcomes.map
            Prod.snd =
          cs.map (fun c =>
            match Context.empty.get? c.name with
            | some value => value.compareWith c.comparator c.value
            | none => c.comparator == .notEqual) ∧
        (ofFormula (.join .or (.leaf "a = 1") (.leaf " b != 'x'"))).evaluationEvents .empty = [] := by
  have hdecode : Archive.decode (Archive.encode (.ofFormula (.leaf " b != 'x'"))) =
      .ok (.ofFormula (.leaf " b != 'x'")) := by
    rw [Archive.decode_encode_eq (by decide)]
    decide
  have hparse : Engine.default.parse "a = 1" = .ok (.ofFormula (.leaf "a = 1")) := by decide
  have hchecked : Checked (.ofFormula (.join .or (.leaf "a = 1") (.leaf " b != 'x'"))) :=
    .join .or (.text (.parse hparse)) (.archive hdecode)
  obtain ⟨cs, hcs, -, houtcomes, -, -, hevents⟩ := Checked.evaluation hchecked .empty
  exact ⟨hdecode, cs, hcs, houtcomes, hevents⟩

/-! ## Documents and archives -/

/-- **What is stored is read back.**  A rule that was read of anything comes out of its archive
as it was.  It comes out of its document with its conditions trimmed, so it comes out as it was
if and only if no blanks stand around its conditions; there are none unless the rule was read
of an archive that has them.  Only the size of an archive is limited, and no rule that was read
of an archive exceeds that limit. -/
theorem stored_and_read {r : Rule} (hr : r.FromText ∨ ∃ bytes, Archive.decode bytes = .ok r)
    (hdepth : r.depth ≤ 127) :
    ((∃ bytes, Archive.decode bytes = .ok r) ∨
        (Archive.Payload.ofRule r).encode.length < 2 ^ 32 →
      Archive.decode (Archive.encode r) = .ok r) ∧
    ofJson r.toJson = .ok r.trimmed ∧
    (ofJson r.toJson = .ok r ↔ ∀ text ∈ r.conditions, Text.trimmed text = text) ∧
    (r.FromText → ofJson r.toJson = .ok r) := by
  have hchecked : r.Checked := by
    rcases hr with h | ⟨bytes, h⟩
    · exact .text h
    · exact .archive h
  have hconditions := Condition.checkAll_eq_ok hchecked.split_ok
  have hjson : ofJson r.toJson = .ok r.trimmed := by
    rw [ofJson_toJson_eq hdepth, hconditions]
  have hsame : ofJson r.toJson = .ok r ↔ ∀ text ∈ r.conditions, Text.trimmed text = text := by
    rw [hjson, Except.ok.injEq, trimmed_eq_self_iff]
  refine ⟨fun h => ?_, hjson, hsame, fun h => ?_⟩
  · have hsize : (Archive.Payload.ofRule r).encode.length < 2 ^ 32 := by
      rcases h with ⟨bytes, h⟩ | h
      · exact Archive.length_payload_of_decode h
      · exact h
    rw [Archive.decode_encode_eq hsize, hconditions]
  · exact hsame.mpr fun text htext => (h.conditions text htext).2

theorem stored_and_read_parsed :
    Engine.default.parse " a = 1 OR b = ' x' " =
        .ok (.ofFormula (.join .or (.leaf "a = 1") (.leaf "b = ' x'"))) ∧
      Archive.decode (Archive.encode (.ofFormula (.join .or (.leaf "a = 1") (.leaf "b = ' x'")))) =
        .ok (.ofFormula (.join .or (.leaf "a = 1") (.leaf "b = ' x'"))) ∧
      ofJson (toJson (.ofFormula (.join .or (.leaf "a = 1") (.leaf "b = ' x'")))) =
        .ok (.ofFormula (.join .or (.leaf "a = 1") (.leaf "b = ' x'"))) := by
  have hparse : Engine.default.parse " a = 1 OR b = ' x' " =
      .ok (.ofFormula (.join .or (.leaf "a = 1") (.leaf "b = ' x'"))) := by decide
  have h := stored_and_read (.inl (.parse hparse)) (by decide)
  exact ⟨hparse, h.1 (.inr (by decide)), h.2.2.2 (.parse hparse)⟩

/-- An archive may hold a condition with a blank in front, which a document loses. -/
theorem stored_and_read_untrimmed :
    Archive.decode [0x52, 0x41, 0x53, 0x54, 0x01, 0x00, 0x01, 0x00, 0x00, 0x00, 0x00, 0x00,
        0x0b, 0x00, 0x00, 0x00, 0x02, 0xe0, 0xc6, 0x83, 0x4e, 0xba, 0x0b, 0x57, 0x92, 0x98, 0x28,
        0xa2, 0xbe, 0xf9, 0xed, 0xe2, 0x01, 0x01, 0x01, 0x00, 0x06, 0x20, 0x61, 0x20, 0x3d, 0x20,
        0x31] = .ok (.ofFormula (.leaf " a = 1")) ∧
      ofJson (toJson (.ofFormula (.leaf " a = 1"))) = .ok (.ofFormula (.leaf "a = 1")) := by
  have hbytes : [0x52, 0x41, 0x53, 0x54, 0x01, 0x00, 0x01, 0x00, 0x00, 0x00, 0x00, 0x00,
      0x0b, 0x00, 0x00, 0x00, 0x02, 0xe0, 0xc6, 0x83, 0x4e, 0xba, 0x0b, 0x57, 0x92, 0x98, 0x28,
      0xa2, 0xbe, 0xf9, 0xed, 0xe2, 0x01, 0x01, 0x01, 0x00, 0x06, 0x20, 0x61, 0x20, 0x3d, 0x20,
      0x31] = Archive.encode (.ofFormula (.leaf " a = 1")) := by
    -- the checksum in the header is computed here
    decide +kernel
  rw [hbytes, Archive.decode_encode_eq (by decide), ofJson_toJson_eq (by decide)]
  decide

end Rule
end Verdict
