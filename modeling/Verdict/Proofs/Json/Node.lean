import Mathlib.Data.List.Nodup
import Verdict.Proofs.Json.Entry
/-
Nodes: the documents that hold an entry.

There are two forms of a node, an object and an array, and each of them is a way of writing down
its parts: the documents that stand for fields of the entry.  What is read of a node depends on
its parts only, and not on their order (`Entry.reads_iff`): no field may have two parts, every part
is read by itself, and a child without a part is absent (`Entry.Completes`).

Blanks around the value of an entry do not count, so entries are compared with trimmed values
(`Entry.trimmed`).
-/
namespace Verdict.Json

/-- The items of a complete array. -/
def Items.ofList (items : List Document) : Items :=
  items.foldr .item .closed

/-- The members of a complete object. -/
def Members.ofList (members : List (String × Document)) : Members :=
  members.foldr (fun member rest => .member (some member.1) member.2 rest) .closed

/-- The parts that members are of a node.  The others do not matter. -/
def partsOf (members : List (String × Document)) : List (Field × Document) :=
  members.filterMap fun member => (Field.ofName? member.1).map (·, member.2)

/-! ## Fields and parts -/

lemma Field.ofName?_eq_child_iff {name : String} {side : Side} :
    Field.ofName? name = some (.child side) ↔ name = side.name := by
  constructor
  · intro h
    rw [Field.ofName?] at h
    split_ifs at h
    · cases h
    · have hname : (Field.name (.child side) == name) = true := by
        simpa using List.find?_some h
      exact (beq_iff_eq.mp hname).symm
  · rintro rfl
    cases side <;> decide

lemma Field.ofName?_eq_none {name : String} (h : name ∉ ["kind", "type", "value", "left", "right"]) :
    Field.ofName? name = none := by
  simp only [List.mem_cons, List.not_mem_nil, or_false, not_or] at h
  obtain ⟨hkind, htype, hvalue, hleft, hright⟩ := h
  simp [Field.ofName?, Field.all, Field.name, Side.name, htype, Ne.symm hkind, Ne.symm hvalue,
    Ne.symm hleft, Ne.symm hright]

lemma partsOf_append (members members' : List (String × Document)) :
    partsOf (members ++ members') = partsOf members ++ partsOf members' :=
  List.filterMap_append

lemma partsOf_cons {name : String} {field : Field} (h : Field.ofName? name = some field)
    (d : Document) (members : List (String × Document)) :
    partsOf ((name, d) :: members) = (field, d) :: partsOf members := by
  simp [partsOf, h]

lemma partsOf_cons_of_none {name : String} (h : Field.ofName? name = none)
    (d : Document) (members : List (String × Document)) :
    partsOf ((name, d) :: members) = partsOf members := by
  simp [partsOf, h]

lemma child_notMem_partsOf {side : Side} {members : List (String × Document)}
    (h : side.name ∉ members.map Prod.fst) : .child side ∉ (partsOf members).map Prod.fst := by
  intro hmem
  obtain ⟨⟨field, d⟩, hpart, rfl⟩ := List.mem_map.mp hmem
  obtain ⟨member, hmember, hfield⟩ := List.mem_filterMap.mp hpart
  obtain ⟨field, hname, heq⟩ := Option.map_eq_some_iff.mp hfield
  obtain ⟨rfl, rfl⟩ := Prod.mk.inj heq
  rw [Field.ofName?_eq_child_iff] at hname
  exact h (List.mem_map.mpr ⟨member, hmember, hname⟩)

namespace Entry

/-- The entry with trimmed values. -/
def trimmed : Entry → Entry
  | absent => absent
  | node kind value left right => node kind (Text.trimmed value) left.trimmed right.trimmed

/-- The document is read as `e`, up to blanks around values. -/
def Reads (levels : Nat) (d : Document) (e : Entry) : Prop :=
  ∃ e', read levels d = .ok e' ∧ e'.trimmed = e

/-- The document is read as the field of `e`. -/
def ReadsField (levels : Nat) : Field → Document → Entry → Prop
  | _, _, absent => False
  | .kind, d, node kind _ _ _ => readKind levels d = .ok kind
  | .value, d, node _ value _ _ => ∃ text, readText d = .ok text ∧ Text.trimmed text = value
  | .child .left, d, node _ _ left _ => Reads levels d left
  | .child .right, d, node _ _ _ right => Reads levels d right

/-- The field of `e` is as it has been read. -/
def Fields.Holds (fields : Fields) : Field → Entry → Prop
  | _, absent => False
  | .kind, node kind _ _ _ => fields.kind? = some kind
  | .value, node _ value _ _ => fields.value?.map Text.trimmed = some value
  | .child .left, node _ _ left _ => (fields.left?.getD absent).trimmed = left
  | .child .right, node _ _ _ right => (fields.right?.getD absent).trimmed = right

/-- The parts make up the entry `e` together with what has been read in `fields`. -/
structure Completes (levels : Nat) (fields : Fields) (parts : List (Field × Document))
    (e : Entry) : Prop where
  nodup : (parts.map Prod.fst).Nodup
  fresh : ∀ part ∈ parts, fields.has part.1 = false
  reads : ∀ part ∈ parts, ReadsField levels part.1 part.2 e
  holds : ∀ field ∉ parts.map Prod.fst, fields.Holds field e

/-- What has been read when a part is read. -/
structure Fields.Gains (levels : Nat) (fields : Fields) (field : Field) (d : Document)
    (fields' : Fields) : Prop where
  has : fields'.has field = true
  holds : ∀ e, fields'.Holds field e ↔ ReadsField levels field d e
  has_other : ∀ other ≠ field, fields'.has other = fields.has other
  holds_other : ∀ other ≠ field, ∀ e, fields'.Holds other e ↔ fields.Holds other e

/-! ## One part -/

section Step

variable {levels : Nat} {fields fields' : Fields} {field : Field} {d : Document} {e : Entry}

lemma gains_of_read (h : fields.read levels field d (read levels d) = .ok fields') :
    fields.Gains levels field d fields' := by
  match field with
  | .kind | .value | .child .left | .child .right =>
    obtain ⟨_, hread, rfl⟩ := map_eq_ok_iff.mp h
    refine ⟨rfl, ?_, ?_, ?_⟩
    · intro e
      cases e <;> simp [Fields.Holds, ReadsField, Reads, hread]
    · intro other hother
      match other with
      | .kind | .value | .child .left | .child .right => first | rfl | exact absurd rfl hother
    · intro other hother e
      match other, e with
      | _, absent => rfl
      | .kind, node .. | .value, node .. | .child .left, node .. | .child .right, node .. =>
        first | rfl | exact absurd rfl hother

lemma exists_of_readsField (fields : Fields) (h : ReadsField levels field d e) :
    ∃ fields', fields.read levels field d (read levels d) = .ok fields' := by
  match field, e, h with
  | .kind, node .., h => exact ⟨_, by rw [Fields.read, h]; rfl⟩
  | .value, node .., ⟨_, h, _⟩ => exact ⟨_, by rw [Fields.read, h]; rfl⟩
  | .child .left, node .., ⟨_, h, _⟩ => exact ⟨_, by rw [Fields.read, h]; rfl⟩
  | .child .right, node .., ⟨_, h, _⟩ => exact ⟨_, by rw [Fields.read, h]; rfl⟩

lemma not_completes_of_read_eq_error {error : JsonError} {parts : List (Field × Document)}
    (h : fields.read levels field d (read levels d) = .error error) :
    ¬ Completes levels fields ((field, d) :: parts) e := by
  intro hcompletes
  obtain ⟨fields', hread⟩ := exists_of_readsField fields (hcompletes.reads (field, d) (by simp))
  rw [h] at hread
  cases hread

lemma completes_cons (h : fields.Gains levels field d fields')
    (hnew : fields.has field = false) {parts : List (Field × Document)} :
    Completes levels fields ((field, d) :: parts) e ↔ Completes levels fields' parts e := by
  constructor
  · rintro ⟨hnodup, hfresh, hreads, hholds⟩
    obtain ⟨hnotMem, hnodup⟩ := List.nodup_cons.mp hnodup
    obtain ⟨-, hfresh⟩ := List.forall_mem_cons.mp hfresh
    obtain ⟨hread, hreads⟩ := List.forall_mem_cons.mp hreads
    refine ⟨hnodup, ?_, hreads, ?_⟩
    · intro part hpart
      have hne : part.1 ≠ field := by
        rintro rfl
        exact hnotMem (List.mem_map.mpr ⟨part, hpart, rfl⟩)
      rw [h.has_other _ hne]
      exact hfresh part hpart
    · intro other hother
      -- the field holds because its part has been read, and the others are as they were
      by_cases hsame : other = field
      · subst hsame
        exact (h.holds e).mpr hread
      · exact (h.holds_other other hsame e).mpr (hholds other (by simp [hsame, hother]))
  · rintro ⟨hnodup, hfresh, hreads, hholds⟩
    have hne : ∀ part ∈ parts, part.1 ≠ field := by
      rintro part hpart rfl
      simpa [h.has] using hfresh part hpart
    have hnotMem : field ∉ parts.map Prod.fst := by
      intro hmem
      obtain ⟨part, hpart, heq⟩ := List.mem_map.mp hmem
      exact hne part hpart heq
    have hread : ReadsField levels field d e := (h.holds e).mp (hholds field hnotMem)
    refine ⟨List.nodup_cons.mpr ⟨hnotMem, hnodup⟩, List.forall_mem_cons.mpr ⟨hnew, ?_⟩,
      List.forall_mem_cons.mpr ⟨hread, hreads⟩, ?_⟩
    · intro part hpart
      rw [← h.has_other _ (hne part hpart)]
      exact hfresh part hpart
    · intro other hother
      rw [List.map_cons, List.mem_cons, not_or] at hother
      exact (h.holds_other other hother.1 e).mp (hholds other hother.2)

lemma forall_field_iff {p : Field → Prop} :
    (∀ field, p field) ↔ p .kind ∧ p .value ∧ p (.child .left) ∧ p (.child .right) := by
  constructor
  · intro h
    exact ⟨h _, h _, h _, h _⟩
  · rintro ⟨hkind, hvalue, hleft, hright⟩ (_ | _ | _ | _)
    · exact hkind
    · exact hvalue
    · exact hleft
    · exact hright

lemma completes_nil (missing : Field → JsonError) :
    Completes levels fields [] e ↔ ∃ e', fields.entry missing = .ok e' ∧ e'.trimmed = e := by
  have hnil : Completes levels fields [] e ↔ ∀ field, fields.Holds field e :=
    ⟨fun h field => h.holds field (by simp), fun h => ⟨by simp, by simp, by simp, fun _ _ => h _⟩⟩
  rw [hnil, forall_field_iff]
  obtain ⟨_ | kind, _ | value, left?, right?⟩ := fields
  all_goals cases e <;> simp [Fields.Holds, Fields.entry, trimmed]

end Step

/-! ## All parts of a node -/

/-- What is read of the members of an object depends on the parts among them. -/
lemma readMembers_iff_completes {levels : Nat} {fields : Fields} {e : Entry}
    (members : List (String × Document)) :
    (∃ e', readMembers levels fields (.ofList members) = .ok e' ∧ e'.trimmed = e) ↔
      Completes levels fields (partsOf members) e := by
  induction members generalizing fields with
  | nil => exact (completes_nil _).symm
  | cons member members ih =>
    obtain ⟨name, d⟩ := member
    show (∃ e', readMembers levels fields (.member (some name) d (.ofList members)) = .ok e' ∧
      e'.trimmed = e) ↔ _
    rw [readMembers]
    cases hfield : Field.ofName? name with
    | none =>
      rw [partsOf_cons_of_none hfield]
      exact ih
    | some field =>
      rw [partsOf_cons hfield]
      by_cases hnew : fields.has field = true
      · have hold : ¬ Completes levels fields ((field, d) :: partsOf members) e := by
          intro h
          simpa [hnew] using h.fresh (field, d) (by simp)
        simpa [hnew] using hold
      · cases hread : fields.read levels field d (read levels d) with
        | error error => simpa [hnew, hread] using not_completes_of_read_eq_error hread
        | ok fields' =>
          rw [completes_cons (gains_of_read hread) (by simpa using hnew), ← ih]
          simp [hnew, hread]

/-- What is read of the items of an array depends on the parts that they are by their places. -/
lemma readItems_iff_completes {levels : Nat} {fields : Fields} {e : Entry} {order : List Field}
    (items : List Document) (horder : order.Nodup)
    (hfresh : ∀ field ∈ order, fields.has field = false) :
    (∃ e', readItems levels order fields (.ofList items) = .ok e' ∧ e'.trimmed = e) ↔
      items.length ≤ order.length ∧ Completes levels fields (order.zip items) e := by
  induction items generalizing fields order with
  | nil =>
    rw [List.zip_nil_right, List.length_nil, and_iff_right (Nat.zero_le _)]
    exact (completes_nil _).symm
  | cons d items ih =>
    show (∃ e', readItems levels order fields (.item d (.ofList items)) = .ok e' ∧
      e'.trimmed = e) ↔ _
    cases order with
    | nil =>
      rw [readItems]
      simp
    | cons field order =>
      rw [readItems]
      obtain ⟨hnew, hfresh⟩ := List.forall_mem_cons.mp hfresh
      obtain ⟨hnotMem, horder⟩ := List.nodup_cons.mp horder
      rw [List.zip_cons_cons, List.length_cons, List.length_cons, Nat.add_le_add_iff_right]
      cases hread : fields.read levels field d (read levels d) with
      | error error => simpa using fun _ => not_completes_of_read_eq_error hread
      | ok fields' =>
        have hgains := gains_of_read hread
        have hfresh' : ∀ other ∈ order, fields'.has other = false := by
          intro other hother
          rw [hgains.has_other other (ne_of_mem_of_not_mem hother hnotMem)]
          exact hfresh other hother
        rw [completes_cons hgains hnew]
        exact ih horder hfresh'

/-! ## Changes of parts -/

section Parts

variable {levels : Nat} {fields : Fields} {field : Field} {side : Side} {d d' : Document}
  {e : Entry} {before after parts parts' : List (Field × Document)}

/-- The order of the parts does not matter. -/
lemma Completes.perm (h : Completes levels fields parts e) (hperm : parts.Perm parts') :
    Completes levels fields parts' e := by
  have hfields := hperm.map Prod.fst
  refine ⟨hfields.nodup_iff.mp h.nodup, ?_, ?_, ?_⟩
  · intro part hpart
    exact h.fresh part (hperm.mem_iff.mpr hpart)
  · intro part hpart
    exact h.reads part (hperm.mem_iff.mpr hpart)
  · intro field hfield
    exact h.holds field (hfields.mem_iff.not.mpr hfield)

/-- A part may be another one that is read alike. -/
lemma Completes.replace (h : Completes levels fields (before ++ (field, d) :: after) e)
    (hread : ReadsField levels field d e → ReadsField levels field d' e) :
    Completes levels fields (before ++ (field, d') :: after) e := by
  obtain ⟨hnodup, hfresh, hreads, hholds⟩ := h
  simp only [List.forall_mem_append, List.forall_mem_cons] at hfresh hreads
  refine ⟨by simpa using hnodup, ?_, ?_, by simpa using hholds⟩
  · simpa only [List.forall_mem_append, List.forall_mem_cons] using hfresh
  · simp only [List.forall_mem_append, List.forall_mem_cons]
    exact ⟨hreads.1, hread hreads.2.1, hreads.2.2⟩

/-- A child that is null is read as no child at all. -/
lemma readsField_null :
    ReadsField levels (.child side) .null e ↔ ({} : Fields).Holds (.child side) e := by
  cases e with
  | absent => cases side <;> rfl
  | node kind value left right =>
    cases side <;> simp [ReadsField, Fields.Holds, Reads, read]

lemma completes_null (h : .child side ∉ parts.map Prod.fst) :
    Completes levels {} ((.child side, .null) :: parts) e ↔ Completes levels {} parts e := by
  constructor
  · rintro ⟨hnodup, hfresh, hreads, hholds⟩
    obtain ⟨-, hnodup⟩ := List.nodup_cons.mp hnodup
    obtain ⟨-, hfresh⟩ := List.forall_mem_cons.mp hfresh
    obtain ⟨hread, hreads⟩ := List.forall_mem_cons.mp hreads
    refine ⟨hnodup, hfresh, hreads, ?_⟩
    intro field hfield
    by_cases hside : field = .child side
    · subst hside
      exact readsField_null.mp hread
    · exact hholds field (by simp [hside, hfield])
  · rintro ⟨hnodup, hfresh, hreads, hholds⟩
    have hnew : ({} : Fields).has (.child side) = false := by cases side <;> rfl
    have hread : ReadsField levels (.child side) .null e := readsField_null.mpr (hholds _ h)
    refine ⟨List.nodup_cons.mpr ⟨h, hnodup⟩, List.forall_mem_cons.mpr ⟨hnew, hfresh⟩,
      List.forall_mem_cons.mpr ⟨hread, hreads⟩, ?_⟩
    intro field hfield
    exact hholds field fun hmem => hfield (List.mem_cons_of_mem _ hmem)

end Parts

end Entry

/-! ## Nodes -/

/-- The document is a node with the given parts. -/
inductive Document.HasParts : Document → List (Field × Document) → Prop
  | object (members : List (String × Document)) :
    HasParts (.object (.ofList members)) (partsOf members)
  | array {items : List Document} (hlength : items.length ≤ Field.all.length) :
    HasParts (.array (.ofList items)) (Field.all.zip items)

namespace Entry

variable {levels : Nat} {d : Document} {parts : List (Field × Document)} {e : Entry}

/-- What is read of a node depends on its parts. -/
theorem reads_iff (h : d.HasParts parts) :
    Reads (levels + 1) d e ↔ Completes levels {} parts e := by
  cases h with
  | object members => exact readMembers_iff_completes members
  | array hlength =>
    refine (readItems_iff_completes _ (by decide) (by decide)).trans ?_
    exact and_iff_right hlength

lemma not_reads_zero (h : d.HasParts parts) : ¬ Reads 0 d e := by
  rintro ⟨e', hread, -⟩
  cases h with
  | object => simp [read] at hread
  | array => simp [read] at hread

/-! ## Faulty nodes -/

lemma readItems_of_torn {items : Items} (h : items.Torn) (order : List Field) (fields : Fields) :
    readItems levels order fields items ≠ .ok e := by
  cases items with
  | closed => exact h.elim
  | broken => simp [readItems]
  | item value rest =>
    cases order with
    | nil => simp [readItems]
    | cons field order =>
      rw [readItems]
      split
      · simp
      · exact readItems_of_torn (show rest.Torn from h) order _

lemma readMembers_of_torn {members : Members} (h : members.Torn) (fields : Fields) :
    readMembers levels fields members ≠ .ok e := by
  cases members with
  | closed => exact h.elim
  | broken => simp [readMembers]
  | member name? value rest =>
    have hrest : rest.Torn := h
    cases name? with
    | none => simp [readMembers]
    | some name =>
      rw [readMembers]
      split
      · exact readMembers_of_torn hrest fields
      · split_ifs
        · simp
        · split
          · simp
          · exact readMembers_of_torn hrest _

/-- A document that ends in a fault is not read. -/
lemma read_of_torn (h : d.Torn) : read levels d ≠ .ok e := by
  cases d with
  | broken => simp [read]
  | array items =>
    cases levels with
    | zero => simp [read]
    | succ levels => exact readItems_of_torn (show items.Torn from h) _ _
  | object members =>
    cases levels with
    | zero => simp [read]
    | succ levels => exact readMembers_of_torn (show members.Torn from h) _
  | _ => exact h.elim

end Entry
end Verdict.Json
