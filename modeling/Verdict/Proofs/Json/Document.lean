import Mathlib.Data.List.Basic
import Verdict.Json.Document
/-
Documents and their tokens.

Every document is written by a list of tokens (`Document.tokens`); numbers
and strings are tokens already.  A reader that is about to read a value finds the
document there and goes on with the tokens behind it, whatever arrays and objects it is inside
of (`State.run_tokens`); where it is inside of none, the document is what the tokens hold
(`ofTokens_tokens`).

There is no other way to a document without a fault: where no document stands, what the reader
makes of the tokens is torn, that is, faulty at its end (`whole_or_torn_of_ofTokens`).
-/
namespace Verdict.Json

/-! ## Tokens of a document -/

mutual

/-- The tokens that write a document. -/
def Document.tokens : Document → List Token
  | .broken => [.fault]
  | .null => [.null]
  | .bool b => [.bool b]
  | .number n => [.number n]
  | .string text? => [.string text?]
  | .array items => .beginArray :: items.tokens []
  | .object members => .beginObject :: members.tokens []

/-- The tokens that write items and the end of their array; the first item comes after the
tokens in `separator`. -/
def Items.tokens (separator : List Token) : Items → List Token
  | .closed => [.endArray]
  | .broken => [.fault]
  | .item value rest => separator ++ value.tokens ++ rest.tokens [.comma]

/-- The tokens that write members and the end of their object; the first member comes after
the tokens in `separator`. -/
def Members.tokens (separator : List Token) : Members → List Token
  | .closed => [.endObject]
  | .broken => [.fault]
  | .member name? value rest =>
    separator ++ .string name? :: .colon :: value.tokens ++ rest.tokens [.comma]

end

mutual

/-- There is no fault in the document. -/
def Document.Whole : Document → Prop
  | .broken => False
  | .array items => items.Whole
  | .object members => members.Whole
  | _ => True

/-- There is no fault in any of the items. -/
def Items.Whole : Items → Prop
  | .closed => True
  | .broken => False
  | .item value rest => value.Whole ∧ rest.Whole

/-- There is no fault in any of the members. -/
def Members.Whole : Members → Prop
  | .closed => True
  | .broken => False
  | .member _ value rest => value.Whole ∧ rest.Whole

end

namespace Document.State

/-- The first item of an array is read like any other. -/
lemma run_firstItem {d : Document} (h : d.Whole) (frames : List Frame) (rest : List Token) :
    (inside .firstItem frames).run (d.tokens ++ rest) =
      (inside .value (.array [] :: frames)).run (d.tokens ++ rest) := by
  cases d with
  | broken => exact h.elim
  | _ => rfl

mutual

/-- Where a value may stand, a document is read as a whole. -/
theorem run_tokens (d : Document) (h : d.Whole) (frames : List Frame) (rest : List Token) :
    (inside .value frames).run (d.tokens ++ rest) = (put d frames).run rest := by
  cases d with
  | broken => exact h.elim
  | array items =>
    cases items with
    | closed => rfl
    | broken => exact h.elim
    | item value items =>
      show (inside .firstItem frames).run ((value.tokens ++ items.tokens [.comma]) ++ rest) = _
      rw [List.append_assoc, run_firstItem h.1, run_tokens value h.1]
      exact run_itemTokens items h.2 [value] frames rest
  | object members =>
    cases members with
    | closed => rfl
    | broken => exact h.elim
    | member name? value members =>
      show (inside .value (.object [] name? :: frames)).run
        ((value.tokens ++ members.tokens [.comma]) ++ rest) = _
      rw [List.append_assoc, run_tokens value h.1]
      exact run_memberTokens members h.2 [(name?, value)] frames rest
  | _ => rfl

/-- Further items join those that have been read of an array. -/
theorem run_itemTokens (items : Items) (h : items.Whole) (done : List Document)
    (frames : List Frame) (rest : List Token) :
    (inside (.afterItem done) frames).run (items.tokens [.comma] ++ rest) =
      (put (.array (.prepend done items)) frames).run rest := by
  cases items with
  | closed => rfl
  | broken => exact h.elim
  | item value items =>
    show (inside .value (.array done :: frames)).run
      ((value.tokens ++ items.tokens [.comma]) ++ rest) = _
    rw [List.append_assoc, run_tokens value h.1]
    exact run_itemTokens items h.2 (value :: done) frames rest

/-- Further members join those that have been read of an object. -/
theorem run_memberTokens (members : Members) (h : members.Whole)
    (done : List (Option String × Document)) (frames : List Frame) (rest : List Token) :
    (inside (.afterMember done) frames).run (members.tokens [.comma] ++ rest) =
      (put (.object (.prepend done members)) frames).run rest := by
  cases members with
  | closed => rfl
  | broken => exact h.elim
  | member name? value members =>
    show (inside .value (.object done name? :: frames)).run
      ((value.tokens ++ members.tokens [.comma]) ++ rest) = _
    rw [List.append_assoc, run_tokens value h.1]
    exact run_memberTokens members h.2 ((name?, value) :: done) frames rest

end

end Document.State

/-- The tokens of a document without a fault hold the document. -/
theorem Document.ofTokens_tokens {d : Document} (h : d.Whole) (rest : List Token) :
    ofTokens (d.tokens ++ rest) = (d, rest) := by
  rw [ofTokens, State.run_tokens d h, State.put, State.run]

/-! ## Faulty documents -/

/-- There is a fault behind the items. -/
def Items.Torn : Items → Prop
  | .closed => False
  | .broken => True
  | .item _ rest => rest.Torn

/-- There is a fault behind the members. -/
def Members.Torn : Members → Prop
  | .closed => False
  | .broken => True
  | .member _ _ rest => rest.Torn

/-- The document ends in a fault. -/
def Document.Torn : Document → Prop
  | .broken => True
  | .array items => items.Torn
  | .object members => members.Torn
  | _ => False

lemma Items.Torn.not_whole {items : Items} (h : items.Torn) : ¬ items.Whole := by
  intro hwhole
  cases items with
  | closed => exact h
  | broken => exact hwhole
  | item value rest => exact (show rest.Torn from h).not_whole hwhole.2

lemma Members.Torn.not_whole {members : Members} (h : members.Torn) : ¬ members.Whole := by
  intro hwhole
  cases members with
  | closed => exact h
  | broken => exact hwhole
  | member name? value rest => exact (show rest.Torn from h).not_whole hwhole.2

lemma Document.Torn.not_whole {d : Document} (h : d.Torn) : ¬ d.Whole := by
  cases d with
  | broken => exact id
  | array items => exact Items.Torn.not_whole h
  | object members => exact Members.Torn.not_whole h
  | _ => exact h.elim

lemma Items.torn_prepend (done : List Document) {rest : Items} (h : rest.Torn) :
    (prepend done rest).Torn := by
  induction done generalizing rest with
  | nil => exact h
  | cons value done ih => exact @ih (.item value rest) h

lemma Members.torn_prepend (done : List (Option String × Document)) {rest : Members}
    (h : rest.Torn) : (prepend done rest).Torn := by
  induction done generalizing rest with
  | nil => exact h
  | cons member done ih => exact @ih (.member member.1 member.2 rest) h

namespace Document

lemma torn_place_cut (place : Place) : place.cut.Torn := by
  cases place with
  | value => trivial
  | firstItem => trivial
  | firstName => trivial
  | afterItem done => exact Items.torn_prepend done trivial
  | nextName done => exact Members.torn_prepend done trivial
  | colon done name? => exact Members.torn_prepend _ trivial
  | afterMember done => exact Members.torn_prepend done trivial

lemma torn_foldl_cut (frames : List Frame) {d : Document} (h : d.Torn) :
    (frames.foldl Frame.cut d).Torn := by
  induction frames generalizing d with
  | nil => exact h
  | cons frame frames ih =>
    refine ih ?_
    cases frame with
    | array done => exact Items.torn_prepend (d :: done) trivial
    | object done name? => exact Members.torn_prepend ((name?, d) :: done) trivial

namespace State

/-- What a reader in the state `s` makes of the tokens ends in a fault. -/
def Tears (s : State) (tokens : List Token) : Prop :=
  ∃ d : Document, s.run tokens = (d, []) ∧ d.Torn

lemma tears_nil (place : Place) (frames : List Frame) : (inside place frames).Tears [] :=
  ⟨_, rfl, torn_foldl_cut frames (torn_place_cut place)⟩

section Tears

variable {place place' : Place} {frames frames' : List Frame} {token : Token} {tokens : List Token}

lemma Tears.stop (h : step place frames token = .stop place.cut frames) (tokens : List Token) :
    (inside place frames).Tears (token :: tokens) := by
  refine ⟨frames.foldl Frame.cut place.cut, ?_, torn_foldl_cut frames (torn_place_cut place)⟩
  rw [run, h, State.stop, run]

/-- What is torn behind a token is torn with the token. -/
lemma Tears.step (h : (inside place' frames').Tears tokens)
    (hstep : step place frames token = inside place' frames') :
    (inside place frames).Tears (token :: tokens) := by
  obtain ⟨d, hrun, hd⟩ := h
  exact ⟨d, by rw [run, hstep, hrun], hd⟩

/-- What is torn behind an item is torn with the item. -/
lemma Tears.item {d : Document} {done : List Document}
    (h : (inside (.afterItem (d :: done)) frames).Tears tokens) (hd : d.Whole) :
    (inside .value (.array done :: frames)).Tears (d.tokens ++ tokens) := by
  obtain ⟨e, hrun, he⟩ := h
  exact ⟨e, by rw [run_tokens d hd, put, hrun], he⟩

/-- What is torn behind a member is torn with the member. -/
lemma Tears.member {name? : Option String} {d : Document}
    {done : List (Option String × Document)}
    (h : (inside (.afterMember ((name?, d) :: done)) frames).Tears tokens) (hd : d.Whole) :
    (inside (.nextName done) frames).Tears (.string name? :: .colon :: d.tokens ++ tokens) := by
  obtain ⟨e, hrun, he⟩ := h
  refine ⟨e, ?_, he⟩
  show (inside .value (.object done name? :: frames)).run (d.tokens ++ tokens) = _
  rw [run_tokens d hd, put, hrun]

/-- A token that ends no array is the start of an item, also of the first one. -/
lemma Tears.firstItem (h : (inside .value (.array [] :: frames)).Tears (token :: tokens))
    (hfirst : token ≠ .endArray) : (inside .firstItem frames).Tears (token :: tokens) := by
  cases token with
  | endArray => exact absurd rfl hfirst
  | _ => exact h

/-- A token that ends no object is the start of a member, also of the first one. -/
lemma Tears.firstName (h : (inside (.nextName []) frames).Tears (token :: tokens))
    (hfirst : token ≠ .endObject) : (inside .firstName frames).Tears (token :: tokens) := by
  cases token with
  | endObject => exact absurd rfl hfirst
  | _ => exact h

end Tears

mutual

/-- A document stands where a value may stand, or what is read there is torn. -/
theorem value_or_tears (tokens : List Token) :
    (∃ (d : Document) (rest : List Token), d.Whole ∧ tokens = d.tokens ++ rest) ∨
      ∀ frames, (inside .value frames).Tears tokens := by
  match tokens with
  | [] => exact Or.inr (tears_nil _)
  | .null :: tokens => exact Or.inl ⟨.null, tokens, trivial, rfl⟩
  | .bool b :: tokens => exact Or.inl ⟨.bool b, tokens, trivial, rfl⟩
  | .number n :: tokens => exact Or.inl ⟨.number n, tokens, trivial, rfl⟩
  | .string text? :: tokens => exact Or.inl ⟨.string text?, tokens, trivial, rfl⟩
  | .endArray :: tokens | .endObject :: tokens | .colon :: tokens | .comma :: tokens
  | .fault :: tokens => exact Or.inr fun frames => .stop rfl tokens
  | .beginArray :: [] => exact Or.inr fun frames => (tears_nil .firstItem frames).step rfl
  | .beginArray :: .endArray :: tokens => exact Or.inl ⟨.array .closed, tokens, trivial, rfl⟩
  | .beginArray :: token :: tokens =>
    by_cases hfirst : token = .endArray
    · subst hfirst
      exact Or.inl ⟨.array .closed, tokens, trivial, rfl⟩
    rcases value_or_tears (token :: tokens) with ⟨d, rest, hd, hrest⟩ | htears
    · -- what follows the first item is shorter, so the recursion ends
      have hlength : tokens.length + 1 = d.tokens.length + rest.length := by
        simpa using congrArg List.length hrest
      rcases items_or_tears rest with ⟨items, rest', hitems, rfl⟩ | htears
      · refine Or.inl ⟨.array (.item d items), rest', ⟨hd, hitems⟩, ?_⟩
        rw [hrest]
        simp [Document.tokens, Items.tokens]
      · refine Or.inr fun frames => Tears.step (Tears.firstItem ?_ hfirst) rfl
        rw [hrest]
        exact (htears [d] frames).item hd
    · exact Or.inr fun frames => ((htears _).firstItem hfirst).step rfl
  | .beginObject :: [] => exact Or.inr fun frames => (tears_nil .firstName frames).step rfl
  | .beginObject :: token :: tokens =>
    by_cases hfirst : token = .endObject
    · subst hfirst
      exact Or.inl ⟨.object .closed, tokens, trivial, rfl⟩
    rcases member_or_tears (token :: tokens) with ⟨name?, d, rest, hd, hrest⟩ | htears
    · have hlength : tokens.length = d.tokens.length + rest.length + 1 := by
        simpa using congrArg List.length hrest
      rcases members_or_tears rest with ⟨members, rest', hmembers, rfl⟩ | htears
      · refine Or.inl ⟨.object (.member name? d members), rest', ⟨hd, hmembers⟩, ?_⟩
        rw [hrest]
        simp [Document.tokens, Members.tokens]
      · refine Or.inr fun frames => Tears.step (Tears.firstName ?_ hfirst) rfl
        rw [hrest]
        exact (htears [(name?, d)] frames).member hd
    · exact Or.inr fun frames => ((htears _ _).firstName hfirst).step rfl
termination_by tokens.length

/-- Further items and the end of their array stand behind an item, or what is read there is
torn. -/
theorem items_or_tears (tokens : List Token) :
    (∃ (items : Items) (rest : List Token), items.Whole ∧
        tokens = items.tokens [.comma] ++ rest) ∨
      ∀ done frames, (inside (.afterItem done) frames).Tears tokens := by
  match tokens with
  | [] => exact Or.inr fun done => tears_nil _
  | .endArray :: tokens => exact Or.inl ⟨.closed, tokens, trivial, rfl⟩
  | .comma :: tokens =>
    rcases value_or_tears tokens with ⟨d, rest, hd, rfl⟩ | htears
    · rcases items_or_tears rest with ⟨items, rest', hitems, rfl⟩ | htears
      · refine Or.inl ⟨.item d items, rest', ⟨hd, hitems⟩, ?_⟩
        simp [Items.tokens]
      · exact Or.inr fun done frames => ((htears (d :: done) frames).item hd).step rfl
    · exact Or.inr fun done frames => (htears _).step rfl
  | .beginArray :: tokens | .beginObject :: tokens | .endObject :: tokens | .colon :: tokens
  | .null :: tokens | .bool _ :: tokens | .number _ :: tokens | .string _ :: tokens
  | .fault :: tokens => exact Or.inr fun done frames => .stop rfl tokens
termination_by tokens.length

/-- A member stands where a name may stand, or what is read there is torn. -/
theorem member_or_tears (tokens : List Token) :
    (∃ (name? : Option String) (d : Document) (rest : List Token), d.Whole ∧
        tokens = .string name? :: .colon :: d.tokens ++ rest) ∨
      ∀ done frames, (inside (.nextName done) frames).Tears tokens := by
  match tokens with
  | [] => exact Or.inr fun done => tears_nil _
  | .string name? :: [] =>
    exact Or.inr fun done frames => (tears_nil (.colon done name?) frames).step rfl
  | .string name? :: token :: tokens =>
    by_cases hcolon : token = .colon
    · subst hcolon
      rcases value_or_tears tokens with ⟨d, rest, hd, rfl⟩ | htears
      · exact Or.inl ⟨name?, d, rest, hd, rfl⟩
      · exact Or.inr fun done frames => ((htears _).step rfl).step rfl
    · have hstop (done : List (Option String × Document)) (frames : List Frame) :
          step (.colon done name?) frames token =
            .stop (Place.colon done name?).cut frames := by
        cases token with
        | colon => exact absurd rfl hcolon
        | _ => rfl
      exact Or.inr fun done frames => (Tears.stop (hstop done frames) tokens).step rfl
  | .beginArray :: tokens | .beginObject :: tokens | .endObject :: tokens | .colon :: tokens
  | .null :: tokens | .bool _ :: tokens | .number _ :: tokens | .endArray :: tokens
  | .comma :: tokens | .fault :: tokens => exact Or.inr fun done frames => .stop rfl tokens
termination_by tokens.length

/-- Further members and the end of their object stand behind a member, or what is read there is
torn. -/
theorem members_or_tears (tokens : List Token) :
    (∃ (members : Members) (rest : List Token), members.Whole ∧
        tokens = members.tokens [.comma] ++ rest) ∨
      ∀ done frames, (inside (.afterMember done) frames).Tears tokens := by
  match tokens with
  | [] => exact Or.inr fun done => tears_nil _
  | .endObject :: tokens => exact Or.inl ⟨.closed, tokens, trivial, rfl⟩
  | .comma :: tokens =>
    rcases member_or_tears tokens with ⟨name?, d, rest, hd, rfl⟩ | htears
    · rcases members_or_tears rest with ⟨members, rest', hmembers, rfl⟩ | htears
      · refine Or.inl ⟨.member name? d members, rest', ⟨hd, hmembers⟩, ?_⟩
        simp [Members.tokens]
      · exact Or.inr fun done frames => ((htears ((name?, d) :: done) frames).member hd).step rfl
    · exact Or.inr fun done frames => (htears _ _).step rfl
  | .beginArray :: tokens | .beginObject :: tokens | .endArray :: tokens | .colon :: tokens
  | .null :: tokens | .bool _ :: tokens | .number _ :: tokens | .string _ :: tokens
  | .fault :: tokens => exact Or.inr fun done frames => .stop rfl tokens
termination_by tokens.length

end

end State

/-- What tokens hold is torn, unless it is the document at their start. -/
theorem whole_or_torn_of_ofTokens {d : Document} {tokens rest : List Token}
    (h : ofTokens tokens = (d, rest)) : (d.Whole ∧ tokens = d.tokens ++ rest) ∨ d.Torn := by
  rcases State.value_or_tears tokens with ⟨e, rest', he, rfl⟩ | htears
  · obtain ⟨rfl, rfl⟩ : e = d ∧ rest' = rest := by
      simpa [ofTokens_tokens he] using h
    exact Or.inl ⟨he, rfl⟩
  · obtain ⟨e, hrun, he⟩ := htears []
    obtain ⟨rfl, -⟩ : e = d ∧ [] = rest := by
      simpa [ofTokens, hrun] using h
    exact Or.inr he

end Document

end Verdict.Json
