import Std.Data.ExtTreeMap
import Verdict.Value
/-
Contexts: the attributes that are known where a rule is evaluated, with their
values.

A context is an ordered map, and two contexts with the same values are equal
whatever way they were filled.  Names are ordered by code points, which is the
order in which a context lists its entries.
-/
namespace Verdict

/-- The known attributes with their values. -/
structure Context where
  entries : Std.ExtTreeMap String Value
deriving DecidableEq

namespace Context

/-- The context that knows no attribute. -/
def empty : Context := ⟨∅⟩

/-- The value of the attribute `name`. -/
def get? (c : Context) (name : String) : Option Value := c.entries[name]?

/-- `c` with the attribute `name` set to `value`, whether it was known or not. -/
def insert (c : Context) (name : String) (value : Value) : Context :=
  ⟨c.entries.insert name value⟩

/-- `c` with the attribute `name` set to `value`, for contexts that are written down
as a chain of settings. -/
def set (c : Context) (name : String) (value : Value) : Context := c.insert name value

/-- The context of a list of attributes; of two with one name the later counts. -/
def ofList (pairs : List (String × Value)) : Context :=
  ⟨.ofList pairs⟩

/-- The attributes in the order of their names. -/
def toList (c : Context) : List (String × Value) := c.entries.toList

/-- The number of known attributes. -/
def size (c : Context) : Nat := c.entries.size

/-- No attribute is known. -/
def isEmpty (c : Context) : Bool := c.entries.isEmpty

/-! A context is what `get?` shows of it. -/

@[simp] theorem get?_empty (name : String) : empty.get? name = none := by
  simp [empty, get?]

theorem get?_insert (c : Context) (name other : String) (value : Value) :
    (c.insert name value).get? other = if name = other then some value else c.get? other := by
  simp [insert, get?, Std.ExtTreeMap.getElem?_insert]

theorem ext {c d : Context} (h : ∀ name, c.get? name = d.get? name) : c = d := by
  obtain ⟨entries⟩ := c
  obtain ⟨entries'⟩ := d
  congr 1
  exact Std.ExtTreeMap.ext_getElem? (fun {name} => h name)

end Context
end Verdict
