/-!
# Documents

The value of a configuration text: scalars, lists and records.
-/

namespace NamedRelay

inductive Scalar where
  | plain (text : String)
  | quoted (text : String)
deriving DecidableEq, Repr

def Scalar.text : Scalar → String
  | plain text => text
  | quoted text => text

inductive Document where
  | scalar (value : Scalar)
  | list (items : List Document)
  | record (fields : List (Document × Document))

namespace Document

/-- The scalar that stands where nothing is written. -/
def blank : Document :=
  .scalar (.plain "")

instance : Inhabited Document := ⟨blank⟩

def isBlank : Document → Bool
  | .scalar (.plain "") => true
  | _ => false

mutual

/-- How many lists and records stand inside one another. -/
def depth : Document → Nat
  | .scalar _ => 0
  | .list items => depthOfItems items + 1
  | .record fields => depthOfFields fields + 1

def depthOfItems : List Document → Nat
  | [] => 0
  | item :: rest => max (depth item) (depthOfItems rest)

def depthOfFields : List (Document × Document) → Nat
  | [] => 0
  | (name, value) :: rest => max (max (depth name) (depth value)) (depthOfFields rest)

end

end Document

end NamedRelay
