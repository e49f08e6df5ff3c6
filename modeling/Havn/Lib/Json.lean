import Mathlib.Algebra.Ring.Nat

/-!
# JSON values

A JSON tree with `get` on a string key and the `as…` projections, which answer `none` on a value of
another shape.

* **Numbers** are a nonnegative integer, a negative integer, or the bit pattern of a binary64 float.
* **Objects** are association lists and `get` reads the first entry of a key.
-/

namespace Havn.Lib

structure F64 where
  bits : BitVec 64
deriving DecidableEq

inductive Number
  | posInt (n : Nat)
  | negInt (n : Nat)
  | float (value : F64)
deriving DecidableEq

inductive Json
  | null
  | bool (b : Bool)
  | number (n : Number)
  | string (s : String)
  | array (items : List Json)
  | object (fields : List (String × Json))
deriving BEq

namespace Json

def get (key : String) : Json → Option Json
  | object fields => fields.lookup key
  | _ => none

def asStr : Json → Option String
  | string s => some s
  | _ => none

def asArray : Json → Option (List Json)
  | array items => some items
  | _ => none

def asObject : Json → Option (List (String × Json))
  | object fields => some fields
  | _ => none

def asBool : Json → Option Bool
  | bool b => some b
  | _ => none

/-- Floats and nonnegative integers beyond the signed range are refused. -/
def asI64 : Json → Option Int
  | number (.posInt n) => if n < 2 ^ 63 then some (n : Int) else none
  | number (.negInt n) => some (Int.negSucc n)
  | _ => none

def asU64 : Json → Option Nat
  | number (.posInt n) => some n
  | _ => none

def strAt (key : String) (value : Json) : Option String := (value.get key).bind asStr

@[elab_as_elim]
theorem induction {P : Json → Prop} (null : P null) (bool : ∀ b, P (bool b))
    (number : ∀ n, P (number n)) (string : ∀ s, P (string s))
    (array : ∀ items, (∀ item ∈ items, P item) → P (array items))
    (object : ∀ fields, (∀ field ∈ fields, P field.2) → P (object fields)) (value : Json) :
    P value :=
  @Json.rec P (fun items => ∀ item ∈ items, P item) (fun fields => ∀ field ∈ fields, P field.2)
    (fun field => P field.2) null bool number string array object (List.forall_mem_nil _)
    (fun _ _ first rest => List.forall_mem_cons.mpr ⟨first, rest⟩) (List.forall_mem_nil _)
    (fun _ _ first rest => List.forall_mem_cons.mpr ⟨first, rest⟩) (fun _ _ held => held) value

end Json

end Havn.Lib
