/-
# OneShot.Json.Basic -- JSON values

A number without fraction and exponent is an integer, any other a binary
floating-point number, kept as its bits.  An object is a list of members.  As a
*value* an object has each key once, in increasing order; `Json.ofMembers` brings
members that were read into that form, and of a repeated key the last one counts.
-/

namespace OneShot

set_option autoImplicit false

inductive Json
  | null
  | bool (b : Bool)
  | int (n : Int)
  | float (bits : UInt64)
  | string (s : String)
  | array (items : List Json)
  | object (members : List (String × Json))

namespace Json

/-! ## Equality -/

mutual

def same : Json → Json → Bool
  | null, null => true
  | bool a, bool b => a == b
  | int a, int b => a == b
  | float a, float b => a == b
  | string a, string b => a == b
  | array a, array b => sameItems a b
  | object a, object b => sameMembers a b
  | _, _ => false

def sameItems : List Json → List Json → Bool
  | [], [] => true
  | a :: as, b :: bs => same a b && sameItems as bs
  | _, _ => false

def sameMembers : List (String × Json) → List (String × Json) → Bool
  | [], [] => true
  | a :: as, b :: bs => sameMember a b && sameMembers as bs
  | _, _ => false

def sameMember : String × Json → String × Json → Bool
  | (k, a), (l, b) => k == l && same a b

end

mutual

theorem same_iff : ∀ a b : Json, same a b = true ↔ a = b
  | null, b => by cases b <;> simp [same]
  | bool _, b => by cases b <;> simp [same]
  | int _, b => by cases b <;> simp [same]
  | float _, b => by cases b <;> simp [same]
  | string _, b => by cases b <;> simp [same]
  | array as, b => by cases b <;> simp [same, sameItems_iff as]
  | object as, b => by cases b <;> simp [same, sameMembers_iff as]

theorem sameItems_iff : ∀ as bs : List Json, sameItems as bs = true ↔ as = bs
  | [], bs => by cases bs <;> simp [sameItems]
  | a :: as, bs => by cases bs <;> simp [sameItems, same_iff a, sameItems_iff as]

theorem sameMembers_iff :
    ∀ as bs : List (String × Json), sameMembers as bs = true ↔ as = bs
  | [], bs => by cases bs <;> simp [sameMembers]
  | a :: as, bs => by cases bs <;> simp [sameMembers, sameMember_iff a, sameMembers_iff as]

theorem sameMember_iff : ∀ a b : String × Json, sameMember a b = true ↔ a = b
  | (k, a), (l, b) => by simp [sameMember, same_iff a]

end

instance : DecidableEq Json := fun a b => decidable_of_iff _ (same_iff a b)

/-! ## Objects -/

/-- Puts a member where its key belongs; it takes the place of one with the same key. -/
def insert (key : String) (value : Json) : List (String × Json) → List (String × Json)
  | [] => [(key, value)]
  | (k, v) :: rest =>
      if key = k then (key, value) :: rest
      else if key < k then (key, value) :: (k, v) :: rest
      else (k, v) :: insert key value rest

/-- The object with the given members: in key order, the last of each key. -/
def ofMembers (members : List (String × Json)) : Json :=
  object (members.foldl (fun sorted m => insert m.1 m.2 sorted) [])

mutual

/-- The same value with every object in key order. -/
def normal : Json → Json
  | array items => array (normalItems items)
  | object members => ofMembers (normalMembers members)
  | v => v

def normalItems : List Json → List Json
  | [] => []
  | v :: rest => v.normal :: normalItems rest

def normalMembers : List (String × Json) → List (String × Json)
  | [] => []
  | m :: rest => normalMember m :: normalMembers rest

def normalMember : String × Json → String × Json
  | (key, v) => (key, v.normal)

end

/-- The value under a key of an object. -/
def field? (key : String) : Json → Option Json
  | object members => (members.find? (·.1 == key)).map (·.2)
  | _ => none

end Json

end OneShot
