import TaggedSchema.Number

/-!
# JSON values

The one dynamic type of the library: schemas are written in it and instances are values of it.
An object is the list of its members in the order of their keys (`Json.insert` keeps that order and
replaces an earlier member of the same key), so every pass over an object runs in key order.
-/

namespace TaggedSchema

/-- A JSON value. -/
inductive Json where
  | null
  | bool (value : Bool)
  | number (value : Number)
  | string (value : String)
  | array (items : List Json)
  | object (members : List (String × Json))

namespace Json

/-! ## 1. Members and items -/

/-- Adds a member, or replaces the member of that key, in key order. -/
def insert (key : String) (value : Json) : List (String × Json) → List (String × Json)
  | [] => [(key, value)]
  | (k, v) :: rest =>
    if key < k then (key, value) :: (k, v) :: rest
    else if k = key then (key, value) :: rest
    else (k, v) :: insert key value rest

/-- The object of these members; of two members of one key the later counts. -/
def ofMembers (members : List (String × Json)) : Json :=
  .object (members.foldl (fun acc m => insert m.1 m.2 acc) [])

/-- The member of an object, by key. -/
def get? (key : String) : Json → Option Json
  | .object members => members.lookup key
  | _ => none

/-- The text of a string. -/
def string? : Json → Option String
  | .string s => some s
  | _ => none

/-- The value of a number. -/
def number? : Json → Option Number
  | .number n => some n
  | _ => none

/-- The value of a boolean. -/
def bool? : Json → Option Bool
  | .bool b => some b
  | _ => none

/-- The items of an array. -/
def items? : Json → Option (List Json)
  | .array items => some items
  | _ => none

/-- The members of an object. -/
def members? : Json → Option (List (String × Json))
  | .object members => some members
  | _ => none

/-- The fields of a record, in the order of their names: the members of an object, other members
    ignored, or the items of an array that has just as many. -/
def fields? (names : List String) : Json → Option (List Json)
  | .object members => names.mapM fun name => members.lookup name
  | .array items => if items.length = names.length then some items else none
  | _ => none

/-! ## 2. Measures -/

mutual

/-- The depth of nesting: scalars have height `0`, an array or object is one higher than its highest
    part. -/
def height : Json → Nat
  | .array items => heightOfItems items + 1
  | .object members => heightOfMembers members + 1
  | _ => 0
termination_by structural value => value

/-- The greatest height among items. -/
def heightOfItems : List Json → Nat
  | [] => 0
  | item :: rest => max item.height (heightOfItems rest)
termination_by structural items => items

/-- The greatest height among members. -/
def heightOfMembers : List (String × Json) → Nat
  | [] => 0
  | (_, value) :: rest => max value.height (heightOfMembers rest)
termination_by structural members => members

end

mutual

/-- The number of values in a value, itself included. -/
def size : Json → Nat
  | .array items => sizeOfItems items + 1
  | .object members => sizeOfMembers members + 1
  | _ => 1
termination_by structural value => value

/-- The number of values in a list of items. -/
def sizeOfItems : List Json → Nat
  | [] => 0
  | item :: rest => item.size + sizeOfItems rest
termination_by structural items => items

/-- The number of values in a list of members. -/
def sizeOfMembers : List (String × Json) → Nat
  | [] => 0
  | (_, value) :: rest => value.size + sizeOfMembers rest
termination_by structural members => members

end

/-! ## 3. Equality by value -/

mutual

/-- Equality of values, with numbers compared by value. -/
def sameValue : Json → Json → Bool
  | .null, .null => true
  | .bool a, .bool b => a == b
  | .number a, .number b => a.sameValue b
  | .string a, .string b => a == b
  | .array xs, .array ys => sameItems xs ys
  | .object xs, .object ys => sameMembers xs ys
  | _, _ => false
termination_by structural value => value

/-- Item by item, and as many of them. -/
def sameItems : List Json → List Json → Bool
  | [], [] => true
  | x :: xs, y :: ys => x.sameValue y && sameItems xs ys
  | _, _ => false
termination_by structural items => items

/-- Member by member, and as many of them: both lists are in key order. -/
def sameMembers : List (String × Json) → List (String × Json) → Bool
  | [], [] => true
  | (key, x) :: xs, (other, y) :: ys => key == other && x.sameValue y && sameMembers xs ys
  | _, _ => false
termination_by structural members => members

end

end Json

end TaggedSchema
