import TaggedSchema.Keyword.Dialogue
import TaggedSchema.Pattern

/-!
# The built-in checks

What the keywords outside the core check, in compiled form: each check holds the subschemas, limits
and patterns it needs, and `Check.run` is what it does with an instance. A check of arrays, objects,
strings or numbers passes every value of another type.
-/

namespace TaggedSchema

/-- The four comparisons with a limit. -/
inductive Comparison where
  | atLeast
  | atMost
  | above
  | below
deriving DecidableEq

namespace Comparison

/-- Whether the comparison holds, by the values of two binary64 numbers. -/
def holds (c : Comparison) (value limit : Binary64) : Bool :=
  match c with
  | atLeast => limit.units ≤ value.units
  | atMost => value.units ≤ limit.units
  | above => limit.units < value.units
  | below => value.units < limit.units

/-- The sign of the comparison. -/
def sign : Comparison → String
  | atLeast => ">="
  | atMost => "<="
  | above => ">"
  | below => "<"

end Comparison

/-- Which end of a range a limit is. -/
inductive Limit where
  | least (n : Nat)
  | most (n : Nat)
deriving DecidableEq

namespace Limit

/-- What is wrong with a number of things, if anything. -/
def violation? (l : Limit) (size : Nat) (noun : String) : Option String :=
  match l with
  | least n =>
    if size < n then some ("must NOT have fewer than " ++ Nat.repr n ++ " " ++ noun) else none
  | most n =>
    if n < size then some ("must NOT have more than " ++ Nat.repr n ++ " " ++ noun) else none

end Limit

/-- A compiled check. -/
inductive Check where
  | not (schema : NodeId)
  | conditional (condition : NodeId) (positive negative : Option NodeId)
  | items (schema : NodeId) (skip : Nat)
  | tuple (schemas : List NodeId) (additional : Option NodeId)
  | leadingItems (schemas : List NodeId)
  | contains (schema : NodeId) (least : Nat) (most : Option Nat)
  | additionalProperties (schema : NodeId) (forbidden : Bool) (known : List String)
      (patterns : List NamedPattern)
  | patternProperties (entries : List (NamedPattern × NodeId))
  | propertyNames (schema : NodeId)
  | dependentSchemas (entries : List (String × NodeId))
  | bound (comparison : Comparison) (limit : Binary64) (text : String)
  | multipleOf (divisor : Number) (text : String)
  | length (limit : Limit)
  | pattern (p : NamedPattern)
  | itemCount (limit : Limit)
  | propertyCount (limit : Limit)
  | uniqueItems

namespace Check

/-! ## 1. Numbers -/

/-- `2 ^ 50`: the quotient of a multiple may be off by this part of itself, or of one. -/
def precision : Nat := 2 ^ 50

/-- Whether a quotient is an integer, but for rounding. -/
def isNearInt (quotient : Binary64) : Bool :=
  quotient.distanceToInt * precision ≤ max quotient.magnitude Binary64.unitsPerOne

/-- Whether a divisor greater than zero divides a number. Two signed 64-bit integers are divided
    exactly, any other numbers as binary64 numbers, whose quotient has to be finite and nearly an
    integer. -/
def divides (divisor n : Number) : Bool :=
  match divisor.signed?, n.signed? with
  | some d, some k => k % d == 0
  | _, _ => (n.toBinary64.div? divisor.toBinary64).any isNearInt

/-! ## 2. Arrays -/

/-- The position of the first of the earlier items that equals an item. -/
def firstEqual? (item : Json) (earlier : List Json) : Option Nat :=
  earlier.findIdx? fun e => e.sameValue item

/-- The first item that has an equal before it, and the first such equal, by position. -/
def firstDuplicate? (items : List Json) : Option (Nat × Nat) :=
  (items.zipIdx.findSome? fun (item, j) => (firstEqual? item (items.take j)).map (j, ·))

/-- Counts the items that pass, until there are enough, and judges their number. -/
def countItems (schema : NodeId) (enough : Nat) (verdict : Nat → Dialogue) :
    Nat → List (Json × Nat) → Dialogue
  | found, [] => verdict found
  | found, (item, index) :: rest =>
    if enough ≤ found then verdict found
    else
      .test ⟨schema, item, some (Nat.repr index)⟩ fun passes =>
        countItems schema enough verdict (if passes then found + 1 else found) rest

/-- What is said about a number of items that pass. -/
def containsVerdict (least : Nat) (most : Option Nat) (found : Nat) : Dialogue :=
  if found < least then
    .fail ("must contain at least " ++ Nat.repr least ++ " valid item(s)")
  else
    match most with
    | some most =>
      if most < found then .fail ("must contain at most " ++ Nat.repr most ++ " valid item(s)")
      else .done
    | none => .done

/-- The number of passing items beyond which nothing changes. -/
def enoughItems (least : Nat) (most : Option Nat) : Nat :=
  match most with
  | some most => min (most + 1) (2 ^ 64 - 1)
  | none => least

/-- One item of an array, checked under the keyword. -/
def checkItem (schema : NodeId) (segment : Option String) (item : Json) (index : Nat)
    (next : Dialogue) : Dialogue :=
  .check (.own segment) ⟨schema, item, some (Nat.repr index)⟩ next

/-- One item of a tuple: against the schema of its position, or else against the additional one. -/
def tupleItem (schemas : List NodeId) (additional : Option NodeId) (item : Json × Nat)
    (next : Dialogue) : Dialogue :=
  match schemas[item.2]?, additional with
  | some schema, _ => checkItem schema (some (Nat.repr item.2)) item.1 item.2 next
  | none, some schema =>
    .check (.sibling "additionalItems") ⟨schema, item.1, some (Nat.repr item.2)⟩ next
  | none, none => .done

/-! ## 3. Objects -/

/-- One member of an object, against the schema of members that nothing else names. -/
def additionalMember (schema : NodeId) (forbidden : Bool) (known : List String)
    (patterns : List NamedPattern) (member : String × Json) (next : Dialogue) : Dialogue :=
  if known.contains member.1 || patterns.any (·.isMatch member.1) then next
  else if forbidden then
    .report ("must NOT have additional property '" ++ member.1 ++ "'") next
  else .check (.own none) ⟨schema, member.2, some member.1⟩ next

/-- One member of an object, against the schema of one pattern, if it matches. -/
def patternMember (pair : (String × Json) × (NamedPattern × NodeId)) (next : Dialogue) : Dialogue :=
  let ((name, value), (p, schema)) := pair
  if p.isMatch name then
    .check (.own (some p.text)) ⟨schema, value, some name⟩ next
  else next

/-- The schema that depends on a property, if the property is present. -/
def dependentMember (owner : Json) (members : List (String × Json)) (entry : String × NodeId)
    (next : Dialogue) : Dialogue :=
  if (members.lookup entry.1).isSome then
    .check (.own (some entry.1)) ⟨entry.2, owner, none⟩ next
  else next

/-! ## 4. All checks -/

/-- Reports a violation, if there is one. -/
def failIf (violation : Option String) : Dialogue :=
  match violation with
  | some message => .fail message
  | none => .done

/-- What a condition leads to: the schema of its branch has to pass as well. -/
def branch (keyword : String) (schema : Option NodeId) (value : Json) : Dialogue :=
  match schema with
  | none => .done
  | some schema =>
    .evaluate (.sibling keyword) ⟨schema, value, none⟩ fun passed =>
      if passed then .done else .fail ("must match \"" ++ keyword ++ "\" schema")

/-- What a check does with an instance. -/
def run (c : Check) (value : Json) : Dialogue :=
  match c, value with
  | not schema, value =>
    .test ⟨schema, value, none⟩ fun passed => if passed then .fail "must NOT be valid" else .done
  | conditional condition positive negative, value =>
    .test ⟨condition, value, none⟩ fun passed =>
      if passed then branch "then" positive value else branch "else" negative value
  | items schema skip, .array list =>
    .each (fun item next => checkItem schema none item.1 item.2 next) (list.zipIdx.drop skip)
  | tuple schemas additional, .array list => .each (tupleItem schemas additional) list.zipIdx
  | leadingItems schemas, .array list =>
    .each (fun item next => checkItem item.2 (some (Nat.repr item.1.2)) item.1.1 item.1.2 next)
      (list.zipIdx.zip schemas)
  | contains schema least most, .array list =>
    countItems schema (enoughItems least most) (containsVerdict least most) 0 list.zipIdx
  | additionalProperties schema forbidden known patterns, .object members =>
    .each (additionalMember schema forbidden known patterns) members
  | patternProperties entries, .object members =>
    .each patternMember (members.flatMap fun member => entries.map (member, ·))
  | propertyNames schema, .object members =>
    .each (fun member next => .check (.own none) ⟨schema, .string member.1, some member.1⟩ next)
      members
  | dependentSchemas entries, .object members =>
    .each (dependentMember (.object members) members) entries
  | bound comparison limit text, .number n =>
    if comparison.holds n.toBinary64 limit then .done
    else .fail ("must be " ++ comparison.sign ++ " " ++ text)
  | multipleOf divisor text, .number n =>
    if divides divisor n then .done else .fail ("must be multiple of " ++ text)
  | length limit, .string s => failIf (limit.violation? s.length "characters")
  | pattern p, .string s =>
    if p.isMatch s then .done else .fail ("must match pattern \"" ++ p.text ++ "\"")
  | itemCount limit, .array list => failIf (limit.violation? list.length "items")
  | propertyCount limit, .object members => failIf (limit.violation? members.length "properties")
  | uniqueItems, .array list =>
    match firstDuplicate? list with
    | some (j, i) =>
      .fail ("must NOT have duplicate items (items ## " ++ Nat.repr j ++ " and " ++ Nat.repr i
        ++ " are identical)")
    | none => .done
  | _, _ => .done

end Check

end TaggedSchema
