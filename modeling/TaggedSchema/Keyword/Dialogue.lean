import TaggedSchema.Graph

/-!
# What a keyword does at run time

A keyword that is not part of the core acts through a dialogue with the evaluator: step by step it
reports errors, has subschemas evaluated, and asks for what it needs to know. A dialogue is finite
whatever the answers are, and it says nothing about how the evaluator works, so the keywords of a
host take part on the same terms as the built-in ones.
-/

namespace TaggedSchema

/-- Where a subschema stands in the schema, seen from the node of the keyword: under the keyword
    itself, possibly one segment further, or under a sibling keyword. -/
inductive SchemaPlace where
  | own (segment : Option String)
  | sibling (keyword : String)
deriving DecidableEq

/-- A subschema and what it is to be evaluated on. With a segment the value stands one segment
    further in the instance, without one at the place of the keyword. -/
structure Request where
  schema : NodeId
  value : Json
  segment : Option String

/-- The rest of what a keyword does. -/
inductive Dialogue where
  | done
  /-- Reports an error of the keyword. -/
  | report (message : String) (next : Dialogue)
  /-- Has a subschema evaluated into the report; the answer is whether it added no error. -/
  | evaluate (place : SchemaPlace) (request : Request) (next : Bool → Dialogue)
  /-- Has a subschema evaluated apart from the report; the answer is whether it found no error. -/
  | test (request : Request) (next : Bool → Dialogue)
  /-- Asks whether the report is full. -/
  | whenFull (next : Bool → Dialogue)
  /-- Asks for the place in the instance. -/
  | locate (next : Pointer → Dialogue)
  /-- Leaves a note for whoever observes the evaluation. Notes never reach the report. -/
  | note (label : String) (next : Dialogue)

/-- What a keyword does with an instance. -/
abbrev Assertion := Json → Dialogue

namespace Dialogue

/-- Reports one error and ends. -/
def fail (message : String) : Dialogue := .report message .done

/-- Has a subschema evaluated and goes on whatever comes of it. -/
def check (place : SchemaPlace) (request : Request) (next : Dialogue) : Dialogue :=
  .evaluate place request fun _ => next

/-- Takes a step for each element in turn, as long as the report is not full. -/
def each {α : Type} (step : α → Dialogue → Dialogue) : List α → Dialogue
  | [] => .done
  | a :: rest => .whenFull fun full => if full then .done else step a (each step rest)

end Dialogue

end TaggedSchema
