import PongFixture.Log.Filter
import PongFixture.Text.Quoted

/-!
# Log lines

An event is printed on a line of its own: its level, its message, and its fields in their order,
each with its name. Free text in a field is quoted.
-/

set_option autoImplicit false

namespace PongFixture

/-- A field as a log line shows it. -/
def Field.print (field : Field) : String :=
  field.name ++ "=" ++ (if field.quoted then Quoted.ofString field.value else field.value)

/-- The line of an event. -/
def Event.line (event : Event) : String :=
  event.level.name ++ " " ++ event.message ++
    String.join (event.fields.map fun field => " " ++ field.print)

namespace Log

/-- The lines that are printed of some events under a filter. -/
def lines (filter : Filter) (events : List Event) : List String :=
  (filter.admitted events).map Event.line

/-- Of events in sequence, the lines come in the same sequence. -/
@[simp] theorem lines_append (filter : Filter) (first second : List Event) :
    lines filter (first ++ second) = lines filter first ++ lines filter second := by
  simp [lines, Filter.admitted]

end Log

end PongFixture
