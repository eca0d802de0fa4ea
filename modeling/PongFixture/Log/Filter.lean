import PongFixture.Log.Directive
import PongFixture.Text.Utf8

/-!
# Which events are printed

A filter is a list of rules. A rule applies to an event whose component's path begins with the
rule's target and which has all the fields that the rule names; among the rules that apply, the
most specific one decides, by its limit. An event to which no rule applies is not printed.

Only directives without a span and without values for fields make rules, since all events lie
outside of spans. Where there are no directives at all, errors are printed and nothing else.
-/

set_option autoImplicit false

namespace PongFixture.Log

/-- A rule of a filter. -/
structure Rule where
  target : Option String
  fields : List String
  limit : Limit
  deriving DecidableEq

namespace Rule

/-- Whether a rule applies to an event. -/
def applies (rule : Rule) (event : Event) : Bool :=
  (match rule.target with
    | none => true
    | some target => target.toList.isPrefixOf event.component.path.toList) &&
  rule.fields.all fun name =>
    name == "message" || event.fields.any fun field => field.name == name

/-- How specific the target of a rule is: the longer the more, and none the least. -/
def reach (rule : Rule) : Nat :=
  match rule.target with
  | none => 0
  | some target => target.length + 1

/-- Whether a rule is at least as specific as another that applies to the same event: by its
target, then by the number of its fields, then by their names. -/
def outranks (rule other : Rule) : Bool :=
  if rule.reach ≠ other.reach then decide (other.reach < rule.reach)
  else if rule.fields.length ≠ other.fields.length then
    decide (other.fields.length < rule.fields.length)
  else !decide (rule.fields < other.fields)

end Rule

/-- The rule of a directive, if it makes one. -/
def Directive.rule? (directive : Directive) : Option Rule :=
  if directive.span = none ∧ ∀ field ∈ directive.fields, field.value = none then
    some ⟨directive.target, directive.fields.map (·.name), directive.limit⟩
  else none

/-- A filter: its rules, in the order in which they were given. -/
structure Filter where
  rules : List Rule
  deriving DecidableEq

namespace Filter

/-- The filter that lets everything up to a limit through. -/
def upTo (limit : Limit) : Filter := ⟨[⟨none, [], limit⟩]⟩

/-- The filter of some directives. -/
def ofDirectives (directives : List Directive) : Filter :=
  if directives = [] then upTo (.upTo .error) else ⟨directives.filterMap Directive.rule?⟩

/-- The more specific of two rules, the later one if they are equally specific. -/
def prefer (best : Option Rule) (rule : Rule) : Option Rule :=
  match best with
  | none => some rule
  | some best => if rule.outranks best then some rule else some best

/-- The rule that decides on an event. -/
def decisive (filter : Filter) (event : Event) : Option Rule :=
  (filter.rules.filter fun rule => rule.applies event).foldl prefer none

/-- Whether a filter lets an event through. -/
def admits (filter : Filter) (event : Event) : Bool :=
  match filter.decisive event with
  | some rule => rule.limit.admits event.level
  | none => false

/-- The events that a filter lets through. -/
def admitted (filter : Filter) (events : List Event) : List Event := events.filter filter.admits

/-- The filter of a text all of whose directives must be well-formed. -/
def parse? (text : List Char) : Option Filter := (parseAll text).toOption.map ofDirectives

/-- The filter of the well-formed directives in a text. -/
def ofLevel (text : List Char) : Filter := ofDirectives (parseValid text)

/-- The filter that the environment asks for, if it does so in a well-formed text. -/
def ofEnvironment? (value : Option Bytes) : Option Filter :=
  (value.bind Utf8.decode?).bind parse?

/-- The filter of a run: the one that the environment asks for, or else the one of the level that
is configured. -/
def choose (environment : Option Bytes) (level : String) : Filter :=
  (ofEnvironment? environment).getD (ofLevel level.toList)

/-- What is said of the configured level while the filter is chosen. -/
def grumbles (environment : Option Bytes) (level : String) : List String :=
  match ofEnvironment? environment with
  | some _ => []
  | none => complaints level.toList

/-- A filter that has one limit for everything admits what its limit does. -/
@[simp] theorem admits_upTo (limit : Limit) (event : Event) :
    (upTo limit).admits event = limit.admits event.level := by
  simp [admits, decisive, upTo, Rule.applies, prefer]

/-- A well-formed text in the environment decides alone. -/
theorem choose_of_environment {environment : Option Bytes} {filter : Filter}
    (h : ofEnvironment? environment = some filter) (level : String) :
    choose environment level = filter := by
  simp [choose, h]

/-- Otherwise the configured level decides alone. -/
theorem choose_of_level {environment : Option Bytes} (h : ofEnvironment? environment = none)
    (level : String) : choose environment level = ofLevel level.toList := by
  simp [choose, h]

end Filter

end PongFixture.Log
