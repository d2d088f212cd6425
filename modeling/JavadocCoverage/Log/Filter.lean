import JavadocCoverage.Log.Directive

/-!
# Log filters

Which events are shown.  A filter is a list of directives, written with commas
between them.  For each event the most specific directive that cares about it decides;
an event that none cares about is not shown.
-/

namespace JavadocCoverage

/-- A filter of events. -/
abbrev Filter := List Directive

namespace Filter

/-- Reads a filter. -/
def ofText? (text : Text) : Option Filter :=
  ((text.splitOn ',').filter (!·.isEmpty)).mapM Directive.ofText?

/-- The filter that shows warnings and what is graver. -/
def standard : Filter := [⟨none, none, true, Level.warn.detail⟩]

/-- The directive that decides on an event: the most specific of those that care about
it, and of equals the last. -/
def deciding? (filter : Filter) (event : Event) : Option Directive :=
  (filter.filter (·.caresAbout event)).foldl
    (fun best directive =>
      match best with
      | some best => if best.isAbove directive then some best else some directive
      | none => some directive)
    none

/-- The event is shown. -/
def shows (filter : Filter) (event : Event) : Bool :=
  (filter.deciding? event).any fun directive => event.level.detail ≤ directive.detail

/-- The log of events: the lines of those that are shown. -/
def log (filter : Filter) (events : List Event) : Text :=
  ofLines ((events.filter filter.shows).map Event.line)

/-- The filter that is used: the first of the texts given that can be read, and the
standard filter when there is none. -/
def choose (texts : List Text) : Filter :=
  (texts.findSome? ofText?).getD standard

end Filter

end JavadocCoverage
