import EagerLambda.Log.Event
import EagerLambda.Text.Quoted

/-!
# Log lines

An event in one line: its level, where it comes from, what it says, and its
fields.
-/

namespace EagerLambda

def FieldValue.render : FieldValue → String
  | text s => quote s
  | plain s => s
  | count n => n.repr

namespace Event

/-- The part of the program that an event comes from. -/
def origin : Event → String
  | inputLeft .. => "funck::box_tree_impl::box_tree_recursive_descent_parsing"
  | minted .. => "funck::box_tree_impl::fresh_names"
  | renamed .. => "funck::box_tree_impl::box_tree_substitution"
  | expanded .. | reduced .. | finished .. | bound .. =>
    "funck::box_tree_impl::box_tree_execution"
  | unreadable .. | abandoned .. => "funck::end_to_end"

def render (e : Event) : String :=
  e.level.label ++ " " ++ e.origin ++ ": " ++ e.message ++
    String.join (e.fields.map fun (name, value) => " " ++ name ++ "=" ++ value.render)

end Event

end EagerLambda
