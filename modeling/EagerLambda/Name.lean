import EagerLambda.Text.Token

/-!
# Names

Names are compared as texts, character by character.
-/

namespace EagerLambda

/-- A name is any text. Terms built by hand may use names that the reader
would not accept. -/
abbrev Name := String

/-- Whether a name is one identifier: a letter or an underscore, then letters,
digits and underscores. -/
def Name.isIdentifier (x : Name) : Bool :=
  TokenClass.identifier.accepts x.toList

end EagerLambda
