import Diorama.Value

namespace Diorama

inductive BindingFault where
  | ownParent (child : String)
  | alreadyBound (child parent : String)
  | wouldCycle (child parent : String)
  | cyclicChain (id : String)
  | missingParent (id parent : String)
  | unlistedChild (parent id : String)
  | repeatedChild (id child : String)
  | missingChild (id child : String)
  | strayChild (child id : String)
  deriving DecidableEq, Repr

def BindingFault.message : BindingFault → String
  | .ownParent child => s!"`{child}` cannot be its own parent"
  | .alreadyBound child parent => s!"`{child}` is already bound to `{parent}`"
  | .wouldCycle child parent => s!"binding `{child}` under `{parent}` would form a cycle"
  | .cyclicChain id => s!"parent chain of `{id}` is cyclic"
  | .missingParent id parent => s!"`{id}` has unregistered parent `{parent}`"
  | .unlistedChild parent id => s!"`{parent}` does not list child `{id}`"
  | .repeatedChild id child => s!"`{id}` lists child `{child}` twice"
  | .missingChild id child => s!"`{id}` has unregistered child `{child}`"
  | .strayChild child id => s!"`{child}` does not point back to parent `{id}`"

inductive Fault where
  | stackUnderflow (needed depth : Nat)
  | undefinedWord (word : String)
  | unknownShape (id : String)
  | typeMismatch (expected found : ValueType)
  | invalidBinding (cause : BindingFault)
  deriving DecidableEq, Repr

def Fault.message : Fault → String
  | .stackUnderflow needed depth =>
    s!"stack underflow: needed {needed} value(s), depth is {depth}"
  | .undefinedWord word => s!"undefined word `{word}`"
  | .unknownShape id => s!"unknown shape `{id}`"
  | .typeMismatch expected found =>
    "type mismatch: expected " ++ expected.name ++ ", got " ++ found.name
  | .invalidBinding cause => "invalid binding: " ++ cause.message

end Diorama
