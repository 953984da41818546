/-!
# Stages of a registration

What is done for one dictionary node, in order, preceded by the search for such nodes.
-/

namespace TypeDictionary

inductive Stage
  | discover
  | fetch
  | parse
  | buildModel
  | materialize
  | crossReference
  | register
  | done
deriving DecidableEq, Repr

namespace Stage

def display : Stage → String
  | discover => "discover"
  | fetch => "fetch"
  | parse => "parse"
  | buildModel => "build-model"
  | materialize => "materialize"
  | crossReference => "cross-reference"
  | register => "register"
  | done => "done"

/-- The stages that a node's registration goes through when nothing fails. -/
def all : List Stage :=
  [fetch, parse, buildModel, materialize, crossReference, register, done]

end Stage

end TypeDictionary
