import FirstFollow.Symbol

/-! One alternative of a nonterminal, and its text. -/

namespace FirstFollow

structure Rule where
  head : String
  derivation : Derivation
  deriving DecidableEq

namespace Rule

def lhs (r : Rule) : Symbol := .nonterminal r.head

/-- The right-hand side, each symbol after a space; an empty one is shown as `ε`. -/
def displayDerivation : Derivation → String
  | [] => " ε"
  | d => String.join (d.map fun s => " " ++ s.display)

def display (r : Rule) : String := r.head ++ " :=" ++ displayDerivation r.derivation

end Rule

end FirstFollow
