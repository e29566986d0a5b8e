import FirstFollow.Error
import FirstFollow.Text.Uppercase

/-! How plain tokens stand for grammar symbols. The two reserved tokens come first; of the others
those that begin with an upper-case letter are nonterminals and the rest are terminals. -/

namespace FirstFollow

structure Convention where
  epsilon : String := "ε"
  endMarker : String := "$"
  deriving DecidableEq

namespace Convention

def startsUppercase (token : String) : Bool :=
  match token.toList with
  | [] => false
  | c :: _ => Text.isUppercase c

def classify (c : Convention) (token : String) : SymbolClass :=
  if token = c.epsilon then .epsilon
  else if token = c.endMarker then .endMarker
  else if startsUppercase token then .nonterminal
  else .terminal

/-- The symbol of a non-empty token. -/
def symbol (c : Convention) (token : String) : Except Error Symbol :=
  if token = "" then .error .emptyToken
  else .ok <| match c.classify token with
    | .epsilon => .epsilon
    | .endMarker => .endMarker
    | .nonterminal => .nonterminal token
    | .terminal => .terminal token

/-- The token of a symbol: a reserved token, or its name. -/
def token (c : Convention) : Symbol → Except Error String
  | .epsilon => .ok c.epsilon
  | .endMarker => .ok c.endMarker
  | s => s.name

end Convention

end FirstFollow
