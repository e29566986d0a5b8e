import FirstFollow.Rule

/-! What can go wrong, and how it is told. -/

namespace FirstFollow

inductive Error where
  /-- A token without characters. -/
  | emptyToken
  /-- A head or start token that stands for another kind of symbol. -/
  | headToken (token : String)
  | keyNotNonterminal (key : Symbol)
  | startNotNonterminal (start : Symbol)
  /-- Plain text on a right-hand side. -/
  | notASymbol (symbol : Symbol) (rule : Rule)
  /-- A nonterminal without productions, with the rule that mentions it if there is one. -/
  | undefined (name : String) (rule : Option Rule)
  | lookupNotNonterminal
  | unclassified (symbol : Symbol)
  /-- A symbol without a name was asked for it. -/
  | nameless (symbol : Symbol)
  | notAGrammar (typeName : String)
  /-- A value that cannot be a member of a set. -/
  | notAMember (typeName : String)
  /-- A group holds a symbol that has no unfinished set. -/
  | notOpen (symbol : Symbol)
  /-- The budget of a computation is used up. -/
  | outOfBudget
  deriving DecidableEq

namespace Symbol

/-- The name of the type of a symbol, as error messages give it. -/
def typeName : Symbol → String
  | nonterminal _ => "NonTerm"
  | terminal _ => "Term"
  | epsilon => "Epsilon"
  | endMarker => "EndMarker"
  | bare => "Symbol"
  | pseudo => "PseudoTerm"
  | text _ => "str"

end Symbol

namespace Error

def message : Error → String
  | emptyToken => "Grammar symbol token must be non-empty"
  | headToken token => "Rule head " ++ Text.quoted token ++ " is not a non-terminal"
  | keyNotNonterminal key => "Grammar rule key " ++ key.display ++ " must be a non-terminal"
  | startNotNonterminal start => "Start symbol " ++ start.display ++ " must be a non-terminal"
  | notASymbol symbol rule =>
    symbol.display ++ " in rule " ++ rule.display ++ " is not a grammar symbol"
  | undefined name none => "Nonterminal " ++ name ++ " has no production"
  | undefined name (some rule) =>
    "Nonterminal " ++ name ++ " has no production (in rule " ++ rule.display ++ ")"
  | lookupNotNonterminal => "Grammar rule lookup must use valid non-terminal"
  | unclassified symbol => "Cannot classify " ++ symbol.display ++ ": not a grammar symbol"
  | nameless symbol => "'" ++ symbol.typeName ++ "' object has no attribute 'name'"
  | notAGrammar typeName => "Expected a Grammar, got " ++ typeName
  | notAMember typeName => "unhashable type: '" ++ typeName ++ "'"
  | notOpen symbol => "No unfinished set for " ++ symbol.display
  | outOfBudget => "Budget used up"

end Error

namespace Symbol

def name (s : Symbol) : Except Error String :=
  match s.name? with
  | some name => .ok name
  | none => .error (.nameless s)

def classify (s : Symbol) : Except Error SymbolClass :=
  match s.class? with
  | some c => .ok c
  | none => .error (.unclassified s)

end Symbol

/-- The text of a rule with any left side; one without a name has none. -/
def Rule.displayWith (lhs : Symbol) (rhs : Derivation) : Except Error String := do
  return Rule.display ⟨← lhs.name, rhs⟩

end FirstFollow
