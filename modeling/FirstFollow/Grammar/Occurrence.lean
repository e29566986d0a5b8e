import FirstFollow.Grammar.Basic

/-! Where nonterminals stand on right-hand sides, and what follows them there. -/

namespace FirstFollow

/-- A nonterminal on the right-hand side of `rule`, `suffix` being what follows it. -/
structure Occurrence where
  rule : Rule
  suffix : Derivation
  deriving DecidableEq

namespace Occurrence

def producer (o : Occurrence) : Symbol := o.rule.lhs

def derivation (o : Occurrence) : Derivation := o.rule.derivation

end Occurrence

/-- The occurrences in a part of a right-hand side, with the names of the nonterminals. Unless
every occurrence counts, names in `seen` are passed over. -/
def Rule.occurrences (r : Rule) (every : Bool) (seen : List String) :
    Derivation → List (String × Occurrence)
  | [] => []
  | .nonterminal name :: rest =>
    if every || name ∉ seen then (name, ⟨r, rest⟩) :: r.occurrences every (name :: seen) rest
    else r.occurrences every seen rest
  | _ :: rest => r.occurrences every seen rest

namespace Grammar

/-- All occurrences, or the first one of each nonterminal in each alternative. -/
def allOccurrences (g : Grammar) (every : Bool) : List (String × Occurrence) :=
  g.rules.flatMap fun r => r.occurrences every [] r.derivation

abbrev OccurrenceIndex := Keyed String (List Occurrence)

def occurrenceIndex (g : Grammar) (every : Bool) : OccurrenceIndex :=
  let all := g.allOccurrences every
  g.productions.map fun name _ => all.filterMap fun o => if o.1 = name then some o.2 else none

/-- The occurrences of one nonterminal. -/
def occurrencesOf (g : Grammar) (s : Symbol) (every : Bool) : Except Error (List Occurrence) :=
  lookup (g.occurrenceIndex every) s

end Grammar

end FirstFollow
