import FirstFollow.Builder
import FirstFollow.Convention

/-! The table of all FIRST and FOLLOW sets of a grammar, and its form in plain tokens. -/

namespace FirstFollow

structure Table where
  first : Keyed Symbol SymbolSet
  follow : Keyed Symbol SymbolSet
  deriving DecidableEq

abbrev TokenSet := OrderedSet String

/-- The table in tokens: a set of tokens for each name. -/
structure TokenTable where
  first : Keyed String TokenSet
  follow : Keyed String TokenSet
  deriving DecidableEq

namespace Table

/-! ### Construction -/

/-- FIRST and FOLLOW of each nonterminal in turn. -/
def rows (g : Grammar) (index : Grammar.OccurrenceIndex) (budget : Budget) (names : List Symbol) :
    Builder.Compute (List (Symbol × SymbolSet × SymbolSet)) :=
  names.mapM fun n => do
    let first ← Builder.firstSet g budget n
    let follow ← Builder.followSet g index budget n
    return (n, first, follow)

/-- Computes with fresh memos. The events tell where the table begins and, if no row fails, where
it is complete. -/
def build (g : Grammar) (every : Bool) : Except Error Table × List Event :=
  let builder := Builder.new g every
  let work := rows g (g.occurrenceIndex every) builder.budget g.keys
  let (result, s) := StateT.run (ExceptT.run work) builder.session
  let events := .tableBegun g.keys.length :: s.around.around.events
  match result with
  | .error e => (.error e, events)
  | .ok rs =>
    (.ok ⟨.ofList (rs.map fun r => (r.1, r.2.1)), .ofList (rs.map fun r => (r.1, r.2.2))⟩,
      events ++ [.tableComplete])

/-! ### Tokens -/

/-- The tokens of a set. Where several symbols have no token, the choice of the one that is refused
is made here: the bare symbol, if it is among them, and else the first in the order of symbols. -/
def tokenSet (c : Convention) (s : SymbolSet) : Except Error TokenSet := do
  if .bare ∈ s then throw (.nameless .bare)
  return .ofList (← s.toList.mapM c.token)

/-- Names that are met again keep their first place and take their last set. -/
def tokenSets (c : Convention) (sets : Keyed Symbol SymbolSet) :
    Except Error (Keyed String TokenSet) :=
  return .ofList (← sets.entries.mapM fun e => return (← e.1.name, ← tokenSet c e.2))

def toTokens (t : Table) (c : Convention) : Except Error TokenTable :=
  return ⟨← tokenSets c t.first, ← tokenSets c t.follow⟩

end Table

end FirstFollow
