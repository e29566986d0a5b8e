import FirstFollow.Equations

/-! A builder answers questions about one grammar, one after another, and keeps what it has
computed. A question that fails leaves its traces in the memos. -/

namespace FirstFollow

structure Builder where
  grammar : Grammar
  /-- Whether every occurrence in an alternative counts, or the first one only. -/
  every : Bool
  budget : Budget
  first : Memo
  follow : Memo
  deriving DecidableEq

inductive Step where
  | first (s : Symbol)
  | follow (s : Symbol)
  | sequence (d : Derivation)
  | every (value : Bool)
  deriving DecidableEq

inductive Reply where
  | set (s : SymbolSet)
  | flag (value : Bool)
  deriving DecidableEq

/-- What a step gives, and the events on the way. -/
structure Outcome where
  reply : Except Error Reply
  events : List Event

namespace Outcome

def log (o : Outcome) : List LogLine := logLines o.events

end Outcome

namespace Builder

def new (g : Grammar) (every : Bool) : Builder :=
  ⟨g, every, g.budget, .fresh .first, .fresh .follow⟩

abbrev Compute := Solve (Session Trace)

def firstSet (g : Grammar) (budget : Budget) (s : Symbol) : Compute SymbolSet :=
  Solve.within (return (← firstOf g budget s).set)

def sequenceSet (g : Grammar) (budget : Budget) (d : Derivation) : Compute SymbolSet :=
  Solve.within (firstOfSequence g budget d)

def followSet (g : Grammar) (index : Grammar.OccurrenceIndex) (budget : Budget) (s : Symbol) :
    Compute SymbolSet :=
  return (← followOf g index budget s).set

/-- Both memos, around an empty trace. -/
def session (b : Builder) : Session (Session Trace) := ⟨b.follow, ⟨b.first, ∅⟩⟩

/-- Computes with the memos of the builder. -/
def compute (b : Builder) (x : Compute SymbolSet) : Outcome × Builder :=
  let (result, s) := StateT.run (ExceptT.run x) b.session
  (⟨result.map .set, s.around.around.events⟩,
    { b with first := s.around.memo, follow := s.memo })

def step (b : Builder) : Step → Outcome × Builder
  | .first s => b.compute (firstSet b.grammar b.budget s)
  | .follow s =>
    b.compute (followSet b.grammar (b.grammar.occurrenceIndex b.every) b.budget s)
  | .sequence d => b.compute (sequenceSet b.grammar b.budget d)
  | .every value => (⟨.ok (.flag value), []⟩, { b with every := value })

/-- The steps are taken one after another, also behind one that fails. -/
def run (b : Builder) : List Step → List Outcome × Builder
  | [] => ([], b)
  | q :: qs =>
    let (outcome, b') := b.step q
    let (outcomes, b'') := b'.run qs
    (outcome :: outcomes, b'')

end Builder

end FirstFollow
