import FirstFollow.Grammar.Occurrence
import FirstFollow.Solve

/-!
The equations of FIRST and FOLLOW.

FIRST of a nonterminal collects what a scan of each of its alternatives finds. FOLLOW collects
what comes after each of its occurrences, and FOLLOW of the producer where all that comes after
can vanish.
-/

namespace FirstFollow

/-- Each nonterminal is begun at most once, and every pass but the last adds a symbol to a set or
a nonterminal to the group. Besides the symbols of the grammar a set may hold `epsilon` and
`endMarker`. -/
def Grammar.budget (g : Grammar) : Budget :=
  let keys := g.productions.size
  let symbols := (OrderedSet.ofList (g.mentioned.filter (!·.isNonterminal))).size + 2
  ⟨keys, 1 + keys + keys * symbols⟩

variable {σ : Type} [Recorder σ]

/-! ### FIRST -/

/-- What a sequence can begin with. The scan goes on behind a nonterminal that can vanish and
finds `epsilon` at the end; any other symbol ends it. -/
def scan (ask : Ask σ) : Derivation → Solve σ Answer
  | [] => return ⟨{.epsilon}, .settled⟩
  | .nonterminal name :: rest => do
    let head ← ask (.nonterminal name)
    if .epsilon ∈ head.set then
      let tail ← scan ask rest
      return Answer.join ⟨head.set.erase .epsilon, head.low⟩ tail
    else return head
  | s :: _ => return ⟨{s}, .settled⟩

def firstEquation (g : Grammar) : Equation σ := fun ask emit n => do
  let alternatives ← g.derivations n
  alternatives.foldlM (fun sum d => do
    let answer ← scan ask d
    emit answer.set
    return sum.join answer) ∅

def firstOf (g : Grammar) (b : Budget) : Ask σ := (firstEquation g).solve b

def firstOfSequence (g : Grammar) (b : Budget) (d : Derivation) : Solve σ SymbolSet :=
  return (← scan (firstOf g b) d).set

/-! ### FOLLOW -/

/-- What one occurrence of `n` adds to its FOLLOW set. An occurrence at the end of a rule of `n`
itself adds nothing. -/
def followPart (g : Grammar) (b : Budget) (ask : Ask (Session σ))
    (emit : SymbolSet → Solve (Session σ) Unit) (n : Symbol) (o : Occurrence) :
    Solve (Session σ) Answer := do
  if o.suffix = [] then
    if o.producer = n then return ∅
    let answer ← ask o.producer
    emit answer.set
    return answer
  let first ← Solve.within (firstOfSequence g b o.suffix)
  emit (first.erase .epsilon)
  if .epsilon ∉ first then return ⟨first, .settled⟩
  let answer ← ask o.producer
  emit answer.set
  return Answer.join ⟨first.erase .epsilon, .settled⟩ answer

/-- No part holds `epsilon`, so none has to be taken out of the set in the end; see
`followOf_discarding`. -/
def followEquation (g : Grammar) (index : Grammar.OccurrenceIndex) (b : Budget) :
    Equation (Session σ) := fun ask emit n => do
  let start : Answer := if n = g.startSymbol then ⟨{.endMarker}, .settled⟩ else ∅
  emit start.set
  let occurrences ← Grammar.lookup index n
  occurrences.foldlM (fun sum o => return sum.join (← followPart g b ask emit n o)) start

def followOf (g : Grammar) (index : Grammar.OccurrenceIndex) (b : Budget) : Ask (Session σ) :=
  (followEquation g index b).solve b

end FirstFollow
