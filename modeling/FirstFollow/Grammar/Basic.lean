import FirstFollow.Error
import FirstFollow.Event
import FirstFollow.Keyed

/-! Context-free grammars in which every nonterminal that is used has productions. A grammar is
built from rules over arbitrary symbols, which are refused at their first fault. -/

namespace FirstFollow

/-- Symbols that a right-hand side may hold when `heads` have productions. -/
def Symbol.Admissible (heads : List String) : Symbol → Prop
  | .nonterminal name => name ∈ heads
  | .text _ => False
  | _ => True

/-- Alternatives per nonterminal, in the order of their declaration, and a start symbol. -/
structure Grammar where
  start : String
  productions : Keyed String (List Derivation)
  start_mem : start ∈ productions
  closed : ∀ e ∈ productions.entries, ∀ d ∈ e.2, ∀ s ∈ d, s.Admissible productions.keys
  deriving DecidableEq

namespace Grammar

/-! ### Construction -/

/-- The fault of one right-hand side symbol of `rule`. -/
def refusal? (heads : List String) (rule : Rule) (s : Symbol) : Option Error :=
  match s with
  | .text _ => some (.notASymbol s rule)
  | .nonterminal name => if name ∈ heads then none else some (.undefined name (some rule))
  | _ => none

theorem refusal?_eq_none_iff {heads : List String} {rule : Rule} {s : Symbol} :
    refusal? heads rule s = none ↔ s.Admissible heads := by
  cases s <;> simp [refusal?, Symbol.Admissible]

/-- The first fault on a right-hand side, in the order of declaration. -/
def firstRefusal? (productions : Keyed String (List Derivation)) : Option Error :=
  productions.entries.findSome? fun e =>
    e.2.findSome? fun d => d.findSome? (refusal? productions.keys ⟨e.1, d⟩)

theorem firstRefusal?_eq_none_iff {productions : Keyed String (List Derivation)} :
    firstRefusal? productions = none ↔
      ∀ e ∈ productions.entries, ∀ d ∈ e.2, ∀ s ∈ d, s.Admissible productions.keys := by
  simp [firstRefusal?, List.findSome?_eq_none_iff, refusal?_eq_none_iff]

/-- The name of a rule key. -/
def keyName : Symbol → Except Error String
  | .nonterminal name => .ok name
  | s => .error (.keyNotNonterminal s)

def startName : Symbol → Except Error String
  | .nonterminal name => .ok name
  | s => .error (.startNotNonterminal s)

/-- Keys that are no nonterminals are refused first, then a start symbol that is none or has no
productions, then the first fault on a right-hand side. -/
def ofRules (start : Symbol) (rules : List (Symbol × List Derivation)) : Except Error Grammar := do
  let named ← rules.mapM fun e => return (← keyName e.1, e.2)
  let productions := Keyed.ofList named
  let name ← startName start
  if hstart : name ∈ productions then
    match hclosed : firstRefusal? productions with
    | none => .ok ⟨name, productions, hstart, firstRefusal?_eq_none_iff.1 hclosed⟩
    | some e => .error e
  else .error (.undefined name none)

/-! ### Parts -/

def startSymbol (g : Grammar) : Symbol := .nonterminal g.start

/-- The nonterminals with productions, in the order of their declaration. -/
def keys (g : Grammar) : List Symbol := g.productions.keys.map .nonterminal

def items (g : Grammar) : List (Symbol × List Derivation) :=
  g.productions.entries.map fun e => (.nonterminal e.1, e.2)

def rules (g : Grammar) : List Rule :=
  g.productions.entries.flatMap fun e => e.2.map (Rule.mk e.1)

/-- All right-hand side symbols, with repetitions. -/
def mentioned (g : Grammar) : List Symbol := g.rules.flatMap Rule.derivation

def terminals (g : Grammar) : SymbolSet := .ofList (g.mentioned.filter Symbol.isTerminal)

instance : Membership Symbol Grammar := ⟨fun g s => s ∈ g.keys⟩

instance (s : Symbol) (g : Grammar) : Decidable (s ∈ g) := inferInstanceAs (Decidable (s ∈ g.keys))

@[simp] theorem mem_iff {g : Grammar} {s : Symbol} :
    s ∈ g ↔ ∃ name, name ∈ g.productions ∧ s = .nonterminal name := by
  show s ∈ g.keys ↔ _
  simp [keys, Keyed.mem_def, eq_comm]

theorem startSymbol_mem (g : Grammar) : g.startSymbol ∈ g := mem_iff.2 ⟨_, g.start_mem, rfl⟩

theorem mem_mentioned {g : Grammar} {s : Symbol} :
    s ∈ g.mentioned ↔ ∃ e ∈ g.productions.entries, ∃ d ∈ e.2, s ∈ d := by
  simp only [mentioned, rules, List.mem_flatMap, List.mem_map]
  constructor
  · rintro ⟨_, ⟨e, he, d, hd, rfl⟩, hs⟩
    exact ⟨e, he, d, hd, hs⟩
  · rintro ⟨e, he, d, hd, hs⟩
    exact ⟨_, ⟨e, he, d, hd, rfl⟩, hs⟩

/-- The value that a map keyed by nonterminals has at a symbol. -/
def lookup {ν : Type} (table : Keyed String ν) : Symbol → Except Error ν
  | .nonterminal name =>
    match table.get? name with
    | some v => .ok v
    | none => .error (.undefined name none)
  | _ => .error .lookupNotNonterminal

def derivations (g : Grammar) (s : Symbol) : Except Error (List Derivation) :=
  lookup g.productions s

/-- The same start and the same alternatives at every nonterminal; the order of declaration does
not count. -/
def Same (g h : Grammar) : Prop := g.start = h.start ∧ g.productions.Same h.productions

instance (g h : Grammar) : Decidable (g.Same h) := inferInstanceAs (Decidable (_ ∧ _))

/-- The event that tells of a grammar just made. -/
def made (g : Grammar) : Event := .grammarMade g.startSymbol g.keys.length

def display (g : Grammar) : String :=
  "Grammar(\n  start = " ++ g.start ++ ",\n" ++
    String.join (g.rules.map fun r => "  " ++ r.display ++ "\n") ++ ")"

end Grammar

end FirstFollow
