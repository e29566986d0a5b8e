import FirstFollow.OrderedSet
import FirstFollow.Text.Quoted

/-! Grammar symbols and what may stand in their place, with one total order on all of them. -/

namespace FirstFollow

/-- What a right-hand side may hold. `bare` and `pseudo` are symbols of no particular kind, the
second one a pseudo-terminal; `text` stands where a symbol belongs and is none. -/
inductive Symbol where
  | nonterminal (name : String)
  | terminal (name : String)
  | epsilon
  | endMarker
  | bare
  | pseudo
  | text (content : String)
  deriving DecidableEq

abbrev Derivation := List Symbol

/-- The four kinds of grammar symbols. -/
inductive SymbolClass where
  | terminal
  | nonterminal
  | epsilon
  | endMarker
  deriving DecidableEq

namespace Symbol

def isNonterminal : Symbol → Bool
  | nonterminal _ => true
  | _ => false

def isTerminal : Symbol → Bool
  | terminal _ => true
  | _ => false

def isEpsilon : Symbol → Bool
  | epsilon => true
  | _ => false

def isEndMarker : Symbol → Bool
  | endMarker => true
  | _ => false

/-- Terminals, the two reserved symbols and the bare pseudo-terminal. -/
def isPseudoTerminal : Symbol → Bool
  | terminal _ | epsilon | endMarker | pseudo => true
  | _ => false

def isText : Symbol → Bool
  | text _ => true
  | _ => false

def name? : Symbol → Option String
  | nonterminal name | terminal name => some name
  | _ => none

def class? : Symbol → Option SymbolClass
  | nonterminal _ => some .nonterminal
  | terminal _ => some .terminal
  | epsilon => some .epsilon
  | endMarker => some .endMarker
  | _ => none

/-- The text of a symbol. Names stand as they are, a terminal's in double quotes. -/
def display : Symbol → String
  | nonterminal name => name
  | terminal name => "\"" ++ name ++ "\""
  | epsilon => "ε"
  | endMarker => "$"
  | bare => "Symbol()"
  | pseudo => "PseudoTerm()"
  | text content => Text.quoted content

@[simp] theorem isNonterminal_iff {s : Symbol} :
    s.isNonterminal = true ↔ ∃ name, s = nonterminal name := by
  cases s <;> simp [isNonterminal]

/-! ### The order -/

/-- The order of the kinds. -/
def rank : Symbol → Nat
  | endMarker => 0
  | epsilon => 1
  | nonterminal _ => 2
  | pseudo => 3
  | text _ => 4
  | bare => 5
  | terminal _ => 6

def label : Symbol → String
  | nonterminal name | terminal name => name
  | text content => content
  | _ => ""

theorem eq_of_rank_label {s t : Symbol} (hr : s.rank = t.rank) (hl : s.label = t.label) :
    s = t := by
  cases s <;> cases t <;> simp_all [rank, label]

/-- Symbols are ordered by kind, those of one kind by the code points of their labels. -/
protected def lt (s t : Symbol) : Prop :=
  s.rank < t.rank ∨ s.rank = t.rank ∧ s.label < t.label

private theorem lt_trans {s t u : Symbol} (h : s.lt t) (h' : t.lt u) : s.lt u := by
  rcases h with h | ⟨h, hl⟩ <;> rcases h' with h' | ⟨h', hl'⟩
  · exact .inl (by omega)
  · exact .inl (by omega)
  · exact .inl (by omega)
  · exact .inr ⟨by omega, String.lt_trans hl hl'⟩

private theorem lt_trichotomy (s t : Symbol) : s.lt t ∨ s = t ∨ t.lt s := by
  rcases Nat.lt_trichotomy s.rank t.rank with h | h | h
  · exact .inl (.inl h)
  · rcases StrictOrder.trichotomy s.label t.label with hl | hl | hl
    · exact .inl (.inr ⟨h, hl⟩)
    · exact .inr (.inl (eq_of_rank_label h hl))
    · exact .inr (.inr (.inr ⟨h.symm, hl⟩))
  · exact .inr (.inr (.inl h))

instance : StrictOrder Symbol where
  lt := Symbol.lt
  decLT s t := inferInstanceAs (Decidable (_ ∨ _))
  irrefl s h := by
    rcases h with h | ⟨_, h⟩
    · exact Nat.lt_irrefl _ h
    · exact String.lt_irrefl _ h
  trans := lt_trans
  trichotomy := lt_trichotomy

theorem lt_def {s t : Symbol} : s < t ↔ s.rank < t.rank ∨ s.rank = t.rank ∧ s.label < t.label :=
  Iff.rfl

end Symbol

/-- Sets are shown in the order of their symbols. -/
abbrev SymbolSet := OrderedSet Symbol

end FirstFollow
