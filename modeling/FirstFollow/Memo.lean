import FirstFollow.Event
import FirstFollow.Keyed

/-! The sets of one kind that are computed so far. A nonterminal is numbered when its set is
begun. Begun sets are unfinished until their whole group is closed; the unfinished nonterminals
stand on a stack, in the order in which they were begun. -/

namespace FirstFollow

/-- A set under computation. -/
structure Unfinished where
  number : Nat
  part : SymbolSet
  deriving DecidableEq

structure Memo where
  kind : SetKind
  done : Keyed Symbol SymbolSet
  unfinished : Keyed Symbol Unfinished
  /-- The stack, its bottom first. -/
  group : List Symbol
  count : Nat
  deriving DecidableEq

namespace Memo

def fresh (kind : SetKind) : Memo := ⟨kind, ∅, ∅, [], 0⟩

/-- Begins the set of `n` under the next number. -/
def start (m : Memo) (n : Symbol) : Memo :=
  { m with
    unfinished := m.unfinished.set n ⟨m.count, ∅⟩
    group := m.group ++ [n]
    count := m.count + 1 }

def part? (m : Memo) (n : Symbol) : Option SymbolSet := (m.unfinished.get? n).map Unfinished.part

/-- Adds symbols to an unfinished set. -/
def grow (m : Memo) (n : Symbol) (more : SymbolSet) : Memo :=
  match m.unfinished.get? n with
  | none => m
  | some u => { m with unfinished := m.unfinished.set n ⟨u.number, u.part ∪ more⟩ }

/-- Completes the set of `n` as it is. -/
def complete (m : Memo) (n : Symbol) (set : SymbolSet) : Memo :=
  { m with unfinished := m.unfinished.erase n, done := m.done.set n set }

/-- The completed sets in the order of their symbols. -/
def doneInOrder (m : Memo) : List (Symbol × SymbolSet) :=
  (OrderedSet.ofList m.done.keys).toList.filterMap fun n => (m.done.get? n).map (n, ·)

end Memo

end FirstFollow
