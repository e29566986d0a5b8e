import FirstFollow.Symbol

/-! What a computation records while it runs. Some events are told to the reader of a log, the
finer ones are kept for those who study the run. -/

namespace FirstFollow

/-- The two kinds of sets that are computed for a nonterminal. -/
inductive SetKind where
  | first
  | follow
  deriving DecidableEq

def SetKind.word : SetKind → String
  | first => "FIRST"
  | follow => "FOLLOW"

/-- What a set rests on: nothing unfinished, or unfinished sets whose lowest number is given. -/
inductive Low where
  | settled
  | number (n : Nat)
  deriving DecidableEq

namespace Low

protected def min : Low → Low → Low
  | settled, b => b
  | a, settled => a
  | number m, number n => number (Nat.min m n)

/-- Some unfinished set has a number under `n`. -/
def below : Low → Nat → Bool
  | settled, _ => false
  | number m, n => decide (m < n)

@[simp] theorem settled_min (a : Low) : settled.min a = a := rfl

@[simp] theorem min_settled (a : Low) : a.min settled = a := by cases a <;> rfl

@[simp] theorem number_min_number (m n : Nat) :
    (number m).min (number n) = number (Nat.min m n) := rfl

@[simp] theorem below_min (a b : Low) (n : Nat) :
    (a.min b).below n = (a.below n || b.below n) := by
  cases a with
  | settled => simp [below]
  | number i =>
    cases b with
    | settled => simp [below]
    | number j => simp only [number_min_number, below, Nat.min_def]; split <;> grind

end Low

inductive Event where
  | grammarMade (start : Symbol) (size : Nat)
  | tableBegun (size : Nat)
  | tableComplete
  /-- A set was asked for while it was unfinished. -/
  | reentered (kind : SetKind) (nonterminal : Symbol) (part : SymbolSet)
  /-- A group of sets that rest on each other is computed again until none grows. -/
  | settling (kind : SetKind) (size : Nat)
  | completed (kind : SetKind) (nonterminal : Symbol) (set : SymbolSet)
  /-- A set was begun and got its number. -/
  | entered (kind : SetKind) (nonterminal : Symbol) (number : Nat)
  /-- A member of the group that begins at number `first` was computed again. -/
  | recomputed (kind : SetKind) (first : Nat) (nonterminal : Symbol) (low : Low)
  /-- These sets were completed together. -/
  | closed (kind : SetKind) (members : List Symbol)
  deriving DecidableEq

/-- The part of the library that speaks in a log. -/
inductive Speaker where
  | grammar
  | sets
  deriving DecidableEq

inductive Argument where
  | word (s : String)
  | number (n : Nat)
  | symbol (s : Symbol)
  | set (s : SymbolSet)
  deriving DecidableEq

/-- A line of a log, its text not yet filled in. -/
structure LogLine where
  speaker : Speaker
  template : String
  arguments : List Argument
  deriving DecidableEq

namespace Event

def logLine? : Event → Option LogLine
  | grammarMade start size =>
    some ⟨.grammar, "grammar with start %s and %d nonterminals", [.symbol start, .number size]⟩
  | tableBegun size =>
    some ⟨.sets, "building FIRST/FOLLOW table for %d nonterminals", [.number size]⟩
  | tableComplete => some ⟨.sets, "FIRST/FOLLOW table complete", []⟩
  | reentered kind n part =>
    some ⟨.sets, "%s(%s) re-entered, using partial %s", [.word kind.word, .symbol n, .set part]⟩
  | settling kind size =>
    some ⟨.sets, "%s settling group of %d", [.word kind.word, .number size]⟩
  | completed kind n set =>
    some ⟨.sets, "%s(%s) = %s", [.word kind.word, .symbol n, .set set]⟩
  | entered .. | recomputed .. | closed .. => none

end Event

/-- The lines that a log shows of some events. -/
def logLines (events : List Event) : List LogLine := events.filterMap Event.logLine?

/-- The events so far. -/
structure Trace where
  newestFirst : List Event
  deriving DecidableEq

namespace Trace

instance : EmptyCollection Trace := ⟨⟨[]⟩⟩

def events (t : Trace) : List Event := t.newestFirst.reverse

def push (t : Trace) (e : Event) : Trace := ⟨e :: t.newestFirst⟩

@[simp] theorem events_empty : (∅ : Trace).events = [] := rfl

@[simp] theorem events_push (t : Trace) (e : Event) : (t.push e).events = t.events ++ [e] :=
  List.reverse_cons

end Trace

end FirstFollow
